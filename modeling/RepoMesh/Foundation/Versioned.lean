/-
# Versioned rows

A store whose rows carry a version that every write raises. A row that was read is still current
when its version is; so a compare-and-set that succeeds writes over what was read.
-/
import Mathlib.Data.Nat.Basic

namespace RepoMesh
namespace Versioned

universe u v w

variable {σ : Type u} {κ : Type v} {ρ : Type w}

/-- What may become of a row: it stays, or it is written with a larger version. -/
structure Keeps (version : ρ → ℕ) (K : ρ → ρ → Prop) : Prop where
  refl : ∀ r, K r r
  trans : ∀ a b c, K a b → K b c → K a c
  version : ∀ r r', K r r' → r' = r ∨ version r < version r'

/-- Every row of `a` is in `b`, as `K` allows. -/
def Kept (get : σ → κ → Option ρ) (K : ρ → ρ → Prop) (a b : σ) : Prop :=
  ∀ k r, get a k = some r → ∃ r', get b k = some r' ∧ K r r'

/-- The row was stored, and what is stored now is what became of it. -/
def Seen (get : σ → κ → Option ρ) (K : ρ → ρ → Prop) (s : σ) (k : κ) (r : ρ) : Prop :=
  ∃ r', get s k = some r' ∧ K r r'

variable {get : σ → κ → Option ρ} {version : ρ → ℕ} {K : ρ → ρ → Prop} {a b c : σ} {k : κ} {r : ρ}

theorem keeps_version (version : ρ → ℕ) :
    Keeps version fun r r' => r' = r ∨ version r < version r' where
  refl := fun _ => .inl rfl
  trans := by
    rintro a b c (rfl | hab) (rfl | hbc)
    · exact .inl rfl
    · exact .inr hbc
    · exact .inr hab
    · exact .inr (by omega)
  version := fun _ _ h => h

theorem Kept.refl (hK : Keeps version K) (a : σ) : Kept get K a a :=
  fun _ r hr => ⟨r, hr, hK.refl r⟩

theorem Kept.trans (hK : Keeps version K) (hab : Kept get K a b) (hbc : Kept get K b c) :
    Kept get K a c := by
  intro k r hr
  obtain ⟨r', hr', hkept⟩ := hab k r hr
  obtain ⟨r'', hr'', hkept'⟩ := hbc k r' hr'
  exact ⟨r'', hr'', hK.trans _ _ _ hkept hkept'⟩

theorem seen_of_get (hK : Keeps version K) (h : get a k = some r) : Seen get K a k r :=
  ⟨r, h, hK.refl r⟩

theorem Seen.kept (hK : Keeps version K) (h : Seen get K a k r) (hab : Kept get K a b) :
    Seen get K b k r := by
  obtain ⟨r', hget, hr'⟩ := h
  obtain ⟨r'', hget', hr''⟩ := hab k r' hget
  exact ⟨r'', hget', hK.trans _ _ _ hr' hr''⟩

/-- **Compare-and-set.** A row that was seen and whose version is still current is current. -/
theorem Seen.current (hK : Keeps version K) (h : Seen get K a k r) {current : ρ}
    (hget : get a k = some current) (hversion : version current = version r) : current = r := by
  obtain ⟨r', hget', hr'⟩ := h
  obtain rfl := Option.some.inj (hget.symm.trans hget')
  rcases hK.version _ _ hr' with heq | hlt
  · exact heq
  · omega

end Versioned
end RepoMesh
