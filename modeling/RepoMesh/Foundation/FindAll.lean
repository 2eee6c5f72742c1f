/-
# All matches of a fixed-width pattern

Scanning a text from the left for the matches of a pattern of one width, each scan going on after
the last match. Where two matches cannot overlap, the scan finds all of them.
-/
import Mathlib.Data.List.Basic

namespace RepoMesh
namespace FindAll

universe u v

variable {α : Type u} {μ : Type v} (hit : List α → Option μ) (width : ℕ)

/-- The matches, each with what follows it; the first elements may have to be skipped, because they
belong to a match. -/
def scanFrom : ℕ → List α → List (μ × List α)
  | _, [] => []
  | skip + 1, _ :: cs => scanFrom skip cs
  | 0, c :: cs =>
    match hit (c :: cs) with
    | some m => (m, (c :: cs).drop width) :: scanFrom (width - 1) cs
    | none => scanFrom 0 cs

/-- `pattern.finditer(text)`. -/
def findAll (cs : List α) : List (μ × List α) := scanFrom hit width 0 cs

/-- Some match begins at the beginning of a part of the text. -/
def Occurs (cs : List α) (m : μ) (tail : List α) : Prop :=
  ∃ before rest, cs = before ++ rest ∧ hit rest = some m ∧ tail = rest.drop width

variable {hit width}

/-- **The scan.** It finds what begins after the elements to be skipped. -/
theorem mem_scanFrom (hempty : hit [] = none)
    (hapart : ∀ cs m, hit cs = some m → ∀ k, 0 < k → k < width → hit (cs.drop k) = none)
    {cs : List α} {skip : ℕ} (hskip : ∀ k < skip, hit (cs.drop k) = none) {m : μ} {tail : List α} :
    (m, tail) ∈ scanFrom hit width skip cs ↔
      ∃ k, hit (cs.drop k) = some m ∧ tail = (cs.drop k).drop width := by
  induction cs generalizing skip with
  | nil => simp [scanFrom, hempty]
  | cons c cs ih =>
    -- A match of the list begins at its head or in its rest.
    have hcons : (∃ k, hit ((c :: cs).drop k) = some m ∧ tail = ((c :: cs).drop k).drop width) ↔
        (hit (c :: cs) = some m ∧ tail = (c :: cs).drop width) ∨
          ∃ k, hit (cs.drop k) = some m ∧ tail = (cs.drop k).drop width := by
      constructor
      · rintro ⟨k, hk⟩
        cases k with
        | zero => exact .inl hk
        | succ k => exact .inr ⟨k, hk⟩
      · rintro (h | ⟨k, hk⟩)
        · exact ⟨0, h⟩
        · exact ⟨k + 1, hk⟩
    cases skip with
    | succ skip =>
      have hhead : hit (c :: cs) = none := hskip 0 (by omega)
      rw [scanFrom, hcons, hhead, ih fun k hk => hskip (k + 1) (by omega)]
      simp
    | zero =>
      cases hhead : hit (c :: cs) with
      | none =>
        rw [scanFrom, hhead, hcons, hhead]
        simpa using ih (by omega)
      | some m' =>
        have hrest : ∀ k < width - 1, hit (cs.drop k) = none := fun k hk =>
          hapart _ _ hhead (k + 1) (by omega) (by omega)
        rw [scanFrom, hhead, hcons, hhead, List.mem_cons, ih hrest, Prod.mk.injEq, Option.some.injEq]
        simp only [eq_comm]

/-- **All matches.** Where matches do not overlap, `findAll` finds every occurrence. -/
theorem mem_findAll (hempty : hit [] = none)
    (hapart : ∀ cs m, hit cs = some m → ∀ k, 0 < k → k < width → hit (cs.drop k) = none)
    {cs : List α} {m : μ} {tail : List α} :
    (m, tail) ∈ findAll hit width cs ↔ Occurs hit width cs m tail := by
  rw [findAll, mem_scanFrom hempty hapart (by omega)]
  constructor
  · rintro ⟨k, hk, htail⟩
    exact ⟨cs.take k, cs.drop k, (List.take_append_drop k cs).symm, hk, htail⟩
  · rintro ⟨before, rest, rfl, hrest, htail⟩
    refine ⟨before.length, ?_⟩
    rw [List.drop_left]
    exact ⟨hrest, htail⟩

end FindAll
end RepoMesh
