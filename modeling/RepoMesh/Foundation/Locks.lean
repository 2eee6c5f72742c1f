/-
# Locks

A table of locks, each with its holder, beside what every holder has taken: one thing at a time, until it
lets go of it.
-/
import Mathlib.Logic.Function.Basic

namespace RepoMesh
namespace Locks

universe u v

variable {κ : Type u} {ι : Type v}

/-- The table and the holders agree: `i` is the holder of what it has taken, and of nothing else. -/
def Agree (lock : κ → Option ι) (held : ι → Option κ) : Prop := ∀ k i, lock k = some i ↔ held i = some k

/-- Somebody other than `i` holds the lock. -/
def heldByOther [DecidableEq ι] (holder : Option ι) (i : ι) : Bool := holder.any (· != i)

/-- What `i` holds is free again. -/
def released [DecidableEq ι] (lock : κ → Option ι) (i : ι) : κ → Option ι :=
  fun k => if lock k = some i then none else lock k

variable {lock : κ → Option ι} {held : ι → Option κ} {i j : ι} {k : κ}

theorem Agree.unique (h : Agree lock held) (hi : held i = some k) (hj : held j = some k) : i = j :=
  Option.some.inj (((h k i).mpr hi).symm.trans ((h k j).mpr hj))

variable [DecidableEq ι]

theorem heldByOther_eq_false : heldByOther (lock k) i = false ↔ ∀ j, lock k = some j → j = i := by
  cases hlock : lock k with
  | none => simp [heldByOther]
  | some holder =>
    constructor
    · rintro hother j hj
      obtain rfl := Option.some.inj hj
      simpa [heldByOther] using hother
    · intro hall
      obtain rfl := hall holder rfl
      simp [heldByOther]

/-- **A lock is taken** by one that holds none, when no other has it. -/
theorem Agree.taken [DecidableEq κ] (h : Agree lock held) (hnone : held i = none)
    (hfree : heldByOther (lock k) i = false) :
    Agree (Function.update lock k (some i)) (Function.update held i (some k)) := by
  have hself : ∀ k', lock k' ≠ some i := by
    intro k' hlock
    rw [h, hnone] at hlock
    cases hlock
  have hunlocked : ∀ j, lock k ≠ some j := by
    intro j hlock
    obtain rfl := heldByOther_eq_false.mp hfree j hlock
    exact hself k hlock
  intro k' j
  by_cases hj : j = i
  · subst hj
    rw [Function.update_self]
    by_cases hk : k' = k
    · rw [hk, Function.update_self]
      exact ⟨fun _ => rfl, fun _ => rfl⟩
    · rw [Function.update_of_ne hk]
      refine ⟨fun hlock => absurd hlock (hself k'), fun hheld => ?_⟩
      exact absurd (Option.some.inj hheld).symm hk
  · rw [Function.update_of_ne hj]
    by_cases hk : k' = k
    · rw [hk, Function.update_self]
      refine ⟨fun hlock => absurd (Option.some.inj hlock).symm hj, fun hheld => ?_⟩
      exact absurd ((h k j).mpr hheld) (hunlocked j)
    · rw [Function.update_of_ne hk]
      exact h k' j

/-- **A lock is let go.** -/
theorem Agree.released (h : Agree lock held) (i : ι) :
    Agree (released lock i) (Function.update held i none) := by
  intro k j
  unfold Locks.released
  by_cases hlock : lock k = some i
  · rw [if_pos hlock]
    refine ⟨fun h' => (by cases h'), fun hheld => ?_⟩
    by_cases hj : j = i
    · rw [hj, Function.update_self] at hheld
      cases hheld
    · rw [Function.update_of_ne hj] at hheld
      exact absurd (h.unique hheld ((h k i).mp hlock)) hj
  · rw [if_neg hlock]
    by_cases hj : j = i
    · rw [hj, Function.update_self]
      exact ⟨fun h' => absurd h' hlock, fun h' => (by cases h')⟩
    · rw [Function.update_of_ne hj]
      exact h k j

end Locks
end RepoMesh
