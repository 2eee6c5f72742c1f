/-
# Ranks

Keys that are numbered without gaps, in rounds, and a cursor that stands at the least rank still
pending.
-/
import Mathlib.Data.List.Perm.Basic
import Mathlib.Data.List.Range
import Mathlib.Data.List.Nodup
import Mathlib.Order.Bounds.Basic

namespace RepoMesh
namespace Ranks

universe u

/-! ## Numbering -/

section Numbering

variable {α : Type u}

/-- The keys are distinct, and their ranks are the numbers below their count, each once. -/
structure Ranked (order : List (α × ℕ)) : Prop where
  keys_nodup : (order.map (·.1)).Nodup
  ranks : (order.map (·.2)).Perm (List.range order.length)

theorem ranked_nil : Ranked ([] : List (α × ℕ)) := ⟨List.nodup_nil, List.Perm.refl _⟩

variable {order : List (α × ℕ)}

theorem Ranked.lt_length (h : Ranked order) {o : α × ℕ} (ho : o ∈ order) : o.2 < order.length := by
  have hmem : o.2 ∈ List.range order.length := h.ranks.mem_iff.mp (List.mem_map.mpr ⟨o, ho, rfl⟩)
  exact List.mem_range.mp hmem

/-- **One round.** New keys are given the next ranks. -/
theorem Ranked.extend (h : Ranked order) {ready : List α} (hready : ready.Nodup)
    (hnew : ∀ k ∈ ready, k ∉ order.map (·.1)) :
    Ranked (order ++ ready.zipIdx order.length) := by
  constructor
  · rw [List.map_append, List.zipIdx_map_fst, List.nodup_append]
    refine ⟨h.keys_nodup, hready, ?_⟩
    rintro a ha b hb rfl
    exact hnew a hb ha
  · have hlength : (order ++ ready.zipIdx order.length).length = order.length + ready.length := by
      simp
    rw [List.map_append, List.zipIdx_map_snd, hlength, List.range_eq_range',
      ← List.range'_append_1, Nat.zero_add, ← List.range_eq_range']
    exact h.ranks.append_right _

variable [DecidableEq α]

/-- `order[k]`, with 0 for a key that is not numbered. -/
def rankOf (order : List (α × ℕ)) (k : α) : ℕ := ((order.find? fun o => o.1 == k).map (·.2)).getD 0

theorem Ranked.rankOf_eq (h : Ranked order) {k : α} {n : ℕ} (hk : (k, n) ∈ order) :
    rankOf order k = n := by
  obtain ⟨o, ho⟩ := Option.isSome_iff_exists.mp
    (List.find?_isSome.mpr ⟨(k, n), hk, by simp⟩ : (order.find? fun o => o.1 == k).isSome)
  have hkey : o.1 = k := by simpa using List.find?_some ho
  have hsame : o = (k, n) := List.inj_on_of_nodup_map h.keys_nodup (List.mem_of_find?_eq_some ho) hk
    hkey
  rw [rankOf, ho, hsame]
  rfl

theorem Ranked.map_rankOf (h : Ranked order) {keys : List α}
    (hkeys : keys.Perm (order.map (·.1))) :
    (keys.map (rankOf order)).Perm (List.range keys.length) := by
  have hlookup : (order.map (·.1)).map (rankOf order) = order.map (·.2) := by
    rw [List.map_map]
    refine List.map_congr_left fun o ho => ?_
    exact h.rankOf_eq ho
  have hlength : keys.length = order.length := by
    rw [hkeys.length_eq, List.length_map]
  rw [hlength]
  refine (hkeys.map (rankOf order)).trans ?_
  rw [hlookup]
  exact h.ranks

end Numbering

/-! ## The cursor -/

section Cursor

variable {β : Type u} (rank : β → ℕ) (done : β → Prop) (rows : List β)

/-- The cursor stands at the least rank of a row that is not done, or after the last row. -/
def IsCursor (cursor : ℕ) : Prop :=
  IsLeast {k | ∃ x ∈ rows, ¬ done x ∧ rank x = k} cursor ∨
    ((∀ x ∈ rows, done x) ∧ cursor = rows.length)

variable {rank done rows} {cursor : ℕ}

theorem isCursor_min [DecidablePred done] :
    IsCursor rank done rows
      (((rows.filter fun x => ¬ done x).map rank).min?.getD rows.length) := by
  have hmem : ∀ k, k ∈ (rows.filter fun x => ¬ done x).map rank ↔
      ∃ x ∈ rows, ¬ done x ∧ rank x = k := by
    intro k
    simp only [List.mem_map, List.mem_filter, decide_eq_true_eq, and_assoc]
  cases hmin : ((rows.filter fun x => ¬ done x).map rank).min? with
  | none =>
    refine Or.inr ⟨fun x hx => ?_, rfl⟩
    by_contra hpending
    have hrank := (hmem (rank x)).mpr ⟨x, hx, hpending, rfl⟩
    rw [List.min?_eq_none_iff.mp hmin] at hrank
    cases hrank
  | some k =>
    obtain ⟨hk, hleast⟩ := List.min?_eq_some_iff.mp hmin
    exact Or.inl ⟨(hmem k).mp hk, fun j hj => hleast j ((hmem j).mpr hj)⟩

theorem IsCursor.done_of_lt (h : IsCursor rank done rows cursor) {x : β} (hx : x ∈ rows)
    (hlt : rank x < cursor) : done x := by
  rcases h with ⟨-, hleast⟩ | ⟨hall, -⟩
  · by_contra hpending
    have hle : cursor ≤ rank x := hleast ⟨x, hx, hpending, rfl⟩
    omega
  · exact hall x hx

theorem IsCursor.rank_eq (h : IsCursor rank done rows cursor) {x : β} (hx : x ∈ rows)
    (hpending : ¬ done x) (hle : rank x ≤ cursor) : rank x = cursor := by
  have hnot : ¬ rank x < cursor := fun hlt => hpending (h.done_of_lt hx hlt)
  omega

end Cursor

end Ranks
end RepoMesh
