/-
# The latest of each key

A log of entries under keys, and the table that keeps the latest entry of each key by dropping the
old one and appending the new one. The table holds what the log says last, in the order of the last
entries.
-/
import Mathlib.Data.List.Induction
import Mathlib.Data.List.Nodup

namespace RepoMesh
namespace Latest

universe u v

variable {α : Type u} {κ : Type v} [DecidableEq κ] (key : α → κ)

/-- The latest entry under a key. -/
def latest (log : List α) (k : κ) : Option α := log.reverse.find? fun x => key x == k

/-- Replace the entry under the key of `x` by `x`, at the end. -/
def put (entries : List α) (x : α) : List α := entries.filter (fun y => key y ≠ key x) ++ [x]

/-- The table of a log. -/
def table (log : List α) : List α := log.foldl (put key) []

variable {key} {log : List α} {k : κ} {x : α}

@[simp] theorem table_nil : table key ([] : List α) = [] := rfl

@[simp] theorem table_snoc : table key (log ++ [x]) = put key (table key log) x := by
  rw [table, List.foldl_append]
  rfl

@[simp] theorem latest_snoc :
    latest key (log ++ [x]) k = if key x = k then some x else latest key log k := by
  rw [latest, List.reverse_append, List.reverse_singleton, List.singleton_append, List.find?_cons]
  by_cases h : key x = k
  · simp [h]
  · have hbeq : (key x == k) = false := by simpa using h
    rw [hbeq, if_neg h]
    rfl

theorem latest_append (log later : List α) (k : κ) :
    latest key (log ++ later) k = (latest key later k).or (latest key log k) := by
  rw [latest, List.reverse_append, List.find?_append]
  rfl

@[simp] theorem latest_nil : latest key ([] : List α) k = none := rfl

theorem mem_of_latest (h : latest key log k = some x) : x ∈ log ∧ key x = k :=
  ⟨List.mem_reverse.mp (List.mem_of_find?_eq_some h), by simpa using List.find?_some h⟩

theorem latest_eq_none : latest key log k = none ↔ ∀ x ∈ log, key x ≠ k := by
  simp [latest]

variable (key log k) in
theorem latest_map {β : Type*} (key' : β → κ) (f : α → β) (h : ∀ x, key' (f x) = key x) :
    latest key' (log.map f) k = (latest key log k).map f := by
  rw [latest, latest, ← List.map_reverse, List.find?_map]
  simp only [Function.comp_def, h]

/-- **The table holds what is latest.** -/
theorem mem_table : x ∈ table key log ↔ latest key log (key x) = some x := by
  induction log using List.reverseRecOn with
  | nil => simp
  | append_singleton log y ih =>
    rw [table_snoc, put, latest_snoc, List.mem_append, List.mem_filter, List.mem_singleton, ih]
    by_cases h : key y = key x
    · simp [h, eq_comm]
    · have hne : x ≠ y := fun hxy => h (by rw [hxy])
      simp [h, hne, Ne.symm h]

theorem latest_table : latest key (table key log) k = latest key log k := by
  cases h : latest key log k with
  | none =>
    refine latest_eq_none.mpr fun y hy hk => ?_
    rw [mem_table, hk, h] at hy
    cases hy
  | some y =>
    have hmem : y ∈ table key log := by
      rw [mem_table, (mem_of_latest h).2]
      exact h
    cases h' : latest key (table key log) k with
    | none => exact absurd (mem_of_latest h).2 (latest_eq_none.mp h' y hmem)
    | some z =>
      obtain ⟨hz, hk⟩ := mem_of_latest h'
      rw [mem_table, hk, h] at hz
      exact hz.symm

variable (key) in
theorem getLast?_table : (table key log).getLast? = log.getLast? := by
  induction log using List.reverseRecOn with
  | nil => rfl
  | append_singleton log y _ => simp [put]

variable (key) in
theorem table_eq_nil : table key log = [] ↔ log = [] := by
  rw [← List.getLast?_eq_none_iff, getLast?_table, List.getLast?_eq_none_iff]

end Latest
end RepoMesh
