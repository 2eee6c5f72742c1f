/-
# Levels

A sort by levels: each batch holds the keys whose dependencies stand in the batches before it, and
the keys that can never be freed share the last batch. The keys on no cycle, nor downstream of one,
stand in the earliest batch their dependencies permit.
-/
import Mathlib.Data.Fintype.Pigeonhole
import Mathlib.Data.List.Nodup
import Mathlib.Logic.Relation
import Mathlib.Order.Bounds.Basic

namespace RepoMesh
namespace Levels

universe u

/-! ## Cycles -/

section Cycles

variable {α : Type u} {dep : α → α → Prop}

/-- The key lies on a cycle, or downstream of one. -/
def Stuck (dep : α → α → Prop) (r : α) : Prop :=
  ∃ c, Relation.TransGen dep c c ∧ Relation.ReflTransGen dep c r

theorem Stuck.tail {p r : α} (h : Stuck dep p) (hdep : dep p r) : Stuck dep r := by
  obtain ⟨c, hcycle, hreach⟩ := h
  exact ⟨c, hcycle, hreach.tail hdep⟩

theorem Stuck.exists_dep {r : α} (h : Stuck dep r) : ∃ p, dep p r ∧ Stuck dep p := by
  obtain ⟨c, hcycle, hreach⟩ := h
  rcases hreach.cases_tail with rfl | ⟨p, hp, hdep⟩
  · obtain ⟨p, hp, hdep⟩ := Relation.TransGen.tail'_iff.mp hcycle
    exact ⟨p, hdep, r, hcycle, hp⟩
  · exact ⟨p, hdep, c, hcycle, hp⟩

/-- **A cycle behind every key.** Where each of finitely many keys depends on another of them, each
is stuck. -/
theorem stuck_of_forall_exists (keys : List α) (h : ∀ r ∈ keys, ∃ p ∈ keys, dep p r) {r : α}
    (hr : r ∈ keys) : Stuck dep r := by
  classical
  choose! pred hmem hdep using h
  -- Walk back from `r`: among finitely many keys one is met twice.
  have hwalk : ∀ n, pred^[n] r ∈ keys := by
    intro n
    induction n with
    | zero => exact hr
    | succ n ih =>
      rw [Function.iterate_succ_apply']
      exact hmem _ ih
  have hback : ∀ m n, Relation.ReflTransGen dep (pred^[m + n] r) (pred^[m] r) := by
    intro m n
    induction n with
    | zero => exact Relation.ReflTransGen.refl
    | succ n ih =>
      refine Relation.ReflTransGen.head ?_ ih
      rw [← Nat.add_assoc, Function.iterate_succ_apply']
      exact hdep _ (hwalk _)
  obtain ⟨m, n, hne, heq⟩ := Finite.exists_ne_map_eq_of_infinite
    fun n : ℕ => (⟨pred^[n] r, List.mem_toFinset.mpr (hwalk n)⟩ : keys.toFinset)
  have hsame : pred^[m] r = pred^[n] r := congrArg Subtype.val heq
  wlog hlt : m < n generalizing m n
  · exact this n m (Ne.symm hne) heq.symm hsame.symm (by omega)
  obtain ⟨d, rfl⟩ := Nat.exists_eq_add_of_lt hlt
  refine ⟨pred^[m] r, ?_, by simpa using hback 0 m⟩
  have hcycle : Relation.TransGen dep (pred^[m + d + 1] r) (pred^[m] r) := by
    refine Relation.TransGen.head' ?_ (hback m d)
    rw [Function.iterate_succ_apply']
    exact hdep _ (hwalk _)
  rwa [← hsame] at hcycle

end Cycles

/-! ## The sort -/

section Rounds

variable {α : Type u}

/-- A key stands in the batch of an index. -/
def InBatch (batches : List (List α)) (i : ℕ) (k : α) : Prop :=
  ∃ batch, batches[i]? = some batch ∧ k ∈ batch

variable {batches : List (List α)} {batch : List α} {i : ℕ} {k : α}

@[simp] theorem not_inBatch_nil : ¬ InBatch ([] : List (List α)) i k := by
  rintro ⟨batch, h, -⟩
  simp at h

@[simp] theorem inBatch_cons_zero : InBatch (batch :: batches) 0 k ↔ k ∈ batch := by
  simp [InBatch]

@[simp] theorem inBatch_cons_succ :
    InBatch (batch :: batches) (i + 1) k ↔ InBatch batches i k := by
  simp [InBatch]

theorem exists_inBatch : (∃ i, InBatch batches i k) ↔ k ∈ batches.flatten := by
  induction batches with
  | nil => simp
  | cons batch batches ih =>
    rw [List.flatten_cons, List.mem_append, ← ih]
    constructor
    · rintro ⟨i, hi⟩
      cases i with
      | zero => exact Or.inl (inBatch_cons_zero.mp hi)
      | succ i => exact Or.inr ⟨i, inBatch_cons_succ.mp hi⟩
    · rintro (h | ⟨i, hi⟩)
      · exact ⟨0, inBatch_cons_zero.mpr h⟩
      · exact ⟨i + 1, inBatch_cons_succ.mpr hi⟩

theorem InBatch.unique (hnodup : batches.flatten.Nodup) {j : ℕ} (hi : InBatch batches i k)
    (hj : InBatch batches j k) : i = j := by
  induction batches generalizing i j with
  | nil => exact absurd hi not_inBatch_nil
  | cons batch batches ih =>
    rw [List.flatten_cons, List.nodup_append] at hnodup
    obtain ⟨-, hrest, hdisjoint⟩ := hnodup
    cases i with
    | zero =>
      cases j with
      | zero => rfl
      | succ j =>
        have hlater := exists_inBatch.mp ⟨j, inBatch_cons_succ.mp hj⟩
        exact absurd rfl (hdisjoint k (inBatch_cons_zero.mp hi) k hlater)
    | succ i =>
      cases j with
      | zero =>
        have hlater := exists_inBatch.mp ⟨i, inBatch_cons_succ.mp hi⟩
        exact absurd rfl (hdisjoint k (inBatch_cons_zero.mp hj) k hlater)
      | succ j => rw [ih hrest (inBatch_cons_succ.mp hi) (inBatch_cons_succ.mp hj)]

variable [DecidableEq α]

/-- The keys whose dependencies are placed. -/
def ready (deps : α → List α) (placed remaining : List α) : List α :=
  remaining.filter fun r => (deps r).all (· ∈ placed)

/-- The keys that are left after a batch. -/
def without (batch remaining : List α) : List α := remaining.filter (· ∉ batch)

/-- The batches of the keys that remain, in at most so many rounds. -/
def levels (deps : α → List α) : ℕ → List α → List α → List (List α)
  | 0, _, _ => []
  | rounds + 1, placed, remaining =>
    if remaining = [] then []
    else
      let now := ready deps placed remaining
      if now = [] then [remaining]
      else now :: levels deps rounds (placed ++ now) (without now remaining)

variable {deps deps' : α → List α} {placed remaining : List α} {r p : α} {rounds : ℕ}

theorem mem_ready : r ∈ ready deps placed remaining ↔ r ∈ remaining ∧ ∀ p ∈ deps r, p ∈ placed := by
  simp [ready]

theorem mem_without {batch : List α} : r ∈ without batch remaining ↔ r ∈ remaining ∧ r ∉ batch := by
  simp [without]

theorem length_without (h : ready deps placed remaining ≠ []) :
    (without (ready deps placed remaining) remaining).length < remaining.length := by
  obtain ⟨r, hr⟩ := List.exists_mem_of_ne_nil _ h
  refine List.length_filter_lt_length_iff_exists.mpr ⟨r, (mem_ready.mp hr).1, ?_⟩
  simpa using hr

@[simp] theorem levels_nil : levels deps rounds placed [] = [] := by
  cases rounds with
  | zero => rfl
  | succ rounds => rfl

theorem levels_blocked (hne : remaining ≠ []) (h : ready deps placed remaining = []) :
    levels deps (rounds + 1) placed remaining = [remaining] := by
  simp [levels, hne, h]

theorem levels_ready (h : ready deps placed remaining ≠ []) :
    levels deps (rounds + 1) placed remaining =
      ready deps placed remaining :: levels deps rounds (placed ++ ready deps placed remaining)
        (without (ready deps placed remaining) remaining) := by
  have hne : remaining ≠ [] := by
    rintro rfl
    exact h rfl
  simp [levels, hne, h]

/-- **Induction over the rounds** of a sort that has enough of them. -/
theorem levels_induction (deps : α → List α)
    {motive : ℕ → List α → List α → List (List α) → Prop}
    (done : ∀ rounds placed, motive rounds placed [] [])
    (blocked : ∀ rounds placed remaining, remaining ≠ [] → ready deps placed remaining = [] →
      motive (rounds + 1) placed remaining [remaining])
    (next : ∀ rounds placed remaining batches, ready deps placed remaining ≠ [] →
      motive rounds (placed ++ ready deps placed remaining)
        (without (ready deps placed remaining) remaining) batches →
      motive (rounds + 1) placed remaining (ready deps placed remaining :: batches)) :
    ∀ rounds placed remaining, remaining.length ≤ rounds →
      motive rounds placed remaining (levels deps rounds placed remaining) := by
  intro rounds
  induction rounds with
  | zero =>
    intro placed remaining hlength
    obtain rfl := List.length_eq_zero_iff.mp (Nat.le_zero.mp hlength)
    exact done 0 placed
  | succ rounds ih =>
    intro placed remaining hlength
    by_cases hne : remaining = []
    · subst hne
      rw [levels_nil]
      exact done _ _
    · by_cases hready : ready deps placed remaining = []
      · rw [levels_blocked hne hready]
        exact blocked _ _ _ hne hready
      · rw [levels_ready hready]
        have hless := length_without hready
        exact next _ _ _ _ hready (ih _ _ (by omega))

theorem levels_congr (h : ∀ r ∈ remaining, ∀ p, p ∈ deps r ↔ p ∈ deps' r) :
    levels deps rounds placed remaining = levels deps' rounds placed remaining := by
  induction rounds generalizing placed remaining with
  | zero => rfl
  | succ rounds ih =>
    have hready : ready deps placed remaining = ready deps' placed remaining := by
      refine List.filter_congr fun r hr => ?_
      rw [Bool.eq_iff_iff, List.all_eq_true, List.all_eq_true]
      exact forall_congr' fun p => by rw [h r hr]
    simp only [levels, hready]
    rw [ih fun r hr => h r (mem_without.mp hr).1]

theorem levels_free (h : ∀ r ∈ remaining, deps r = []) :
    (levels deps rounds placed remaining).tail = [] := by
  have hready : ready deps placed remaining = remaining :=
    List.filter_eq_self.mpr fun r hr => by simp [h r hr]
  have hrest : without remaining remaining = [] :=
    List.filter_eq_nil_iff.mpr fun r hr => by simpa using hr
  cases rounds with
  | zero => rfl
  | succ rounds =>
    by_cases hne : remaining = []
    · subst hne
      rfl
    · rw [levels_ready (by rwa [hready]), hready, hrest, levels_nil]
      rfl

/-- **A partition.** Each key that remains stands in a batch, once, and no batch is empty. -/
theorem levels_partition (hnodup : remaining.Nodup) (hrounds : remaining.length ≤ rounds) :
    (levels deps rounds placed remaining).flatten.Nodup ∧
      (∀ r, r ∈ (levels deps rounds placed remaining).flatten ↔ r ∈ remaining) ∧
      [] ∉ levels deps rounds placed remaining := by
  refine levels_induction deps
    (motive := fun _ _ remaining batches => remaining.Nodup →
      batches.flatten.Nodup ∧ (∀ r, r ∈ batches.flatten ↔ r ∈ remaining) ∧ [] ∉ batches)
    ?_ ?_ ?_ rounds placed remaining hrounds hnodup
  · intro _ _ _
    simp
  · intro _ _ remaining hne _ hnodup
    simpa [hnodup] using Ne.symm hne
  · intro _ placed remaining batches hready ih hnodup
    obtain ⟨hrest, hmem, hnil⟩ := ih (hnodup.filter _)
    refine ⟨?_, fun r => ?_, ?_⟩
    · rw [List.flatten_cons, List.nodup_append]
      refine ⟨hnodup.filter _, hrest, ?_⟩
      rintro a ha b hb rfl
      exact (mem_without.mp ((hmem a).mp hb)).2 ha
    · rw [List.flatten_cons, List.mem_append, hmem, mem_without]
      by_cases hr : r ∈ ready deps placed remaining
      · exact iff_of_true (Or.inl hr) (mem_ready.mp hr).1
      · simp [hr]
    · rw [List.mem_cons, not_or]
      exact ⟨Ne.symm hready, hnil⟩

theorem stuck_of_blocked (hblocked : ready deps placed remaining = [])
    (hclosed : ∀ r ∈ remaining, ∀ p ∈ deps r, p ∈ placed ∨ p ∈ remaining) (hr : r ∈ remaining) :
    Stuck (fun p r => p ∈ deps r) r := by
  refine stuck_of_forall_exists remaining (fun q hq => ?_) hr
  have hnot : ¬ ∀ p ∈ deps q, p ∈ placed := by
    intro hall
    have hready : q ∈ ready deps placed remaining := mem_ready.mpr ⟨hq, hall⟩
    rw [hblocked] at hready
    simp at hready
  push Not at hnot
  obtain ⟨p, hp, hunplaced⟩ := hnot
  exact ⟨p, (hclosed q hq p hp).resolve_left hunplaced, hp⟩

theorem not_stuck_of_ready (hplaced : ∀ p ∈ placed, ¬ Stuck (fun p r => p ∈ deps r) p)
    (hr : r ∈ ready deps placed remaining) : ¬ Stuck (fun p r => p ∈ deps r) r := by
  intro hstuck
  obtain ⟨p, hp, hbefore⟩ := hstuck.exists_dep
  exact hplaced p ((mem_ready.mp hr).2 p hp) hbefore

theorem closed_without (hclosed : ∀ r ∈ remaining, ∀ p ∈ deps r, p ∈ placed ∨ p ∈ remaining) :
    ∀ r ∈ without (ready deps placed remaining) remaining, ∀ p ∈ deps r,
      p ∈ placed ++ ready deps placed remaining ∨
        p ∈ without (ready deps placed remaining) remaining := by
  intro r hr p hp
  rw [List.mem_append, mem_without]
  rcases hclosed r (mem_without.mp hr).1 p hp with h | h
  · exact Or.inl (Or.inl h)
  · by_cases hnow : p ∈ ready deps placed remaining
    · exact Or.inl (Or.inr hnow)
    · exact Or.inr ⟨h, hnow⟩

/-- **Dependencies come first.** What a key that is not stuck depends on is placed or stands in an
earlier batch. -/
theorem inBatch_before (hrounds : remaining.length ≤ rounds)
    (hclosed : ∀ r ∈ remaining, ∀ p ∈ deps r, p ∈ placed ∨ p ∈ remaining)
    (hr : InBatch (levels deps rounds placed remaining) i r)
    (hfree : ¬ Stuck (fun p r => p ∈ deps r) r) (hp : p ∈ deps r) :
    p ∈ placed ∨ ∃ j < i, InBatch (levels deps rounds placed remaining) j p := by
  refine levels_induction deps
    (motive := fun _ placed remaining batches =>
      (∀ r ∈ remaining, ∀ p ∈ deps r, p ∈ placed ∨ p ∈ remaining) →
        ∀ i, InBatch batches i r → p ∈ placed ∨ ∃ j < i, InBatch batches j p)
    ?_ ?_ ?_ rounds placed remaining hrounds hclosed i hr
  · intro _ _ _ i hi
    exact absurd hi not_inBatch_nil
  · intro _ placed remaining _ hblocked hclosed i hi
    have hmem : r ∈ remaining := by
      simpa using exists_inBatch.mp ⟨i, hi⟩
    exact absurd (stuck_of_blocked hblocked hclosed hmem) hfree
  · intro _ placed remaining batches _ ih hclosed i hi
    cases i with
    | zero => exact Or.inl ((mem_ready.mp (inBatch_cons_zero.mp hi)).2 p hp)
    | succ i =>
      rcases ih (closed_without hclosed) i (inBatch_cons_succ.mp hi) with hplaced | ⟨j, hj, hbatch⟩
      · rcases List.mem_append.mp hplaced with hold | hnow
        · exact Or.inl hold
        · exact Or.inr ⟨0, by omega, inBatch_cons_zero.mpr hnow⟩
      · exact Or.inr ⟨j + 1, by omega, inBatch_cons_succ.mpr hbatch⟩

theorem inBatch_before_of_lt (hrounds : remaining.length ≤ rounds)
    (hi : InBatch (levels deps rounds placed remaining) i r)
    (hlast : i + 1 < (levels deps rounds placed remaining).length) (hp : p ∈ deps r) :
    p ∈ placed ∨ ∃ j < i, InBatch (levels deps rounds placed remaining) j p := by
  refine levels_induction deps
    (motive := fun _ placed _ batches => ∀ i, InBatch batches i r → i + 1 < batches.length →
      p ∈ placed ∨ ∃ j < i, InBatch batches j p)
    ?_ ?_ ?_ rounds placed remaining hrounds i hi hlast
  · intro _ _ i _ hlast
    exact absurd hlast (Nat.not_lt_zero _)
  · intro _ _ remaining _ _ i _ hlast
    rw [List.length_singleton] at hlast
    omega
  · intro _ placed remaining batches _ ih i hi hlast
    cases i with
    | zero => exact Or.inl ((mem_ready.mp (inBatch_cons_zero.mp hi)).2 p hp)
    | succ i =>
      rw [List.length_cons] at hlast
      rcases ih i (inBatch_cons_succ.mp hi) (by omega) with hplaced | ⟨j, hj, hbatch⟩
      · rcases List.mem_append.mp hplaced with hold | hnow
        · exact Or.inl hold
        · exact Or.inr ⟨0, by omega, inBatch_cons_zero.mpr hnow⟩
      · exact Or.inr ⟨j + 1, by omega, inBatch_cons_succ.mpr hbatch⟩

/-- **No batch later than needed.** A key of a later batch depends on one that is neither placed nor
in a batch before the one it follows. -/
theorem inBatch_tight (hrounds : remaining.length ≤ rounds)
    (hr : InBatch (levels deps rounds placed remaining) (i + 1) r) :
    ∃ p ∈ deps r, p ∉ placed ∧ ∀ j < i, ¬ InBatch (levels deps rounds placed remaining) j p := by
  refine (levels_induction deps
    (motive := fun _ placed remaining batches =>
      (∀ i, InBatch batches i r → r ∈ remaining) ∧ ∀ i, InBatch batches (i + 1) r →
        ∃ p ∈ deps r, p ∉ placed ∧ ∀ j < i, ¬ InBatch batches j p)
    ?_ ?_ ?_ rounds placed remaining hrounds).2 i hr
  · intro _ _
    simp
  · intro _ placed remaining _ _
    refine ⟨fun i hi => by simpa using exists_inBatch.mp ⟨i, hi⟩, fun i hi => ?_⟩
    rw [inBatch_cons_succ] at hi
    exact absurd hi not_inBatch_nil
  · rintro _ placed remaining batches _ ⟨hmem, ih⟩
    constructor
    · intro i hi
      cases i with
      | zero => exact (mem_ready.mp (inBatch_cons_zero.mp hi)).1
      | succ i => exact (mem_without.mp (hmem i (inBatch_cons_succ.mp hi))).1
    · intro i hi
      rw [inBatch_cons_succ] at hi
      cases i with
      | zero =>
        -- It was not ready in this round.
        have hlater := mem_without.mp (hmem 0 hi)
        have hnot : ¬ ∀ p ∈ deps r, p ∈ placed := fun hall =>
          hlater.2 (mem_ready.mpr ⟨hlater.1, hall⟩)
        push Not at hnot
        obtain ⟨p, hp, hunplaced⟩ := hnot
        exact ⟨p, hp, hunplaced, fun j hj => absurd hj (Nat.not_lt_zero j)⟩
      | succ i =>
        obtain ⟨p, hp, hunplaced, hbefore⟩ := ih i hi
        rw [List.mem_append, not_or] at hunplaced
        refine ⟨p, hp, hunplaced.1, fun j hj hin => ?_⟩
        cases j with
        | zero => exact hunplaced.2 (inBatch_cons_zero.mp hin)
        | succ j => exact hbefore j (by omega) (inBatch_cons_succ.mp hin)

/-- **The earliest batch.** A key that is not stuck stands in the first batch that all it depends on
comes before. -/
theorem inBatch_isLeast (hrounds : remaining.length ≤ rounds)
    (hclosed : ∀ r ∈ remaining, ∀ p ∈ deps r, p ∈ remaining)
    (hr : InBatch (levels deps rounds [] remaining) i r)
    (hfree : ¬ Stuck (fun p r => p ∈ deps r) r) :
    IsLeast {k | ∀ p ∈ deps r, ∃ j < k, InBatch (levels deps rounds [] remaining) j p} i := by
  constructor
  · intro p hp
    have hbefore := inBatch_before hrounds (fun r hr p hp => Or.inr (hclosed r hr p hp)) hr hfree hp
    simpa using hbefore
  · intro k hk
    cases i with
    | zero => exact Nat.zero_le k
    | succ i =>
      obtain ⟨p, hp, -, hnot⟩ := inBatch_tight hrounds hr
      obtain ⟨j, hj, hin⟩ := hk p hp
      by_contra hlt
      exact hnot j (by omega) hin

/-- **More dependencies, the same batches.** Further dependencies change no batch where each of them
is placed, or stands in an earlier batch, already. -/
theorem levels_eq_of_before (hrounds : remaining.length ≤ rounds) (hnodup : remaining.Nodup)
    (hsub : ∀ r, ∀ p ∈ deps r, p ∈ deps' r)
    (hmore : ∀ r ∈ remaining, ∀ p ∈ deps' r, p ∈ deps r ∨ p ∈ placed ∨
      ∃ i j, i < j ∧ InBatch (levels deps rounds placed remaining) i p ∧
        InBatch (levels deps rounds placed remaining) j r) :
    levels deps' rounds placed remaining = levels deps rounds placed remaining := by
  refine levels_induction deps
    (motive := fun rounds placed remaining batches => remaining.Nodup →
      batches.flatten.Nodup ∧ (∀ r ∈ batches.flatten, r ∈ remaining) →
      (∀ r ∈ remaining, ∀ p ∈ deps' r, p ∈ deps r ∨ p ∈ placed ∨
        ∃ i j, i < j ∧ InBatch batches i p ∧ InBatch batches j r) →
      levels deps' rounds placed remaining = batches)
    ?_ ?_ ?_ rounds placed remaining hrounds hnodup
    ⟨(levels_partition hnodup hrounds).1, fun r hr => ((levels_partition hnodup hrounds).2.1 r).mp hr⟩
    hmore
  · intro _ _ _ _ _
    exact levels_nil
  · intro _ placed remaining hne hblocked _ _ _
    refine levels_blocked hne (List.eq_nil_iff_forall_not_mem.mpr fun r hr => ?_)
    obtain ⟨hmem, hall⟩ := mem_ready.mp hr
    have hready : r ∈ ready deps placed remaining :=
      mem_ready.mpr ⟨hmem, fun p hp => hall p (hsub r p hp)⟩
    rw [hblocked] at hready
    simp at hready
  · rintro _ placed remaining batches hready ih hnodup ⟨hflat, hmem⟩ hmore
    have hsame : ready deps' placed remaining = ready deps placed remaining := by
      refine List.filter_congr fun r hr => ?_
      rw [Bool.eq_iff_iff, List.all_eq_true, List.all_eq_true]
      simp only [decide_eq_true_eq]
      constructor
      · exact fun hall p hp => hall p (hsub r p hp)
      · intro hall p hp
        rcases hmore r hr p hp with h | h | ⟨i, j, hij, -, hj⟩
        · exact hall p h
        · exact h
        · -- The first batch follows no other.
          have hzero : InBatch (ready deps placed remaining :: batches) 0 r :=
            inBatch_cons_zero.mpr (mem_ready.mpr ⟨hr, hall⟩)
          have heq := InBatch.unique hflat hj hzero
          omega
    rw [levels_ready (by rwa [hsame]), hsame]
    congr 1
    rw [List.flatten_cons, List.nodup_append] at hflat
    refine ih (hnodup.filter _) ⟨hflat.2.1, fun r hr => ?_⟩ fun r hr p hp => ?_
    · refine mem_without.mpr ⟨hmem r (by simp [hr]), fun hnow => ?_⟩
      exact hflat.2.2 r hnow r hr rfl
    · rcases hmore r (mem_without.mp hr).1 p hp with h | h | ⟨i, j, hij, hi, hj⟩
      · exact Or.inl h
      · exact Or.inr (Or.inl (List.mem_append_left _ h))
      · cases i with
        | zero => exact Or.inr (Or.inl (List.mem_append_right _ (inBatch_cons_zero.mp hi)))
        | succ i =>
          cases j with
          | zero => exact absurd hij (Nat.not_lt_zero _)
          | succ j =>
            exact Or.inr (Or.inr ⟨i, j, by omega, inBatch_cons_succ.mp hi, inBatch_cons_succ.mp hj⟩)

/-- **What is stuck comes last.** The keys that are stuck share one batch, and the others stand in
batches before it. -/
theorem inBatch_stuck (hrounds : remaining.length ≤ rounds)
    (hplaced : ∀ p ∈ placed, ¬ Stuck (fun p r => p ∈ deps r) p)
    (hclosed : ∀ r ∈ remaining, ∀ p ∈ deps r, p ∈ placed ∨ p ∈ remaining) {j : ℕ}
    (hp : InBatch (levels deps rounds placed remaining) i p)
    (hr : InBatch (levels deps rounds placed remaining) j r)
    (hstuck : Stuck (fun p r => p ∈ deps r) r) :
    (Stuck (fun p r => p ∈ deps r) p → i = j) ∧ (¬ Stuck (fun p r => p ∈ deps r) p → i < j) := by
  refine levels_induction deps
    (motive := fun _ placed remaining batches =>
      (∀ p ∈ placed, ¬ Stuck (fun p r => p ∈ deps r) p) →
      (∀ r ∈ remaining, ∀ p ∈ deps r, p ∈ placed ∨ p ∈ remaining) → ∀ i j,
        InBatch batches i p → InBatch batches j r →
        (Stuck (fun p r => p ∈ deps r) p → i = j) ∧ (¬ Stuck (fun p r => p ∈ deps r) p → i < j))
    ?_ ?_ ?_ rounds placed remaining hrounds hplaced hclosed i j hp hr
  · intro _ _ _ _ i j hi
    exact absurd hi not_inBatch_nil
  · intro _ placed remaining _ hblocked _ hclosed i j hi hj
    have hmem : p ∈ remaining := by
      simpa using exists_inBatch.mp ⟨i, hi⟩
    refine ⟨fun _ => ?_, fun hfree => absurd (stuck_of_blocked hblocked hclosed hmem) hfree⟩
    cases i with
    | succ i => exact absurd (inBatch_cons_succ.mp hi) not_inBatch_nil
    | zero =>
      cases j with
      | succ j => exact absurd (inBatch_cons_succ.mp hj) not_inBatch_nil
      | zero => rfl
  · intro _ placed remaining batches _ ih hplaced hclosed i j hi hj
    have hready : ∀ q ∈ ready deps placed remaining, ¬ Stuck (fun p r => p ∈ deps r) q :=
      fun _ hq => not_stuck_of_ready hplaced hq
    have hrest := ih (fun q hq => (List.mem_append.mp hq).elim (hplaced q) (hready q))
      (closed_without hclosed)
    cases j with
    | zero => exact absurd hstuck (hready r (inBatch_cons_zero.mp hj))
    | succ j =>
      cases i with
      | zero =>
        exact ⟨fun h => absurd h (hready p (inBatch_cons_zero.mp hi)), fun _ => Nat.succ_pos j⟩
      | succ i =>
        obtain ⟨hsame, hless⟩ := hrest i j (inBatch_cons_succ.mp hi) (inBatch_cons_succ.mp hj)
        exact ⟨fun h => congrArg Nat.succ (hsame h), fun h => Nat.succ_lt_succ (hless h)⟩

end Rounds

end Levels
end RepoMesh
