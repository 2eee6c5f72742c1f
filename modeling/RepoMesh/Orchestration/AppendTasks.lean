/-
# Appended tasks

`append_tasks` places new tasks behind the batches of a plan, level by level: a batch takes what depends
on existing work and earlier batches only. What the loop appends are the levels of the tasks' own
dependencies, so every new task stands in the earliest batch that they permit; and the loop stops short
exactly on a cycle of the new tasks, once the tuple has passed the refusals that are made first.
-/
import RepoMesh.Foundation.Levels
import RepoMesh.Orchestration.Plan

namespace RepoMesh
namespace Orchestration

open Delivery (UUID uuidStr)
open Levels

/-- The repositories of a batch, in its order. -/
def repositoryIds (items : List PlannedRepositoryTask) : List UUID := items.map (·.repositoryId)

/-- The refusal of a round that frees nothing. -/
def cycleRefusal : Raised := .taskConflict "dynamic task dependencies contain a cycle"

/-- `ready` of one round: what is left, by repository, where all it depends on is satisfied. -/
def readyItems (satisfied : List UUID) (remaining : List PlannedRepositoryTask) :
    List PlannedRepositoryTask :=
  (remaining.insertionSort fun a b => uuidStr a.repositoryId ≤ uuidStr b.repositoryId).filter
    fun item => item.dependsOn.all (· ∈ satisfied)

/-- `remaining` after a round. -/
def withoutItems (batch remaining : List PlannedRepositoryTask) : List PlannedRepositoryTask :=
  remaining.filter fun item => item.repositoryId ∉ repositoryIds batch

/-- The batches that are appended, in at most so many rounds. -/
def appendedBatches : ℕ → List UUID → List PlannedRepositoryTask →
    Except Raised (List (List PlannedRepositoryTask))
  | 0, _, _ => .ok []
  | rounds + 1, satisfied, remaining =>
    if remaining = [] then .ok []
    else
      let ready := readyItems satisfied remaining
      if ready = [] then .error cycleRefusal
      else
        (appendedBatches rounds (satisfied ++ repositoryIds ready) (withoutItems ready remaining)).map
          (ready :: ·)

/-- The loop, as it runs: while tasks are left, those that are ready make a batch. -/
inductive Appends : List UUID → List PlannedRepositoryTask →
    Except Raised (List (List PlannedRepositoryTask)) → Prop where
  | done (satisfied : List UUID) : Appends satisfied [] (.ok [])
  | blocked {satisfied : List UUID} {remaining : List PlannedRepositoryTask} (hne : remaining ≠ [])
      (hready : readyItems satisfied remaining = []) :
      Appends satisfied remaining (.error cycleRefusal)
  | next {satisfied : List UUID} {remaining : List PlannedRepositoryTask}
      {outcome : Except Raised (List (List PlannedRepositoryTask))}
      (hready : readyItems satisfied remaining ≠ [])
      (hrest : Appends (satisfied ++ repositoryIds (readyItems satisfied remaining))
        (withoutItems (readyItems satisfied remaining) remaining) outcome) :
      Appends satisfied remaining (outcome.map (readyItems satisfied remaining :: ·))

variable {satisfied placed : List UUID} {remaining items : List PlannedRepositoryTask}
  {batches : List (List PlannedRepositoryTask)} {rounds : ℕ}

theorem mem_readyItems {item : PlannedRepositoryTask} :
    item ∈ readyItems satisfied remaining ↔
      item ∈ remaining ∧ ∀ d ∈ item.dependsOn, d ∈ satisfied := by
  simp [readyItems]

theorem length_withoutItems (h : readyItems satisfied remaining ≠ []) :
    (withoutItems (readyItems satisfied remaining) remaining).length < remaining.length := by
  obtain ⟨item, hitem⟩ := List.exists_mem_of_ne_nil _ h
  refine List.length_filter_lt_length_iff_exists.mpr ⟨item, (mem_readyItems.mp hitem).1, ?_⟩
  have hmem : item.repositoryId ∈ repositoryIds (readyItems satisfied remaining) :=
    List.mem_map_of_mem hitem
  simpa using hmem

theorem appends_appendedBatches (hrounds : remaining.length ≤ rounds) :
    Appends satisfied remaining (appendedBatches rounds satisfied remaining) := by
  induction rounds generalizing satisfied remaining with
  | zero =>
    obtain rfl := List.length_eq_zero_iff.mp (Nat.le_zero.mp hrounds)
    exact .done satisfied
  | succ rounds ih =>
    by_cases hne : remaining = []
    · subst hne
      exact .done satisfied
    · by_cases hready : readyItems satisfied remaining = []
      · simp only [appendedBatches, if_neg hne, hready, if_true]
        exact .blocked hne hready
      · simp only [appendedBatches, if_neg hne, if_neg hready]
        have hless := length_withoutItems hready
        exact .next hready (ih (by omega))

theorem Appends.nonempty {outcome : Except Raised (List (List PlannedRepositoryTask))}
    (h : Appends satisfied remaining outcome) :
    ∀ batches, outcome = .ok batches → ∀ batch ∈ batches, batch ≠ [] := by
  induction h with
  | done => rintro _ ⟨⟩ batch hbatch; simp at hbatch
  | blocked => rintro _ ⟨⟩
  | @next satisfied remaining outcome hready hrest ih =>
    intro batches heq
    cases outcome with
    | error => cases heq
    | ok later =>
      obtain rfl := Except.ok.inj heq
      intro batch hbatch
      rcases List.mem_cons.mp hbatch with rfl | hbatch
      · exact hready
      · exact ih later rfl batch hbatch

namespace ExecutionPlan

/-- The repositories that the plan works on. -/
def repositories (p : ExecutionPlan) : List UUID := p.batches.flatMap repositoryIds

/-- The refusal of the first task that depends on itself, or on a repository that is nowhere. -/
def dependencyRefusal (p : ExecutionPlan) (items : List PlannedRepositoryTask) : Option Raised :=
  items.findSome? fun item =>
    if item.repositoryId ∈ item.dependsOn then
      some (.taskConflict "a dynamic task cannot depend on itself")
    else if item.dependsOn.any fun d => d ∉ p.repositories ++ repositoryIds items then
      some (.taskConflict "dynamic task dependency is not in the plan")
    else none

/-- `append_tasks`. -/
def appendTasks (p : ExecutionPlan) (items : List PlannedRepositoryTask) :
    Except Raised ExecutionPlan :=
  p.ifInProgress
    (if items = [] then .error (.taskConflict "dynamic plan revision requires appended tasks")
    else if ¬ (repositoryIds items).Nodup then
      .error (.taskConflict "dynamic plan revision contains duplicate repositories")
    else if (repositoryIds items).any (· ∈ p.repositories) then
      .error (.taskConflict "existing repository work requires full replan")
    else
      match p.dependencyRefusal items with
      | some refusal => .error refusal
      | none =>
        match hbatches : appendedBatches items.length p.repositories items with
        | .error refusal => .error refusal
        | .ok appended =>
          .ok
            { p with
              batches := p.batches ++ appended
              version := p.version + 1
              deliveryRefusal := none
              batches_nonempty := fun batch hbatch =>
                (List.mem_append.mp hbatch).elim (p.batches_nonempty batch)
                  ((appends_appendedBatches le_rfl).nonempty appended hbatches batch)
              index_lt := by
                rw [List.length_append]
                exact Nat.lt_add_right _ p.index_lt })

end ExecutionPlan
/-! ## The levels of the new tasks -/

/-- What a new task depends on; what is there already depends on nothing. -/
def dependenciesOf (items : List PlannedRepositoryTask) (repositoryId : UUID) : List UUID :=
  ((items.find? fun item => item.repositoryId == repositoryId).map (·.dependsOn)).getD []

/-- A new task that another of them waits for. -/
def DependsOn (items : List PlannedRepositoryTask) (a b : UUID) : Prop :=
  a ∈ repositoryIds items ∧ ∃ item ∈ items, item.repositoryId = b ∧ a ∈ item.dependsOn

/-- A cycle of the new tasks, of length two at least. -/
def HasCycle (items : List PlannedRepositoryTask) : Prop :=
  ∃ a b, a ≠ b ∧ Relation.TransGen (DependsOn items) a b ∧ Relation.TransGen (DependsOn items) b a

theorem mem_repositoryIds {repositoryId : UUID} :
    repositoryId ∈ repositoryIds items ↔ ∃ item ∈ items, item.repositoryId = repositoryId := by
  simp [repositoryIds]

theorem find_repository (hdistinct : (repositoryIds items).Nodup) {item : PlannedRepositoryTask}
    (hitem : item ∈ items) :
    (items.find? fun other => other.repositoryId == item.repositoryId) = some item := by
  induction items with
  | nil => cases hitem
  | cons first items ih =>
    rw [repositoryIds, List.map_cons, List.nodup_cons] at hdistinct
    rcases List.mem_cons.mp hitem with rfl | hlater
    · simp
    · have hne : first.repositoryId ≠ item.repositoryId := by
        intro heq
        exact hdistinct.1 (heq ▸ List.mem_map_of_mem hlater)
      rw [List.find?_cons_of_neg (by simpa using hne)]
      exact ih hdistinct.2 hlater

theorem dependenciesOf_eq (hdistinct : (repositoryIds items).Nodup) {item : PlannedRepositoryTask}
    (hitem : item ∈ items) : dependenciesOf items item.repositoryId = item.dependsOn := by
  rw [dependenciesOf, find_repository hdistinct hitem]
  rfl

theorem exists_of_mem_dependenciesOf {a b : UUID} (h : a ∈ dependenciesOf items b) :
    ∃ item ∈ items, item.repositoryId = b ∧ a ∈ item.dependsOn := by
  unfold dependenciesOf at h
  cases hfind : items.find? fun item => item.repositoryId == b with
  | none => simp [hfind] at h
  | some item =>
    rw [hfind] at h
    have hfound := List.find?_some hfind
    exact ⟨item, List.mem_of_find?_eq_some hfind, by simpa using hfound, h⟩

section Levels

variable {deps : UUID → List UUID}

theorem mem_repositoryIds_readyItems (hplaced : ∀ d, d ∈ satisfied ↔ d ∈ placed)
    (hdeps : ∀ item ∈ remaining, deps item.repositoryId = item.dependsOn) {r : UUID} :
    r ∈ repositoryIds (readyItems satisfied remaining) ↔
      r ∈ ready deps placed (repositoryIds remaining) := by
  rw [mem_repositoryIds, mem_ready, mem_repositoryIds]
  constructor
  · rintro ⟨item, hitem, rfl⟩
    obtain ⟨hmem, hall⟩ := mem_readyItems.mp hitem
    refine ⟨⟨item, hmem, rfl⟩, fun d hd => (hplaced d).mp (hall d ?_)⟩
    rwa [hdeps item hmem] at hd
  · rintro ⟨⟨item, hmem, rfl⟩, hall⟩
    refine ⟨item, mem_readyItems.mpr ⟨hmem, fun d hd => (hplaced d).mpr (hall d ?_)⟩, rfl⟩
    rwa [hdeps item hmem]

theorem repositoryIds_withoutItems {batch : List PlannedRepositoryTask} {level : List UUID}
    (h : ∀ r, r ∈ repositoryIds batch ↔ r ∈ level) :
    repositoryIds (withoutItems batch remaining) = without level (repositoryIds remaining) := by
  show (withoutItems batch remaining).map (·.repositoryId) =
    (remaining.map (·.repositoryId)).filter (· ∉ level)
  rw [List.filter_map]
  refine congrArg _ (List.filter_congr fun item _ => ?_)
  simp [h]

/-- **The batches are levels.** Batch for batch, what the loop appends are the levels of the new
tasks. -/
theorem Appends.inBatch {outcome : Except Raised (List (List PlannedRepositoryTask))}
    (h : Appends satisfied remaining outcome) :
    ∀ batches, outcome = .ok batches → ∀ rounds placed, remaining.length ≤ rounds →
      (∀ d, d ∈ satisfied ↔ d ∈ placed) →
      (∀ item ∈ remaining, deps item.repositoryId = item.dependsOn) →
      ∀ i r, InBatch (batches.map repositoryIds) i r ↔
        InBatch (levels deps rounds placed (repositoryIds remaining)) i r := by
  induction h with
  | done =>
    rintro _ ⟨⟩ rounds placed _ _ _ i r
    simp [repositoryIds]
  | blocked => rintro _ ⟨⟩
  | @next satisfied remaining outcome hready hrest ih =>
    intro batches heq rounds placed hrounds hplaced hdeps i r
    cases outcome with
    | error => cases heq
    | ok later =>
      obtain rfl := Except.ok.inj heq
      have hless := length_withoutItems hready
      obtain ⟨rounds, rfl⟩ : ∃ n, rounds = n + 1 := ⟨rounds - 1, by omega⟩
      have hsame := fun r => @mem_repositoryIds_readyItems _ _ _ _ hplaced hdeps r
      have hlevel : ready deps placed (repositoryIds remaining) ≠ [] := by
        obtain ⟨item, hitem⟩ := List.exists_mem_of_ne_nil _ hready
        exact List.ne_nil_of_mem ((hsame _).mp (List.mem_map_of_mem hitem))
      rw [levels_ready hlevel, List.map_cons]
      cases i with
      | zero => rw [inBatch_cons_zero, inBatch_cons_zero, hsame]
      | succ i =>
        rw [inBatch_cons_succ, inBatch_cons_succ, ← repositoryIds_withoutItems hsame]
        refine ih later rfl rounds _ (by omega) (fun d => ?_) (fun item hitem => ?_) i r
        · rw [List.mem_append, List.mem_append, hplaced, hsame]
        · exact hdeps item (List.mem_of_mem_filter hitem)

theorem Appends.not_stuck {outcome : Except Raised (List (List PlannedRepositoryTask))}
    (h : Appends satisfied remaining outcome) :
    ∀ batches, outcome = .ok batches →
      (∀ item ∈ remaining, deps item.repositoryId = item.dependsOn) →
      (∀ d ∈ satisfied, ¬ Stuck (fun p r => p ∈ deps r) d) →
      ∀ r ∈ repositoryIds remaining, ¬ Stuck (fun p r => p ∈ deps r) r := by
  induction h with
  | done =>
    rintro _ _ _ _ r hr
    simp [repositoryIds] at hr
  | blocked => rintro _ ⟨⟩
  | @next satisfied remaining outcome hready hrest ih =>
    intro batches heq hdeps hfree
    cases outcome with
    | error => cases heq
    | ok later =>
      have hnow : ∀ r ∈ repositoryIds (readyItems satisfied remaining),
          ¬ Stuck (fun p r => p ∈ deps r) r := by
        intro r hr
        exact not_stuck_of_ready hfree
          ((mem_repositoryIds_readyItems (fun _ => Iff.rfl) hdeps).mp hr)
      intro r hr
      by_cases hin : r ∈ repositoryIds (readyItems satisfied remaining)
      · exact hnow r hin
      · obtain ⟨item, hitem, rfl⟩ := mem_repositoryIds.mp hr
        refine ih later rfl (fun other hother => hdeps other (List.mem_of_mem_filter hother))
          (fun d hd => (List.mem_append.mp hd).elim (hfree d) (hnow d)) _ ?_
        exact List.mem_map_of_mem (List.mem_filter.mpr ⟨hitem, by simpa using hin⟩)

theorem Appends.exists_stuck {outcome : Except Raised (List (List PlannedRepositoryTask))}
    (h : Appends satisfied remaining outcome) :
    ∀ refusal, outcome = .error refusal →
      (∀ item ∈ remaining, deps item.repositoryId = item.dependsOn) →
      (∀ item ∈ remaining, ∀ d ∈ item.dependsOn, d ∈ satisfied ∨ d ∈ repositoryIds remaining) →
      refusal = cycleRefusal ∧ ∃ r, Stuck (fun p r => p ∈ deps r) r := by
  induction h with
  | done => rintro _ ⟨⟩
  | @blocked satisfied remaining hne hready =>
    rintro _ ⟨⟩ hdeps hclosed
    obtain ⟨item, hitem⟩ := List.exists_mem_of_ne_nil _ hne
    have hsame := fun r =>
      @mem_repositoryIds_readyItems satisfied satisfied remaining _ (fun _ => Iff.rfl) hdeps r
    refine ⟨rfl, item.repositoryId, @stuck_of_blocked _ _ deps satisfied _ _ ?_ ?_
      (List.mem_map_of_mem hitem)⟩
    · refine List.eq_nil_iff_forall_not_mem.mpr fun r hr => ?_
      have hready' := (hsame r).mpr hr
      rw [hready] at hready'
      cases hready'
    · intro r hr d hd
      obtain ⟨other, hother, rfl⟩ := mem_repositoryIds.mp hr
      rw [hdeps other hother] at hd
      exact hclosed other hother d hd
  | @next satisfied remaining outcome hready hrest ih =>
    intro refusal heq hdeps hclosed
    cases outcome with
    | ok => cases heq
    | error =>
      obtain rfl := Except.error.inj heq
      refine ih _ rfl (fun item hitem => hdeps item (List.mem_of_mem_filter hitem)) ?_
      intro item hitem d hd
      rcases hclosed item (List.mem_of_mem_filter hitem) d hd with hold | hleft
      · exact .inl (List.mem_append_left _ hold)
      · by_cases hnow : d ∈ repositoryIds (readyItems satisfied remaining)
        · exact .inl (List.mem_append_right _ hnow)
        · obtain ⟨other, hother, rfl⟩ := mem_repositoryIds.mp hleft
          exact .inr (List.mem_map_of_mem (List.mem_filter.mpr ⟨hother, by simpa using hnow⟩))

theorem Appends.perm {outcome : Except Raised (List (List PlannedRepositoryTask))}
    (h : Appends satisfied remaining outcome) :
    ∀ batches, outcome = .ok batches → (repositoryIds remaining).Nodup →
      batches.flatten.Perm remaining := by
  induction h with
  | done => rintro _ ⟨⟩ _; simp
  | blocked => rintro _ ⟨⟩
  | @next satisfied remaining outcome hready hrest ih =>
    intro batches heq hdistinct
    cases outcome with
    | error => cases heq
    | ok later =>
      obtain rfl := Except.ok.inj heq
      have hlater := ih later rfl (hdistinct.sublist (List.filter_sublist.map _))
      have hnow : (readyItems satisfied remaining).Perm
          (remaining.filter fun item => item.dependsOn.all (· ∈ satisfied)) :=
        (List.perm_insertionSort _ _).filter _
      -- A task that is left is one whose repository was not taken: repositories are distinct.
      have hleft : withoutItems (readyItems satisfied remaining) remaining =
          remaining.filter fun item => ! item.dependsOn.all (· ∈ satisfied) := by
        refine List.filter_congr fun item hitem => ?_
        rw [Bool.eq_iff_iff]
        simp only [decide_eq_true_eq, Bool.not_eq_true']
        rw [mem_repositoryIds]
        constructor
        · intro hnone
          by_contra hready
          refine hnone ⟨item, mem_readyItems.mpr ⟨hitem, ?_⟩, rfl⟩
          simpa using hready
        · rintro hnot ⟨other, hother, heq⟩
          obtain ⟨hmem, hall⟩ := mem_readyItems.mp hother
          obtain rfl : other = item := List.inj_on_of_nodup_map hdistinct hmem hitem heq
          have hready : other.dependsOn.all (· ∈ satisfied) = true := by simpa using hall
          rw [hready] at hnot
          cases hnot
      rw [List.flatten_cons]
      have hboth := hnow.append hlater
      rw [hleft] at hboth
      exact hboth.trans (List.filter_append_perm _ remaining)

end Levels

/-! ## The refusals that come first -/

/-- The new tasks pass the refusals that are made before the loop. -/
structure Appendable (p : ExecutionPlan) (items : List PlannedRepositoryTask) : Prop where
  nonempty : items ≠ []
  distinct : (repositoryIds items).Nodup
  fresh : ∀ r ∈ repositoryIds items, r ∉ p.repositories
  notSelf : ∀ item ∈ items, item.repositoryId ∉ item.dependsOn
  known : ∀ item ∈ items, ∀ d ∈ item.dependsOn, d ∈ p.repositories ∨ d ∈ repositoryIds items

theorem dependencyRefusal_none {p : ExecutionPlan} :
    p.dependencyRefusal items = none ↔ ∀ item ∈ items, item.repositoryId ∉ item.dependsOn ∧
      ∀ d ∈ item.dependsOn, d ∈ p.repositories ∨ d ∈ repositoryIds items := by
  rw [ExecutionPlan.dependencyRefusal, List.findSome?_eq_none_iff]
  refine forall₂_congr fun item _ => ?_
  by_cases hself : item.repositoryId ∈ item.dependsOn
  · simp [hself]
  · simp [hself, or_iff_not_imp_left]

theorem dependencyRefusal_ne {p : ExecutionPlan} {refusal : Raised}
    (h : p.dependencyRefusal items = some refusal) : refusal ≠ cycleRefusal := by
  obtain ⟨item, -, hitem⟩ := List.exists_of_findSome?_eq_some h
  split_ifs at hitem with hself hknown
  · obtain rfl := Option.some.inj hitem
    decide
  · obtain rfl := Option.some.inj hitem
    decide

/-- What `append_tasks` makes of a plan. -/
structure Extended (p : ExecutionPlan) (appended : List (List PlannedRepositoryTask))
    (p' : ExecutionPlan) : Prop where
  batches : p'.batches = p.batches ++ appended
  version : p'.version = p.version + 1
  refusal : p'.deliveryRefusal = none
  index : p'.currentBatchIndex = p.currentBatchIndex
  status : p'.status = p.status
  id : p'.id = p.id

theorem appendTasks_of_appendable {p : ExecutionPlan} (hprogress : p.status = .inProgress)
    (h : Appendable p items) :
    ∃ outcome, Appends p.repositories items outcome ∧
      (∀ refusal, outcome = .error refusal → p.appendTasks items = .error refusal) ∧
      ∀ appended, outcome = .ok appended →
        ∃ p', p.appendTasks items = .ok p' ∧ Extended p appended p' := by
  refine ⟨appendedBatches items.length p.repositories items, appends_appendedBatches le_rfl, ?_⟩
  have hfresh : ¬ (repositoryIds items).any (· ∈ p.repositories) = true := by
    simpa [List.any_eq_true] using h.fresh
  have hnone : p.dependencyRefusal items = none :=
    dependencyRefusal_none.mpr fun item hitem => ⟨h.notSelf item hitem, h.known item hitem⟩
  unfold ExecutionPlan.appendTasks ExecutionPlan.ifInProgress
  rw [if_pos hprogress, if_neg h.nonempty, if_neg (not_not.mpr h.distinct), if_neg hfresh]
  split
  · rename_i refusal hsome
    rw [hnone] at hsome
    cases hsome
  · split
    · rename_i refusal heq
      refine ⟨fun other hother => ?_, fun appended happended => ?_⟩
      · rw [heq] at hother
        rw [Except.error.inj hother]
      · rw [heq] at happended
        cases happended
    · rename_i appended heq
      refine ⟨fun other hother => ?_, fun later hlater => ?_⟩
      · rw [heq] at hother
        cases hother
      · rw [heq] at hlater
        obtain rfl := Except.ok.inj hlater
        exact ⟨_, rfl, rfl, rfl, rfl, rfl, rfl, rfl⟩

theorem appendTasks_of_not_appendable {p : ExecutionPlan} (hprogress : p.status = .inProgress)
    (h : ¬ Appendable p items) :
    ∃ refusal, p.appendTasks items = .error refusal ∧ refusal ≠ cycleRefusal := by
  unfold ExecutionPlan.appendTasks ExecutionPlan.ifInProgress
  rw [if_pos hprogress]
  split
  · exact ⟨_, rfl, by decide⟩
  · rename_i hne
    split
    · exact ⟨_, rfl, by decide⟩
    · rename_i hdistinct
      split
      · exact ⟨_, rfl, by decide⟩
      · rename_i hfresh
        split
        · rename_i refusal hrefusal
          exact ⟨_, rfl, dependencyRefusal_ne hrefusal⟩
        · rename_i hnone
          have hdeps := dependencyRefusal_none.mp hnone
          refine absurd ⟨hne, not_not.mp hdistinct, ?_, fun item hitem => (hdeps item hitem).1,
            fun item hitem => (hdeps item hitem).2⟩ h
          simpa [List.any_eq_true] using hfresh

/-! ## Cycles -/

theorem dependsOn_of_transGen {a b : UUID} (ha : a ∈ repositoryIds items)
    (h : Relation.TransGen (fun p r => p ∈ dependenciesOf items r) a b) :
    Relation.TransGen (DependsOn items) a b := by
  induction h with
  | single hab => exact .single ⟨ha, exists_of_mem_dependenciesOf hab⟩
  | @tail b c hreach hbc ih =>
    refine ih.tail ⟨?_, exists_of_mem_dependenciesOf hbc⟩
    obtain ⟨d, -, hd⟩ := Relation.TransGen.tail'_iff.mp hreach
    obtain ⟨item, hitem, hrepository, -⟩ := exists_of_mem_dependenciesOf hd
    exact mem_repositoryIds.mpr ⟨item, hitem, hrepository⟩

theorem hasCycle_of_stuck {p : ExecutionPlan} (h : Appendable p items) {r : UUID}
    (hstuck : Stuck (fun p r => p ∈ dependenciesOf items r) r) : HasCycle items := by
  obtain ⟨c, hcycle, -⟩ := hstuck
  obtain ⟨d, -, hlast⟩ := Relation.TransGen.tail'_iff.mp hcycle
  obtain ⟨item, hitem, hrepository, -⟩ := exists_of_mem_dependenciesOf hlast
  have hnew : c ∈ repositoryIds items := mem_repositoryIds.mpr ⟨item, hitem, hrepository⟩
  obtain ⟨b, hfirst, hback⟩ := Relation.TransGen.head'_iff.mp (dependsOn_of_transGen hnew hcycle)
  obtain ⟨-, other, hother, rfl, hdepends⟩ := hfirst
  have hne : c ≠ other.repositoryId := by
    rintro rfl
    exact h.notSelf other hother hdepends
  refine ⟨c, other.repositoryId, hne, .single ⟨hnew, other, hother, rfl, hdepends⟩, ?_⟩
  rcases Relation.reflTransGen_iff_eq_or_transGen.mp hback with heq | hreach
  · exact absurd heq hne
  · exact hreach

theorem exists_stuck_of_hasCycle (hdistinct : (repositoryIds items).Nodup) (h : HasCycle items) :
    ∃ r ∈ repositoryIds items, Stuck (fun p r => p ∈ dependenciesOf items r) r := by
  obtain ⟨a, b, -, hab, hba⟩ := h
  obtain ⟨_, ⟨hnew, -⟩, -⟩ := Relation.TransGen.head'_iff.mp hab
  refine ⟨a, hnew, a, ?_, .refl⟩
  have hstep : DependsOn items ≤ fun d r => d ∈ dependenciesOf items r := by
    rintro d r ⟨-, item, hitem, rfl, hd⟩
    show d ∈ dependenciesOf items item.repositoryId
    rwa [dependenciesOf_eq hdistinct hitem]
  exact Relation.TransGen.mono hstep _ _ (hab.trans hba)

theorem not_stuck_of_appends {p : ExecutionPlan} (h : Appendable p items)
    {appended : List (List PlannedRepositoryTask)} (hloop : Appends p.repositories items (.ok appended)) :
    ∀ r ∈ repositoryIds items, ¬ Stuck (fun p r => p ∈ dependenciesOf items r) r := by
  refine hloop.not_stuck appended rfl (fun item hitem => dependenciesOf_eq h.distinct hitem) ?_
  intro d hd hstuck
  obtain ⟨a, ha, -⟩ := hstuck.exists_dep
  obtain ⟨item, hitem, hrepository, -⟩ := exists_of_mem_dependenciesOf ha
  exact h.fresh d (mem_repositoryIds.mpr ⟨item, hitem, hrepository⟩) hd

/-! ## The extension -/

/-- Each new task stands in the plan once, all it depends on in earlier batches, and it in the earliest
appended batch where that is so. -/
structure Levelled (p : ExecutionPlan) (items : List PlannedRepositoryTask)
    (appended : List (List PlannedRepositoryTask)) : Prop where
  perm : appended.flatten.Perm items
  once : ∀ item ∈ items, ((p.batches ++ appended).flatten.filter fun other =>
    other.repositoryId = item.repositoryId) = [item]
  earliest : ∀ i item, InBatch appended i item →
    IsLeast {k | ∀ d ∈ item.dependsOn, ∃ j < p.batches.length + k,
      InBatch ((p.batches ++ appended).map repositoryIds) j d} i

theorem inBatch_append {front back : List (List UUID)} {j : ℕ} {d : UUID} :
    InBatch (front ++ back) j d ↔
      InBatch front j d ∨ ∃ i, j = front.length + i ∧ InBatch back i d := by
  unfold InBatch
  by_cases hj : j < front.length
  · have hnot : ¬ ∃ i, j = front.length + i ∧ ∃ batch, back[i]? = some batch ∧ d ∈ batch := by
      rintro ⟨i, rfl, -⟩
      omega
    rw [List.getElem?_append_left hj]
    exact (or_iff_left hnot).symm
  · obtain ⟨i, rfl⟩ := Nat.exists_eq_add_of_le (Nat.not_lt.mp hj)
    rw [List.getElem?_append_right (Nat.le_add_right _ _), Nat.add_sub_cancel_left,
      List.getElem?_eq_none (Nat.le_add_right _ _)]
    constructor
    · exact fun h => .inr ⟨i, rfl, h⟩
    · rintro (⟨_, hnone, -⟩ | ⟨i', heq, h⟩)
      · cases hnone
      · obtain rfl : i = i' := by omega
        exact h

theorem inBatch_repositories {p : ExecutionPlan} {d : UUID} :
    d ∈ p.repositories ↔ ∃ j < p.batches.length, InBatch (p.batches.map repositoryIds) j d := by
  have hflat : p.repositories = (p.batches.map repositoryIds).flatten := List.flatMap_def ..
  rw [hflat, ← exists_inBatch]
  constructor
  · rintro ⟨j, batch, hbatch, hd⟩
    have hj := (List.getElem?_eq_some_iff.mp hbatch).1
    rw [List.length_map] at hj
    exact ⟨j, hj, batch, hbatch, hd⟩
  · rintro ⟨j, -, h⟩
    exact ⟨j, h⟩

theorem levelled_of_appends {p : ExecutionPlan} (h : Appendable p items)
    {appended : List (List PlannedRepositoryTask)} (hloop : Appends p.repositories items (.ok appended)) :
    Levelled p items appended := by
  have hdeps : ∀ item ∈ items, dependenciesOf items item.repositoryId = item.dependsOn :=
    fun item hitem => dependenciesOf_eq h.distinct hitem
  have hperm := hloop.perm appended rfl h.distinct
  have hfree := not_stuck_of_appends h hloop
  have hsame := hloop.inBatch appended rfl items.length p.repositories le_rfl (fun _ => Iff.rfl) hdeps
  have hrounds : (repositoryIds items).length ≤ items.length := by simp [repositoryIds]
  have hclosed : ∀ r ∈ repositoryIds items, ∀ d ∈ dependenciesOf items r,
      d ∈ p.repositories ∨ d ∈ repositoryIds items := by
    intro r hr d hd
    obtain ⟨item, hitem, rfl⟩ := mem_repositoryIds.mp hr
    rw [hdeps item hitem] at hd
    exact h.known item hitem d hd
  refine ⟨hperm, fun item hitem => ?_, fun i item hi => ?_⟩
  · -- Existing work is in other repositories, and the new tasks have distinct ones.
    have hfront : p.batches.flatten.filter (fun other => other.repositoryId = item.repositoryId) = [] := by
      refine List.filter_eq_nil_iff.mpr fun other hother heq => ?_
      obtain ⟨batch, hbatch, hmem⟩ := List.mem_flatten.mp hother
      refine h.fresh item.repositoryId (List.mem_map_of_mem hitem) ?_
      rw [← of_decide_eq_true heq]
      exact List.mem_flatMap.mpr ⟨batch, hbatch, List.mem_map_of_mem hmem⟩
    have hback : (items.filter fun other => other.repositoryId = item.repositoryId) = [item] := by
      have honly : ∀ other ∈ items, (decide (other.repositoryId = item.repositoryId) = true) ↔
          (other == item) = true := by
        intro other hother
        rw [decide_eq_true_iff, beq_iff_eq]
        exact ⟨fun heq => List.inj_on_of_nodup_map h.distinct hother hitem heq, fun heq => by rw [heq]⟩
      rw [List.filter_congr fun other hother => Bool.eq_iff_iff.mpr (honly other hother),
        List.filter_beq, List.count_eq_one_of_mem (List.Nodup.of_map _ h.distinct) hitem]
      rfl
    rw [List.flatten_append, List.filter_append, hfront, List.nil_append]
    have hfiltered := hperm.filter fun other => decide (other.repositoryId = item.repositoryId)
    rw [hback] at hfiltered
    exact List.perm_singleton.mp hfiltered
  · obtain ⟨batch, hbatch, hitem⟩ := hi
    have hmem : item ∈ items := hperm.mem_iff.mp
      (List.mem_flatten.mpr ⟨batch, List.mem_of_getElem? hbatch, hitem⟩)
    have hin : InBatch (levels (dependenciesOf items) items.length p.repositories
        (repositoryIds items)) i item.repositoryId := by
      rw [← hsame]
      exact ⟨repositoryIds batch, by rw [List.getElem?_map, hbatch]; rfl, List.mem_map_of_mem hitem⟩
    rw [List.map_append]
    have hcount : (p.batches.map repositoryIds).length = p.batches.length := List.length_map ..
    constructor
    · intro d hd
      rcases inBatch_before hrounds hclosed hin (hfree _ (List.mem_map_of_mem hmem))
        (by rwa [hdeps item hmem]) with hdone | ⟨j, hj, hbefore⟩
      · obtain ⟨j, hj, hfront⟩ := inBatch_repositories.mp hdone
        exact ⟨j, by omega, inBatch_append.mpr (.inl hfront)⟩
      · exact ⟨p.batches.length + j, by omega,
          inBatch_append.mpr (.inr ⟨j, by rw [hcount], (hsame j d).mpr hbefore⟩)⟩
    · intro k hk
      cases i with
      | zero => exact Nat.zero_le k
      | succ i =>
        obtain ⟨d, hd, hnew, hnot⟩ := inBatch_tight hrounds hin
        rw [hdeps item hmem] at hd
        obtain ⟨j, hj, hplace⟩ := hk d hd
        rcases inBatch_append.mp hplace with hfront | ⟨l, rfl, hlevel⟩
        · refine absurd (inBatch_repositories.mpr ⟨j, ?_, hfront⟩) hnew
          obtain ⟨_, hget, -⟩ := hfront
          rw [← hcount]
          exact (List.getElem?_eq_some_iff.mp hget).1
        · by_contra hlt
          exact hnot l (by omega) ((hsame l d).mp hlevel)

/-- **A levelled extension.** On a plan in progress `append_tasks` ends: it refuses the tasks, or makes a
plan of the old batches and behind them the new tasks in levels. It refuses them for a cycle exactly when
they pass the refusals made before and have one of length two at least. -/
theorem appendTasks_levels :
    ∀ (p : ExecutionPlan) (items : List PlannedRepositoryTask), p.status = .inProgress →
      (∀ p', p.appendTasks items = .ok p' →
        ∃ appended, Extended p appended p' ∧ Levelled p items appended) ∧
      (p.appendTasks items = .error cycleRefusal ↔ Appendable p items ∧ HasCycle items) ∧
      (Appendable p items → ∃ outcome, Appends p.repositories items outcome ∧
        (p.appendTasks items).map (·.batches) = outcome.map (p.batches ++ ·)) := by
  intro p items hprogress
  by_cases h : Appendable p items
  · obtain ⟨outcome, hloop, herror, hok⟩ := appendTasks_of_appendable hprogress h
    have hdeps : ∀ item ∈ items, dependenciesOf items item.repositoryId = item.dependsOn :=
      fun item hitem => dependenciesOf_eq h.distinct hitem
    cases outcome with
    | error refusal =>
      have hraised := herror refusal rfl
      obtain ⟨rfl, hstuck⟩ := hloop.exists_stuck refusal rfl hdeps h.known
      refine ⟨fun p' hp' => ?_, ⟨fun _ => ⟨h, hstuck.elim fun _ => hasCycle_of_stuck h⟩, fun _ => hraised⟩,
        fun _ => ⟨_, hloop, by rw [hraised]; rfl⟩⟩
      rw [hraised] at hp'
      cases hp'
    | ok appended =>
      obtain ⟨p', hp', hextended⟩ := hok appended rfl
      refine ⟨fun other hother => ?_, ⟨fun hcycle => ?_, fun hcycle => ?_⟩, fun _ => ⟨_, hloop, ?_⟩⟩
      · rw [hp'] at hother
        obtain rfl := Except.ok.inj hother
        exact ⟨appended, hextended, levelled_of_appends h hloop⟩
      · rw [hp'] at hcycle
        cases hcycle
      · -- A new task on a cycle would never have become ready.
        obtain ⟨r, hr, hstuck⟩ := exists_stuck_of_hasCycle h.distinct hcycle.2
        exact absurd hstuck (not_stuck_of_appends h hloop r hr)
      · rw [hp']
        exact congrArg Except.ok hextended.batches
  · obtain ⟨refusal, hrefusal, hne⟩ := appendTasks_of_not_appendable hprogress h
    refine ⟨fun p' hp' => ?_, ⟨fun hcycle => ?_, fun hcycle => absurd hcycle.1 h⟩,
      fun happendable => absurd happendable h⟩
    · rw [hrefusal] at hp'
      cases hp'
    · rw [hrefusal] at hcycle
      exact absurd (Except.error.inj hcycle) hne

/-- A plan over one repository. -/
def onePlan : ExecutionPlan where
  id := 1
  organizationId := 2
  projectId := 3
  createdByAgentId := 4
  batches := [[{ repositoryId := 10, title := "base", instruction := "build", acceptance := ["done"] }]]

/-- A new task of a repository. -/
def newTask (repositoryId : UUID) (dependsOn : List UUID) : PlannedRepositoryTask :=
  { repositoryId, title := "task", instruction := "build", acceptance := ["done"], dependsOn }

/-- The levels of a plan over one repository. -/
theorem appendTasks_levels_one :
    onePlan.status = .inProgress ∧ ∃ p', onePlan.appendTasks [newTask 12 [11], newTask 11 [10]] = .ok p' ∧
      ∃ appended, Extended onePlan appended p' ∧
        Levelled onePlan [newTask 12 [11], newTask 11 [10]] appended := by
  refine ⟨rfl, ?_⟩
  have hsome : ∃ p', onePlan.appendTasks [newTask 12 [11], newTask 11 [10]] = .ok p' := ⟨_, rfl⟩
  obtain ⟨p', hp'⟩ := hsome
  exact ⟨p', hp', (appendTasks_levels onePlan _ rfl).1 p' hp'⟩

/-- A cycle of two is not what is refused where one of them depends on itself too. -/
theorem appendTasks_selfCycle :
    ¬ ∀ (p : ExecutionPlan) (items : List PlannedRepositoryTask), p.status = .inProgress →
      (p.appendTasks items = .error cycleRefusal ↔ HasCycle items) := by
  intro h
  have hcycle : HasCycle [newTask 11 [12, 11], newTask 12 [11]] := by
    refine ⟨11, 12, by decide, .single ⟨by decide, newTask 12 [11], by simp, rfl, by decide⟩,
      .single ⟨by decide, newTask 11 [12, 11], by simp, rfl, by decide⟩⟩
  have hrefused := (h onePlan _ rfl).mpr hcycle
  revert hrefused
  decide

end Orchestration
end RepoMesh
