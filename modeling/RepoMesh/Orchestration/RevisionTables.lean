/-
# Consistent revision tables

What holds between any two statements of the transactions that revise plans: the locks are those of the
transactions under way, a plan that one of them has written is still the one it found, and a revision it
has inserted has the next number of its plan and a key that nobody has stored. So the revisions of a plan
are numbered 1, 2, 3, ..., and each key is stored with one revision, beside the one write of its plan.
-/
import RepoMesh.Foundation.Versioned
import RepoMesh.Orchestration.PlanRevisions

namespace RepoMesh
namespace Orchestration

open Async (Prog)
open Delivery (UUID)
open Text
open RevisionDatabase

/-! ## What a plan becomes -/

theorem ExecutionPlan.appendTasks_ok {p p' : ExecutionPlan} {items : List PlannedRepositoryTask}
    (h : p.appendTasks items = .ok p') :
    p'.id = p.id ∧ p'.createdByAgentId = p.createdByAgentId ∧ p'.version = p.version + 1 ∧
      p.revised p' = p' := by
  unfold appendTasks ifInProgress at h
  split_ifs at h
  split at h
  · cases h
  · split at h
    · cases h
    · obtain rfl := Except.ok.inj h
      refine ⟨rfl, rfl, rfl, ?_⟩
      unfold revised
      rw [dif_pos]

theorem ExecutionPlan.appendTasks_error {p : ExecutionPlan} {items : List PlannedRepositoryTask}
    {e : Raised} (h : p.appendTasks items = .error e) : ∃ message, e = .taskConflict message := by
  have hbatches : ∀ rounds satisfied remaining e',
      appendedBatches rounds satisfied remaining = .error e' → ∃ message, e' = .taskConflict message := by
    intro rounds
    induction rounds with
    | zero => intro satisfied remaining e' he; cases he
    | succ rounds ih =>
      intro satisfied remaining e' he
      simp only [appendedBatches] at he
      split_ifs at he
      · exact ⟨_, (Except.error.inj he).symm⟩
      · cases hrest : appendedBatches rounds (satisfied ++ repositoryIds (readyItems satisfied remaining))
            (withoutItems (readyItems satisfied remaining) remaining) with
        | ok later =>
          rw [hrest] at he
          cases he
        | error e'' =>
          rw [hrest] at he
          obtain rfl := Except.error.inj he
          exact ih _ _ _ hrest
  unfold appendTasks ifInProgress at h
  split at h
  · split at h
    · exact ⟨_, (Except.error.inj h).symm⟩
    split at h
    · exact ⟨_, (Except.error.inj h).symm⟩
    split at h
    · exact ⟨_, (Except.error.inj h).symm⟩
    split at h
    · rename_i refusal hrefusal
      obtain rfl := Except.error.inj h
      obtain ⟨item, -, hitem⟩ := List.exists_of_findSome?_eq_some hrefusal
      split_ifs at hitem
      · exact ⟨_, (Option.some.inj hitem).symm⟩
      · exact ⟨_, (Option.some.inj hitem).symm⟩
    · split at h
      · rename_i refusal hfails
        obtain rfl := Except.error.inj h
        exact hbatches _ _ _ _ hfails
      · cases h
  · exact ⟨_, (Except.error.inj h).symm⟩

/-- What may become of a plan's row: it keeps its owner, and its version is raised by every write. -/
def Succeeds (plan plan' : ExecutionPlan) : Prop :=
  (plan'.id = plan.id ∧ plan'.createdByAgentId = plan.createdByAgentId) ∧
    (plan' = plan ∨ plan.version < plan'.version)

theorem keeps_succeeds : Versioned.Keeps ExecutionPlan.version Succeeds where
  refl := fun _ => ⟨⟨rfl, rfl⟩, .inl rfl⟩
  trans := by
    rintro a b c ⟨⟨hid, howner⟩, hab⟩ ⟨⟨hid', howner'⟩, hbc⟩
    exact ⟨⟨hid'.trans hid, howner'.trans howner⟩,
      (Versioned.keeps_version ExecutionPlan.version).trans a b c hab hbc⟩
  version := fun _ _ h => h.2

theorem succeeds_of_appendTasks {p p' : ExecutionPlan} {items : List PlannedRepositoryTask}
    (h : p.appendTasks items = .ok p') : Succeeds p p' := by
  obtain ⟨hid, howner, hversion, -⟩ := ExecutionPlan.appendTasks_ok h
  exact ⟨⟨hid, howner⟩, .inr (by omega)⟩

/-- A plan that was read. -/
abbrev ReadPlan (s : RevisionDatabase) (plan : ExecutionPlan) : Prop :=
  Versioned.Seen RevisionDatabase.plans Succeeds s plan.id plan

/-! ## Consistent tables -/

/-- A revision and the write that it is stored beside: whose plan, from which version, which tasks. -/
structure Describes (record : ExecutionPlanRevisionRecord) (write : PlanWrite) : Prop where
  plan : record.planId = write.before.id
  base : record.basePlanVersion = write.before.version
  result : record.resultPlanVersion = some write.after.version
  owner : record.actorAgentId = write.before.createdByAgentId
  appended : ∃ appended, write.before.appendTasks appended = .ok write.after ∧
    record.appendedItems = appended.map itemDocument
  named : isBlank record.idempotencyKey = false

/-- The revisions of each plan are numbered 1, 2, 3, ... in the order in which they were stored. -/
def Numbered (s : RevisionDatabase) : Prop :=
  ∀ planId, (s.ofPlan planId).map (·.revision) = List.range' 1 (s.ofPlan planId).length

/-- No key is stored twice; and the plans were written once for each stored revision, with the tasks
that it names. -/
structure OncePerKey (s : RevisionDatabase) : Prop where
  keys : (s.revisions.map (·.idempotencyKey)).Nodup
  landed : s.landed.map (·.2) = s.revisions.map some
  described : ∀ landing ∈ s.landed, ∀ record, landing.2 = some record → Describes record landing.1

/-- The row that a transaction holds. -/
def OpenTransaction.row (t : OpenTransaction) : Option UUID := t.written.map fun write => write.before.id

/-- The key that a transaction holds. -/
def OpenTransaction.key (t : OpenTransaction) : Option String :=
  t.added.map fun record => record.idempotencyKey

/-- The rows that the calls hold. -/
def rowHeld (s : RevisionDatabase) (i : ℕ) : Option UUID := (s.transactions i).row

/-- The keys that the calls hold. -/
def keyHeld (s : RevisionDatabase) (i : ℕ) : Option String := (s.transactions i).key

/-- What holds between any two statements: the locks are those of the transactions under way; a plan
that a transaction has written is still the one it found; and a revision that it has inserted has the
next number of its plan and a key that nobody has stored. -/
structure Consistent (s : RevisionDatabase) : Prop where
  planIds : ∀ planId plan, s.plans planId = some plan → plan.id = planId
  rowLocks : Locks.Agree s.rowLock (rowHeld s)
  keyLocks : Locks.Agree s.keyLock (keyHeld s)
  written : ∀ i write, (s.transactions i).written = some write →
    s.plans write.before.id = some write.before ∧
      ∃ appended, write.before.appendTasks appended = .ok write.after
  added : ∀ i record, (s.transactions i).added = some record →
    (∃ write, (s.transactions i).written = some write ∧ Describes record write) ∧
      record.revision = (s.ofPlan record.planId).length + 1 ∧
      record.idempotencyKey ∉ s.revisions.map (·.idempotencyKey)
  numbered : Numbered s
  once : OncePerKey s
  owners : ∀ record ∈ s.revisions, isBlank record.idempotencyKey = false ∧
    ∃ plan, s.plans record.planId = some plan ∧ plan.createdByAgentId = record.actorAgentId

/-- What the others leave to call `i`: its transaction, what is stored, the plans but for newer
versions, and the revisions of a plan that it holds. -/
structure LeavesTo (i : ℕ) (s s' : RevisionDatabase) : Prop where
  transaction : s'.transactions i = s.transactions i
  missed : s'.missed i = s.missed i
  revisions : ∀ record ∈ s.revisions, record ∈ s'.revisions
  plans : Versioned.Kept RevisionDatabase.plans Succeeds s s'
  held : ∀ write, (s.transactions i).written = some write →
    s'.ofPlan write.before.id = s.ofPlan write.before.id

theorem LeavesTo.refl (i : ℕ) (s : RevisionDatabase) : LeavesTo i s s :=
  ⟨rfl, rfl, fun _ h => h, Versioned.Kept.refl keeps_succeeds s, fun _ _ => rfl⟩

theorem LeavesTo.trans {i : ℕ} {a b c : RevisionDatabase} (hab : LeavesTo i a b)
    (hbc : LeavesTo i b c) : LeavesTo i a c where
  transaction := hbc.transaction.trans hab.transaction
  missed := hbc.missed.trans hab.missed
  revisions := fun record h => hbc.revisions record (hab.revisions record h)
  plans := hab.plans.trans keeps_succeeds hbc.plans
  held := by
    intro write hwrite
    have hstill : (b.transactions i).written = some write := by rw [hab.transaction]; exact hwrite
    exact (hbc.held write hstill).trans (hab.held write hwrite)

/-- Calls that have done nothing yet. -/
def Untouched (i : ℕ) (s : RevisionDatabase) : Prop := s.transactions i = {} ∧ s.missed i = false

theorem consistent_of_unrevised {s : RevisionDatabase} (h : s.Unrevised) : Consistent s where
  planIds := h.planIds
  rowLocks := by
    intro planId i
    rw [h.rowLock, rowHeld, h.transactions]
    simp [OpenTransaction.row]
  keyLocks := by
    intro key i
    rw [h.keyLock, keyHeld, h.transactions]
    simp [OpenTransaction.key]
  written := by
    intro i write hwrite
    rw [h.transactions] at hwrite
    cases hwrite
  added := by
    intro i record hrecord
    rw [h.transactions] at hrecord
    cases hrecord
  numbered := by
    intro planId
    rw [ofPlan, h.revisions]
    rfl
  once :=
    { keys := by rw [h.revisions]; exact List.nodup_nil
      landed := by rw [h.landed, h.revisions]; rfl
      described := by rw [h.landed]; intro landing hlanding; cases hlanding }
  owners := by rw [h.revisions]; intro record hrecord; cases hrecord

/-! ## One statement -/

section

variable {s : RevisionDatabase} {i : ℕ}

theorem Consistent.row_holder (hs : Consistent s) {j : ℕ} {write write' : PlanWrite}
    (hwrite : (s.transactions i).written = some write)
    (hwrite' : (s.transactions j).written = some write') (hid : write.before.id = write'.before.id) :
    i = j := by
  refine hs.rowLocks.unique (k := write.before.id) ?_ ?_
  · rw [rowHeld, OpenTransaction.row, hwrite, Option.map_some]
  · rw [rowHeld, OpenTransaction.row, hwrite', Option.map_some, hid]

theorem Consistent.key_holder (hs : Consistent s) {j : ℕ} {record record' : ExecutionPlanRevisionRecord}
    (hrecord : (s.transactions i).added = some record)
    (hrecord' : (s.transactions j).added = some record')
    (hkey : record.idempotencyKey = record'.idempotencyKey) : i = j := by
  refine hs.keyLocks.unique (k := record.idempotencyKey) ?_ ?_
  · rw [keyHeld, OpenTransaction.key, hrecord, Option.map_some]
  · rw [keyHeld, OpenTransaction.key, hrecord', Option.map_some, hkey]

theorem Consistent.unique (hs : Consistent s) {record record' : ExecutionPlanRevisionRecord}
    (hrecord : record ∈ s.revisions) (hrecord' : record' ∈ s.revisions)
    (hkey : record.idempotencyKey = record'.idempotencyKey) : record = record' :=
  List.inj_on_of_nodup_map hs.once.keys hrecord hrecord' hkey

theorem mem_of_byKey {key : String} {record : ExecutionPlanRevisionRecord}
    (h : s.byKey key = some record) : record ∈ s.revisions ∧ record.idempotencyKey = key := by
  have hkey := List.find?_some h
  exact ⟨List.mem_of_find?_eq_some h, by simpa using hkey⟩

theorem Consistent.greatest (hs : Consistent s) (planId : UUID) :
    (((s.ofPlan planId).map (·.revision)).max?).getD 0 = (s.ofPlan planId).length := by
  rw [hs.numbered planId]
  generalize (s.ofPlan planId).length = n
  induction n with
  | zero => rfl
  | succ n ih =>
    have hmax : (List.range' 1 (n + 1)).max? = some (n + 1) := by
      refine List.max?_eq_some_iff.mpr ⟨?_, fun m hm => ?_⟩
      · exact List.mem_range'_1.mpr (by omega)
      · have hbounds := List.mem_range'_1.mp hm
        omega
    rw [hmax]
    rfl

theorem consistent_lookedUp (hs : Consistent s) (found : Option ExecutionPlanRevisionRecord) :
    Consistent (s.lookedUp i found) ∧ ∀ j, j ≠ i → LeavesTo j s (s.lookedUp i found) := by
  unfold lookedUp
  split
  · exact ⟨hs, fun j _ => LeavesTo.refl j s⟩
  · refine ⟨⟨hs.planIds, hs.rowLocks, hs.keyLocks, hs.written, hs.added, hs.numbered,
      ⟨hs.once.keys, hs.once.landed, hs.once.described⟩, hs.owners⟩, fun j hj => ?_⟩
    exact ⟨rfl, Function.update_of_ne hj _ _, fun _ h => h, Versioned.Kept.refl keeps_succeeds s,
      fun _ _ => rfl⟩

theorem held_update {β : Type} (f : OpenTransaction → Option β) (transactions : ℕ → OpenTransaction)
    (i : ℕ) (t : OpenTransaction) :
    (fun j => f (Function.update transactions i t j)) =
      Function.update (fun j => f (transactions j)) i (f t) := by
  funext j
  by_cases hj : j = i
  · rw [hj, Function.update_self, Function.update_self]
  · rw [Function.update_of_ne hj, Function.update_of_ne hj]

theorem held_update_self {β : Type} (f : OpenTransaction → Option β)
    (transactions : ℕ → OpenTransaction) (i : ℕ) {t : OpenTransaction} (h : f t = f (transactions i)) :
    (fun j => f (Function.update transactions i t j)) = fun j => f (transactions j) := by
  rw [held_update, h, Function.update_eq_self]

theorem transactions_writePlan {write : PlanWrite} :
    (s.writePlan i write).transactions i = ⟨some write, (s.transactions i).added⟩ :=
  Function.update_self ..

theorem transactions_insert {record : ExecutionPlanRevisionRecord} :
    (s.insert i record).transactions i = ⟨(s.transactions i).written, some record⟩ :=
  Function.update_self ..

theorem consistent_writePlan (hs : Consistent s) {write : PlanWrite}
    (hidle : s.transactions i = {}) (hfree : Locks.heldByOther (s.rowLock write.before.id) i = false)
    (hplan : s.plans write.before.id = some write.before)
    (happended : ∃ appended, write.before.appendTasks appended = .ok write.after) :
    Consistent (s.writePlan i write) ∧ ∀ j, j ≠ i → LeavesTo j s (s.writePlan i write) := by
  have hothers : ∀ j, j ≠ i → (s.writePlan i write).transactions j = s.transactions j :=
    fun j hj => Function.update_of_ne hj _ _
  have hown : (s.writePlan i write).transactions i = { written := some write } := by
    rw [transactions_writePlan, hidle]
  have hnone : rowHeld s i = none := by rw [rowHeld, hidle]; rfl
  have hrows : rowHeld (s.writePlan i write) =
      Function.update (rowHeld s) i (some write.before.id) :=
    held_update OpenTransaction.row s.transactions i _
  have hkeys : keyHeld (s.writePlan i write) = keyHeld s :=
    held_update_self OpenTransaction.key s.transactions i rfl
  refine ⟨⟨hs.planIds, ?_, ?_, fun j held hheld => ?_, fun j record hrecord => ?_, hs.numbered,
    ⟨hs.once.keys, hs.once.landed, hs.once.described⟩, hs.owners⟩, fun j hj => ?_⟩
  · rw [hrows]
    exact hs.rowLocks.taken hnone hfree
  · rw [hkeys]
    exact hs.keyLocks
  · by_cases hji : j = i
    · subst hji
      rw [hown] at hheld
      obtain rfl := Option.some.inj hheld
      exact ⟨hplan, happended⟩
    · rw [hothers j hji] at hheld
      exact hs.written j held hheld
  · by_cases hji : j = i
    · subst hji
      rw [hown] at hrecord
      cases hrecord
    · rw [hothers j hji] at hrecord ⊢
      exact hs.added j record hrecord
  · exact ⟨hothers j hj, rfl, fun _ h => h, Versioned.Kept.refl keeps_succeeds s, fun _ _ => rfl⟩

theorem consistent_insert (hs : Consistent s) {record : ExecutionPlanRevisionRecord}
    {write : PlanWrite} (hwritten : (s.transactions i).written = some write)
    (hadded : (s.transactions i).added = none) (hdescribes : Describes record write)
    (hrevision : record.revision = (s.ofPlan record.planId).length + 1)
    (hfree : Locks.heldByOther (s.keyLock record.idempotencyKey) i = false)
    (hkey : record.idempotencyKey ∉ s.revisions.map (·.idempotencyKey)) :
    Consistent (s.insert i record) ∧ ∀ j, j ≠ i → LeavesTo j s (s.insert i record) := by
  have hothers : ∀ j, j ≠ i → (s.insert i record).transactions j = s.transactions j :=
    fun j hj => Function.update_of_ne hj _ _
  have hown : (s.insert i record).transactions i = { written := some write, added := some record } := by
    rw [transactions_insert, hwritten]
  have hnone : keyHeld s i = none := by rw [keyHeld, OpenTransaction.key, hadded]; rfl
  have hrows : rowHeld (s.insert i record) = rowHeld s :=
    held_update_self OpenTransaction.row s.transactions i rfl
  have hkeys : keyHeld (s.insert i record) =
      Function.update (keyHeld s) i (some record.idempotencyKey) :=
    held_update OpenTransaction.key s.transactions i _
  refine ⟨⟨hs.planIds, ?_, ?_, fun j held hheld => ?_, fun j inserted hinserted => ?_, hs.numbered,
    ⟨hs.once.keys, hs.once.landed, hs.once.described⟩, hs.owners⟩, fun j hj => ?_⟩
  · rw [hrows]
    exact hs.rowLocks
  · rw [hkeys]
    exact hs.keyLocks.taken hnone hfree
  · by_cases hji : j = i
    · subst hji
      rw [hown] at hheld
      exact hs.written j held (by rw [hwritten]; exact hheld)
    · rw [hothers j hji] at hheld
      exact hs.written j held hheld
  · by_cases hji : j = i
    · subst hji
      rw [hown] at hinserted ⊢
      obtain rfl := Option.some.inj hinserted
      exact ⟨⟨write, rfl, hdescribes⟩, hrevision, hkey⟩
    · rw [hothers j hji] at hinserted ⊢
      exact hs.added j inserted hinserted
  · exact ⟨hothers j hj, rfl, fun _ h => h, Versioned.Kept.refl keeps_succeeds s, fun _ _ => rfl⟩

theorem transactions_release {j : ℕ} : (s.release i).transactions j =
    if j = i then {} else s.transactions j := by
  by_cases hj : j = i
  · rw [if_pos hj, hj]
    exact Function.update_self ..
  · rw [if_neg hj]
    exact Function.update_of_ne hj _ _

theorem rowHeld_release : rowHeld (s.release i) = Function.update (rowHeld s) i none :=
  held_update OpenTransaction.row s.transactions i {}

theorem keyHeld_release : keyHeld (s.release i) = Function.update (keyHeld s) i none :=
  held_update OpenTransaction.key s.transactions i {}

theorem consistent_release (hs : Consistent s) :
    Consistent (s.release i) ∧ ∀ j, j ≠ i → LeavesTo j s (s.release i) := by
  refine ⟨⟨hs.planIds, ?_, ?_, fun j write hwrite => ?_, fun j record hrecord => ?_, hs.numbered,
    ⟨hs.once.keys, hs.once.landed, hs.once.described⟩, hs.owners⟩, fun j hj => ?_⟩
  · rw [rowHeld_release]
    exact hs.rowLocks.released i
  · rw [keyHeld_release]
    exact hs.keyLocks.released i
  · rw [transactions_release] at hwrite
    split at hwrite
    · cases hwrite
    · exact hs.written j write hwrite
  · rw [transactions_release] at hrecord ⊢
    split at hrecord
    · cases hrecord
    · rw [if_neg (by assumption)]
      exact hs.added j record hrecord
  · refine ⟨?_, rfl, fun _ h => h, Versioned.Kept.refl keeps_succeeds s, fun _ _ => rfl⟩
    rw [transactions_release, if_neg hj]

/-- **A commit**: the plan and its revision are there for all, at once. -/
theorem consistent_landed (hs : Consistent s) {write : PlanWrite}
    {record : ExecutionPlanRevisionRecord} (hwrite : (s.transactions i).written = some write)
    (hrecord : (s.transactions i).added = some record) :
    Consistent ((s.apply (s.transactions i)).release i) ∧
      ∀ j, j ≠ i → LeavesTo j s ((s.apply (s.transactions i)).release i) := by
  obtain ⟨⟨write', hwrite', hdescribes⟩, hrevision, hkey⟩ := hs.added i record hrecord
  obtain rfl := Option.some.inj (hwrite.symm.trans hwrite')
  obtain ⟨hplan, appended, happended⟩ := hs.written i write hwrite
  obtain ⟨⟨hid, howner⟩, hversion⟩ := succeeds_of_appendTasks happended
  set s' := (s.apply (s.transactions i)).release i with hs'
  have hplans : s'.plans = Function.update s.plans write.before.id (some write.after) := by
    rw [hs', release, apply, hwrite]
  have hrevisions : s'.revisions = s.revisions ++ [record] := by
    show s.revisions ++ (s.transactions i).added.toList = _
    rw [hrecord]
    rfl
  have hlanded : s'.landed = s.landed ++ [(write, some record)] := by
    show s.landed ++ ((s.transactions i).written.map fun w => (w, (s.transactions i).added)).toList = _
    rw [hwrite, hrecord]
    rfl
  have htransactions : ∀ j, s'.transactions j = if j = i then {} else s.transactions j :=
    fun j => transactions_release
  have hofPlan : ∀ planId, s'.ofPlan planId =
      s.ofPlan planId ++ if record.planId = planId then [record] else [] := by
    intro planId
    rw [ofPlan, hrevisions, List.filter_append, ofPlan]
    congr 1
    simp only [List.filter_cons, List.filter_nil, beq_iff_eq]
  -- Another transaction holds another plan.
  have hother : ∀ j, j ≠ i → ∀ held, (s.transactions j).written = some held →
      write.before.id ≠ held.before.id :=
    fun j hj held hheld heq => hj (hs.row_holder hwrite hheld heq).symm
  have hkept : Versioned.Kept RevisionDatabase.plans Succeeds s s' := by
    intro planId plan hget
    by_cases heq : planId = write.before.id
    · subst heq
      obtain rfl := Option.some.inj (hplan.symm.trans hget)
      exact ⟨write.after, by rw [hplans, Function.update_self], ⟨hid, howner⟩, hversion⟩
    · exact ⟨plan, by rw [hplans, Function.update_of_ne heq]; exact hget, keeps_succeeds.refl plan⟩
  have hfree : ∀ j, j ≠ i → ∀ held, (s.transactions j).written = some held →
      s'.ofPlan held.before.id = s.ofPlan held.before.id := by
    intro j hj held hheld
    rw [hofPlan, if_neg, List.append_nil]
    rw [hdescribes.plan]
    exact hother j hj held hheld
  refine ⟨⟨fun planId plan hget => ?_, ?_, ?_, fun j held hheld => ?_, fun j inserted hinserted => ?_,
    fun planId => ?_, ⟨?_, ?_, fun landing hlanding => ?_⟩, fun stored hstored => ?_⟩, fun j hj => ?_⟩
  · rw [hplans] at hget
    by_cases heq : planId = write.before.id
    · subst heq
      rw [Function.update_self] at hget
      rw [← Option.some.inj hget]
      exact hid
    · rw [Function.update_of_ne heq] at hget
      exact hs.planIds planId plan hget
  · exact rowHeld_release (s := s.apply (s.transactions i)) ▸ hs.rowLocks.released i
  · exact keyHeld_release (s := s.apply (s.transactions i)) ▸ hs.keyLocks.released i
  · rw [htransactions] at hheld
    split at hheld
    · cases hheld
    · rename_i hj
      have hne := hother j hj held hheld
      rw [hplans, Function.update_of_ne (Ne.symm hne)]
      exact hs.written j held hheld
  · rw [htransactions] at hinserted ⊢
    split at hinserted
    · cases hinserted
    · rename_i hj
      rw [if_neg hj]
      obtain ⟨⟨held, hheld, hdescribes'⟩, hnumber, hnew⟩ := hs.added j inserted hinserted
      refine ⟨⟨held, hheld, hdescribes'⟩, ?_, ?_⟩
      · rw [hdescribes'.plan, hfree j hj held hheld, ← hdescribes'.plan]
        exact hnumber
      · rw [hrevisions, List.map_append, List.mem_append, List.map_singleton, List.mem_singleton]
        rintro (hold | hsame)
        · exact hnew hold
        · exact hj (hs.key_holder hinserted hrecord hsame)
  · rw [hofPlan]
    by_cases hsame : record.planId = planId
    · subst hsame
      rw [if_pos rfl, List.map_append, hs.numbered, List.length_append, List.length_singleton,
        List.range'_concat, List.map_singleton, hrevision]
      congr 2
      omega
    · rw [if_neg hsame, List.append_nil]
      exact hs.numbered planId
  · rw [hrevisions, List.map_append, List.map_singleton]
    exact List.nodup_append.mpr ⟨hs.once.keys, List.nodup_singleton _, fun key hold key' hnew heq =>
      hkey (by rw [← List.mem_singleton.mp hnew, ← heq]; exact hold)⟩
  · rw [hlanded, hrevisions, List.map_append, List.map_append, hs.once.landed]
    rfl
  · rw [hlanded] at hlanding
    rcases List.mem_append.mp hlanding with hold | hnew
    · exact hs.once.described landing hold
    · rw [List.mem_singleton.mp hnew]
      intro record' heq
      obtain rfl := Option.some.inj heq
      exact hdescribes
  · rw [hrevisions] at hstored
    rcases List.mem_append.mp hstored with hold | hnew
    · obtain ⟨hnamed, plan, hget, hactor⟩ := hs.owners stored hold
      obtain ⟨plan', hget', ⟨-, howner'⟩, -⟩ := hkept _ _ hget
      exact ⟨hnamed, plan', hget', howner'.trans hactor⟩
    · obtain rfl := List.mem_singleton.mp hnew
      refine ⟨hdescribes.named, write.after, ?_, howner.trans hdescribes.owner.symm⟩
      rw [hplans, hdescribes.plan, Function.update_self]
  · refine ⟨?_, rfl, fun stored hstored => ?_, hkept, hfree j hj⟩
    · rw [htransactions, if_neg hj]
    · rw [hrevisions]
      exact List.mem_append_left _ hstored

theorem consistent_commit_idle (hs : Consistent s) (hidle : s.transactions i = {}) :
    Consistent ((s.apply (s.transactions i)).release i) ∧
      ∀ j, j ≠ i → LeavesTo j s ((s.apply (s.transactions i)).release i) := by
  have hsame : s.apply (s.transactions i) = s := by
    rw [hidle, apply]
    simp
  rw [hsame]
  exact consistent_release hs

theorem consistent_others {s' : RevisionDatabase} (hs : Consistent s) (h : OtherWriters s s') :
    Consistent s' ∧ ∀ j, LeavesTo j s s' := by
  cases h with
  | teamsChanged repositoryTeams =>
    exact ⟨⟨hs.planIds, hs.rowLocks, hs.keyLocks, hs.written, hs.added, hs.numbered,
      ⟨hs.once.keys, hs.once.landed, hs.once.described⟩, hs.owners⟩,
      fun j => ⟨rfl, rfl, fun _ h => h, Versioned.Kept.refl keeps_succeeds s, fun _ _ => rfl⟩⟩
  | planAdded plan hfree =>
    have hother : ∀ planId plan', s.plans planId = some plan' →
        Function.update s.plans plan.id (some plan) planId = some plan' := by
      intro planId plan' hget
      rw [Function.update_of_ne]
      · exact hget
      · rintro rfl
        rw [hfree] at hget
        cases hget
    refine ⟨⟨fun planId plan' hget => ?_, hs.rowLocks, hs.keyLocks, fun j write hwrite => ?_, hs.added,
      hs.numbered, ⟨hs.once.keys, hs.once.landed, hs.once.described⟩, fun record hrecord => ?_⟩,
      fun j => ⟨rfl, rfl, fun _ h => h, fun planId plan' hget => ?_, fun _ _ => rfl⟩⟩
    · by_cases hid : planId = plan.id
      · subst hid
        have hnew : Function.update s.plans plan.id (some plan) plan.id = some plan :=
          Function.update_self ..
        rw [Option.some.inj (hnew.symm.trans hget)]
      · exact hs.planIds planId plan' ((Function.update_of_ne hid _ _).symm.trans hget)
    · obtain ⟨hget, happended⟩ := hs.written j write hwrite
      exact ⟨hother _ _ hget, happended⟩
    · obtain ⟨hnamed, plan', hget, hactor⟩ := hs.owners record hrecord
      exact ⟨hnamed, plan', hother _ _ hget, hactor⟩
    · exact ⟨plan', hother _ _ hget, keeps_succeeds.refl plan'⟩
  | planWritten plan plan' hplan hfree hid howner hversion =>
    have hkept : ∀ planId old, s.plans planId = some old → ∃ new,
        Function.update s.plans plan.id (some plan') planId = some new ∧ Succeeds old new := by
      intro planId old hget
      by_cases heq : planId = plan.id
      · subst heq
        obtain rfl := Option.some.inj (hplan.symm.trans hget)
        exact ⟨plan', Function.update_self .., ⟨hid, howner⟩, .inr hversion⟩
      · exact ⟨old, (Function.update_of_ne heq _ _).trans hget, keeps_succeeds.refl old⟩
    refine ⟨⟨fun planId old hget => ?_, hs.rowLocks, hs.keyLocks, fun j write hwrite => ?_, hs.added,
      hs.numbered, ⟨hs.once.keys, hs.once.landed, hs.once.described⟩, fun record hrecord => ?_⟩,
      fun j => ⟨rfl, rfl, fun _ h => h, hkept, fun _ _ => rfl⟩⟩
    · by_cases heq : planId = plan.id
      · subst heq
        have hnew : Function.update s.plans plan.id (some plan') plan.id = some plan' :=
          Function.update_self ..
        rw [← Option.some.inj (hnew.symm.trans hget), hid]
      · exact hs.planIds planId old ((Function.update_of_ne heq _ _).symm.trans hget)
    · -- Nobody holds the plan that is written.
      obtain ⟨hget, happended⟩ := hs.written j write hwrite
      refine ⟨?_, happended⟩
      refine (Function.update_of_ne (fun heq => ?_) _ _).trans hget
      have hlock : s.rowLock write.before.id = some j :=
        (hs.rowLocks _ j).mpr (by rw [rowHeld, OpenTransaction.row, hwrite, Option.map_some])
      rw [heq, hfree] at hlock
      cases hlock
    · obtain ⟨hnamed, old, hget, hactor⟩ := hs.owners record hrecord
      obtain ⟨new, hnew, ⟨-, howner'⟩, -⟩ := hkept _ _ hget
      exact ⟨hnamed, new, hnew, howner'.trans hactor⟩

end

end Orchestration
end RepoMesh
