/-
# Keys of plan revisions

What `DynamicPlanRevisionService.append` answers in every interleaving, by rely and guarantee. A request
whose key is stored already is answered from the revision stored with it; `replay` compares the two by all
but the contents of the tasks, of which it only sees the repositories, while the transaction itself, which
looks the key up again, compares them in full.
-/
import RepoMesh.Foundation.Fallible
import RepoMesh.Orchestration.RevisionTables

namespace RepoMesh
namespace Orchestration

open Async (Prog)
open Delivery (UUID)
open Text
open RevisionDatabase

/-! ## What a request is answered -/

/-- The document of what an item of the request asks for. -/
def requestDocument (item : AppendPlanTaskInput) : AppendedItem where
  repositoryId := item.repositoryId
  title := item.title
  instruction := item.instruction
  acceptance := item.acceptance
  dependsOn := item.dependsOn
  tests := item.tests
  testPaths := item.testPaths

theorem itemDocument_of_plannedTask {item : AppendPlanTaskInput} {task : PlannedRepositoryTask}
    (h : plannedTask item = .ok task) : itemDocument task = requestDocument item := by
  unfold plannedTask at h
  split_ifs at h
  rw [← Except.ok.inj h]
  rfl

theorem documents_of_planned {items : List AppendPlanTaskInput} {appended : List PlannedRepositoryTask}
    (h : items.mapM plannedTask = .ok appended) :
    appended.map itemDocument = items.map requestDocument := by
  have hall := Fallible.mapM_ok h
  clear h
  induction hall with
  | nil => rfl
  | cons htask _ ih => rw [List.map_cons, List.map_cons, itemDocument_of_plannedTask htask, ih]

/-- The request means what the revision records: the same plan, base version, actor and reason, and
the same tasks in all that they say. -/
structure SameMeaning (call : AppendCall) (record : ExecutionPlanRevisionRecord) : Prop where
  plan : record.planId = call.command.planId
  base : (record.basePlanVersion : ℤ) = call.command.expectedPlanVersion
  actor : record.actorAgentId = call.command.actorAgentId
  reason : record.reason = strip call.command.reason
  items : record.appendedItems = call.command.items.map requestDocument

/-- How a request is to be answered whose key is stored: it means what the revision records and gets
it back, or raises a conflict. -/
def Faithful (call : AppendCall) (record : ExecutionPlanRevisionRecord) (result : RevisionResult) :
    Prop :=
  (SameMeaning call record ∧ result = .ok record.view) ∨ ∃ message, result = .error (.conflict message)

/-- The request gives a reason, and if it is for the same plan, base version, actor and reason and
names the same repositories in the same order, then the rest of its tasks is the same too. -/
structure Discerned (call : AppendCall) (record : ExecutionPlanRevisionRecord) : Prop where
  reason : isBlank call.command.reason = false
  items : record.planId = call.command.planId →
    (record.basePlanVersion : ℤ) = call.command.expectedPlanVersion →
    record.actorAgentId = call.command.actorAgentId → record.reason = strip call.command.reason →
    record.appendedItems.map (·.repositoryId) = call.command.items.map (·.repositoryId) →
    record.appendedItems = call.command.items.map requestDocument

/-- **What `replay` answers is faithful exactly where the request can be told apart.** -/
theorem faithful_replayed_iff {call : AppendCall} {record : ExecutionPlanRevisionRecord}
    (hreason : isBlank call.command.reason = false) :
    Faithful call record (replayed call.command record) ↔ Discerned call record := by
  unfold replayed
  split_ifs with hdiffers
  · refine ⟨fun _ => ⟨hreason, fun hplan hbase hactor hsame hids => ?_⟩, fun _ => .inr ⟨_, rfl⟩⟩
    rcases hdiffers with h | h | h | h | h
    · exact absurd hplan h
    · exact absurd hbase h
    · exact absurd hactor h
    · exact absurd hsame h
    · exact absurd hids h
  · simp only [not_or, not_not] at hdiffers
    obtain ⟨hplan, hbase, hactor, hsame, hids⟩ := hdiffers
    constructor
    · rintro (⟨hmeaning, -⟩ | ⟨message, hconflict⟩)
      · exact ⟨hreason, fun _ _ _ _ _ => hmeaning.items⟩
      · cases hconflict
    · intro hdiscerned
      exact .inl ⟨⟨hplan, hbase, hactor, hsame, hdiscerned.items hplan hbase hactor hsame hids⟩, rfl⟩

/-- The outcome of a commit: refused for its reason or its key; answered from the revision that the
key was stored with when it was looked up; or, when it was looked up in vain, the revision that is
stored now, a conflict, or the refusal of a task that is none. -/
inductive Outcome (i : ℕ) (call : AppendCall) (result : RevisionResult) (s : RevisionDatabase) : Prop
  | refused (message : String) (hmissed : s.missed i = false)
      (hblank : isBlank call.command.reason ∨ isBlank call.idempotencyKey)
      (hresult : result = .error (.orchestration (.valueError message)))
  | replayed (record : ExecutionPlanRevisionRecord) (hmissed : s.missed i = false)
      (hreason : isBlank call.command.reason = false) (hrecord : record ∈ s.revisions)
      (hkey : record.idempotencyKey = strip call.idempotencyKey)
      (hresult : result = replayed call.command record)
  | stored (record : ExecutionPlanRevisionRecord) (hmissed : s.missed i = true)
      (hrecord : record ∈ s.revisions) (hkey : record.idempotencyKey = strip call.idempotencyKey)
      (hmeaning : SameMeaning call record) (hresult : result = .ok record.view)
  | conflict (message : String) (hmissed : s.missed i = true)
      (hresult : result = .error (.conflict message))
  | malformed (e : Raised) (hmissed : s.missed i = true)
      (hitems : call.command.items.mapM plannedTask = .error e)
      (hresult : result = .error (.orchestration e))

theorem Outcome.kept {i : ℕ} {call : AppendCall} {result : RevisionResult} {s s' : RevisionDatabase}
    (h : Outcome i call result s) (hleaves : LeavesTo i s s') : Outcome i call result s' := by
  cases h with
  | refused message hmissed hblank hresult =>
    exact .refused message (hleaves.missed.trans hmissed) hblank hresult
  | replayed record hmissed hreason hrecord hkey hresult =>
    exact .replayed record (hleaves.missed.trans hmissed) hreason (hleaves.revisions record hrecord)
      hkey hresult
  | stored record hmissed hrecord hkey hmeaning hresult =>
    exact .stored record (hleaves.missed.trans hmissed) (hleaves.revisions record hrecord) hkey
      hmeaning hresult
  | conflict message hmissed hresult => exact .conflict message (hleaves.missed.trans hmissed) hresult
  | malformed e hmissed hitems hresult =>
    exact .malformed e (hleaves.missed.trans hmissed) hitems hresult

/-- What holds where call `i` performs an operation: a plan is written by a transaction that has
written nothing, from what was read; a revision is inserted beside the write of its plan, with the
next number; nothing is committed by halves; and what the caller is answered is an outcome. -/
def Performed (i : ℕ) : RevisionOp → RevisionDatabase → Prop
  | .updatePlan original updated, s => s.transactions i = {} ∧ ReadPlan s original ∧
      ∃ appended, original.appendTasks appended = .ok updated
  | .addRevision record, s => ∃ write, (s.transactions i).written = some write ∧
      (s.transactions i).added = none ∧ Describes record write ∧
      record.revision = (s.ofPlan record.planId).length + 1
  | .commit, s => s.transactions i = {} ∨
      ∃ write record, (s.transactions i).written = some write ∧ (s.transactions i).added = some record
  | .reply call result, s => call.command.mode = "commit" → Outcome i call result s
  | _, _ => True

/-- **One statement** keeps the tables consistent, and leaves the others what is theirs. -/
theorem consistent_execute {i : ℕ} {op : RevisionOp} {s s' : RevisionDatabase}
    {r : Except RevisionRaised op.Answer} (hs : Consistent s) (hop : Performed i op s)
    (h : executeRevision i op s = some (r, s')) :
    Consistent s' ∧ ∀ j, j ≠ i → LeavesTo j s s' := by
  have hsame : Consistent s ∧ ∀ j, j ≠ i → LeavesTo j s s := ⟨hs, fun j _ => LeavesTo.refl j s⟩
  cases op with
  | findRevision key =>
    obtain ⟨-, rfl⟩ := Prod.mk.inj (Option.some.inj h)
    exact consistent_lookedUp hs _
  | getPlan planId =>
    obtain ⟨-, rfl⟩ := Prod.mk.inj (Option.some.inj h)
    exact hsame
  | repositoryTeams projectId =>
    obtain ⟨-, rfl⟩ := Prod.mk.inj (Option.some.inj h)
    exact hsame
  | newId =>
    obtain ⟨-, rfl⟩ := Prod.mk.inj (Option.some.inj h)
    exact ⟨⟨hs.planIds, hs.rowLocks, hs.keyLocks, hs.written, hs.added, hs.numbered,
      ⟨hs.once.keys, hs.once.landed, hs.once.described⟩, hs.owners⟩,
      fun j _ => ⟨rfl, rfl, fun _ h => h, Versioned.Kept.refl keeps_succeeds s, fun _ _ => rfl⟩⟩
  | updatePlan original updated =>
    obtain ⟨hidle, hread, appended, happended⟩ := hop
    rw [executeRevision] at h
    split at h
    · cases h
    · rename_i hfree
      split at h
      · rename_i row hrow
        split at h
        · rename_i hversion
          obtain ⟨-, rfl⟩ := Prod.mk.inj (Option.some.inj h)
          -- The row is the plan that was read, as its version is.
          obtain rfl := hread.current keeps_succeeds hrow hversion
          rw [(ExecutionPlan.appendTasks_ok happended).2.2.2]
          exact consistent_writePlan hs hidle (Bool.eq_false_iff.mpr hfree) hrow ⟨appended, happended⟩
        · obtain ⟨-, rfl⟩ := Prod.mk.inj (Option.some.inj h)
          exact hsame
      · obtain ⟨-, rfl⟩ := Prod.mk.inj (Option.some.inj h)
        exact hsame
  | maxRevision planId =>
    obtain ⟨-, rfl⟩ := Prod.mk.inj (Option.some.inj h)
    exact hsame
  | addRevision record =>
    obtain ⟨write, hwritten, hadded, hdescribes, hrevision⟩ := hop
    rw [executeRevision] at h
    split at h
    · cases h
    · rename_i hfree
      split at h
      · obtain ⟨-, rfl⟩ := Prod.mk.inj (Option.some.inj h)
        exact hsame
      · rename_i hallowed
        obtain ⟨-, rfl⟩ := Prod.mk.inj (Option.some.inj h)
        refine consistent_insert hs hwritten hadded hdescribes hrevision (Bool.eq_false_iff.mpr hfree)
          fun hmem => hallowed ?_
        obtain ⟨stored, hstored, hkey⟩ := List.mem_map.mp hmem
        exact ⟨stored, hstored, .inr (.inl hkey)⟩
  | commit =>
    obtain ⟨-, rfl⟩ := Prod.mk.inj (Option.some.inj h)
    rcases hop with hidle | ⟨write, record, hwritten, hadded⟩
    · exact consistent_commit_idle hs hidle
    · exact consistent_landed hs hwritten hadded
  | rollback =>
    obtain ⟨-, rfl⟩ := Prod.mk.inj (Option.some.inj h)
    exact consistent_release hs
  | reply call result =>
    obtain ⟨-, rfl⟩ := Prod.mk.inj (Option.some.inj h)
    exact hsame

/-! ## One call among others -/

/-- How the operations of call `i` are met while others are under way. -/
abbrev AmongOthers (i : ℕ) : Prog.Spec RevisionOp.Answer RevisionRaised RevisionDatabase :=
  Prog.attended (LeavesTo i) Consistent (revisionCrew.Exec i) (Performed i)

theorem amongOthers_mono (i : ℕ) : (AmongOthers i).Mono := Prog.attended_mono

/-- The revision that a commit stores, or finds stored, for what it was asked. -/
structure StoredFor (original : ExecutionPlan) (actorAgentId : UUID) (reason : String)
    (appended : List PlannedRepositoryTask) (idempotencyKey : String)
    (record : ExecutionPlanRevisionRecord) : Prop where
  plan : record.planId = original.id
  base : record.basePlanVersion = original.version
  actor : record.actorAgentId = actorAgentId
  reason : record.reason = strip reason
  items : record.appendedItems = appended.map itemDocument
  key : record.idempotencyKey = idempotencyKey

section

variable {i : ℕ} {s : RevisionDatabase} {original updated : ExecutionPlan} {actorAgentId : UUID}
  {reason idempotencyKey : String} {appended : List PlannedRepositoryTask}

theorem storedFor_of_assertReplay (hs : Consistent s) (hread : ReadPlan s original)
    (howner : original.createdByAgentId = actorAgentId) {record : ExecutionPlanRevisionRecord}
    (hrecord : record ∈ s.revisions) (hkey : record.idempotencyKey = idempotencyKey)
    {view : DynamicPlanRevisionView} (h : assertReplay record original appended reason = .ok view) :
    StoredFor original actorAgentId reason appended idempotencyKey record ∧ view = record.view := by
  unfold assertReplay at h
  split_ifs at h with hdiffers
  simp only [not_or, not_not] at hdiffers
  obtain ⟨hplan, hbase, hreason, hitems⟩ := hdiffers
  obtain ⟨-, plan, hget, hactor⟩ := hs.owners record hrecord
  obtain ⟨plan', hget', ⟨-, howner'⟩, -⟩ := hread
  rw [hplan] at hget
  obtain rfl := Option.some.inj (hget.symm.trans hget')
  refine ⟨⟨hplan, hbase, ?_, hreason, hitems, hkey⟩, (Except.ok.inj h).symm⟩
  rw [← hactor, howner', howner]

theorem assertReplay_error {record : ExecutionPlanRevisionRecord} {e : RevisionRaised}
    (h : assertReplay record original appended reason = .error e) : ∃ message, e = .conflict message := by
  unfold assertReplay at h
  split_ifs at h
  exact ⟨_, (Except.error.inj h).symm⟩

/-- Where the body of the transaction ends: with the revision found, nothing written; or with the
plan and the revision written; or with what becomes a conflict. -/
def BodyEnds (i : ℕ) (original : ExecutionPlan) (actorAgentId : UUID) (reason : String)
    (appended : List PlannedRepositoryTask) (idempotencyKey : String) :
    RevisionResult → RevisionDatabase → Prop
  | .ok view, s => s.missed i = true ∧ ∃ record,
      StoredFor original actorAgentId reason appended idempotencyKey record ∧ view = record.view ∧
        (s.transactions i = {} ∧ record ∈ s.revisions ∨
          ∃ write, (s.transactions i).written = some write ∧ (s.transactions i).added = some record)
  | .error e, s => s.missed i = true ∧ ∃ message, conflictOf e = .conflict message

theorem wp_storeRevision (hread : ReadPlan s original)
    (happended : original.appendTasks appended = .ok updated)
    (howner : original.createdByAgentId = actorAgentId) (hnamed : isBlank idempotencyKey = false)
    (hidle : s.transactions i = {}) (hmissed : s.missed i = true) :
    Prog.wp (AmongOthers i)
      (storeRevision original updated actorAgentId reason appended idempotencyKey)
      (BodyEnds i original actorAgentId reason appended idempotencyKey) s := by
  -- The plan is written, if it is still the one that was read.
  intro s₁ h₁ hs₁
  have hread₁ : ReadPlan s₁ original := hread.kept keeps_succeeds h₁.plans
  have hidle₁ : s₁.transactions i = {} := h₁.transaction.trans hidle
  have hmissed₁ : s₁.missed i = true := h₁.missed.trans hmissed
  refine ⟨⟨hidle₁, hread₁, appended, happended⟩, fun r s₂ hexec hs₂ => ?_⟩
  have hlost : Prog.wp (AmongOthers i) (throw (.conflict "execution plan version changed"))
      (BodyEnds i original actorAgentId reason appended idempotencyKey) s₁ :=
    ⟨hmissed₁, _, rfl⟩
  replace hexec : executeRevision i (.updatePlan original updated) s₁ = some (r, s₂) := hexec
  rw [executeRevision] at hexec
  split at hexec
  · cases hexec
  split at hexec
  · rename_i row hrow
    split at hexec
    · rename_i hversion
      obtain ⟨rfl, rfl⟩ := Prod.mk.inj (Option.some.inj hexec)
      obtain rfl := hread₁.current keeps_succeeds hrow hversion
      rw [(ExecutionPlan.appendTasks_ok happended).2.2.2] at hs₂ ⊢
      have hwritten : (s₁.writePlan i ⟨row, updated⟩).transactions i =
          { written := some ⟨row, updated⟩ } := by
        rw [transactions_writePlan, hidle₁]
      -- The greatest number of the plan, which nobody raises while its row is held.
      intro s₃ h₃ hs₃
      refine ⟨trivial, fun r s₄ hexec hs₄ => ?_⟩
      obtain ⟨rfl, rfl⟩ := Prod.mk.inj (Option.some.inj hexec)
      have hwritten₃ : s₃.transactions i = { written := some ⟨row, updated⟩ } :=
        h₃.transaction.trans hwritten
      -- The identifier of the revision.
      intro s₅ h₅ hs₅
      refine ⟨trivial, fun r s₆ hexec hs₆ => ?_⟩
      obtain ⟨rfl, rfl⟩ := Prod.mk.inj (Option.some.inj hexec)
      have hwritten₅ : s₅.transactions i = { written := some ⟨row, updated⟩ } :=
        h₅.transaction.trans hwritten₃
      -- The revision is inserted.
      intro s₇ h₇ hs₇
      have hwritten₇ : s₇.transactions i = { written := some ⟨row, updated⟩ } :=
        h₇.transaction.trans hwritten₅
      have hmissed₇ : s₇.missed i = true :=
        h₇.missed.trans (h₅.missed.trans (h₃.missed.trans hmissed₁))
      have hcount : s₇.ofPlan row.id = s₃.ofPlan row.id := by
        have hheld₅ : s₅.ofPlan row.id = s₃.ofPlan row.id :=
          h₅.held ⟨row, updated⟩ (by rw [hwritten₃])
        have hheld₇ : s₇.ofPlan row.id = s₅.ofPlan row.id :=
          h₇.held ⟨row, updated⟩ (congrArg OpenTransaction.written hwritten₅)
        exact hheld₇.trans hheld₅
      refine ⟨⟨⟨row, updated⟩, by rw [hwritten₇], by rw [hwritten₇], ?_, ?_⟩, fun r s₈ hexec hs₈ => ?_⟩
      · exact ⟨rfl, rfl, rfl, howner.symm, ⟨appended, happended, rfl⟩, hnamed⟩
      · show 1 + _ = (s₇.ofPlan row.id).length + 1
        rw [hs₃.greatest row.id, hcount]
        exact Nat.add_comm ..
      · replace hexec : executeRevision i (.addRevision _) s₇ = some (r, s₈) := hexec
        rw [executeRevision] at hexec
        split at hexec
        · cases hexec
        split at hexec
        · obtain ⟨rfl, rfl⟩ := Prod.mk.inj (Option.some.inj hexec)
          exact ⟨hmissed₇, _, rfl⟩
        · obtain ⟨rfl, rfl⟩ := Prod.mk.inj (Option.some.inj hexec)
          refine ⟨hmissed₇, _, ⟨rfl, rfl, rfl, rfl, rfl, rfl⟩, rfl, .inr ⟨⟨row, updated⟩, ?_, ?_⟩⟩
          · rw [transactions_insert, hwritten₇]
          · rw [transactions_insert]
    · obtain ⟨rfl, rfl⟩ := Prod.mk.inj (Option.some.inj hexec)
      exact hlost
  · obtain ⟨rfl, rfl⟩ := Prod.mk.inj (Option.some.inj hexec)
    exact hlost

theorem wp_commitBody (hread : ReadPlan s original)
    (happended : original.appendTasks appended = .ok updated)
    (howner : original.createdByAgentId = actorAgentId) (hnamed : isBlank idempotencyKey = false)
    (hidle : s.transactions i = {}) (hmissed : s.missed i = true) :
    Prog.wp (AmongOthers i)
      (commitBody original updated actorAgentId reason appended idempotencyKey)
      (BodyEnds i original actorAgentId reason appended idempotencyKey) s := by
  intro s₁ h₁ hs₁
  refine ⟨trivial, fun r s₂ hexec hs₂ => ?_⟩
  obtain ⟨rfl, rfl⟩ := Prod.mk.inj (Option.some.inj hexec)
  have hread₁ : ReadPlan s₁ original := hread.kept keeps_succeeds h₁.plans
  have hidle₁ : s₁.transactions i = {} := h₁.transaction.trans hidle
  have hmissed₁ : s₁.missed i = true := h₁.missed.trans hmissed
  cases hfound : s₁.byKey idempotencyKey with
  | some record =>
    obtain ⟨hrecord, hkey⟩ := mem_of_byKey hfound
    show BodyEnds i original actorAgentId reason appended idempotencyKey
      (assertReplay record original appended reason) s₁
    cases hassert : assertReplay record original appended reason with
    | error e =>
      obtain ⟨message, rfl⟩ := assertReplay_error hassert
      exact ⟨hmissed₁, message, rfl⟩
    | ok view =>
      obtain ⟨hstored, hview⟩ :=
        storedFor_of_assertReplay hs₁ hread₁ howner hrecord hkey hassert
      exact ⟨hmissed₁, record, hstored, hview, .inl ⟨hidle₁, hrecord⟩⟩
  | none =>
    exact wp_storeRevision hread₁ happended howner hnamed hidle₁ (Function.update_self ..)

/-- **A commit that looked its key up in vain** ends with a revision stored for what it was asked, or
with a conflict. -/
theorem wp_commitRevision (hread : ReadPlan s original)
    (happended : original.appendTasks appended = .ok updated)
    (howner : original.createdByAgentId = actorAgentId) (hnamed : isBlank idempotencyKey = false)
    (hidle : s.transactions i = {}) (hmissed : s.missed i = true) :
    Prog.wp (AmongOthers i)
      (commitRevision original updated actorAgentId reason appended idempotencyKey)
      (fun r s' => s'.missed i = true ∧
        ((∃ record ∈ s'.revisions,
          StoredFor original actorAgentId reason appended idempotencyKey record ∧ r = .ok record.view) ∨
          ∃ message, r = .error (.conflict message))) s := by
  refine (Prog.wp_tryCatch (amongOthers_mono i) _ _ _ _).mpr ?_
  refine (Prog.wp_tryCatch (amongOthers_mono i) _ _ _ _).mpr ?_
  refine (Prog.wp_bind (amongOthers_mono i) _ _ _ _).mpr ?_
  have hbody : Prog.wp (AmongOthers i)
      (commitBody original updated actorAgentId reason appended idempotencyKey)
      (BodyEnds i original actorAgentId reason appended idempotencyKey) s :=
    wp_commitBody hread happended howner hnamed hidle hmissed
  refine Prog.wp_mono (amongOthers_mono i) ?_ hbody
  rintro (e | view) s₁ hends
  · -- It raised, and is rolled back.
    obtain ⟨hmissed₁, message, hconflict⟩ := hends
    intro s₂ h₂ hs₂
    refine ⟨trivial, fun r s₃ hexec hs₃ => ?_⟩
    obtain ⟨rfl, rfl⟩ := Prod.mk.inj (Option.some.inj hexec)
    exact ⟨h₂.missed.trans hmissed₁, .inr ⟨message, congrArg _ hconflict⟩⟩
  · obtain ⟨hmissed₁, record, hstored, rfl, hwhere⟩ := hends
    intro s₂ h₂ hs₂
    have hsettled : Performed i .commit s₂ := by
      rcases hwhere with ⟨hidle₁, -⟩ | ⟨write, hwritten, hadded⟩
      · exact .inl (h₂.transaction.trans hidle₁)
      · exact .inr ⟨write, record, by rw [h₂.transaction, hwritten], by rw [h₂.transaction, hadded]⟩
    refine ⟨hsettled, fun r s₃ hexec hs₃ => ?_⟩
    obtain ⟨rfl, rfl⟩ := Prod.mk.inj (Option.some.inj hexec)
    refine ⟨h₂.missed.trans hmissed₁, .inl ⟨record, ?_, hstored, rfl⟩⟩
    show record ∈ s₂.revisions ++ (s₂.transactions i).added.toList
    rcases hwhere with ⟨-, hrecord⟩ | ⟨write, -, hadded⟩
    · exact List.mem_append_left _ (h₂.revisions record hrecord)
    · rw [h₂.transaction, hadded]
      exact List.mem_append_right _ (List.mem_singleton_self record)

end

/-! ## Requests -/

section

variable {i : ℕ} {s : RevisionDatabase} {command : AppendPlanTasksCommand} {idempotencyKey : String}

theorem isBlank_strip (text : String) : isBlank (strip text) = isBlank text := by
  rw [isBlank, strip_strip]
  rfl

theorem planFor_error {stored : Option ExecutionPlan} {e : RevisionRaised}
    (h : planFor command stored = .error e) : ∃ message, e = .conflict message := by
  unfold planFor at h
  split at h
  · exact ⟨_, (Except.error.inj h).symm⟩
  · split_ifs at h
    · exact ⟨_, (Except.error.inj h).symm⟩
    · exact ⟨_, (Except.error.inj h).symm⟩

theorem planFor_ok {stored : Option ExecutionPlan} {plan : ExecutionPlan}
    (h : planFor command stored = .ok plan) :
    stored = some plan ∧ (plan.version : ℤ) = command.expectedPlanVersion ∧
      plan.createdByAgentId = command.actorAgentId := by
  unfold planFor at h
  split at h
  · cases h
  · split_ifs at h with hversion howner
    obtain rfl := Except.ok.inj h
    exact ⟨rfl, not_not.mp hversion, not_not.mp howner⟩

theorem appendedTo_error {plan : ExecutionPlan} {topology : Option (List UUID)} {e : RevisionRaised}
    (h : appendedTo command plan topology = .error e) :
    (∃ message, e = .conflict message) ∨
      ∃ e', command.items.mapM plannedTask = .error e' ∧ e = .orchestration e' := by
  unfold appendedTo at h
  split at h
  · exact .inl ⟨_, (Except.error.inj h).symm⟩
  split at h
  · rename_i e' hitems
    exact .inr ⟨e', hitems, (Except.error.inj h).symm⟩
  split at h
  · rename_i e' happend
    obtain ⟨message, rfl⟩ := ExecutionPlan.appendTasks_error happend
    exact .inl ⟨message, (Except.error.inj h).symm⟩
  · cases h

theorem appendedTo_ok {plan updated : ExecutionPlan} {topology : Option (List UUID)}
    {appended : List PlannedRepositoryTask}
    (h : appendedTo command plan topology = .ok (appended, updated)) :
    command.items.mapM plannedTask = .ok appended ∧ plan.appendTasks appended = .ok updated := by
  unfold appendedTo at h
  split at h
  · cases h
  split at h
  · cases h
  split at h
  · cases h
  · rename_i hitems _ updated' happend
    obtain ⟨rfl, rfl⟩ := Prod.mk.inj (Except.ok.inj h)
    exact ⟨hitems, happend⟩

theorem wp_appendFresh (hmodes : command.mode = "preview" ∨ command.mode = "commit")
    (hcommit : command.mode = "commit" → s.transactions i = {} ∧ s.missed i = true ∧
      isBlank idempotencyKey = false) :
    Prog.wp (AmongOthers i) (appendFresh command idempotencyKey)
      (fun r s' => command.mode = "commit" → Outcome i ⟨command, idempotencyKey⟩ r s') s := by
  -- The plan is read.
  intro s₁ h₁ hs₁
  refine ⟨trivial, fun r s₂ hexec hs₂ => ?_⟩
  obtain ⟨rfl, rfl⟩ := Prod.mk.inj (Option.some.inj hexec)
  show Prog.wp _ (Prog.lift (planFor command (s₁.plans command.planId)) >>= _) _ _
  cases hplanFor : planFor command (s₁.plans command.planId) with
  | error e =>
    obtain ⟨message, rfl⟩ := planFor_error hplanFor
    exact fun hmode => .conflict message (h₁.missed.trans (hcommit hmode).2.1) rfl
  | ok plan =>
    obtain ⟨hget, hversion, howner⟩ := planFor_ok hplanFor
    have hid : plan.id = command.planId := hs₁.planIds _ _ hget
    have hread : ReadPlan s₁ plan := Versioned.seen_of_get keeps_succeeds (hid ▸ hget)
    -- The project's teams are read.
    intro s₃ h₃ hs₃
    refine ⟨trivial, fun r s₄ hexec hs₄ => ?_⟩
    obtain ⟨rfl, rfl⟩ := Prod.mk.inj (Option.some.inj hexec)
    have hmissed₃ : command.mode = "commit" → s₃.missed i = true := fun hmode =>
      h₃.missed.trans (h₁.missed.trans (hcommit hmode).2.1)
    show Prog.wp _ (Prog.lift (appendedTo command plan (s₃.repositoryTeams plan.projectId)) >>= _) _ _
    cases happendedTo : appendedTo command plan (s₃.repositoryTeams plan.projectId) with
    | error e =>
      intro hmode
      rcases appendedTo_error happendedTo with ⟨message, rfl⟩ | ⟨e', hitems, rfl⟩
      · exact .conflict message (hmissed₃ hmode) rfl
      · exact .malformed e' (hmissed₃ hmode) hitems rfl
    | ok both =>
      obtain ⟨appended, updated⟩ := both
      obtain ⟨hitems, happended⟩ := appendedTo_ok happendedTo
      show Prog.wp _ (if command.mode = "preview" then
          previewRevision plan updated command.actorAgentId (strip command.reason) appended
        else commitRevision plan updated command.actorAgentId (strip command.reason) appended
          (strip idempotencyKey)) _ _
      by_cases hmode : command.mode = "commit"
      · rw [if_neg (by rw [hmode]; decide)]
        obtain ⟨hidle, -, hnamed⟩ := hcommit hmode
        refine Prog.wp_mono (amongOthers_mono i) ?_
          (wp_commitRevision (hread.kept keeps_succeeds h₃.plans) happended howner
            ((isBlank_strip _).trans hnamed) (h₃.transaction.trans (h₁.transaction.trans hidle))
            (hmissed₃ hmode))
        rintro r s₅ ⟨hmissed, ⟨record, hrecord, hstored, rfl⟩ | ⟨message, rfl⟩⟩ -
        · refine .stored record hmissed hrecord hstored.key ⟨?_, ?_, hstored.actor, ?_, ?_⟩ rfl
          · exact hstored.plan.trans hid
          · rw [hstored.base]
            exact hversion
          · rw [hstored.reason, strip_strip]
          · rw [hstored.items]
            exact documents_of_planned hitems
        · exact .conflict message hmissed rfl
      · rw [if_pos (hmodes.resolve_right hmode)]
        intro s₅ _ _
        refine ⟨trivial, fun r s₆ _ _ => ?_⟩
        cases r with
        | error e => exact fun h => absurd h hmode
        | ok id => exact fun h => absurd h hmode

/-- **A request**: a commit ends in an outcome, whatever the others do. -/
theorem wp_appendDynamic (huntouched : Untouched i s) :
    Prog.wp (AmongOthers i) (appendDynamic command idempotencyKey)
      (fun r s' => command.mode = "commit" → Outcome i ⟨command, idempotencyKey⟩ r s') s := by
  obtain ⟨hidle, hmissed⟩ := huntouched
  unfold appendDynamic
  by_cases hmodes : command.mode ≠ "preview" ∧ command.mode ≠ "commit"
  · rw [if_pos hmodes]
    exact fun hmode => absurd hmode hmodes.2
  rw [if_neg hmodes]
  have hknown : command.mode = "preview" ∨ command.mode = "commit" := by
    by_cases hpreview : command.mode = "preview"
    · exact .inl hpreview
    · exact .inr (not_not.mp fun hmode => hmodes ⟨hpreview, hmode⟩)
  by_cases hblank : isBlank command.reason ∨ isBlank idempotencyKey
  · rw [if_pos hblank]
    exact fun _ => .refused _ hmissed hblank rfl
  rw [if_neg hblank]
  obtain ⟨hreason, hnamed⟩ : isBlank command.reason = false ∧ isBlank idempotencyKey = false := by
    simpa [not_or] using hblank
  by_cases hmode : command.mode = "commit"
  · rw [if_pos hmode]
    intro s₁ h₁ hs₁
    refine ⟨trivial, fun r s₂ hexec hs₂ => ?_⟩
    obtain ⟨rfl, rfl⟩ := Prod.mk.inj (Option.some.inj hexec)
    cases hfound : s₁.byKey (strip idempotencyKey) with
    | some record =>
      obtain ⟨hrecord, hkey⟩ := mem_of_byKey hfound
      have houtcome : Outcome i ⟨command, idempotencyKey⟩ (replayed command record) s₁ :=
        .replayed record (h₁.missed.trans hmissed) hreason hrecord hkey rfl
      cases hreplayed : replayed command record with
      | error e =>
        rw [hreplayed] at houtcome
        show Prog.wp _ ((Prog.lift (replayed command record) >>= fun view => pure (some view)) >>= _) _ _
        rw [hreplayed]
        exact fun _ => houtcome
      | ok view =>
        rw [hreplayed] at houtcome
        show Prog.wp _ ((Prog.lift (replayed command record) >>= fun view => pure (some view)) >>= _) _ _
        rw [hreplayed]
        exact fun _ => houtcome
    | none =>
      exact wp_appendFresh hknown fun _ =>
        ⟨h₁.transaction.trans hidle, Function.update_self .., hnamed⟩
  · rw [if_neg hmode]
    exact wp_appendFresh hknown fun h => absurd h hmode

end

/-- **The service keeps its tables**, and answers every commit with an outcome. -/
theorem respects_revisionCrew :
    revisionCrew.Respects LeavesTo Consistent Performed Untouched where
  refl := LeavesTo.refl
  trans := fun i a b c => LeavesTo.trans
  exec := fun i op s r s' hs hop h => consistent_execute hs hop h
  environment := fun s s' hs h => consistent_others hs h
  fresh := fun i s s' huntouched hleaves =>
    ⟨hleaves.transaction.trans huntouched.1, hleaves.missed.trans huntouched.2⟩
  starts := by
    rintro i p s ⟨call, rfl⟩ huntouched hs
    refine (Prog.wp_resume _ _ (amongOthers_mono i) _ _).mpr ?_
    refine Prog.wp_mono (amongOthers_mono i) ?_ (wp_appendDynamic huntouched)
    intro r s₁ houtcome s₂ h₂ hs₂
    exact ⟨fun hmode => (houtcome hmode).kept h₂, fun _ _ _ _ _ _ => trivial⟩

/-- **Keys of plan revisions.** In every interleaving of requests and other writers of plans: no key is
stored twice, the plans are written once for each stored revision with the tasks that it names, and the
revisions of a plan are numbered 1, 2, 3, .... A commit whose key was stored when it was looked up is
answered faithfully exactly where its tasks can be told from those stored by their repositories alone;
one that looked its key up in vain is answered faithfully if its tasks are tasks, and whatever it gets
back is stored for what it means. -/
theorem append_faithful_iff {s : RevisionDatabase} (hs : s.Unrevised)
    {steps : List (Option (ℕ × RevisionOp) × RevisionDatabase)}
    {c : Async.Pool RevisionOp.Answer RevisionRaised Unit RevisionDatabase}
    (h : revisionCrew.Trace s steps c) :
    (∀ s' ∈ steps.map (·.2) ++ [c.state], OncePerKey s' ∧ Numbered s') ∧
      ∀ i call result s', (some (i, .reply call result), s') ∈ steps →
        call.command.mode = "commit" →
          (s'.missed i = false → ∀ record ∈ s'.revisions,
            record.idempotencyKey = strip call.idempotencyKey →
              (Faithful call record result ↔ Discerned call record)) ∧
          (s'.missed i = true →
            (∀ record ∈ s'.revisions, record.idempotencyKey = strip call.idempotencyKey →
              (∃ appended, call.command.items.mapM plannedTask = .ok appended) →
                Faithful call record result) ∧
            ∀ view, result = .ok view → ∃ record ∈ s'.revisions,
              record.idempotencyKey = strip call.idempotencyKey ∧ SameMeaning call record ∧
                view = record.view) := by
  obtain ⟨hevents, hend, -, -⟩ := h.sound respects_revisionCrew (consistent_of_unrevised hs)
    fun i => ⟨hs.transactions i, hs.missed i⟩
  refine ⟨fun s' hs' => ?_, fun i call result s' hreply hmode => ?_⟩
  · have hconsistent : Consistent s' := by
      rcases List.mem_append.mp hs' with hs' | hs'
      · obtain ⟨e, he, rfl⟩ := List.mem_map.mp hs'
        exact (hevents e he).1
      · rw [List.mem_singleton.mp hs']
        exact hend
    exact ⟨hconsistent.once, hconsistent.numbered⟩
  · obtain ⟨hs', hperformed⟩ := hevents _ hreply
    have houtcome : Outcome i call result s' := hperformed i _ rfl hmode
    refine ⟨fun hmissed record hrecord hkey => ?_, fun hmissed => ⟨fun record hrecord hkey hitems => ?_,
      fun view hview => ?_⟩⟩
    · cases houtcome with
      | refused message _ hblank hresult =>
        -- A stored key is not blank, so the reason is.
        have hnamed := (hs'.owners record hrecord).1
        rw [hkey, isBlank_strip] at hnamed
        have hreason : isBlank call.command.reason = true := by
          rcases hblank with hreason | hkey'
          · exact hreason
          · rw [hnamed] at hkey'
            cases hkey'
        constructor
        · rintro (⟨-, hok⟩ | ⟨message', hconflict⟩)
          · rw [hresult] at hok
            cases hok
          · rw [hresult] at hconflict
            cases hconflict
        · intro hdiscerned
          rw [hdiscerned.reason] at hreason
          cases hreason
      | replayed record' _ hreason hrecord' hkey' hresult =>
        obtain rfl := hs'.unique hrecord' hrecord (hkey'.trans hkey.symm)
        rw [hresult]
        exact faithful_replayed_iff hreason
      | stored _ hmissed' => rw [hmissed] at hmissed'; cases hmissed'
      | conflict _ hmissed' => rw [hmissed] at hmissed'; cases hmissed'
      | malformed _ hmissed' => rw [hmissed] at hmissed'; cases hmissed'
    · cases houtcome with
      | refused _ hmissed' => rw [hmissed] at hmissed'; cases hmissed'
      | replayed _ hmissed' => rw [hmissed] at hmissed'; cases hmissed'
      | stored record' _ hrecord' hkey' hmeaning hresult =>
        obtain rfl := hs'.unique hrecord' hrecord (hkey'.trans hkey.symm)
        exact .inl ⟨hmeaning, hresult⟩
      | conflict message _ hresult => exact .inr ⟨message, hresult⟩
      | malformed e _ hitems' hresult =>
        obtain ⟨appended, hitems⟩ := hitems
        rw [hitems] at hitems'
        cases hitems'
    · cases houtcome with
      | refused _ hmissed' => rw [hmissed] at hmissed'; cases hmissed'
      | replayed _ hmissed' => rw [hmissed] at hmissed'; cases hmissed'
      | stored record _ hrecord hkey hmeaning hresult =>
        rw [hresult] at hview
        exact ⟨record, hrecord, hkey, hmeaning, (Except.ok.inj hview).symm⟩
      | conflict _ _ hresult => rw [hresult] at hview; cases hview
      | malformed _ _ _ hresult => rw [hresult] at hview; cases hview

/-! ## A key that changes its meaning -/

/-- A plan of one task, owned by agent 9. -/
def samplePlan : ExecutionPlan where
  id := 1
  organizationId := 0
  projectId := 2
  createdByAgentId := 9
  batches :=
    [[{ repositoryId := 10
        title := "API"
        instruction := "Add the route"
        acceptance := ["tests pass"] }]]

/-- The plan stored, and a second repository in the project's teams. -/
def sampleTables : RevisionDatabase where
  plans := fun planId => if planId = 1 then some samplePlan else none
  repositoryTeams := fun _ => some [10, 11]
  uuid4 := fun n => 100 + n

/-- A commit that appends one task, under one key. -/
def sampleAppend (title : String) : AppendCall where
  command :=
    { planId := 1
      expectedPlanVersion := 1
      actorAgentId := 9
      reason := "discovered dependency"
      items :=
        [{ repositoryId := 11
           title
           instruction := "Add the adapter"
           acceptance := ["tests pass"] }] }
  idempotencyKey := "append-1"

theorem unrevised_sampleTables : sampleTables.Unrevised where
  planIds := by
    intro planId plan hplan
    unfold sampleTables at hplan
    dsimp only at hplan
    split_ifs at hplan with hid
    rw [← Option.some.inj hplan, hid]
    rfl
  revisions := rfl
  transactions := fun _ => rfl
  rowLock := fun _ => rfl
  keyLock := fun _ => rfl
  missed := fun _ => rfl
  landed := rfl

/-- The first request alone, and then a second one under its key that asks for another task. -/
def sampleRun : Option (List (Option RevisionOp × RevisionDatabase) × RevisionDatabase) :=
  (Prog.proceed (executeRevision 0) 20 (serveAppend (sampleAppend "Adapter")) sampleTables).bind
    fun first =>
      (Prog.proceed (executeRevision 1) 20 (serveAppend (sampleAppend "Rewrite")) first.2.2).map
        fun second => (second.1, second.2.2)

theorem trace_sampleRun {path : List (Option RevisionOp × RevisionDatabase)} {s : RevisionDatabase}
    (h : sampleRun = some (path, s)) :
    ∃ steps c, revisionCrew.Trace sampleTables steps c ∧ c.state = s ∧
      ∀ e ∈ path, (e.1.map fun op => (1, op), e.2) ∈ steps := by
  obtain ⟨⟨first, p, s₁⟩, hfirst, hrest⟩ := Option.bind_eq_some_iff.mp h
  obtain ⟨⟨second, p', s₂⟩, hsecond, heq⟩ := Option.map_eq_some_iff.mp hrest
  obtain ⟨rfl, rfl⟩ := Prod.mk.inj heq
  have hstarted : revisionCrew.Trace sampleTables ([] ++ [(none, sampleTables)])
      ⟨sampleTables, [serveAppend (sampleAppend "Adapter")]⟩ :=
    .snoc .nil (.start ⟨_, rfl⟩)
  have hserved := hstarted.proceed 0 (fun _ _ _ _ h => h) 20 rfl hfirst
  have hagain := hserved.snoc (.start ⟨sampleAppend "Rewrite", rfl⟩)
  have hended := hagain.proceed 1 (fun _ _ _ _ h => h) 20 rfl hsecond
  refine ⟨_, _, hended, rfl, fun e he => List.mem_append_right _ ?_⟩
  exact List.mem_map_of_mem he

/-- The second request is answered with a revision whose tasks are those of the first. -/
def answeredWithOther : Option RevisionOp × RevisionDatabase → Bool
  | (some (.reply call result), s) =>
    call == sampleAppend "Rewrite" && !s.missed 1 && s.revisions.any fun record =>
      record.idempotencyKey == strip call.idempotencyKey && result == .ok record.view &&
        record.appendedItems != call.command.items.map requestDocument
  | _ => false

theorem append_faithful_iff_sample : ∃ steps c, revisionCrew.Trace sampleTables steps c ∧
    c.state.revisions ≠ [] ∧ OncePerKey c.state ∧ Numbered c.state := by
  have hrun : ((sampleRun.map fun r => !r.2.revisions.isEmpty) = some true) := by decide +kernel
  obtain ⟨⟨path, s⟩, hsome, hrevised⟩ := Option.map_eq_some_iff.mp hrun
  obtain ⟨steps, c, htrace, rfl, -⟩ := trace_sampleRun hsome
  refine ⟨steps, c, htrace, by simpa using hrevised, ?_⟩
  exact (append_faithful_iff unrevised_sampleTables htrace).1 c.state (by simp)

/-- **A key can change its meaning**: a commit that asks for another task of the same repository gets
the revision that its key was first stored with. -/
theorem append_changes_meaning :
    ¬ ∀ steps c, revisionCrew.Trace sampleTables steps c →
      ∀ i call result s, (some (i, .reply call result), s) ∈ steps → call.command.mode = "commit" →
        s.missed i = false → ∀ record ∈ s.revisions,
          record.idempotencyKey = strip call.idempotencyKey → Faithful call record result := by
  intro hfaithful
  have hrun : ((sampleRun.map fun r => r.1.any answeredWithOther) = some true) := by decide +kernel
  obtain ⟨⟨path, s⟩, hsome, hanswered⟩ := Option.map_eq_some_iff.mp hrun
  obtain ⟨steps, c, htrace, -, hpath⟩ := trace_sampleRun hsome
  obtain ⟨⟨op, s'⟩, he, hother⟩ := List.any_eq_true.mp hanswered
  match op, he, hother with
  | some (.reply call result), he, hother =>
    simp only [answeredWithOther, Bool.and_eq_true, beq_iff_eq, Bool.not_eq_true', List.any_eq_true,
      bne_iff_ne] at hother
    obtain ⟨⟨rfl, hmissed⟩, record, hrecord, ⟨hkey, hresult⟩, hitems⟩ := hother
    rcases hfaithful steps c htrace 1 _ result s' (hpath _ he) rfl hmissed record hrecord hkey with
      ⟨hmeaning, -⟩ | ⟨message, hconflict⟩
    · exact hitems hmeaning.items
    · rw [hresult] at hconflict
      cases hconflict

end Orchestration
end RepoMesh
