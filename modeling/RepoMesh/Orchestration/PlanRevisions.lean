/-
# Revisions of a running plan

`DynamicPlanRevisionService.append` over the tables it reads and writes: an idempotency key looked up
before anything else, the plan read, the tasks appended to it, and one transaction that looks the key up
again, writes the plan if its version is still the one read, numbers the revision and stores it. Any number
of such calls run at once, statement by statement, beside the other writers of plans; a row that a
transaction has written, and a key that it has inserted, are held until it ends.
-/
import RepoMesh.Foundation.Crew
import RepoMesh.Foundation.Locks
import RepoMesh.Orchestration.AppendTasks

namespace RepoMesh
namespace Orchestration

open Async (Prog)
open Delivery (UUID)
open Text

/-! ## The request -/

/-- `AppendPlanTaskInput`. -/
structure AppendPlanTaskInput where
  repositoryId : UUID
  title : String
  instruction : String
  acceptance : List String
  dependsOn : List UUID := []
  tests : List String := []
  testPaths : List String := []
  deriving DecidableEq

/-- `AppendPlanTasksCommand`. -/
structure AppendPlanTasksCommand where
  planId : UUID
  expectedPlanVersion : ℤ
  actorAgentId : UUID
  reason : String
  items : List AppendPlanTaskInput
  mode : String := "commit"
  deriving DecidableEq

/-- One request: `append(command, idempotency_key=...)`. -/
structure AppendCall where
  command : AppendPlanTasksCommand
  idempotencyKey : String
  deriving DecidableEq

/-- A document of `appended_items`, its identifiers not yet written as texts. -/
structure AppendedItem where
  repositoryId : UUID
  title : String
  instruction : String
  acceptance : List String
  dependsOn : List UUID
  tests : List String
  testPaths : List String
  deriving DecidableEq

/-- `DynamicPlanRevisionView`. -/
structure DynamicPlanRevisionView where
  id : UUID
  planId : UUID
  revision : ℕ
  basePlanVersion : ℕ
  resultPlanVersion : Option ℕ
  actorAgentId : UUID
  reason : String
  status : String
  appendedRepositoryIds : List UUID
  previousBatches : List (List UUID)
  newBatches : List (List UUID)
  deriving DecidableEq

/-- `ExecutionPlanRevisionRecord`. -/
structure ExecutionPlanRevisionRecord where
  id : UUID
  planId : UUID
  revision : ℕ
  basePlanVersion : ℕ
  resultPlanVersion : Option ℕ
  actorAgentId : UUID
  reason : String
  status : String
  appendedItems : List AppendedItem
  previousBatches : List (List UUID)
  newBatches : List (List UUID)
  idempotencyKey : String
  deriving DecidableEq

/-- What a call raises: an exception of task orchestration, or what a unique constraint refuses. -/
inductive RevisionRaised where
  | orchestration (e : Raised)
  | integrityError
  deriving DecidableEq

/-- `TaskConflict`. -/
def RevisionRaised.conflict (message : String) : RevisionRaised := .orchestration (.taskConflict message)

/-- What a call answers. -/
abbrev RevisionResult := Except RevisionRaised DynamicPlanRevisionView

/-- The task that an item of the request asks for, with the checks of its `__post_init__`. -/
def plannedTask (item : AppendPlanTaskInput) : Except Raised PlannedRepositoryTask :=
  if htexts : isBlank item.title = false ∧ isBlank item.instruction = false then
    if hacceptance : item.acceptance ≠ [] ∧ ∀ line ∈ item.acceptance, isBlank line = false then
      .ok
        { repositoryId := item.repositoryId
          title := item.title
          instruction := item.instruction
          acceptance := item.acceptance
          tests := item.tests
          testPaths := item.testPaths
          dependsOn := item.dependsOn
          title_nonblank := htexts.1
          instruction_nonblank := htexts.2
          acceptance_ne_nil := hacceptance.1
          acceptance_nonblank := hacceptance.2 }
    else .error (.valueError "at least one non-empty acceptance criterion is required")
  else .error (.valueError "planned task title and instruction are required")

/-- `_item`. -/
def itemDocument (item : PlannedRepositoryTask) : AppendedItem where
  repositoryId := item.repositoryId
  title := item.title
  instruction := item.instruction
  acceptance := item.acceptance
  dependsOn := item.dependsOn
  tests := item.tests
  testPaths := item.testPaths

/-- `_batches`. -/
def batchRepositories (plan : ExecutionPlan) : List (List UUID) := plan.batches.map repositoryIds

/-- `_view`. -/
def ExecutionPlanRevisionRecord.view (record : ExecutionPlanRevisionRecord) :
    DynamicPlanRevisionView where
  id := record.id
  planId := record.planId
  revision := record.revision
  basePlanVersion := record.basePlanVersion
  resultPlanVersion := record.resultPlanVersion
  actorAgentId := record.actorAgentId
  reason := record.reason
  status := record.status
  appendedRepositoryIds := record.appendedItems.map (·.repositoryId)
  previousBatches := record.previousBatches
  newBatches := record.newBatches

/-! ## The calls -/

/-- One await of a call. The last one hands the outcome to the caller. -/
inductive RevisionOp where
  | findRevision (idempotencyKey : String)
  | getPlan (planId : UUID)
  | repositoryTeams (projectId : UUID)
  | newId
  | updatePlan (original updated : ExecutionPlan)
  | maxRevision (planId : UUID)
  | addRevision (record : ExecutionPlanRevisionRecord)
  | commit
  | rollback
  | reply (call : AppendCall) (result : RevisionResult)

/-- What each operation answers. -/
@[reducible] def RevisionOp.Answer : RevisionOp → Type
  | .findRevision _ => Option ExecutionPlanRevisionRecord
  | .getPlan _ => Option ExecutionPlan
  | .repositoryTeams _ => Option (List UUID)
  | .newId => UUID
  | .updatePlan .. => ℕ
  | .maxRevision _ => Option ℕ
  | .addRevision _ | .commit | .rollback | .reply .. => Unit

/-- A call of the service. -/
abbrev RevisionCall (α : Type) := Prog RevisionOp.Answer RevisionRaised α

/-- `async with database.transaction()`: committed when the body ends, rolled back when it raises. -/
def inTransaction {α : Type} (body : RevisionCall α) : RevisionCall α :=
  tryCatch
    (do
      let result ← body
      Prog.perform RevisionOp.commit
      pure result)
    fun e => do
      Prog.perform RevisionOp.rollback
      throw e

/-- What `replay` makes of the revision stored under the key. -/
def replayed (command : AppendPlanTasksCommand) (record : ExecutionPlanRevisionRecord) :
    RevisionResult :=
  if record.planId ≠ command.planId ∨ (record.basePlanVersion : ℤ) ≠ command.expectedPlanVersion ∨
      record.actorAgentId ≠ command.actorAgentId ∨ record.reason ≠ strip command.reason ∨
      record.appendedItems.map (·.repositoryId) ≠ command.items.map (·.repositoryId) then
    .error (.conflict "dynamic revision idempotency key changed meaning")
  else .ok record.view

/-- `_assert_replay`, and the view of what it let pass. -/
def assertReplay (record : ExecutionPlanRevisionRecord) (original : ExecutionPlan)
    (appended : List PlannedRepositoryTask) (reason : String) : RevisionResult :=
  if record.planId ≠ original.id ∨ record.basePlanVersion ≠ original.version ∨
      record.reason ≠ strip reason ∨ record.appendedItems ≠ appended.map itemDocument then
    .error (.conflict "dynamic revision idempotency key changed meaning")
  else .ok record.view

/-- `replay`: a transaction of one read. -/
def replay (command : AppendPlanTasksCommand) (idempotencyKey : String) :
    RevisionCall (Option DynamicPlanRevisionView) := do
  match ← Prog.perform (RevisionOp.findRevision idempotencyKey) with
  | none => pure none
  | some record =>
    let view ← Prog.lift (replayed command record)
    pure (some view)

/-- The revision that a commit stores. -/
def revisionRecord (id : UUID) (greatest : Option ℕ) (original updated : ExecutionPlan)
    (actorAgentId : UUID) (reason : String) (appended : List PlannedRepositoryTask)
    (idempotencyKey : String) : ExecutionPlanRevisionRecord where
  id := id
  planId := original.id
  revision := 1 + greatest.getD 0
  basePlanVersion := original.version
  resultPlanVersion := some updated.version
  actorAgentId := actorAgentId
  reason := strip reason
  status := "committed"
  appendedItems := appended.map itemDocument
  previousBatches := batchRepositories original
  newBatches := batchRepositories updated
  idempotencyKey := idempotencyKey

/-- What `commit` does for a key that is free: the plan is written, and its next revision stored. -/
def storeRevision (original updated : ExecutionPlan) (actorAgentId : UUID) (reason : String)
    (appended : List PlannedRepositoryTask) (idempotencyKey : String) :
    RevisionCall DynamicPlanRevisionView := do
  let rowcount ← Prog.perform (RevisionOp.updatePlan original updated)
  if rowcount ≠ 1 then throw (.conflict "execution plan version changed")
  else
    let greatest ← Prog.perform (RevisionOp.maxRevision original.id)
    let id ← Prog.perform RevisionOp.newId
    let record := revisionRecord id greatest original updated actorAgentId reason appended idempotencyKey
    Prog.perform (RevisionOp.addRevision record)
    pure record.view

/-- The body of the transaction of `commit`. -/
def commitBody (original updated : ExecutionPlan) (actorAgentId : UUID) (reason : String)
    (appended : List PlannedRepositoryTask) (idempotencyKey : String) :
    RevisionCall DynamicPlanRevisionView := do
  match ← Prog.perform (RevisionOp.findRevision idempotencyKey) with
  | some record => Prog.lift (assertReplay record original appended reason)
  | none => storeRevision original updated actorAgentId reason appended idempotencyKey

/-- `except IntegrityError`. -/
def conflictOf : RevisionRaised → RevisionRaised
  | .integrityError => .conflict "dynamic plan revision conflicts with another commit"
  | e => e

/-- `commit`. -/
def commitRevision (original updated : ExecutionPlan) (actorAgentId : UUID) (reason : String)
    (appended : List PlannedRepositoryTask) (idempotencyKey : String) :
    RevisionCall DynamicPlanRevisionView :=
  tryCatch
    (inTransaction (commitBody original updated actorAgentId reason appended idempotencyKey))
    fun e => throw (conflictOf e)

/-- `preview`. -/
def previewRevision (original updated : ExecutionPlan) (actorAgentId : UUID) (reason : String)
    (appended : List PlannedRepositoryTask) : RevisionCall DynamicPlanRevisionView := do
  let id ← Prog.perform RevisionOp.newId
  pure
    { id
      planId := original.id
      revision := 0
      basePlanVersion := original.version
      resultPlanVersion := none
      actorAgentId
      reason
      status := "preview"
      appendedRepositoryIds := appended.map (·.repositoryId)
      previousBatches := batchRepositories original
      newBatches := batchRepositories updated }

/-- The plan that the request is made for, as it was read; the refusals of a plan that is not the
one the caller saw, or not the caller's. -/
def planFor (command : AppendPlanTasksCommand) (stored : Option ExecutionPlan) :
    Except RevisionRaised ExecutionPlan :=
  match stored with
  | none => .error (.conflict "execution plan does not exist")
  | some plan =>
    if (plan.version : ℤ) ≠ command.expectedPlanVersion then
      .error (.conflict "execution plan version changed")
    else if plan.createdByAgentId ≠ command.actorAgentId then
      .error (.conflict "only the plan owner can append dynamic tasks")
    else .ok plan

/-- The tasks of the request and the plan with them; the refusals of what the project's teams do not
cover, of a task that is not one, and of `append_tasks`. -/
def appendedTo (command : AppendPlanTasksCommand) (plan : ExecutionPlan)
    (topology : Option (List UUID)) :
    Except RevisionRaised (List PlannedRepositoryTask × ExecutionPlan) :=
  if command.mode = "commit" ∧ ¬ ∀ item ∈ command.items, item.repositoryId ∈ topology.getD [] then
    .error (.conflict "project scope expansion requires approval")
  else
    match command.items.mapM plannedTask with
    | .error e => .error (.orchestration e)
    | .ok appended =>
      match plan.appendTasks appended with
      | .error e => .error (.orchestration e)
      | .ok updated => .ok (appended, updated)

/-- `append` for a key that no revision is stored under. -/
def appendFresh (command : AppendPlanTasksCommand) (idempotencyKey : String) :
    RevisionCall DynamicPlanRevisionView := do
  let stored ← Prog.perform (RevisionOp.getPlan command.planId)
  let plan ← Prog.lift (planFor command stored)
  let topology ← Prog.perform (RevisionOp.repositoryTeams plan.projectId)
  let (appended, updated) ← Prog.lift (appendedTo command plan topology)
  if command.mode = "preview" then
    previewRevision plan updated command.actorAgentId (strip command.reason) appended
  else
    commitRevision plan updated command.actorAgentId (strip command.reason) appended
      (strip idempotencyKey)

/-- `append`. -/
def appendDynamic (command : AppendPlanTasksCommand) (idempotencyKey : String) :
    RevisionCall DynamicPlanRevisionView :=
  if command.mode ≠ "preview" ∧ command.mode ≠ "commit" then
    throw (.orchestration (.valueError "dynamic plan mode must be preview or commit"))
  else if isBlank command.reason ∨ isBlank idempotencyKey then
    throw (.orchestration (.valueError "reason and idempotency key are required"))
  else if command.mode = "commit" then do
    match ← replay command (strip idempotencyKey) with
    | some view => pure view
    | none => appendFresh command idempotencyKey
  else appendFresh command idempotencyKey

/-- A request as the service meets it: the outcome goes to its caller. -/
def serveAppend (call : AppendCall) : RevisionCall Unit :=
  Prog.resume (appendDynamic call.command call.idempotencyKey) fun result =>
    Prog.perform (RevisionOp.reply call result)

/-! ## The tables -/

/-- A plan as a transaction found and left it. -/
structure PlanWrite where
  before : ExecutionPlan
  after : ExecutionPlan
  deriving DecidableEq

/-- What a transaction has written so far. -/
structure OpenTransaction where
  written : Option PlanWrite := none
  added : Option ExecutionPlanRevisionRecord := none

/-- The tables, what the transactions under way have written and hold, and what `uuid4` will draw.
`missed` are the calls that looked their key up in vain, and `landed` the plans that were written, each
with the revision that was stored beside it; no call reads these two. -/
structure RevisionDatabase where
  plans : UUID → Option ExecutionPlan
  revisions : List ExecutionPlanRevisionRecord := []
  repositoryTeams : UUID → Option (List UUID)
  transactions : ℕ → OpenTransaction := fun _ => {}
  rowLock : UUID → Option ℕ := fun _ => none
  keyLock : String → Option ℕ := fun _ => none
  uuid4 : ℕ → UUID
  drawn : ℕ := 0
  missed : ℕ → Bool := fun _ => false
  landed : List (PlanWrite × Option ExecutionPlanRevisionRecord) := []

/-- The columns of a plan's row that a commit writes: its batches, its version, and no refusal. -/
def ExecutionPlan.revised (row updated : ExecutionPlan) : ExecutionPlan :=
  if h : row.currentBatchIndex < updated.batches.length then
    { row with
      batches := updated.batches
      version := updated.version
      deliveryRefusal := none
      batches_nonempty := updated.batches_nonempty
      index_lt := h }
  else row

namespace RevisionDatabase

/-- The revisions of a plan. -/
def ofPlan (s : RevisionDatabase) (planId : UUID) : List ExecutionPlanRevisionRecord :=
  s.revisions.filter fun record => record.planId == planId

/-- The revision stored under a key. -/
def byKey (s : RevisionDatabase) (idempotencyKey : String) : Option ExecutionPlanRevisionRecord :=
  s.revisions.find? fun record => record.idempotencyKey == idempotencyKey

/-- A call looked its key up: nothing changes, except that a miss is noted. -/
def lookedUp (s : RevisionDatabase) (i : ℕ) (found : Option ExecutionPlanRevisionRecord) :
    RevisionDatabase :=
  if found.isSome then s else { s with missed := Function.update s.missed i true }

/-- The transaction of call `i` writes a plan, and holds its row from then on. -/
def writePlan (s : RevisionDatabase) (i : ℕ) (write : PlanWrite) : RevisionDatabase :=
  { s with
    transactions := Function.update s.transactions i
      { s.transactions i with written := some write }
    rowLock := Function.update s.rowLock write.before.id (some i) }

/-- The transaction of call `i` inserts a revision, and holds its key from then on. -/
def insert (s : RevisionDatabase) (i : ℕ) (record : ExecutionPlanRevisionRecord) : RevisionDatabase :=
  { s with
    transactions := Function.update s.transactions i { s.transactions i with added := some record }
    keyLock := Function.update s.keyLock record.idempotencyKey (some i) }

/-- What the transaction of call `i` holds is free again. -/
def release (s : RevisionDatabase) (i : ℕ) : RevisionDatabase :=
  { s with
    transactions := Function.update s.transactions i {}
    rowLock := Locks.released s.rowLock i
    keyLock := Locks.released s.keyLock i }

/-- What a transaction wrote is there for all. -/
def apply (s : RevisionDatabase) (t : OpenTransaction) : RevisionDatabase :=
  { s with
    plans := match t.written with
      | some write => Function.update s.plans write.before.id (some write.after)
      | none => s.plans
    revisions := s.revisions ++ t.added.toList
    landed := s.landed ++ (t.written.map fun write => (write, t.added)).toList }

/-- The revision violates a unique constraint of the table: on the number within its plan, on the key,
or on the identifier. -/
def Violates (s : RevisionDatabase) (record : ExecutionPlanRevisionRecord) : Prop :=
  ∃ stored ∈ s.revisions, stored.planId = record.planId ∧ stored.revision = record.revision ∨
    stored.idempotencyKey = record.idempotencyKey ∨ stored.id = record.id

instance (s : RevisionDatabase) (record : ExecutionPlanRevisionRecord) :
    Decidable (s.Violates record) := inferInstanceAs (Decidable (∃ stored ∈ s.revisions, _))

end RevisionDatabase

/-- How the database answers a statement of call `i`; nothing while the statement has to wait for
another transaction. A statement sees what is committed. -/
def executeRevision (i : ℕ) : (op : RevisionOp) → RevisionDatabase →
    Option (Except RevisionRaised op.Answer × RevisionDatabase)
  | .findRevision key, s => some (.ok (s.byKey key), s.lookedUp i (s.byKey key))
  | .getPlan planId, s => some (.ok (s.plans planId), s)
  | .repositoryTeams projectId, s => some (.ok (s.repositoryTeams projectId), s)
  | .newId, s => some (.ok (s.uuid4 s.drawn), { s with drawn := s.drawn + 1 })
  | .updatePlan original updated, s =>
    if Locks.heldByOther (s.rowLock original.id) i then none
    else
      match s.plans original.id with
      | some row =>
        if row.version = original.version then
          some (.ok 1, s.writePlan i ⟨row, row.revised updated⟩)
        else some (.ok 0, s)
      | none => some (.ok 0, s)
  | .maxRevision planId, s => some (.ok ((s.ofPlan planId).map (·.revision)).max?, s)
  | .addRevision record, s =>
    if Locks.heldByOther (s.keyLock record.idempotencyKey) i then none
    else if s.Violates record then some (.error .integrityError, s)
    else some (.ok (), s.insert i record)
  | .commit, s => some (.ok (), (s.apply (s.transactions i)).release i)
  | .rollback, s => some (.ok (), s.release i)
  | .reply .., s => some (.ok (), s)

/-- What others do: a plan is added; a plan that nobody holds is written, with a larger version and
without a change of its owner; the teams of a project change. -/
inductive OtherWriters : RevisionDatabase → RevisionDatabase → Prop
  | planAdded (s : RevisionDatabase) (plan : ExecutionPlan) (hfree : s.plans plan.id = none) :
      OtherWriters s { s with plans := Function.update s.plans plan.id (some plan) }
  | planWritten (s : RevisionDatabase) (plan plan' : ExecutionPlan)
      (hplan : s.plans plan.id = some plan) (hfree : s.rowLock plan.id = none)
      (hid : plan'.id = plan.id) (howner : plan'.createdByAgentId = plan.createdByAgentId)
      (hversion : plan.version < plan'.version) :
      OtherWriters s { s with plans := Function.update s.plans plan.id (some plan') }
  | teamsChanged (s : RevisionDatabase) (repositoryTeams : UUID → Option (List UUID)) :
      OtherWriters s { s with repositoryTeams }

/-- Any number of requests at once. -/
def revisionCrew : Async.Crew RevisionOp.Answer RevisionRaised Unit RevisionDatabase where
  Exec := fun i op s r s' => executeRevision i op s = some (r, s')
  Starts := fun p => ∃ call, p = serveAppend call
  Environment := OtherWriters

/-- The table of revisions is empty, and no transaction is under way. -/
structure RevisionDatabase.Unrevised (s : RevisionDatabase) : Prop where
  planIds : ∀ planId plan, s.plans planId = some plan → plan.id = planId
  revisions : s.revisions = []
  transactions : ∀ i, s.transactions i = {}
  rowLock : ∀ planId, s.rowLock planId = none
  keyLock : ∀ key, s.keyLock key = none
  missed : ∀ i, s.missed i = false
  landed : s.landed = []

end Orchestration
end RepoMesh
