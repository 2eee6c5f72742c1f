/-
# The runner gateway store

`PostgresRunnerGatewayStore`: the dispatch rows, the event rows and the reservation rows it
writes beside them. Every call is one transaction.
-/
import RepoMesh.Delivery.Contracts
import RepoMesh.Foundation.Fallible
import RepoMesh.Foundation.Keyed
import RepoMesh.Foundation.Runs
import Mathlib.Data.List.Sort

namespace RepoMesh
namespace AgentRuntime

open Text
open Delivery (UUID uuidStr Instant seconds)

/-! ## Rows -/

/-- Status of a dispatch. -/
inductive DispatchStatus where
  | queued | leased | accepted | completed | failed | interrupted | inputRequired
  deriving DecidableEq

/-- The stored value of a dispatch status. -/
def DispatchStatus.value : DispatchStatus → String
  | .queued => "queued"
  | .leased => "leased"
  | .accepted => "accepted"
  | .completed => "completed"
  | .failed => "failed"
  | .interrupted => "interrupted"
  | .inputRequired => "input_required"

/-- `TERMINAL_DISPATCH_STATUSES`. -/
def terminalDispatchStatuses : List DispatchStatus :=
  [.completed, .failed, .interrupted, .inputRequired]

/-- `ACTIVE_DISPATCH_STATUSES`. -/
def activeDispatchStatuses : List DispatchStatus := [.queued, .leased, .accepted]

/-- The terminal status an event type of `_TERMINAL_EVENT_TYPES` names. -/
def terminalStatusOf (eventType : String) : Option DispatchStatus :=
  terminalDispatchStatuses.find? fun status => "runner." ++ status.value == eventType

/-- Status of a worker execution reservation. -/
inductive WorkerExecutionStatus where
  | preparing | running | succeeded | failed | expired | cancelled
  deriving DecidableEq

/-- `status in ACTIVE_EXECUTION_STATES`. -/
def WorkerExecutionStatus.isActive : WorkerExecutionStatus → Bool
  | .preparing | .running => true
  | _ => false

/-- What a dispatched task payload parses to. -/
structure RunnerTask where
  runId : UUID
  organizationId : UUID
  projectId : UUID
  repositoryId : UUID
  taskId : UUID
  workerAgentId : UUID
  attempt : ℤ
  assignmentAttemptId : Option UUID := none
  assignmentGeneration : Option ℤ := none
  executionId : Option UUID := none
  executionVersion : Option ℤ := none
  deriving DecidableEq

/-- A task payload: its idempotency key, its text, and what it parses to, if it does. -/
structure TaskPayload where
  idempotencyKey : String
  document : String
  task : Option RunnerTask
  deriving DecidableEq

/-- `RunnerDispatchRecord`. The columns of the task are kept as one value. -/
structure RunnerDispatchRecord where
  task : RunnerTask
  status : DispatchStatus := .queued
  taskPayload : TaskPayload
  idempotencyKey : String
  leaseUntil : Option Instant := none
  createdAt : Instant
  completedAt : Option Instant := none
  deriving DecidableEq

/-- The primary key of a dispatch. -/
def RunnerDispatchRecord.runId (d : RunnerDispatchRecord) : UUID := d.task.runId

/-- What the body of a runner event parses to. -/
structure EventBody where
  sequence : ℤ
  eventType : String
  occurredAt : Instant
  deriving DecidableEq

/-- A runner event: its identifiers, the `str` of its binding fields, and what its body parses
to, if it does. -/
structure RunnerEvent where
  eventId : UUID
  runId : UUID
  binding : List (String × String)
  body : Option EventBody
  deriving DecidableEq

/-- `str(event.get(field))`. -/
def RunnerEvent.field (e : RunnerEvent) (name : String) : String :=
  ((e.binding.find? fun b => b.1 == name).map (·.2)).getD "None"

/-- `RunnerEventRecord`. -/
structure RunnerEventRecord where
  eventId : UUID
  runId : UUID
  body : EventBody
  recordedAt : Instant
  projectionAccepted : Bool
  deriving DecidableEq

/-- `WorkerExecutionReservationRecord`. -/
structure WorkerExecutionReservationRecord where
  id : UUID
  organizationId : UUID
  projectId : UUID
  repositoryId : UUID
  taskId : UUID
  workerAgentId : UUID
  runId : UUID
  status : WorkerExecutionStatus
  attempt : ℕ
  version : ℕ
  leaseOwner : Option String
  leaseExpiresAt : Option Instant
  taskPayload : Option TaskPayload
  errorDetail : Option String
  createdAt : Instant
  updatedAt : Instant
  completedAt : Option Instant
  assignmentAttemptId : Option UUID
  assignmentGeneration : Option ℤ
  deriving DecidableEq

/-- The exceptions of the gateway store. -/
inductive RunnerGatewayError where
  | conflict (message : String)
  | forbidden (message : String)
  deriving DecidableEq

/-! ## The store -/

/-- The three tables the store works on. -/
structure RunnerGatewayStore where
  dispatches : List RunnerDispatchRecord := []
  events : List RunnerEventRecord := []
  reservations : List WorkerExecutionReservationRecord := []
  deriving DecidableEq

namespace RunnerGatewayStore

/-- `session.get(RunnerDispatchRecord, run_id)`. -/
def getDispatch (st : RunnerGatewayStore) (runId : UUID) : Option RunnerDispatchRecord :=
  Keyed.find (·.runId) st.dispatches runId

/-- `enqueue`. The run is the primary key, and the idempotency key is unique. -/
def enqueue (st : RunnerGatewayStore) (payload : TaskPayload) (now : Instant) :
    Except RunnerGatewayError RunnerGatewayStore :=
  let key := strip payload.idempotencyKey
  if key.isEmpty then .error (.conflict "runner idempotency key is required")
  else
    match Keyed.find (·.idempotencyKey) st.dispatches key with
    | some existing =>
      if existing.taskPayload = payload then .ok st
      else .error (.conflict "runner idempotency key was used for a different task")
    | none =>
      match payload.task with
      | none => .error (.conflict "invalid or duplicate runner task")
      | some task =>
        if st.dispatches.any fun d => d.runId == task.runId then
          .error (.conflict "invalid or duplicate runner task")
        else
          .ok { st with
            dispatches := st.dispatches ++
              [{ task := task, taskPayload := payload, idempotencyKey := key, createdAt := now }] }

/-- Replace the row of one run. -/
def writeDispatch (st : RunnerGatewayStore) (runId : UUID)
    (update : RunnerDispatchRecord → RunnerDispatchRecord) : RunnerGatewayStore :=
  { st with dispatches := Keyed.write (·.runId) st.dispatches runId update }

/-- The rows `lease_next` selects from: queued or leased, the lease over, the worker's own, and
not locked by another transaction (`skip_locked`). -/
def leasable (workerAgentId : Option UUID) (locked : List UUID) (now : Instant)
    (d : RunnerDispatchRecord) : Bool :=
  [DispatchStatus.queued, .leased].contains d.status &&
    d.leaseUntil.all (fun lease => lease < now) &&
    workerAgentId.all (fun worker => d.task.workerAgentId == worker) &&
    !locked.contains d.runId

/-- The first row by `created_at`. -/
def oldest (rows : List RunnerDispatchRecord) : Option RunnerDispatchRecord :=
  (rows.insertionSort fun a b => a.createdAt ≤ b.createdAt).head?

/-- What a lease does to its row. -/
def leaseDispatch (leaseSeconds : ℤ) (now : Instant) (d : RunnerDispatchRecord) :
    RunnerDispatchRecord :=
  { d with status := .leased, leaseUntil := some (now + seconds leaseSeconds) }

/-- `lease_next`: the leased row, whose `task_payload` the source hands out, and the store. -/
def leaseNext (st : RunnerGatewayStore) (workerAgentId : Option UUID) (leaseSeconds : ℤ)
    (locked : List UUID) (now : Instant) : Option RunnerDispatchRecord × RunnerGatewayStore :=
  match oldest (st.dispatches.filter (leasable workerAgentId locked now)) with
  | none => (none, st)
  | some record =>
    (some record, st.writeDispatch record.runId (leaseDispatch leaseSeconds now))

/-- `get_active_dispatch_for_task`. -/
def getActiveDispatchForTask (st : RunnerGatewayStore) (taskId workerAgentId : UUID) :
    Option RunnerDispatchRecord :=
  ((st.dispatches.filter fun d =>
      d.task.taskId == taskId && d.task.workerAgentId == workerAgentId &&
        activeDispatchStatuses.contains d.status).insertionSort
    fun a b => b.createdAt ≤ a.createdAt).head?

/-- The fields `_verify_binding` compares, with the value the dispatch expects. -/
def expectedBinding (d : RunnerDispatchRecord) : List (String × String) :=
  let render (value : Option ℤ) : String := (value.map toString).getD "None"
  [("organizationId", uuidStr d.task.organizationId), ("projectId", uuidStr d.task.projectId),
    ("taskId", uuidStr d.task.taskId), ("runId", uuidStr d.runId),
    ("attempt", toString d.task.attempt)] ++
    (match d.task.assignmentAttemptId with
      | some attempt => [("assignmentAttemptId", uuidStr attempt),
          ("assignmentGeneration", render d.task.assignmentGeneration)]
      | none => []) ++
    (match d.task.executionId with
      | some execution => [("executionId", uuidStr execution),
          ("executionVersion", render d.task.executionVersion)]
      | none => [])

/-- `_verify_binding`: the first field that differs is reported. -/
def verifyBinding (d : RunnerDispatchRecord) (e : RunnerEvent) :
    Except RunnerGatewayError Unit :=
  match (expectedBinding d).find? fun expected => e.field expected.1 != expected.2 with
  | some mismatch =>
    .error (.conflict ("runner event " ++ mismatch.1 ++ " binding mismatch"))
  | none => .ok ()

/-- The checks `record_event` makes before it writes: the dispatch the event is for, and the
parsed body. -/
def checkEvent (st : RunnerGatewayStore) (e : RunnerEvent)
    (expectedWorkerAgentId : Option UUID) :
    Except RunnerGatewayError (RunnerDispatchRecord × EventBody) :=
  match st.getDispatch e.runId with
  | none => .error (.conflict "runner event references an unknown run")
  | some dispatch =>
    if expectedWorkerAgentId.any fun worker => dispatch.task.workerAgentId != worker then
      .error (.forbidden "runner event belongs to another worker")
    else do
      verifyBinding dispatch e
      match e.body with
      | none => .error (.conflict "invalid runner event")
      | some body => .ok (dispatch, body)

/-- The event is new: neither its identifier nor its place in the run is taken. -/
def isFresh (st : RunnerGatewayStore) (e : RunnerEvent) (body : EventBody) : Bool :=
  !st.events.any fun row =>
    row.eventId == e.eventId || (row.runId == e.runId && row.body.sequence == body.sequence)

/-- The status an accepted event gives its dispatch, if it gives one. -/
def eventStatus (eventType : String) (projectionAllowed : Bool) : Option DispatchStatus :=
  if eventType = "runner.accepted" ∧ projectionAllowed then some .accepted
  else terminalStatusOf eventType

/-- What an event does to the row of its dispatch. -/
def projectDispatch (eventType : String) (projectionAllowed : Bool) (now : Instant)
    (d : RunnerDispatchRecord) : RunnerDispatchRecord :=
  if eventType = "runner.accepted" ∧ projectionAllowed then
    { d with status := .accepted, leaseUntil := none }
  else
    match terminalStatusOf eventType with
    | some status => { d with status := status, leaseUntil := none, completedAt := some now }
    | none => d

/-- What a terminal event does to the active reservation of its run. -/
def settleReservation (runId : UUID) (terminal : DispatchStatus) (now : Instant)
    (r : WorkerExecutionReservationRecord) : WorkerExecutionReservationRecord :=
  if r.runId = runId ∧ r.status.isActive then
    { r with
      status := if terminal = .completed then .succeeded else .failed
      leaseOwner := none
      leaseExpiresAt := none
      version := r.version + 1
      updatedAt := now
      completedAt := some now }
  else r

/-- The reservations after an event: only an allowed terminal event touches them. -/
def settledReservations (st : RunnerGatewayStore) (runId : UUID) (eventType : String)
    (projectionAllowed : Bool) (now : Instant) : List WorkerExecutionReservationRecord :=
  if projectionAllowed then
    match terminalStatusOf eventType with
    | some terminal => st.reservations.map (settleReservation runId terminal now)
    | none => st.reservations
  else st.reservations

/-- `record_event`. A duplicate identifier or sequence rolls the transaction back and answers
`False`. -/
def recordEvent (st : RunnerGatewayStore) (e : RunnerEvent) (expectedWorkerAgentId : Option UUID)
    (projectionAllowed : Bool) (now : Instant) :
    Except RunnerGatewayError (Bool × RunnerGatewayStore) := do
  let (_, body) ← st.checkEvent e expectedWorkerAgentId
  if st.isFresh e body then
    let written := st.writeDispatch e.runId (projectDispatch body.eventType projectionAllowed now)
    .ok (true, { written with
      events := st.events ++
        [{ eventId := e.eventId
           runId := e.runId
           body := body
           recordedAt := now
           projectionAccepted := projectionAllowed }]
      reservations := st.settledReservations e.runId body.eventType projectionAllowed now })
  else .ok (false, st)

end RunnerGatewayStore

/-- A call on the store, with the clock it reads; `reservations` stands for whatever the
reservation store does to its own table in between. -/
inductive RunnerOp where
  | enqueue (payload : TaskPayload) (now : Instant)
  | leaseNext (workerAgentId : Option UUID) (leaseSeconds : ℤ) (locked : List UUID) (now : Instant)
  | recordEvent (event : RunnerEvent) (expectedWorkerAgentId : Option UUID)
      (projectionAllowed : Bool) (now : Instant)
  | getActiveDispatchForTask (taskId workerAgentId : UUID)
  | reservations (rows : List WorkerExecutionReservationRecord)
  deriving DecidableEq

/-- One call; a refused one changes nothing. -/
def RunnerOp.run (st : RunnerGatewayStore) : RunnerOp → RunnerGatewayStore
  | enqueue payload now =>
    match st.enqueue payload now with
    | .ok st' => st'
    | .error _ => st
  | leaseNext worker leaseSeconds locked now => (st.leaseNext worker leaseSeconds locked now).2
  | recordEvent event worker projectionAllowed now =>
    match st.recordEvent event worker projectionAllowed now with
    | .ok result => result.2
    | .error _ => st
  | getActiveDispatchForTask _ _ => st
  | reservations rows => { st with reservations := rows }

end AgentRuntime
end RepoMesh
