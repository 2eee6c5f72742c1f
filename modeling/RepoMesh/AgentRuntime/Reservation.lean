/-
# Worker execution reservations

`PostgresWorkerExecutionReservationStore`. `reserve` is one transaction of several statements, each
awaited: what it locks no other transaction writes before it commits, and what it adds has to fit
the unique indexes when it does. The other calls lock one row and write it.
-/
import RepoMesh.AgentRuntime.RunnerStore
import RepoMesh.Foundation.Threads

namespace RepoMesh
namespace AgentRuntime

open Text
open Async (Prog Threaded Pool)
open Delivery (UUID Instant seconds)

/-- What the reservation store raises; `integrity` is the `IntegrityError` of a unique index, and
`database` stands for any other failure of a statement. -/
inductive ReservationError where
  | valueError (message : String)
  | conflict (message : String)
  | capacityUnavailable (message : String)
  | integrity
  | database (message : String)
  deriving DecidableEq

/-! ## Rows -/

namespace WorkerExecutionReservationRecord

/-- `_expired`. -/
def isExpired (r : WorkerExecutionReservationRecord) (now : Instant) : Bool :=
  r.leaseExpiresAt.all fun lease => lease ≤ now

/-- `_expire`. -/
def expire (r : WorkerExecutionReservationRecord) (now : Instant) :
    WorkerExecutionReservationRecord :=
  { r with
    status := .expired
    leaseOwner := none
    leaseExpiresAt := none
    version := r.version + 1
    updatedAt := now
    completedAt := some now }

end WorkerExecutionReservationRecord

/-- The rows of the reservation table. -/
abbrev ReservationRows := List WorkerExecutionReservationRecord

namespace ReservationRows

/-- `_active_task`: the active reservation of a task with the highest attempt. -/
def activeTask (rows : ReservationRows) (taskId : UUID) : Option WorkerExecutionReservationRecord :=
  ((rows.filter fun r => r.taskId == taskId && r.status.isActive).insertionSort
    fun a b => b.attempt ≤ a.attempt).head?

/-- The query for an active reservation of a worker, in a transaction that has expired some rows. -/
def busy (rows : ReservationRows) (workerAgentId : UUID) (expired : List UUID) :
    Option WorkerExecutionReservationRecord :=
  rows.find? fun r =>
    r.workerAgentId == workerAgentId && r.status.isActive && !expired.contains r.id

/-- `worker_busy`. -/
def workerBusy (rows : ReservationRows) (workerAgentId : UUID) : Bool :=
  rows.any fun r => r.workerAgentId == workerAgentId && r.status.isActive

/-- The highest attempt of a task, or zero. -/
def lastAttempt (rows : ReservationRows) (taskId : UUID) : ℕ :=
  ((rows.filter fun r => r.taskId == taskId).map (·.attempt)).foldr max 0

/-- The rows a transaction expired, with the instants it did. -/
abbrev Expiries := List (WorkerExecutionReservationRecord × Instant)

/-- The expiry of one row. -/
def expireIn (expired : Expiries) (r : WorkerExecutionReservationRecord) :
    WorkerExecutionReservationRecord :=
  match expired.find? fun e => e.1.id == r.id with
  | some e => r.expire e.2
  | none => r

/-- The new row clashes with an old one: in the primary key, in the run, or in one of the two
indexes on active rows. -/
def clashes (record r : WorkerExecutionReservationRecord) : Bool :=
  r.id == record.id || r.runId == record.runId ||
    (r.status.isActive && record.status.isActive &&
      (r.taskId == record.taskId || r.workerAgentId == record.workerAgentId))

/-- The commit of a transaction that expired some rows and adds one. -/
def commit (rows : ReservationRows) (expired : Expiries)
    (record : WorkerExecutionReservationRecord) : Except ReservationError ReservationRows :=
  let kept := rows.map (expireIn expired)
  if kept.any (clashes record) then .error .integrity else .ok (kept ++ [record])

end ReservationRows

/-! ## Reserving -/

/-- The arguments of `reserve`. -/
structure ReserveCommand where
  organizationId : UUID
  projectId : UUID
  repositoryId : UUID
  taskId : UUID
  workerAgentId : UUID
  leaseOwner : String
  leaseSeconds : ℤ
  assignmentAttemptId : Option UUID := none
  assignmentGeneration : Option ℤ := none
  deriving DecidableEq

/-- The row `reserve` adds, under the two identifiers `uuid4` drew. -/
def ReserveCommand.record (c : ReserveCommand) (id runId : UUID) (attempt : ℕ) (now : Instant) :
    WorkerExecutionReservationRecord :=
  { id := id
    organizationId := c.organizationId
    projectId := c.projectId
    repositoryId := c.repositoryId
    taskId := c.taskId
    workerAgentId := c.workerAgentId
    runId := runId
    status := .preparing
    attempt := attempt
    version := 1
    leaseOwner := some c.leaseOwner
    leaseExpiresAt := some (now + seconds c.leaseSeconds)
    taskPayload := none
    errorDetail := none
    createdAt := now
    updatedAt := now
    completedAt := none
    assignmentAttemptId := c.assignmentAttemptId
    assignmentGeneration := c.assignmentGeneration }

/-- `_validate_lease`. -/
def validateLease (owner : String) (leaseSeconds : ℤ) : Except ReservationError Unit :=
  if isBlank owner ∨ owner.length > 128 then
    .error (.valueError "lease owner must contain 1-128 characters")
  else if leaseSeconds < 1 then .error (.valueError "lease seconds must be positive")
  else .ok ()

/-- `_assert_binding`. -/
def assertBinding (r : WorkerExecutionReservationRecord) (c : ReserveCommand) :
    Except ReservationError Unit :=
  if r.organizationId ≠ c.organizationId ∨ r.projectId ≠ c.projectId ∨
      r.repositoryId ≠ c.repositoryId ∨ r.workerAgentId ≠ c.workerAgentId then
    .error (.conflict "active execution reservation has a different task binding")
  else .ok ()

/-- The check of the assignment attempt in `reserve`. -/
def assertAssignment (r : WorkerExecutionReservationRecord) (c : ReserveCommand) :
    Except ReservationError Unit :=
  if c.assignmentAttemptId.isSome ∧ r.assignmentAttemptId ≠ c.assignmentAttemptId then
    .error (.conflict "active execution has a different assignment attempt")
  else .ok ()

/-- One statement of `reserve`. -/
inductive ReservationStatement where
  | now
  | lockActiveTask (taskId : UUID)
  | lockBusy (workerAgentId : UUID) (expired : List UUID)
  | lastAttempt (taskId : UUID)
  | insert (expired : ReservationRows.Expiries) (record : WorkerExecutionReservationRecord)
  | getActive (taskId : UUID)

/-- What it answers. -/
abbrev ReservationAnswer : ReservationStatement → Type
  | .now => Instant
  | .lockActiveTask _ | .lockBusy .. | .getActive _ => Option WorkerExecutionReservationRecord
  | .lastAttempt _ => ℕ
  | .insert .. => Unit

/-- A call of the reservation store, in its statements. -/
abbrev Reserving (α : Type) := Prog ReservationAnswer ReservationError α

namespace Reserving

abbrev now : Reserving Instant := Prog.perform ReservationStatement.now

abbrev lockActiveTask (taskId : UUID) : Reserving (Option WorkerExecutionReservationRecord) :=
  Prog.perform (ReservationStatement.lockActiveTask taskId)

abbrev lockBusy (workerAgentId : UUID) (expired : List UUID) :
    Reserving (Option WorkerExecutionReservationRecord) :=
  Prog.perform (ReservationStatement.lockBusy workerAgentId expired)

abbrev lastAttempt (taskId : UUID) : Reserving ℕ :=
  Prog.perform (ReservationStatement.lastAttempt taskId)

abbrev insert (expired : ReservationRows.Expiries) (record : WorkerExecutionReservationRecord) :
    Reserving Unit :=
  Prog.perform (ReservationStatement.insert expired record)

abbrev getActive (taskId : UUID) : Reserving (Option WorkerExecutionReservationRecord) :=
  Prog.perform (ReservationStatement.getActive taskId)

end Reserving

/-- Expire a row that was found expired. -/
def expireFound (expired : ReservationRows.Expiries) (r : WorkerExecutionReservationRecord) :
    Reserving ReservationRows.Expiries := do
  let now ← Reserving.now
  pure (expired ++ [(r, now)])

/-- The query for the worker's active reservation, and its expiry. -/
def releaseWorker (c : ReserveCommand) (expired : ReservationRows.Expiries) :
    Reserving ReservationRows.Expiries := do
  match ← Reserving.lockBusy c.workerAgentId (expired.map (·.1.id)) with
  | none => pure expired
  | some busy => do
    if busy.isExpired (← Reserving.now) then expireFound expired busy
    else throw (.capacityUnavailable "worker already has an active execution")

/-- The new row, numbered after the attempts read. -/
def addReservation (c : ReserveCommand) (id runId : UUID) (expired : ReservationRows.Expiries) :
    Reserving (WorkerExecutionReservationRecord × Bool) := do
  let now ← Reserving.now
  let attempt ← Reserving.lastAttempt c.taskId
  let record := c.record id runId (1 + attempt) now
  Reserving.insert expired record
  pure (record, true)

/-- The part of the transaction after the task's reservation. -/
def reserveWorker (c : ReserveCommand) (id runId : UUID) (expired : ReservationRows.Expiries) :
    Reserving (WorkerExecutionReservationRecord × Bool) := do
  let expired ← releaseWorker c expired
  addReservation c id runId expired

/-- The transaction of `reserve`. -/
def reserveTransaction (c : ReserveCommand) (id runId : UUID) :
    Reserving (WorkerExecutionReservationRecord × Bool) := do
  match ← Reserving.lockActiveTask c.taskId with
  | none => reserveWorker c id runId []
  | some existing => do
    Prog.lift (assertBinding existing c)
    Prog.lift (assertAssignment existing c)
    if existing.isExpired (← Reserving.now) then do
      let expired ← expireFound [] existing
      reserveWorker c id runId expired
    else pure (existing, false)

/-- `except IntegrityError` in `reserve`: the reservation that was added first is the answer. -/
def afterIntegrityError (c : ReserveCommand) (e : ReservationError) :
    Reserving (WorkerExecutionReservationRecord × Bool) :=
  match e with
  | .integrity => do
    match ← Reserving.getActive c.taskId with
    | some existing => do
      Prog.lift (assertBinding existing c)
      pure (existing, false)
    | none => throw (.capacityUnavailable "worker already has an active execution")
  | e => throw e

/-- `reserve`: the reservation, and whether it is a new one. -/
def reserve (c : ReserveCommand) (id runId : UUID) :
    Reserving (WorkerExecutionReservationRecord × Bool) := do
  Prog.lift (validateLease c.leaseOwner c.leaseSeconds)
  MonadExcept.tryCatch (reserveTransaction c id runId) (afterIntegrityError c)

/-! ## Calls on one row -/

/-- A call that locks one reservation and writes it. -/
inductive ReservationOp where
  | bindPayload (reservationId : UUID) (payload : TaskPayload) (leaseOwner : String)
      (fencingVersion : ℕ)
  | renew (reservationId : UUID) (leaseOwner : String) (fencingVersion : ℕ) (leaseSeconds : ℤ)
  | failPreparation (reservationId : UUID) (error leaseOwner : String) (fencingVersion : ℕ)
  | reconcileLiveDispatch (executionId : UUID) (leaseSeconds : ℤ)
  deriving DecidableEq

namespace ReservationRows

/-- `_owned`. -/
def owned (rows : ReservationRows) (now : Instant) (reservationId : UUID) (owner : String)
    (version : ℕ) : Except ReservationError WorkerExecutionReservationRecord :=
  match Keyed.find (·.id) rows reservationId with
  | none => .error (.conflict "execution reservation ownership changed")
  | some record =>
    if record.status.isActive = false ∨ record.leaseOwner ≠ some owner ∨
        record.version ≠ version then
      .error (.conflict "execution reservation ownership changed")
    else if record.isExpired now then
      .error (.conflict "execution reservation lease expired")
    else .ok record

/-- Replace the row of one reservation. -/
def writeRow (rows : ReservationRows) (reservationId : UUID)
    (update : WorkerExecutionReservationRecord → WorkerExecutionReservationRecord) :
    ReservationRows :=
  Keyed.write (·.id) rows reservationId update

/-- One call. -/
def apply (rows : ReservationRows) (now : Instant) :
    ReservationOp → Except ReservationError ReservationRows
  | .bindPayload reservationId payload leaseOwner fencingVersion => do
    let _ ← rows.owned now reservationId leaseOwner fencingVersion
    .ok (rows.writeRow reservationId fun r =>
      { r with
        status := .running
        taskPayload := some payload
        version := r.version + 1
        updatedAt := now })
  | .renew reservationId leaseOwner fencingVersion leaseSeconds => do
    validateLease leaseOwner leaseSeconds
    let _ ← rows.owned now reservationId leaseOwner fencingVersion
    .ok (rows.writeRow reservationId fun r =>
      { r with leaseExpiresAt := some (now + seconds leaseSeconds), updatedAt := now })
  | .failPreparation reservationId error leaseOwner fencingVersion => do
    let _ ← rows.owned now reservationId leaseOwner fencingVersion
    .ok (rows.writeRow reservationId fun r =>
      { r with
        status := .failed
        errorDetail := some (truncate 2000 error)
        leaseOwner := none
        leaseExpiresAt := none
        version := r.version + 1
        updatedAt := now
        completedAt := some now })
  | .reconcileLiveDispatch executionId leaseSeconds =>
    match Keyed.find (·.id) rows executionId with
    | none => .error (.conflict "execution reservation is not active")
    | some record =>
      if record.status.isActive then
        .ok (rows.writeRow executionId fun r =>
          { r with leaseExpiresAt := some (now + seconds leaseSeconds), updatedAt := now })
      else .error (.conflict "execution reservation is not active")

end ReservationRows

/-! ## The runtime database -/

/-- The tables of the runner gateway and the reservations, and the clock. -/
structure RuntimeState where
  gateway : RunnerGatewayStore := {}
  now : Instant := 0
  deriving DecidableEq

namespace RuntimeState

/-- The reservation table. -/
abbrev rows (st : RuntimeState) : ReservationRows := st.gateway.reservations

/-- The state with other reservations. -/
def withRows (st : RuntimeState) (rows : ReservationRows) : RuntimeState :=
  { st with gateway := { st.gateway with reservations := rows } }

/-- A statement of `reserve` that is answered. -/
def execute : (op : ReservationStatement) → RuntimeState →
    Except ReservationError (ReservationAnswer op) × RuntimeState
  | .now, st => (.ok st.now, st)
  | .lockActiveTask taskId, st => (.ok (st.rows.activeTask taskId), st)
  | .lockBusy workerAgentId expired, st => (.ok (st.rows.busy workerAgentId expired), st)
  | .lastAttempt taskId, st => (.ok (st.rows.lastAttempt taskId), st)
  | .insert expired record, st =>
    match st.rows.commit expired record with
    | .ok rows => (.ok (), st.withRows rows)
    | .error e => (.error e, st)
  | .getActive taskId, st => (.ok (st.rows.activeTask taskId), st)

end RuntimeState

/-- The rows a transaction has locked are still what it read when it commits. -/
def ReservationStatement.LocksHeld : ReservationStatement → RuntimeState → Prop
  | .insert expired _, st => ∀ e ∈ expired, e.1 ∈ st.rows
  | _, _ => True

instance (op : ReservationStatement) (st : RuntimeState) : Decidable (op.LocksHeld st) :=
  match op with
  | .insert expired _ => inferInstanceAs (Decidable (∀ e ∈ expired, e.1 ∈ st.rows))
  | .now | .lockActiveTask _ | .lockBusy .. | .lastAttempt _ | .getActive _ => .isTrue trivial

/-- A call of the runner gateway that reads this clock. It leaves the reservations to the terminal
events. -/
def RunnerOp.AtClock (now : Instant) : RunnerOp → Prop
  | .enqueue _ read | .leaseNext _ _ _ read | .recordEvent _ _ _ read => read = now
  | .getActiveDispatchForTask _ _ => True
  | .reservations _ => False

/-- One step of the rest of the system: time passes, a call on one reservation is made, or one of
the runner gateway, a terminal event among them. -/
inductive RuntimeMove : RuntimeState → RuntimeState → Prop
  | tick (st : RuntimeState) (later : Instant) (h : st.now ≤ later) :
      RuntimeMove st { st with now := later }
  | reservation {st : RuntimeState} {op : ReservationOp} {rows : ReservationRows}
      (h : st.rows.apply st.now op = .ok rows) : RuntimeMove st (st.withRows rows)
  | runner {st : RuntimeState} {op : RunnerOp} (h : RunnerOp.AtClock st.now op) :
      RuntimeMove st { st with gateway := RunnerOp.run st.gateway op }

/-- The reservation store as the system uses it: any calls of `reserve`, interleaved at every
statement with each other and with everything else; a statement may also fail. -/
def reservationSystem : Threaded ReservationAnswer ReservationError
    (WorkerExecutionReservationRecord × Bool) RuntimeState where
  Exec := fun op st r st' =>
    (op.LocksHeld st ∧ (r, st') = RuntimeState.execute op st) ∨ (∃ e, r = .error e) ∧ st' = st
  Starts := fun p => ∃ c id runId, p = reserve c id runId
  Environment := RuntimeMove

end AgentRuntime
end RepoMesh
