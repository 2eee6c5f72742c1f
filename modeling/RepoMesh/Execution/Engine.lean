/-
# Executing a Runner task

`ExecuteRunnerTask.execute`: the run is accepted, the executor is started, and what it answers is
reported.
-/
import RepoMesh.Execution.Contracts
import RepoMesh.Foundation.Async

namespace RepoMesh
namespace Execution

open Text
open Async (Prog)
open Delivery (uuidStr)

/-- What a call raises: the name of its type, its text, and whether `except Exception` catches
it. -/
structure Failure where
  errorType : String
  message : String
  caught : Bool := true
  deriving DecidableEq

/-- One await of the engine. -/
inductive EngineOp where
  | publish (event : RunnerEvent) (idempotencyKey : String)
  | execute (task : RunnerTask)

/-- What it is answered. -/
@[reducible] def EngineAnswer : EngineOp → Type
  | .publish .. => Unit
  | .execute _ => RunnerExecutionResult

/-- A call of the engine. -/
abbrev EngineCall (α : Type) := Prog EngineAnswer Failure α

/-- `_FINAL_EVENT_TYPES`. -/
def finalEventType : RunnerResultStatus → RunnerEventType
  | .succeeded => .completed
  | .failed => .failed
  | .interrupted => .interrupted
  | .inputRequired => .inputRequired

/-- The name `_event_id` hashes. -/
def eventName (task : RunnerTask) (sequence : ℕ) (eventType : RunnerEventType) : String :=
  "repomesh-runtime-v1:" ++ uuidStr task.runId ++ ":" ++ toString task.ids.attempt ++ ":" ++
    toString sequence ++ ":" ++ eventType.value

/-- `str | None` on the wire. -/
def optionalText : Option String → Json
  | some text => .str text
  | none => .null

/-- The payload of the final event. -/
def resultPayload (result : RunnerExecutionResult) : Json :=
  .obj
    [("status", .str result.status.value),
      ("summary", .str result.summary),
      ("testCommand", optionalText result.testCommand),
      ("artifacts", .arr (result.artifacts.map ArtifactRef.toWire)),
      ("changedFiles", .arr (result.changedFiles.map .str)),
      ("commitSha", optionalText result.commitSha),
      ("testResults", .arr (result.testResults.map fun entry =>
        .obj [("command", .str entry.command), ("exitCode", .int entry.exitCode)])),
      ("databaseChange", (result.databaseChange.map Json.obj).getD .null)]

/-- The payload of the event that reports an exception. -/
def failurePayload (error : Failure) : Json :=
  .obj
    [("errorType", .str error.errorType),
      ("message", .str (truncate 500 error.message))]

/-- The event of a run. -/
def eventOf (task : RunnerTask) (sequence : ℕ) (eventType : RunnerEventType) (payload : Json)
    (nativeSessionId : Option String) : RunnerEvent :=
  { eventName := eventName task sequence eventType
    eventType
    task
    sequence
    payload
    nativeSessionId }

/-- The event that says the run was accepted. -/
def acceptedEvent (task : RunnerTask) : RunnerEvent :=
  eventOf task 1 .accepted (.obj [("adapterId", .str task.adapterId)]) none

/-- The event that says what the executor answered. -/
def finalEvent (task : RunnerTask) : Except Failure RunnerExecutionResult → RunnerEvent
  | .ok result =>
    eventOf task 2 (finalEventType result.status) (resultPayload result) result.nativeSessionId
  | .error error => eventOf task 2 .failed (failurePayload error) none

/-- `_publish`. -/
def publish (task : RunnerTask) (event : RunnerEvent) : EngineCall Unit :=
  Prog.perform (EngineOp.publish event
    (task.idempotencyKey ++ ":event:" ++ toString event.sequence))

/-- `RunnerExecutionError`. -/
def executionError (task : RunnerTask) : Failure :=
  { errorType := "RunnerExecutionError"
    message := "runner execution failed for run " ++ uuidStr task.runId }

/-- The executor, with the report of what it raises. -/
def executed (task : RunnerTask) : EngineCall RunnerExecutionResult :=
  MonadExcept.tryCatch (Prog.perform (EngineOp.execute task)) fun error =>
    if error.caught then do
      publish task (finalEvent task (.error error))
      throw (executionError task)
    else throw error

/-- `execute`. -/
def execute (task : RunnerTask) : EngineCall RunnerExecutionResult := do
  publish task (acceptedEvent task)
  let result ← executed task
  publish task (finalEvent task (.ok result))
  pure result

/-! ## What a run publishes -/

/-- A sink and an executor that answer as they like. -/
def engineExec (sink : RunnerEvent → Except Failure Unit)
    (outcome : Except Failure RunnerExecutionResult) (op : EngineOp) (st : Unit) :
    Except Failure (EngineAnswer op) × Unit :=
  match op with
  | .publish event _ => (sink event, st)
  | .execute _ => (outcome, st)

/-- The event an await publishes. -/
def eventPublished (e : EngineOp × Unit) : Option RunnerEvent :=
  match e.1 with
  | .publish event _ => some event
  | .execute _ => none

/-- The events a run publishes, whether the sink takes them or not. -/
def published (sink : RunnerEvent → Except Failure Unit)
    (outcome : Except Failure RunnerExecutionResult) (task : RunnerTask) : List RunnerEvent :=
  ((execute task).events (engineExec sink outcome) ()).filterMap eventPublished

theorem executed_bind {α : Type} (task : RunnerTask) (f : RunnerExecutionResult → EngineCall α) :
    (executed task >>= f) = .await (EngineOp.execute task) fun r =>
      match r with
      | .ok result => f result
      | .error error =>
        if error.caught then
          publish task (finalEvent task (.error error)) >>= fun _ =>
            Prog.done (.error (executionError task))
        else .done (.error error) := by
  have hexecuted : executed task = .await (EngineOp.execute task) fun r =>
      Prog.tryCatch (.done r) fun error =>
        if error.caught then
          publish task (finalEvent task (.error error)) >>= fun _ =>
            .done (.error (executionError task))
        else .done (.error error) := rfl
  rw [hexecuted, Prog.await_bind]
  congr 1
  funext r
  cases r with
  | ok result => rfl
  | error error =>
    by_cases hcaught : error.caught = true
    · simp only [Prog.tryCatch, hcaught, if_true, Prog.bind_assoc, Prog.error_bind]
    · simp only [Prog.tryCatch, hcaught, Bool.false_eq_true, if_false, Prog.error_bind]

theorem events_publish {α : Type} (sink : RunnerEvent → Except Failure Unit)
    (outcome : Except Failure RunnerExecutionResult) (task : RunnerTask) (event : RunnerEvent)
    (r : Except Failure α) :
    ((publish task event >>= fun _ => .done r).events (engineExec sink outcome) ()).filterMap
      eventPublished = [event] := by
  rw [publish, Prog.perform, Prog.await_bind, Prog.events]
  simp only [engineExec]
  cases sink event <;> rfl

theorem published_eq (sink : RunnerEvent → Except Failure Unit)
    (outcome : Except Failure RunnerExecutionResult) (task : RunnerTask) :
    published sink outcome task = acceptedEvent task ::
      match sink (acceptedEvent task), outcome with
      | .error _, _ => []
      | .ok _, .ok result => [finalEvent task (.ok result)]
      | .ok _, .error error => if error.caught then [finalEvent task (.error error)] else [] := by
  have hfirst : publish task (acceptedEvent task) =
      .await (.publish (acceptedEvent task) (task.idempotencyKey ++ ":event:" ++ toString 1)) .done :=
    rfl
  rw [published, execute, hfirst, Prog.await_bind, Prog.events, List.filterMap_cons]
  simp only [eventPublished, engineExec]
  congr 1
  cases sink (acceptedEvent task) with
  | error e => rfl
  | ok _ =>
    rw [Prog.ok_bind, executed_bind, Prog.events, List.filterMap_cons]
    simp only [eventPublished, engineExec]
    cases outcome with
    | ok result => exact events_publish sink _ task _ _
    | error error =>
      by_cases hcaught : error.caught = true
      · simp only [hcaught, if_true]
        exact events_publish sink _ task _ _
      · simp only [hcaught]
        rfl

/-- **What a run publishes** beside its acceptance is what its executor answered. -/
theorem mem_published {sink : RunnerEvent → Except Failure Unit}
    {outcome : Except Failure RunnerExecutionResult} {task : RunnerTask} {event : RunnerEvent}
    (h : event ∈ published sink outcome task) :
    event = acceptedEvent task ∨ event = finalEvent task outcome := by
  rw [published_eq] at h
  rcases List.mem_cons.mp h with h | h
  · exact Or.inl h
  right
  split at h
  · cases h
  · exact List.mem_singleton.mp h
  · split at h
    · exact List.mem_singleton.mp h
    · cases h

end Execution
end RepoMesh
