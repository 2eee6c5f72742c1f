/-
# The runner control gateway

`RunnerControlGateway.receive_event`: an event is recorded, and a terminal one is written back to
the task its run belongs to.
-/
import RepoMesh.Runner.World

namespace RepoMesh
namespace Runner

open Text
open Async (Prog)
open AgentRuntime
open Orchestration
open Delivery (UUID uuidStr)

/-- An event as `receive_event` gets it: what the store reads of it, its payload, and its native
session. -/
structure EventDocument where
  event : RunnerEvent
  payload : Json
  nativeSessionId : Option String

namespace EventDocument

/-- `str(event.get("eventType"))`; an event without a readable body is not recorded. -/
def eventType (document : EventDocument) : String :=
  (document.event.body.map (·.eventType)).getD "None"

/-- The task status a terminal event stands for. -/
def terminalStatus? (document : EventDocument) : Option TaskStatus :=
  if document.eventType = "runner.completed" then some .succeeded
  else if document.eventType = "runner.failed" then some .failed
  else if document.eventType = "runner.interrupted" then some .failed
  else if document.eventType = "runner.input_required" then some .blocked
  else none

end EventDocument

/-- `json.dumps(evidence, ensure_ascii=False, sort_keys=True)`, beside the other codecs. -/
class RunnerCodecs extends Codecs where
  evidenceText : Json → String

variable [RunnerCodecs]

/-- `str(details.get("summary") or event["eventType"])`. -/
def summaryOf (details : Json) (eventType : String) : String :=
  match details.get "summary" with
  | .str s => if s = "" then eventType else s
  | value => if value.truthy then Codecs.jsonRepr value else eventType

/-- `dict(dispatch.task_payload.get("workspace") or {})`. -/
def workspaceOf (dispatch : RunnerDispatchRecord) : Json :=
  (((Codecs.jsonLoads dispatch.taskPayload.document).getD .null).get "workspace").or (.obj [])

/-- The evidence a result leaves on its task. -/
def evidenceOf (document : EventDocument) (dispatch : RunnerDispatchRecord) : Json :=
  let details := if document.payload.isObj then document.payload else .obj []
  .obj
    [("summary", .str (summaryOf details document.eventType)),
      ("changedFiles", (details.get? "changedFiles").getD (.arr [])),
      ("testResults", (details.get? "testResults").getD (.arr [])),
      ("testCommand", details.get "testCommand"),
      ("artifacts", (details.get? "artifacts").getD (.arr [])),
      ("blockers", (details.get? "blockers").getD (.arr [])),
      ("commitSha", details.get "commitSha"),
      ("runId", .str (uuidStr dispatch.runId)),
      ("workspacePath", (workspaceOf dispatch).get "path"),
      ("baseSha", (workspaceOf dispatch).get "baseSha")]

/-- `_advance_execution_plan`: whatever the callback raises is logged. -/
def advanceExecutionPlan (taskId : UUID) : RunnerCall Unit :=
  MonadExcept.tryCatch (RunnerCall.onTerminal taskId) fun _ => pure ()

/-- `status in _TERMINAL_TASK_STATUSES`. -/
def advanceIfTerminal (taskId : UUID) (status : TaskStatus) : RunnerCall Unit :=
  if status = .succeeded ∨ status = .failed then advanceExecutionPlan taskId else pure ()

/-- `_write_back`. -/
def writeBack (document : EventDocument) (status : TaskStatus) : RunnerCall Unit := do
  match ← RunnerCall.getDispatch document.event.runId with
  | none => throw (.valueError "runner dispatch disappeared during result projection")
  | some dispatch => do
    match ← RunnerCall.getTask dispatch.task.taskId with
    | none => throw (.valueError "runner result references an unknown business task")
    | some task =>
      if task.assigneeAgentId ≠ dispatch.task.workerAgentId then
        throw (.valueError "runner result worker binding mismatch")
      else if task.status = status then advanceIfTerminal task.id status
      else do
        let updated ← Prog.lift
          (task.report status (RunnerCodecs.evidenceText (evidenceOf document dispatch)))
        RunnerCall.updateTask updated task.version
        advanceIfTerminal task.id status

/-- Whether the assignment of the run is still in force. -/
def assignmentAllows (dispatch : Option RunnerDispatchRecord) : RunnerCall Bool :=
  match dispatch with
  | none => pure true
  | some dispatch =>
    match dispatch.task.assignmentAttemptId, dispatch.task.assignmentGeneration with
    | none, _ => pure true
    | some _, none => pure false
    | some attempt, some generation =>
      RunnerCall.allowsProjection dispatch.task.taskId attempt generation

/-- The attempt a completed run ends. -/
def completeAssignment (document : EventDocument) (dispatch : Option RunnerDispatchRecord) :
    RunnerCall Unit :=
  match dispatch with
  | none => pure ()
  | some dispatch =>
    match dispatch.task.assignmentAttemptId, dispatch.task.assignmentGeneration with
    | some attempt, some generation =>
      if document.eventType = "runner.completed" then
        RunnerCall.completeCurrent dispatch.task.taskId attempt generation
      else pure ()
    | _, _ => pure ()

/-- The recovery of a run that did not complete. -/
def recoverRun (document : EventDocument) : RunnerCall Unit :=
  if document.eventType = "runner.failed" ∨ document.eventType = "runner.interrupted" ∨
      document.eventType = "runner.input_required" then
    RunnerCall.ensureRecoveryForRun document.event.runId
      ((terminalStatusOf document.eventType).map (·.value) |>.getD document.eventType)
      document.nativeSessionId
  else pure ()

/-- `receive_event`. -/
def receiveEvent (document : EventDocument) (workerAgentId : Option UUID) : RunnerCall Bool := do
  let dispatch ← RunnerCall.getDispatch document.event.runId
  let allowed ← assignmentAllows dispatch
  let inserted ← RunnerCall.recordEvent document.event workerAgentId allowed
  match document.terminalStatus? with
  | none => pure inserted
  | some status => do
    if ← RunnerCall.projectionAllowed document.event.runId then do
      writeBack document status
      completeAssignment document dispatch
      recoverRun document
      pure inserted
    else pure inserted

end Runner
end RepoMesh
