/-
# The recovery coordinator

`WorkerRecoveryCoordinator.decide`: what becomes of a task whose execution failed. The callbacks it
is built with are parameters.
-/
import RepoMesh.Runner.World

namespace RepoMesh
namespace Runner

open Async (Prog)
open Orchestration
open Delivery (UUID)

/-- What the coordinator is built with. -/
structure Coordinator where
  resume : WorkerRecoveryOperation → RunnerCall Unit
  startReplacement : UUID → UUID → RunnerCall Unit
  escalate : WorkerRecoveryOperation → String → RunnerCall Unit
  maxReassignments : ℤ := 2

/-- The coordinator whose callbacks are operations. -/
def portCoordinator (maxReassignments : ℤ) : Coordinator where
  resume := RunnerCall.resume
  startReplacement := RunnerCall.startReplacement
  escalate := RunnerCall.escalate
  maxReassignments := maxReassignments

/-- `escalate`, and the decision. -/
def escalated (c : Coordinator) (operation : WorkerRecoveryOperation) (reason : String) :
    RunnerCall WorkerRecoveryDecision := do
  c.escalate operation reason
  pure .escalate

/-- One worker of the team, if it can take the task over. -/
def candidateWorker (workerId : UUID) : RunnerCall (Option WorkerRecoveryCandidate) := do
  match ← RunnerCall.agent workerId with
  | none => pure none
  | some principal =>
    if principal.role ≠ .worker ∨ principal.status ≠ .active then pure none
    else if !(← RunnerCall.healthy workerId) then pure none
    else if ← RunnerCall.workerBusy workerId then pure none
    else do
      let failures ← RunnerCall.recentFailures workerId
      pure (some { workerId := workerId, recentFailures := failures })

/-- The choice of a replacement in `decide`, or the reason to escalate. -/
def chooseReplacement (operation : WorkerRecoveryOperation) (task : Task) :
    RunnerCall (Except String UUID) := do
  match ← RunnerCall.topology task.projectId with
  | none => pure (.error "project_topology_missing")
  | some topology =>
    match topology.repositoryTeams.find? fun team => team.repositoryId == task.repositoryId with
    | none => pure (.error "repository_team_missing")
    | some team => do
      let found ← Prog.each candidateWorker team.workerAgentIds
      match selectReplacementWorker (found.filterMap fun c => c) operation.failedWorkerId with
      | none => pure (.error "no_healthy_replacement_worker")
      | some replacement => pure (.ok replacement.workerId)

/-- The end of `decide`: another worker takes the task over. -/
def reassignTo (c : Coordinator) (operation : WorkerRecoveryOperation) (task : Task)
    (assignment : TaskAssignmentAttempt) (workerId : UUID) : RunnerCall WorkerRecoveryDecision := do
  let reassigned ← RunnerCall.reassign
    { taskId := task.id
      expectedTaskVersion := task.version
      expectedGeneration := assignment.generation
      replacementWorkerId := workerId
      reason := if operation.reason = "interrupted" then .runnerInterrupted else .workerUnreachable }
  c.startReplacement task.id reassigned.workerAgentId
  pure .reassign

/-- The same worker goes on with its session. -/
def resumeSame (c : Coordinator) (operation : WorkerRecoveryOperation) (task : Task)
    (assignment : TaskAssignmentAttempt) : RunnerCall WorkerRecoveryDecision :=
  if operation.reason = "input_required" then escalated c operation "runner_input_required"
  else do
    let _ ← RunnerCall.reopenSameAssignment task.id task.version assignment.generation
    c.resume operation
    pure .resume

/-- The reassignment, unless the budget is spent or nobody can take over. -/
def reassignElsewhere (c : Coordinator) (operation : WorkerRecoveryOperation) (task : Task)
    (assignment : TaskAssignmentAttempt) : RunnerCall WorkerRecoveryDecision :=
  if assignment.generation - 1 ≥ c.maxReassignments then
    escalated c operation "reassignment_budget_exhausted"
  else do
    match ← chooseReplacement operation task with
    | .error reason => escalated c operation reason
    | .ok workerId => reassignTo c operation task assignment workerId

/-- `decide`, once the task and its assignment are known. -/
def decideFor (c : Coordinator) (operation : WorkerRecoveryOperation) (task : Task)
    (assignment : TaskAssignmentAttempt) : RunnerCall WorkerRecoveryDecision :=
  if operation.assignmentGeneration.any fun generation => assignment.generation ≠ generation then
    pure .noAction
  else do
    let sameWorkerHealthy ← RunnerCall.healthy operation.failedWorkerId
    let resumable := operation.nativeSessionId.any (fun session => session ≠ "") && sameWorkerHealthy
    if operation.decision = some .resume ∧ !resumable then
      escalated c operation "requested_session_resume_is_unavailable"
    else if operation.decision ≠ some .reassign ∧ resumable then
      resumeSame c operation task assignment
    else reassignElsewhere c operation task assignment

/-- The active assignment, made when there is none. -/
def activeOrInitial (taskId : UUID) : RunnerCall TaskAssignmentAttempt := do
  match ← RunnerCall.activeAttempt taskId with
  | some assignment => pure assignment
  | none => RunnerCall.ensureInitial taskId

/-- `decide`. -/
def decide (c : Coordinator) (operation : WorkerRecoveryOperation) :
    RunnerCall WorkerRecoveryDecision := do
  match ← RunnerCall.getTask operation.taskId with
  | none => do
    let _ ← RunnerCall.activeAttempt operation.taskId
    escalated c operation "task_or_assignment_missing"
  | some task => do
    let assignment ← activeOrInitial operation.taskId
    decideFor c operation task assignment

end Runner
end RepoMesh
