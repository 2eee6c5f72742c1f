/-
# Decomposing a repository task

`DecomposeRepositoryTask`: the worker task of a repository task where the platform decomposes,
and the roster and safety envelope a leader plans inside where the leader does.
-/
import RepoMesh.Orchestration.Orchestrator

namespace RepoMesh
namespace Orchestration

open Text
open Async (Prog)
open Delivery (UUID uuidStr)

/-- `derive_allowed_paths`. -/
def deriveAllowedPaths (responsibilityPaths testPaths : List String) : List String :=
  if responsibilityPaths = [] then ["**"] else (responsibilityPaths ++ testPaths).eraseDups

/-- `safety_envelope`. -/
def safetyEnvelope (roster : List WorkerRosterEntryView) (tests testPaths : List String) :
    LeaderSafetyEnvelopeView :=
  { allowedPathRoots :=
      deriveAllowedPaths (roster.flatMap (·.responsibilityPaths)).eraseDups testPaths
    testPaths
    testCommands := tests }

/-- `repository_team`. -/
def repositoryTeam (projectId repositoryId : UUID) : Call RepositoryTeamView := do
  let topology ← Call.topology projectId
  match topology.bind fun t => t.team repositoryId with
  | none => throw (.taskDenied "project repository team does not exist")
  | some team => pure team

/-- The check every permit and the roster make of a worker. -/
def activeWorker (agentId : UUID) : Call AgentPrincipalView := do
  match ← Call.agent agentId with
  | none => throw (.taskDenied "worker agent is missing or disabled")
  | some worker =>
    if worker.status = .active then pure worker
    else throw (.taskDenied "worker agent is missing or disabled")

/-- `worker_roster`. -/
def workerRoster (team : RepositoryTeamView) : Call (List WorkerRosterEntryView) :=
  if team.workerAgentIds = [] then
    throw (.taskDenied "repository team has no worker to execute the task")
  else
    Prog.each (fun workerAgentId => do
      let worker ← activeWorker workerAgentId
      pure
        { workerAgentId := worker.id
          workerName := worker.agentteamsResourceName
          responsibilityPaths := worker.responsibilityPaths }) team.workerAgentIds

/-- `_ensure_specification`. -/
def ensureSpecification (workerTask : Task) (tests testPaths : List String) (key : String) :
    Call Unit := do
  let worker ← activeWorker workerTask.assigneeAgentId
  Call.ensureApproved workerTask (deriveAllowedPaths worker.responsibilityPaths testPaths) tests
    (key ++ ":spec:" ++ uuidStr workerTask.assigneeAgentId)

/-- The leader of a repository task, with the first worker of its team. -/
def decomposingTeam (task : Task) : Call UUID := do
  match ← Call.agent task.assigneeAgentId with
  | none => throw (.taskDenied "repository leader is missing or disabled")
  | some leader =>
    if leader.status ≠ .active then throw (.taskDenied "repository leader is missing or disabled")
    else if leader.role ≠ .repositoryLeader then
      throw (.taskDenied "only a repository leader task can be decomposed")
    else do
      let team ← repositoryTeam task.projectId task.repositoryId
      if team.leaderAgentId ≠ leader.id then
        throw (.taskDenied "repository team is led by another agent")
      else
        match team.workerAgentIds with
        | [] => throw (.taskDenied "repository team has no worker to execute the task")
        | workerAgentId :: _ => pure workerAgentId

/-- `in_flight`. -/
def inFlight (workerAgentId : UUID) (children : List Task) : Bool :=
  children.any fun child => child.assigneeAgentId == workerAgentId && !child.status.isFinal

section Decompose

variable [Codecs]

/-- The three calls at the end of `DecomposeRepositoryTask.execute`. -/
def decomposeTo (task : Task) (workerAgentId : UUID) (workerKey key : String)
    (tests testPaths : List String) : Call (List Task) := do
  let workerTask ← assign
    { organizationId := task.organizationId
      projectId := task.projectId
      repositoryId := task.repositoryId
      assignedByAgentId := task.assigneeAgentId
      assigneeAgentId := workerAgentId
      title := task.title
      instruction := task.instruction
      acceptance := task.acceptance
      parentTaskId := some task.id }
    workerKey task.origin false
  ensureSpecification workerTask tests testPaths key
  deliverAssignment workerTask.id
  pure [workerTask]

/-- `DecomposeRepositoryTask.execute` once the task and its worker are known. -/
def decomposeTask (task : Task) (workerAgentId : UUID) (key : String)
    (tests testPaths : List String) : Call (List Task) := do
  let workerKey := key ++ ":worker:" ++ uuidStr workerAgentId
  let children ← Call.tasksByParent task.id
  let owned ← Call.taskByKey workerKey
  if inFlight workerAgentId children && owned.isNone then do
    let _ ← Prog.each (fun child => ensureSpecification child tests testPaths key)
      (children.filter fun child => !child.status.isFinal)
    pure children
  else decomposeTo task workerAgentId workerKey key tests testPaths

/-- `DecomposeRepositoryTask.execute`. -/
def decompose (repositoryTaskId : UUID) (idempotencyKey : String) (tests testPaths : List String) :
    Call (List Task) :=
  if strip idempotencyKey = "" then throw (.valueError "idempotency_key is required")
  else do
    let task ← requiredTask repositoryTaskId
    let workerAgentId ← decomposingTeam task
    decomposeTask task workerAgentId (strip idempotencyKey) tests testPaths

end Decompose

end Orchestration
end RepoMesh
