/-
# Repair tasks

The three creators that hand a failing candidate back to its repository's worker: for a failed
CI run, for a revert that conflicts, and for a branch that no longer merges.
-/
import RepoMesh.Orchestration.Orchestrator

namespace RepoMesh
namespace Scm

open Text
open Async (Prog)
open Delivery
open Orchestration (Call ProjectAgentTopologyView RepositoryTeamView AssignTaskCommand Task Codecs
  TaskOrigin)

/-- What the repair of a branch conflict is told about its case. -/
structure DeliveryConflictCase where
  id : UUID
  kind : DeliveryConflictKind
  expectedBaseSha : String
  observedBaseSha : String
  deriving DecidableEq

/-- `CreateCIReworkTaskCommand`. -/
structure CreateCIReworkTaskCommand where
  organizationId : UUID
  projectId : UUID
  changeSetId : UUID
  repositoryId : UUID
  repositoryManagerAgentId : UUID
  workerAgentId : UUID
  parentTaskId : UUID
  failedHeadSha : String
  failureSummary : String
  acceptance : List String
  deriving DecidableEq

/-- `_failure_summary`: the checks that failed, else what CI said. -/
def failureSummary (candidate : RepositoryDelivery) : String :=
  let failed := candidate.ciChecks.filter fun check => !check.passed
  if failed ≠ [] then join "; " (failed.map fun check => check.checkName ++ ": " ++ check.summary)
  else
    match candidate.ciSummary with
    | some summary => if summary = "" then "CI reported the candidate as failed" else summary
    | none => "CI reported the candidate as failed"

/-- The candidate of a repository in a ChangeSet. -/
def candidateOf (changeSet : ChangeSet) (repositoryId : UUID) : Option RepositoryDelivery :=
  changeSet.repositories.find? fun item => item.repositoryId == repositoryId

/-- The repository's team with the worker that repairs it: the first one listed. -/
def repairTeam (view : ProjectAgentTopologyView) (repositoryId : UUID) :
    Option (RepositoryTeamView × UUID) := do
  let team ← view.team repositoryId
  let worker ← team.workerAgentIds.head?
  return (team, worker)

/-! ## Failed CI -/

/-- The assignment `CIReworkTaskCreator.create` makes for a head. -/
def ciReworkAssignment (command : CreateCIReworkTaskCommand) (sha : String) : AssignTaskCommand :=
  { organizationId := command.organizationId
    projectId := command.projectId
    repositoryId := command.repositoryId
    assignedByAgentId := command.repositoryManagerAgentId
    assigneeAgentId := command.workerAgentId
    parentTaskId := some command.parentTaskId
    title := "Repair failed delivery candidate"
    instruction := "Repair candidate " ++ sha ++ " for ChangeSet " ++
      uuidStr command.changeSetId ++ ". " ++ "CI evidence: " ++ strip command.failureSummary
    acceptance := command.acceptance }

/-- The idempotency key of a CI repair. -/
def ciReworkKey (changeSetId repositoryId : UUID) (sha : String) : String :=
  "ci-rework:" ++ uuidStr changeSetId ++ ":" ++ uuidStr repositoryId ++ ":" ++ sha

/-- The command `create_for_failed_candidate` resolves. -/
def ciReworkCommand (changeSet : ChangeSet) (candidate : RepositoryDelivery) (repositoryId : UUID)
    (leaderAgentId workerAgentId : UUID) : CreateCIReworkTaskCommand :=
  { organizationId := changeSet.organizationId
    projectId := changeSet.projectId
    changeSetId := changeSet.id
    repositoryId
    repositoryManagerAgentId := leaderAgentId
    workerAgentId
    parentTaskId := candidate.taskId
    failedHeadSha := candidate.commitSha
    failureSummary := failureSummary candidate
    acceptance :=
      ["The failing checks pass on the repaired candidate.",
        "The repaired candidate keeps the ChangeSet's agreed scope."] }

section Creators

variable [Codecs]

/-- `CIReworkTaskCreator.create`. -/
def createCIRework (command : CreateCIReworkTaskCommand) : Call Task :=
  if isFullSha command.failedHeadSha then
    Orchestration.assign (ciReworkAssignment command (normalize command.failedHeadSha))
      (ciReworkKey command.changeSetId command.repositoryId (normalize command.failedHeadSha))
      .rework true
  else throw (.valueError "failed_head_sha must be a full Git object id")

/-- `CIReworkTaskCreator.create_for_failed_candidate`. -/
def createForFailedCandidate (changeSet : ChangeSet) (repositoryId : UUID) : Call UUID :=
  match candidateOf changeSet repositoryId with
  | none => throw (.valueError ("repository not in ChangeSet: " ++ uuidStr repositoryId))
  | some candidate => do
    match ← Call.topology changeSet.projectId with
    | none =>
      throw (.valueError ("project topology is unavailable: " ++ uuidStr changeSet.projectId))
    | some view =>
      match repairTeam view repositoryId with
      | none =>
        throw (.valueError ("repository " ++ uuidStr repositoryId ++
          " has no Worker to repair a candidate"))
      | some (team, worker) => do
        let task ← createCIRework
          (ciReworkCommand changeSet candidate repositoryId team.leaderAgentId worker)
        pure task.id

/-! ## Revert conflicts -/

/-- The assignment `RecoveryConflictTaskCreator.create_for_conflict` makes. -/
def revertConflictAssignment (changeSet : ChangeSet) (action : RecoveryAction)
    (candidate : Option RepositoryDelivery) (repositoryId : UUID) (error : String)
    (leaderAgentId workerAgentId : UUID) : AssignTaskCommand :=
  { organizationId := changeSet.organizationId
    projectId := changeSet.projectId
    repositoryId
    assignedByAgentId := leaderAgentId
    assigneeAgentId := workerAgentId
    parentTaskId := candidate.map (·.taskId)
    title := "Resolve delivery revert conflict"
    instruction := "Recovery action " ++ action.kind.value ++ " for ChangeSet " ++
      uuidStr changeSet.id ++ " " ++ "could not roll back repository " ++ uuidStr repositoryId ++
      " automatically. " ++ "Conflict evidence: " ++ strip error
    acceptance :=
      ["The revert applies cleanly on top of the delivery base branch.",
        "Shared history is not force-reset; the rollback stays a revert commit."] }

/-- The idempotency key of a revert repair. -/
def revertConflictKey (changeSetId actionId : UUID) : String :=
  "revert-conflict:" ++ uuidStr changeSetId ++ ":" ++ uuidStr actionId

/-- `RecoveryConflictTaskCreator.create_for_conflict`. -/
def createForConflict (changeSet : ChangeSet) (action : RecoveryAction) (error : String) :
    Call UUID :=
  match action.repositoryId with
  | none => throw (.valueError "a revert conflict must name the repository that conflicts")
  | some repositoryId => do
    match ← Call.topology changeSet.projectId with
    | none =>
      throw (.valueError ("project topology is unavailable: " ++ uuidStr changeSet.projectId))
    | some view =>
      match repairTeam view repositoryId with
      | none =>
        throw (.valueError ("repository " ++ uuidStr repositoryId ++
          " has no Worker to resolve a revert conflict"))
      | some (team, worker) => do
        let task ← Orchestration.assign
          (revertConflictAssignment changeSet action (candidateOf changeSet repositoryId)
            repositoryId error team.leaderAgentId worker)
          (revertConflictKey changeSet.id action.id) .planned true
        pure task.id

/-! ## Branch conflicts -/

/-- The assignment `DeliveryConflictTaskCreator.create` makes. -/
def branchConflictAssignment (changeSet : ChangeSet) (candidate : RepositoryDelivery)
    (case : DeliveryConflictCase) (leaderAgentId workerAgentId : UUID) : AssignTaskCommand :=
  { organizationId := changeSet.organizationId
    projectId := changeSet.projectId
    repositoryId := candidate.repositoryId
    assignedByAgentId := leaderAgentId
    assigneeAgentId := workerAgentId
    parentTaskId := some candidate.taskId
    title := "Resolve delivery branch conflict"
    instruction := "Candidate " ++ candidate.commitSha ++ " for ChangeSet " ++
      uuidStr changeSet.id ++ " is based on " ++ case.expectedBaseSha ++
      ", while the target branch is " ++ case.observedBaseSha ++ ". " ++
      "Conflict type: " ++ case.kind.value ++
      ". Reapply the intended change on the current " ++
      "target branch without force-resetting shared history, run repository tests, " ++
      "and publish a new candidate Head."
    acceptance :=
      ["The intended change applies cleanly on the current target branch.",
        "Repository verification passes from the new base.",
        "The result contains a new full candidate commit SHA."] }

/-- The idempotency key of a branch repair. -/
def branchConflictKey (caseId : UUID) : String := "delivery-conflict:" ++ uuidStr caseId

/-- `DeliveryConflictTaskCreator.create`. -/
def createForBranchConflict (changeSet : ChangeSet) (candidate : RepositoryDelivery)
    (case : DeliveryConflictCase) : Call UUID := do
  let view ← Call.topology changeSet.projectId
  match view.bind fun v => repairTeam v candidate.repositoryId with
  | none =>
    throw (.valueError ("repository " ++ uuidStr candidate.repositoryId ++
      " has no Worker to resolve delivery conflict"))
  | some (team, worker) => do
    let task ← Orchestration.assign
      (branchConflictAssignment changeSet candidate case team.leaderAgentId worker)
      (branchConflictKey case.id) .rework true
    pure task.id

end Creators

end Scm
end RepoMesh
