/-
# Delivery contracts

The enumerations, commands and errors the delivery module publishes, under the source's names.
-/
import RepoMesh.Foundation.Text

namespace RepoMesh
namespace Delivery

open Text

/-- A `UUID` is its 128-bit number; `str(uuid)` orders identifiers as numbers do. -/
abbrev UUID := ℕ

/-- A timezone-aware `datetime`, in microseconds. -/
abbrev Instant := ℤ

/-- `timedelta(seconds=n)`, in microseconds. -/
def seconds (n : ℤ) : ℤ := n * 1000000

/-- `str(uuid)`: 8-4-4-4-12 hexadecimal digits. -/
def uuidStr (id : UUID) : String :=
  let ds := hexDigits 32 id
  String.ofList (ds.take 8 ++ ['-'] ++ (ds.drop 8).take 4 ++ ['-'] ++ (ds.drop 12).take 4 ++
    ['-'] ++ (ds.drop 16).take 4 ++ ['-'] ++ ds.drop 20)

theorem mem_uuidStr {id : UUID} {c : Char} (hc : c ∈ (uuidStr id).toList) :
    c = '-' ∨ c ∈ hexDigits 32 id := by
  rw [uuidStr, String.toList_ofList] at hc
  simp only [List.mem_append, List.mem_singleton] at hc
  rcases hc with (((((((h | h) | h) | h) | h) | h) | h) | h) | h
  · exact Or.inr (List.mem_of_mem_take h)
  · exact Or.inl h
  · exact Or.inr (List.mem_of_mem_drop (List.mem_of_mem_take h))
  · exact Or.inl h
  · exact Or.inr (List.mem_of_mem_drop (List.mem_of_mem_take h))
  · exact Or.inl h
  · exact Or.inr (List.mem_of_mem_drop (List.mem_of_mem_take h))
  · exact Or.inl h
  · exact Or.inr (List.mem_of_mem_drop h)

/-- The exceptions a delivery operation can raise, with their messages. -/
inductive Raised where
  | deliveryDenied (message : String)
  | deliveryConflict (message : String)
  | deliveryNotFound (message : String)
  | valueError (message : String)
  deriving DecidableEq

/-- Status of a ChangeSet. -/
inductive ChangeSetStatus where
  | draft | ready | delivering | blocked | delivered | compensating | compensated
  | manualIntervention
  deriving DecidableEq

/-- Status of one repository candidate. -/
inductive RepositoryDeliveryStatus where
  | pending | prOpen | ciPending | ciFailed | reviewPending | reviewChangesRequested
  | readyToMerge | mergeRequested | merged | compensationPending | compensated
  | manualIntervention
  deriving DecidableEq

/-- The wire value of a repository status, as error messages render it. -/
def RepositoryDeliveryStatus.value : RepositoryDeliveryStatus → String
  | .pending => "pending"
  | .prOpen => "pr_open"
  | .ciPending => "ci_pending"
  | .ciFailed => "ci_failed"
  | .reviewPending => "review_pending"
  | .reviewChangesRequested => "review_changes_requested"
  | .readyToMerge => "ready_to_merge"
  | .mergeRequested => "merge_requested"
  | .merged => "merged"
  | .compensationPending => "compensation_pending"
  | .compensated => "compensated"
  | .manualIntervention => "manual_intervention"

/-- Why a recovery plan was requested. -/
inductive RecoveryTrigger where
  | runnerFailed | runnerInterrupted | ciFailed | prConflict | partialMerge | operatorRequested
  deriving DecidableEq

/-- What a recovery action does. -/
inductive RecoveryActionKind where
  | resumeRunnerSession | retryRunner | closePullRequest | createRevertPullRequest
  | mergeRevertPullRequest | revalidateChangeset | manualIntervention
  deriving DecidableEq

/-- The wire value of a recovery action kind. -/
def RecoveryActionKind.value : RecoveryActionKind → String
  | .resumeRunnerSession => "resume_runner_session"
  | .retryRunner => "retry_runner"
  | .closePullRequest => "close_pull_request"
  | .createRevertPullRequest => "create_revert_pull_request"
  | .mergeRevertPullRequest => "merge_revert_pull_request"
  | .revalidateChangeset => "revalidate_changeset"
  | .manualIntervention => "manual_intervention"

/-- Status of a recovery action. -/
inductive RecoveryActionStatus where
  | pending | running | waitingWorker | succeeded | failed | skipped
  deriving DecidableEq

/-- `status in {SUCCEEDED, SKIPPED}`. -/
def RecoveryActionStatus.isDone : RecoveryActionStatus → Bool
  | .succeeded | .skipped => true
  | _ => false

/-- The verdict of one reviewer. -/
inductive ReviewState where
  | approved | changesRequested | dismissed
  deriving DecidableEq

/-- The kinds of governance decision. -/
inductive GovernanceDecisionKind where
  | ready | blocked | rollbackRequired
  deriving DecidableEq

/-- The kinds of delivery conflict. -/
inductive DeliveryConflictKind where
  | baseDrift | contentConflict
  deriving DecidableEq

/-- The wire value of a conflict kind. -/
def DeliveryConflictKind.value : DeliveryConflictKind → String
  | .baseDrift => "base_drift"
  | .contentConflict => "content_conflict"

/-- One repository candidate of a `prepare` or `append_candidates` command. -/
structure RepositoryCandidateInput where
  repositoryId : UUID
  taskId : UUID
  commitSha : String
  baseSha : String
  branchName : String
  dependsOn : List UUID
  requiredChecks : List String
  requiredApprovals : ℤ
  planId : Option UUID
  runId : Option UUID
  workerAgentId : Option UUID
  deriving DecidableEq

/-- `PrepareChangeSetCommand`. -/
structure PrepareChangeSetCommand where
  organizationId : UUID
  projectId : UUID
  createdByAgentId : UUID
  title : String
  validationSnapshotId : Option UUID
  candidates : List RepositoryCandidateInput
  deriving DecidableEq

/-- `AppendCandidatesCommand`. -/
structure AppendCandidatesCommand where
  changeSetId : UUID
  candidates : List RepositoryCandidateInput
  deriving DecidableEq

/-- `RecordCandidateTraceabilityCommand`. -/
structure RecordCandidateTraceabilityCommand where
  changeSetId : UUID
  repositoryId : UUID
  taskId : UUID
  commitSha : String
  planId : UUID
  runId : Option UUID
  workerAgentId : UUID
  deriving DecidableEq

/-- `PullRequestObservationCommand`. -/
structure PullRequestObservationCommand where
  changeSetId : UUID
  repositoryId : UUID
  pullRequestNumber : ℤ
  pullRequestUrl : String
  headSha : String
  deriving DecidableEq

/-- `CIObservationCommand`. -/
structure CIObservationCommand where
  changeSetId : UUID
  repositoryId : UUID
  passed : Bool
  checkRunId : String
  summary : String
  checkName : String
  deriving DecidableEq

/-- `ReviewObservationCommand`. -/
structure ReviewObservationCommand where
  changeSetId : UUID
  repositoryId : UUID
  reviewId : String
  reviewer : String
  state : ReviewState
  headSha : String
  summary : String
  deriving DecidableEq

/-- `MergeObservationCommand`. -/
structure MergeObservationCommand where
  changeSetId : UUID
  repositoryId : UUID
  mergeSha : String
  deriving DecidableEq

/-- `RecordMergeRequestedCommand`. -/
structure RecordMergeRequestedCommand where
  changeSetId : UUID
  repositoryId : UUID
  headSha : String
  deriving DecidableEq

/-- `RecordGovernanceDecisionCommand`. -/
structure RecordGovernanceDecisionCommand where
  changeSetId : UUID
  repositoryId : UUID
  headSha : String
  decision : GovernanceDecisionKind
  decidedByAgentId : UUID
  reason : String
  deriving DecidableEq

/-- `RecordCandidateRevisionCommand`. -/
structure RecordCandidateRevisionCommand where
  changeSetId : UUID
  repositoryId : UUID
  taskId : UUID
  previousHeadSha : String
  newHeadSha : String
  reason : String
  deriving DecidableEq

/-- `PlanRecoveryCommand`. -/
structure PlanRecoveryCommand where
  changeSetId : UUID
  trigger : RecoveryTrigger
  reason : String
  repositoryId : Option UUID
  runId : Option UUID
  nativeSessionId : Option String
  deriving DecidableEq

/-- `RecordRecoveryActionCommand`. -/
structure RecordRecoveryActionCommand where
  changeSetId : UUID
  recoveryPlanId : UUID
  actionId : UUID
  status : RecoveryActionStatus
  detail : String
  deriving DecidableEq

/-- A contract between a producer and a consumer repository, as the merge gate reads it. -/
structure ContractView where
  producer : UUID
  consumer : UUID
  consumerPlanned : Bool
  deriving DecidableEq

/-- What the merge gate answers. -/
structure MergeGateDecision where
  changeSetId : UUID
  repositoryId : UUID
  allowed : Bool
  reasons : List String
  deriving DecidableEq

/-- What the validation reader answers. -/
structure ValidationEvidenceDecision where
  valid : Bool
  reasons : List String
  deriving DecidableEq

/-- Merge-gate reason for a candidate that lacks a head-bound decision. -/
def mergeGateGovernanceMissingReason : String := "head-bound governance decision is missing"

/-- The idempotency key that binds an execution plan to its ChangeSet. -/
def deliveryChangeSetKey (deliveryId : UUID) : String :=
  "execution-plan:" ++ uuidStr deliveryId ++ ":delivery"

end Delivery
end RepoMesh
