/-
# The leader's review

`SubmitRepositoryReview`: a verdict over a round's evidence, and what each of the three verdicts
sets going.
-/
import RepoMesh.Orchestration.Advance
import RepoMesh.Orchestration.LeaderPlan

namespace RepoMesh
namespace Orchestration

open Text
open Async (Prog)
open Delivery (UUID uuidStr)

/-- `_assert_review_is_answerable`. -/
def assertReviewIsAnswerable (decision : RepositoryReviewDecision)
    (evidence : LeaderReviewEvidenceView) : Except Raised Unit :=
  if decision.findings.any fun finding =>
      evidence.workerEvidence.all fun item => item.workerTaskId != finding.workerTaskId then
    .error (.leaderActionRefused .reviewInvalidFindings
      "a finding names a worker task outside this round's evidence")
  else if decision.verdict = .requestRework ∧ decision.reworkFindings = [] then
    .error (.leaderActionRefused .reviewInvalidFindings
      "requesting rework needs at least one finding carrying a rework instruction")
  else .ok ()

/-! ## Rework -/

/-- The key of the repair of one finding. -/
def reworkTaskKey (leaderTaskId : UUID) (revision index : ℕ) : String :=
  "leader-review:" ++ uuidStr leaderTaskId ++ ":r" ++ toString revision ++ ":" ++ toString index

/-- The repair a finding asks for. -/
def findingCommand (assignment : LeaderAssignmentView) (task original : Task)
    (workerAgentId : UUID) (finding : LeaderReviewFinding) (reworkInstruction : String) :
    AssignTaskCommand :=
  { organizationId := assignment.organizationId
    projectId := assignment.projectId
    repositoryId := assignment.repositoryId
    assignedByAgentId := assignment.leaderAgentId
    assigneeAgentId := workerAgentId
    title := task.title
    instruction := reworkInstruction ++ "\n\n" ++ "Review finding on task " ++
      uuidStr finding.workerTaskId ++ ": " ++ finding.note
    acceptance := task.acceptance
    parentTaskId := some assignment.leaderTaskId
    databaseChange := original.databaseChange }

/-- `_author_rework_permit`. -/
def authorReworkPermit (assignment : LeaderAssignmentView) (workerTask : Task) (key : String) :
    Call Unit := do
  let _ ← activeWorker workerTask.assigneeAgentId
  Call.ensureApproved workerTask assignment.safetyEnvelope.allowedPathRoots
    assignment.safetyEnvelope.testCommands (key ++ ":spec")

/-- `evidence_by_task`: the last entry of a worker task. -/
def evidenceByTask (assignment : LeaderAssignmentView) (workerTaskId : UUID) :
    Option WorkerEvidenceView :=
  (((assignment.reviewEvidence.map (·.workerEvidence)).getD []).reverse).find? fun item =>
    item.workerTaskId == workerTaskId

section Rework

variable [Codecs]

/-- The worker a finding goes back to, with the task it is about. -/
def reviewedTask (assignment : LeaderAssignmentView) (finding : LeaderReviewFinding) :
    Call (UUID × Task) :=
  match evidenceByTask assignment finding.workerTaskId with
  | none => throw (.runtimeError "KeyError")
  | some reviewed => do
    match ← Call.getTask finding.workerTaskId with
    | none => throw (.taskNotFound "reviewed worker task does not exist")
    | some original => pure (reviewed.workerAgentId, original)

/-- One round of the loop of `_create_rework`. -/
def dispatchRework (assignment : LeaderAssignmentView) (task : Task) (revision : ℕ)
    (item : (LeaderReviewFinding × String) × ℕ) : Call UUID := do
  let (workerAgentId, original) ← reviewedTask assignment item.1.1
  let key := reworkTaskKey assignment.leaderTaskId revision item.2
  let workerTask ← assign
    (findingCommand assignment task original workerAgentId item.1.1 item.1.2) key .rework false
  authorReworkPermit assignment workerTask key
  deliverAssignment workerTask.id
  pure workerTask.id

/-- `_create_rework`. -/
def createRework (assignment : LeaderAssignmentView) (task : Task)
    (decision : RepositoryReviewDecision) (revision : ℕ) : Call (List UUID) :=
  Prog.each (dispatchRework assignment task revision) decision.reworkFindings.zipIdx

end Rework

/-! ## Verdicts -/

/-- The status a verdict reports the leader task with. -/
def reportedStatus (verdict : LeaderReviewVerdict) : TaskStatus :=
  if verdict = .approve then .succeeded else .blocked

/-- A record with one more accepted review. -/
def withReview (updated : LeaderAssignmentView) (review : AcceptedReviewView) :
    LeaderAssignmentView :=
  { updated with acceptedReviews := updated.acceptedReviews ++ [review] }

/-- The record after a rework verdict: back to work, one revision on. -/
def reworkRequested (assignment : LeaderAssignmentView) (revision : ℕ) : LeaderAssignmentView :=
  { assignment with phase := .executing, reviewRevision := revision + 1, reviewEvidence := none }

/-- The record after a verdict that ends the round. -/
def closedBy (assignment : LeaderAssignmentView) : LeaderAssignmentView :=
  { assignment with phase := .closed }

section Submit

variable [Codecs]

/-- `_review_fingerprint`. -/
def reviewFingerprint (decision : RepositoryReviewDecision) : String :=
  documentFingerprint decision.raw

/-- The review a verdict is recorded as. -/
def acceptedReviewOf (decision : RepositoryReviewDecision) (revision : ℕ) (status : TaskStatus)
    (reworkTaskIds : List UUID) : AcceptedReviewView :=
  { fingerprint := reviewFingerprint decision
    verdict := decision.verdict
    reviewRevision := revision
    leaderTaskStatus := status
    reworkTaskIds }

/-- The record of a rework verdict. -/
def reworkRecord (assignment : LeaderAssignmentView) (decision : RepositoryReviewDecision)
    (revision : ℕ) (reworkTaskIds : List UUID) : LeaderAssignmentView :=
  withReview (reworkRequested assignment revision)
    (acceptedReviewOf decision revision .inProgress reworkTaskIds)

/-- The record of an approval or escalation. -/
def settlementRecord (assignment : LeaderAssignmentView) (decision : RepositoryReviewDecision)
    (revision : ℕ) : LeaderAssignmentView :=
  withReview (closedBy assignment)
    (acceptedReviewOf decision revision (reportedStatus decision.verdict) [])

/-- The receipt of a recorded review. -/
def receiptOf (leaderTaskId : UUID) (review : AcceptedReviewView) : ReviewReceipt :=
  { leaderTaskId
    verdict := review.verdict
    reviewRevision := review.reviewRevision
    leaderTaskStatus := review.leaderTaskStatus
    reworkTaskIds := review.reworkTaskIds }

/-- The report of the leader task that approves or escalates. -/
def settlementReport (leaderTaskId : UUID) (assignment : LeaderAssignmentView)
    (decision : RepositoryReviewDecision) : ReportTaskCommand :=
  { taskId := leaderTaskId
    reporterAgentId := assignment.leaderAgentId
    status := reportedStatus decision.verdict
    summary := decision.summary }

/-- The key of that report. -/
def settlementKey (leaderTaskId : UUID) (revision : ℕ) : String :=
  "leader-review:" ++ uuidStr leaderTaskId ++ ":r" ++ toString revision ++ ":report"

/-- The leader task of a round that ends: reported, unless an earlier attempt reported it. -/
def settleLeaderTask (leaderTaskId : UUID) (assignment : LeaderAssignmentView) (task : Task)
    (decision : RepositoryReviewDecision) (revision : ℕ) : Call Unit :=
  if task.status.isFinal then
    if task.status ≠ reportedStatus decision.verdict then
      throw (.leaderActionRefused .phaseConflict
        ("the leader task has already finished as " ++ task.status.value ++
          ", so it cannot accept a " ++ decision.verdict.value ++ " review"))
    else pure ()
  else do
    let _ ← report (settlementReport leaderTaskId assignment decision)
      (settlementKey leaderTaskId revision)
    pure ()

/-- A rework verdict: the repairs, then the record. -/
def acceptRework (leaderTaskId : UUID) (assignment : LeaderAssignmentView) (task : Task)
    (decision : RepositoryReviewDecision) (revision : ℕ) : Call ReviewReceipt := do
  let reworkTaskIds ← createRework assignment task decision revision
  Call.saveAssignment assignment (reworkRecord assignment decision revision reworkTaskIds)
  pure (receiptOf leaderTaskId (acceptedReviewOf decision revision .inProgress reworkTaskIds))

/-- `on_leader_task_terminal`, which an approval calls once it is recorded. -/
def followApproval (deliveryAuto : Bool) (leaderTaskId : UUID) (verdict : LeaderReviewVerdict) :
    Call Unit :=
  if verdict = .approve then onTaskTerminal deliveryAuto leaderTaskId else pure ()

/-- An approving or escalating verdict: the report, the record, then the plan. -/
def acceptSettlement (deliveryAuto : Bool) (leaderTaskId : UUID)
    (assignment : LeaderAssignmentView) (task : Task) (decision : RepositoryReviewDecision)
    (revision : ℕ) : Call ReviewReceipt := do
  settleLeaderTask leaderTaskId assignment task decision revision
  Call.saveAssignment assignment (settlementRecord assignment decision revision)
  followApproval deliveryAuto leaderTaskId decision.verdict
  pure (receiptOf leaderTaskId
    (acceptedReviewOf decision revision (reportedStatus decision.verdict) []))

/-- The part of `SubmitRepositoryReview.execute` that writes. -/
def carryOutReview (deliveryAuto : Bool) (leaderTaskId : UUID) (assignment : LeaderAssignmentView)
    (task : Task) (decision : RepositoryReviewDecision) (revision : ℕ) : Call ReviewReceipt :=
  if decision.verdict = .requestRework then
    acceptRework leaderTaskId assignment task decision revision
  else acceptSettlement deliveryAuto leaderTaskId assignment task decision revision

/-- The accepted review a document is taken to be a replay of: any with its fingerprint, in
whatever round it was accepted. -/
def replayedReview (assignment : LeaderAssignmentView) (decision : RepositoryReviewDecision) :
    Option AcceptedReviewView :=
  assignment.acceptedReviews.find? fun accepted =>
    accepted.fingerprint == reviewFingerprint decision

/-- What `SubmitRepositoryReview.execute` does with a document that is no replay. -/
def openReview (deliveryAuto : Bool) (leaderTaskId : UUID) (assignment : LeaderAssignmentView)
    (task : Task) (decision : RepositoryReviewDecision) : Call ReviewReceipt :=
  if (assignment.acceptedReview assignment.reviewRevision).isSome then
    throw (.leaderActionRefused .phaseConflict
      "a different verdict has already been accepted for this review round")
  else
    match assignment.phase, assignment.reviewEvidence with
    | .reviewDue, some evidence => do
      Prog.lift (assertReviewIsAnswerable decision evidence)
      carryOutReview deliveryAuto leaderTaskId assignment task decision evidence.reviewRevision
    | phase, _ => throw (.leaderActionRefused .phaseConflict
        ("a review may only be submitted when review is due; this assignment is " ++ phase.value))

/-- What `SubmitRepositoryReview.execute` decides from the assignment it read. -/
def answerReview (deliveryAuto : Bool) (leaderTaskId : UUID) (assignment : LeaderAssignmentView)
    (task : Task) (decision : RepositoryReviewDecision) : Call ReviewReceipt :=
  match replayedReview assignment decision with
  | some accepted => pure (receiptOf leaderTaskId accepted)
  | none => openReview deliveryAuto leaderTaskId assignment task decision

/-- `SubmitRepositoryReview.execute`. -/
def submitReview (deliveryAuto : Bool) (leaderTaskId : UUID) (decision : RepositoryReviewDecision)
    (callerAgentId : UUID) : Call ReviewReceipt := do
  let (assignment, task) ← resolve leaderTaskId callerAgentId
  answerReview deliveryAuto leaderTaskId assignment task decision

end Submit

end Orchestration
end RepoMesh
