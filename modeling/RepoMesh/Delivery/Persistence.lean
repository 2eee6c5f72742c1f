/-
# The stored ChangeSet

`PostgresChangeSetStore`: `_payload`, the document a ChangeSet is written as beside its columns, and
`_hydrate`, the ChangeSet that is read from a row. Every ChangeSet a run of the service leaves in the
store is read back as it was written, by `add` or by any later `update` of its row.
-/
import RepoMesh.Delivery.RevisionChain
import RepoMesh.Execution.UuidText
import RepoMesh.Foundation.IsoTime
import RepoMesh.Foundation.JsonValues

namespace RepoMesh
namespace Delivery
namespace Persistence

open Fallible
open Json (Fault)

/-! ## Data -/

/-- The identifier and the time a decision or a revision is given when it is made. -/
structure Stamp where
  id : UUID
  time : DateTime

/-- A ChangeSet with what the service does not look at: the times, and the identifiers of decisions
and revisions. -/
@[ext] structure StampedChangeSet where
  changeSet : ChangeSet
  plans : List (RecoveryPlan × DateTime)
  decisions : List (GovernanceDecision × Stamp)
  revisions : List (CandidateRevision × Stamp)
  createdAt : DateTime
  updatedAt : DateTime
  plans_eq : plans.map Prod.fst = changeSet.recoveryPlans
  decisions_eq : decisions.map Prod.fst = changeSet.governanceDecisions
  revisions_eq : revisions.map Prod.fst = changeSet.candidateRevisions

/-- `ChangeSetRecord`. The key and the fingerprint of the row are not read by `_hydrate`. -/
structure ChangeSetRecord where
  id : UUID
  organizationId : UUID
  projectId : UUID
  status : String
  version : ℕ
  payload : Json
  createdAt : DateTime
  updatedAt : DateTime

/-! ## Values of the enumerations -/

/-- The value of a ChangeSet status. -/
def statusValue : ChangeSetStatus → String
  | .draft => "draft"
  | .ready => "ready"
  | .delivering => "delivering"
  | .blocked => "blocked"
  | .delivered => "delivered"
  | .compensating => "compensating"
  | .compensated => "compensated"
  | .manualIntervention => "manual_intervention"

/-- The value of a trigger. -/
def triggerValue : RecoveryTrigger → String
  | .runnerFailed => "runner_failed"
  | .runnerInterrupted => "runner_interrupted"
  | .ciFailed => "ci_failed"
  | .prConflict => "pr_conflict"
  | .partialMerge => "partial_merge"
  | .operatorRequested => "operator_requested"

/-- The value of an action's status. -/
def actionStatusValue : RecoveryActionStatus → String
  | .pending => "pending"
  | .running => "running"
  | .waitingWorker => "waiting_worker"
  | .succeeded => "succeeded"
  | .failed => "failed"
  | .skipped => "skipped"

/-- The value of a review's state. -/
def reviewValue : ReviewState → String
  | .approved => "approved"
  | .changesRequested => "changes_requested"
  | .dismissed => "dismissed"

/-- The value of a decision. -/
def decisionValue : GovernanceDecisionKind → String
  | .ready => "ready"
  | .blocked => "blocked"
  | .rollbackRequired => "rollback_required"

/-! ## Writing -/

/-- `str(id)`. -/
def idDoc (id : UUID) : Json := .str (uuidStr id)

/-- An optional value; `None` is `null`. -/
def optional {α : Type} (wire : α → Json) (value : Option α) : Json := (value.map wire).getD .null

/-- `value.isoformat()`. -/
def timeDoc (time : DateTime) : Json := .str (String.ofList (IsoTime.isoformat time))

/-- A CI check in `_payload`. -/
def checkDoc (check : CICheckObservation) : Json :=
  .obj
    [("check_name", .str check.checkName), ("check_run_id", .str check.checkRunId),
      ("passed", .bool check.passed), ("summary", .str check.summary)]

/-- A review in `_payload`. -/
def reviewDoc (review : ReviewObservation) : Json :=
  .obj
    [("review_id", .str review.reviewId), ("reviewer", .str review.reviewer),
      ("state", .str (reviewValue review.state)), ("summary", .str review.summary)]

/-- A repository in `_payload`. -/
def repositoryDoc (d : RepositoryDelivery) : Json :=
  .obj
    [("repository_id", idDoc d.repositoryId), ("task_id", idDoc d.taskId),
      ("commit_sha", .str d.commitSha), ("base_sha", .str d.baseSha),
      ("branch_name", .str d.branchName), ("depends_on", .arr (d.dependsOn.map idDoc)),
      ("merge_order", .int d.mergeOrder), ("status", .str d.status.value),
      ("pull_request_number", optional .int d.pullRequestNumber),
      ("pull_request_url", optional .str d.pullRequestUrl),
      ("ci_check_run_id", optional .str d.ciCheckRunId),
      ("ci_summary", optional .str d.ciSummary), ("merge_sha", optional .str d.mergeSha),
      ("required_checks", .arr (d.requiredChecks.map .str)),
      ("ci_checks", .arr (d.ciChecks.map checkDoc)),
      ("required_approvals", .int d.requiredApprovals), ("plan_id", optional idDoc d.planId),
      ("run_id", optional idDoc d.runId), ("worker_agent_id", optional idDoc d.workerAgentId),
      ("reviews", .arr (d.reviews.map reviewDoc))]

/-- A recovery action in `_payload`. -/
def actionDoc (a : RecoveryAction) : Json :=
  .obj
    [("id", idDoc a.id), ("sequence", .int a.sequence), ("kind", .str a.kind.value),
      ("status", .str (actionStatusValue a.status)),
      ("repository_id", optional idDoc a.repositoryId), ("run_id", optional idDoc a.runId),
      ("detail", .str a.detail)]

/-- A recovery plan in `_payload`. -/
def planDoc (p : RecoveryPlan × DateTime) : Json :=
  .obj
    [("id", idDoc p.1.id), ("trigger", .str (triggerValue p.1.trigger)), ("reason", .str p.1.reason),
      ("created_at", timeDoc p.2), ("actions", .arr (p.1.actions.map actionDoc))]

/-- A governance decision in `_payload`. -/
def decisionDoc (g : GovernanceDecision × Stamp) : Json :=
  .obj
    [("id", idDoc g.2.id), ("repository_id", idDoc g.1.repositoryId),
      ("head_sha", .str g.1.headSha), ("decision", .str (decisionValue g.1.decision)),
      ("decided_by_agent_id", idDoc g.1.decidedByAgentId), ("reason", .str g.1.reason),
      ("decided_at", timeDoc g.2.time)]

/-- A candidate revision in `_payload`. -/
def revisionDoc (v : CandidateRevision × Stamp) : Json :=
  .obj
    [("id", idDoc v.2.id), ("repository_id", idDoc v.1.repositoryId), ("task_id", idDoc v.1.taskId),
      ("sequence", .int v.1.sequence), ("head_sha", .str v.1.headSha),
      ("previous_head_sha", optional .str v.1.previousHeadSha), ("reason", .str v.1.reason),
      ("created_at", timeDoc v.2.time)]

/-- `_payload`. -/
def payloadOf (s : StampedChangeSet) : Json :=
  .obj
    [("created_by_agent_id", idDoc s.changeSet.createdByAgentId), ("title", .str s.changeSet.title),
      ("validation_snapshot_id", optional idDoc s.changeSet.validationSnapshotId),
      ("merge_cursor", .int s.changeSet.mergeCursor),
      ("repositories", .arr (s.changeSet.repositories.map repositoryDoc)),
      ("recovery_plans", .arr (s.plans.map planDoc)),
      ("governance_decisions", .arr (s.decisions.map decisionDoc)),
      ("candidate_revisions", .arr (s.revisions.map revisionDoc))]

/-- The row `add` writes. -/
def record (s : StampedChangeSet) : ChangeSetRecord where
  id := s.changeSet.id
  organizationId := s.changeSet.organizationId
  projectId := s.changeSet.projectId
  status := statusValue s.changeSet.status
  version := s.changeSet.version
  payload := payloadOf s
  createdAt := s.createdAt
  updatedAt := s.updatedAt

/-- What `update` writes into a row. -/
def ChangeSetRecord.update (row : ChangeSetRecord) (s : StampedChangeSet) : ChangeSetRecord :=
  { row with
    status := statusValue s.changeSet.status
    version := s.changeSet.version
    payload := payloadOf s
    updatedAt := s.updatedAt }

/-! ## Reading -/

abbrev Read (α : Type) : Type := Except Fault α

/-- `document[key]`. -/
def item (document : Json) (key : String) : Read Json :=
  match document with
  | .obj fields => ((Json.obj fields).get? key).elim (.error .keyError) .ok
  | _ => .error .typeError

/-- `str(value)`. Where `_hydrate` takes the text of a value, the store has written a text. -/
def text : Json → Read String
  | .str s => .ok s
  | _ => .error .typeError

/-- `int(value)` of an integer that is not negative. -/
def natural : Json → Read ℕ
  | .int n => if 0 ≤ n then .ok n.toNat else .error .valueError
  | _ => .error .typeError

/-- `int(value)` of an integer. -/
def integer : Json → Read ℤ
  | .int n => .ok n
  | _ => .error .typeError

/-- `UUID(str(value))`. -/
def uuid (value : Json) : Read UUID := do
  match Execution.uuidOf (← text value) with
  | some id => .ok id.value
  | none => .error .valueError

/-- `UUID(str(value)) if value else None`. -/
def uuidOrNone (value : Json) : Read (Option UUID) :=
  if value.truthy then (uuid value).map some else .ok none

/-- `str(value) if value else None`. -/
def textOrNone (value : Json) : Read (Option String) :=
  if value.truthy then (text value).map some else .ok none

/-- A value that is taken as it is, where the field is an optional one of this type. -/
def kept {α : Type} (read : Json → Read α) : Json → Read (Option α)
  | .null => .ok none
  | value => (read value).map some

/-- `datetime.fromisoformat(str(value))`. -/
def time (value : Json) : Read DateTime := do
  match IsoTime.fromisoformat (← text value).toList with
  | some time => .ok time
  | none => .error .valueError

/-- An enumeration of a value: `Kind(str(value))`. -/
def named {α : Type} (name : α → String) (all : List α) (value : Json) : Read α := do
  let given ← text value
  match all.find? fun a => name a == given with
  | some a => .ok a
  | none => .error .valueError

/-- `tuple(read(item) for item in value)`. -/
def items {α : Type} (read : Json → Read α) (value : Json) : Read (List α) := do
  (← value.listOf).mapM read

def readStatus : Json → Read ChangeSetStatus :=
  named statusValue [.draft, .ready, .delivering, .blocked, .delivered, .compensating, .compensated,
    .manualIntervention]

def readRepositoryStatus : Json → Read RepositoryDeliveryStatus :=
  named RepositoryDeliveryStatus.value [.pending, .prOpen, .ciPending, .ciFailed, .reviewPending,
    .reviewChangesRequested, .readyToMerge, .mergeRequested, .merged, .compensationPending,
    .compensated, .manualIntervention]

def readTrigger : Json → Read RecoveryTrigger :=
  named triggerValue [.runnerFailed, .runnerInterrupted, .ciFailed, .prConflict, .partialMerge,
    .operatorRequested]

def readKind : Json → Read RecoveryActionKind :=
  named RecoveryActionKind.value [.resumeRunnerSession, .retryRunner, .closePullRequest,
    .createRevertPullRequest, .mergeRevertPullRequest, .revalidateChangeset, .manualIntervention]

def readActionStatus : Json → Read RecoveryActionStatus :=
  named actionStatusValue [.pending, .running, .waitingWorker, .succeeded, .failed, .skipped]

def readReviewState : Json → Read ReviewState :=
  named reviewValue [.approved, .changesRequested, .dismissed]

def readDecision : Json → Read GovernanceDecisionKind :=
  named decisionValue [.ready, .blocked, .rollbackRequired]

/-- A CI check in `_hydrate`. -/
def readCheck (check : Json) : Read CICheckObservation := do
  let checkName ← text (← item check "check_name")
  let checkRunId ← text (← item check "check_run_id")
  let passed ← item check "passed"
  let summary ← text (← item check "summary")
  .ok ⟨checkName, checkRunId, passed.truthy, summary⟩

/-- A review in `_hydrate`. -/
def readReview (review : Json) : Read ReviewObservation := do
  let reviewId ← text (← item review "review_id")
  let reviewer ← text (← item review "reviewer")
  let state ← readReviewState (← item review "state")
  let summary ← text (← review.getOr "summary" (.str ""))
  .ok ⟨reviewId, reviewer, state, summary⟩

/-- `__post_init__`, for one of its checks. -/
def check (p : Prop) [Decidable p] : Read (PLift p) :=
  if h : p then .ok ⟨h⟩ else .error .valueError

/-- A repository in `_hydrate`. -/
def readRepository (d : Json) : Read RepositoryDelivery := do
  let repositoryId ← uuid (← item d "repository_id")
  let taskId ← uuid (← item d "task_id")
  let commitSha ← text (← item d "commit_sha")
  let baseSha ← text (← item d "base_sha")
  let branchName ← text (← item d "branch_name")
  let dependsOn ← items uuid (← item d "depends_on")
  let mergeOrder ← natural (← item d "merge_order")
  let status ← readRepositoryStatus (← item d "status")
  let pullRequestNumber ← kept integer (← d.getOr "pull_request_number" .null)
  let pullRequestUrl ← kept text (← d.getOr "pull_request_url" .null)
  let ciCheckRunId ← kept text (← d.getOr "ci_check_run_id" .null)
  let ciSummary ← kept text (← d.getOr "ci_summary" .null)
  let mergeSha ← kept text (← d.getOr "merge_sha" .null)
  let requiredChecks ← items text (← d.getOr "required_checks" (.arr []))
  let ciChecks ← items readCheck (← d.getOr "ci_checks" (.arr []))
  let requiredApprovals ← integer (← d.getOr "required_approvals" (.int 0))
  let planId ← uuidOrNone (← d.getOr "plan_id" .null)
  let runId ← uuidOrNone (← d.getOr "run_id" .null)
  let workerAgentId ← uuidOrNone (← d.getOr "worker_agent_id" .null)
  let reviews ← items readReview (← d.getOr "reviews" (.arr []))
  let ⟨h₁⟩ ← check (isFullSha commitSha = true ∧ isFullSha baseSha = true)
  let ⟨h₂⟩ ← check (Text.isBlank branchName = false)
  let ⟨h₃⟩ ← check (checksWellFormed requiredChecks = true)
  let ⟨h₄⟩ ← check (0 ≤ requiredApprovals)
  .ok ⟨repositoryId, taskId, commitSha, baseSha, branchName, dependsOn, mergeOrder, requiredChecks,
    ciChecks, requiredApprovals, reviews, status, pullRequestNumber, pullRequestUrl, ciCheckRunId,
    ciSummary, mergeSha, planId, runId, workerAgentId, h₁, h₂, h₃, h₄⟩

/-- A recovery action in `_hydrate`. -/
def readAction (a : Json) : Read RecoveryAction := do
  let id ← uuid (← item a "id")
  let sequence ← natural (← item a "sequence")
  let kind ← readKind (← item a "kind")
  let status ← readActionStatus (← item a "status")
  let repositoryId ← uuidOrNone (← a.getOr "repository_id" .null)
  let runId ← uuidOrNone (← a.getOr "run_id" .null)
  let detail ← text (← item a "detail")
  .ok ⟨id, sequence, kind, repositoryId, runId, detail, status⟩

/-- A recovery plan in `_hydrate`. -/
def readPlan (p : Json) : Read (RecoveryPlan × DateTime) := do
  let id ← uuid (← item p "id")
  let trigger ← readTrigger (← item p "trigger")
  let reason ← text (← item p "reason")
  let createdAt ← time (← item p "created_at")
  let actions ← items readAction (← item p "actions")
  .ok (⟨id, trigger, reason, actions⟩, createdAt)

/-- A governance decision in `_hydrate`. -/
def readGovernance (g : Json) : Read (GovernanceDecision × Stamp) := do
  let id ← uuid (← item g "id")
  let repositoryId ← uuid (← item g "repository_id")
  let headSha ← text (← item g "head_sha")
  let decision ← readDecision (← item g "decision")
  let decidedByAgentId ← uuid (← item g "decided_by_agent_id")
  let reason ← text (← item g "reason")
  let decidedAt ← time (← item g "decided_at")
  let ⟨h₁⟩ ← check (isFullSha headSha = true)
  let ⟨h₂⟩ ← check (Text.isBlank reason = false)
  .ok (⟨repositoryId, headSha, decision, decidedByAgentId, reason, h₁, h₂⟩, ⟨id, decidedAt⟩)

/-- A candidate revision in `_hydrate`. -/
def readRevision (v : Json) : Read (CandidateRevision × Stamp) := do
  let id ← uuid (← item v "id")
  let repositoryId ← uuid (← item v "repository_id")
  let taskId ← uuid (← item v "task_id")
  let sequence ← natural (← item v "sequence")
  let headSha ← text (← item v "head_sha")
  let previousHeadSha ← textOrNone (← v.getOr "previous_head_sha" .null)
  let reason ← text (← item v "reason")
  let createdAt ← time (← item v "created_at")
  .ok (⟨repositoryId, taskId, sequence, headSha, previousHeadSha, reason⟩, ⟨id, createdAt⟩)

/-- `_hydrate`. -/
def hydrate (row : ChangeSetRecord) : Read StampedChangeSet := do
  let repositories ← items readRepository (← item row.payload "repositories")
  let plans ← items readPlan (← item row.payload "recovery_plans")
  let decisions ← items readGovernance (← row.payload.getOr "governance_decisions" (.arr []))
  let revisions ← items readRevision (← row.payload.getOr "candidate_revisions" (.arr []))
  let createdByAgentId ← uuid (← item row.payload "created_by_agent_id")
  let title ← text (← item row.payload "title")
  let validationSnapshotId ← uuidOrNone (← row.payload.getOr "validation_snapshot_id" .null)
  let status ← readStatus (.str row.status)
  let mergeCursor ← natural (← row.payload.getOr "merge_cursor" (.int 0))
  let ⟨h₁⟩ ← check (Text.isBlank title = false)
  let ⟨h₂⟩ ← check (repositories ≠ [])
  let ⟨h₃⟩ ← check (repositoryIds repositories).Nodup
  .ok
    { changeSet :=
        ⟨row.id, row.organizationId, row.projectId, createdByAgentId, title, validationSnapshotId,
          repositories, status, plans.map Prod.fst, decisions.map Prod.fst, revisions.map Prod.fst,
          row.version, mergeCursor, h₁, h₂, h₃⟩
      plans, decisions, revisions
      createdAt := row.createdAt
      updatedAt := row.updatedAt
      plans_eq := rfl
      decisions_eq := rfl
      revisions_eq := rfl }

/-! ## Fields are read back -/

variable {α β : Type}

theorem text_str (s : String) : text (.str s) = .ok s := rfl

theorem integer_int (n : ℤ) : integer (.int n) = .ok n := rfl

theorem natural_int (n : ℕ) : natural (.int n) = .ok n := by
  rw [natural, if_pos (Int.natCast_nonneg n), Int.toNat_natCast]

theorem uuidStr_ne_empty (id : UUID) : uuidStr id ≠ "" := by
  intro h
  have hdash : '-' ∈ (uuidStr id).toList := by
    rw [uuidStr, String.toList_ofList]
    simp
  rw [h] at hdash
  cases hdash

theorem uuid_idDoc {id : UUID} (h : id < 2 ^ 128) : uuid (idDoc id) = .ok id := by
  have hread : Execution.uuidOf (uuidStr id) = some ⟨id, h⟩ := Execution.uuidOf_str ⟨id, h⟩
  rw [uuid, idDoc, text_str, ok_bind, hread]

theorem uuidOrNone_idDoc {id : Option UUID} (h : ∀ i ∈ id, i < 2 ^ 128) :
    uuidOrNone (optional idDoc id) = .ok id := by
  cases id with
  | none => rfl
  | some i =>
    have htruthy : (idDoc i).truthy = true := by
      show (uuidStr i != "") = true
      exact bne_iff_ne.mpr (uuidStr_ne_empty i)
    show uuidOrNone (idDoc i) = _
    rw [uuidOrNone, if_pos htruthy, uuid_idDoc (h i rfl)]
    rfl

theorem textOrNone_str {value : Option String} (h : value ≠ some "") :
    textOrNone (optional .str value) = .ok value := by
  cases value with
  | none => rfl
  | some s =>
    have htruthy : (Json.str s).truthy = true := bne_iff_ne.mpr fun hs => h (congrArg some hs)
    show textOrNone (.str s) = _
    rw [textOrNone, if_pos htruthy]
    rfl

theorem kept_text (value : Option String) : kept text (optional .str value) = .ok value := by
  cases value <;> rfl

theorem kept_integer (value : Option ℤ) : kept integer (optional .int value) = .ok value := by
  cases value <;> rfl

theorem time_timeDoc (d : DateTime) : time (timeDoc d) = .ok d := by
  rw [time, timeDoc, text_str, ok_bind, String.toList_ofList, IsoTime.fromisoformat_isoformat]

theorem items_map {read : Json → Read β} {wire : α → Json} {f : α → β} {values : List α}
    (h : ∀ a ∈ values, read (wire a) = .ok (f a)) :
    items read (.arr (values.map wire)) = .ok (values.map f) := by
  show (values.map wire).mapM read = _
  refine mapM_eq_ok ?_
  induction values with
  | nil => exact .nil
  | cons a values ih =>
    exact .cons (h a List.mem_cons_self) (ih fun b hb => h b (List.mem_cons_of_mem _ hb))

theorem items_read {read : Json → Read α} {wire : α → Json} {values : List α}
    (h : ∀ a ∈ values, read (wire a) = .ok a) : items read (.arr (values.map wire)) = .ok values := by
  rw [items_map (f := id) h, List.map_id]

theorem readStatus_value (s : ChangeSetStatus) : readStatus (.str (statusValue s)) = .ok s := by
  cases s <;> rfl

theorem readRepositoryStatus_value (s : RepositoryDeliveryStatus) :
    readRepositoryStatus (.str s.value) = .ok s := by
  cases s <;> rfl

theorem readTrigger_value (t : RecoveryTrigger) : readTrigger (.str (triggerValue t)) = .ok t := by
  cases t <;> rfl

theorem readKind_value (k : RecoveryActionKind) : readKind (.str k.value) = .ok k := by
  cases k <;> rfl

theorem readActionStatus_value (s : RecoveryActionStatus) :
    readActionStatus (.str (actionStatusValue s)) = .ok s := by
  cases s <;> rfl

theorem readReviewState_value (s : ReviewState) :
    readReviewState (.str (reviewValue s)) = .ok s := by
  cases s <;> rfl

theorem readDecision_value (k : GovernanceDecisionKind) :
    readDecision (.str (decisionValue k)) = .ok k := by
  cases k <;> rfl

/-! ## Records are read back -/

theorem readCheck_doc (check : CICheckObservation) : readCheck (checkDoc check) = .ok check := rfl

theorem readReview_doc (review : ReviewObservation) : readReview (reviewDoc review) = .ok review := by
  have hstate : item (reviewDoc review) "state" = .ok (.str (reviewValue review.state)) := rfl
  have hid : item (reviewDoc review) "review_id" = .ok (.str review.reviewId) := rfl
  have hreviewer : item (reviewDoc review) "reviewer" = .ok (.str review.reviewer) := rfl
  have hsummary : (reviewDoc review).getOr "summary" (.str "") = .ok (.str review.summary) := rfl
  simp only [readReview, hid, hreviewer, hstate, hsummary, ok_bind, text_str, readReviewState_value]

/-- An identifier of 128 bits. -/
def IsId (id : UUID) : Prop := id < 2 ^ 128

instance (id : UUID) : Decidable (IsId id) := inferInstanceAs (Decidable (id < 2 ^ 128))

/-- The identifiers of a candidate are ones. -/
def CandidateIds (d : RepositoryDelivery) : Prop :=
  IsId d.repositoryId ∧ IsId d.taskId ∧ (∀ id ∈ d.dependsOn, IsId id) ∧ (∀ id ∈ d.planId, IsId id) ∧
    (∀ id ∈ d.runId, IsId id) ∧ ∀ id ∈ d.workerAgentId, IsId id

/-- The identifiers of an action are ones. -/
def ActionIds (a : RecoveryAction) : Prop :=
  IsId a.id ∧ (∀ id ∈ a.repositoryId, IsId id) ∧ ∀ id ∈ a.runId, IsId id

/-- The identifiers of a ChangeSet are ones. -/
structure StampedChangeSet.Identified (s : StampedChangeSet) : Prop where
  creator : IsId s.changeSet.createdByAgentId
  snapshot : ∀ id ∈ s.changeSet.validationSnapshotId, IsId id
  candidates : ∀ d ∈ s.changeSet.repositories, CandidateIds d
  plans : ∀ p ∈ s.plans, IsId p.1.id ∧ ∀ a ∈ p.1.actions, ActionIds a
  decisions : ∀ g ∈ s.decisions, IsId g.2.id ∧ IsId g.1.repositoryId ∧ IsId g.1.decidedByAgentId
  revisions : ∀ v ∈ s.revisions, IsId v.2.id ∧ IsId v.1.repositoryId ∧ IsId v.1.taskId

theorem step {x : Read α} {a : α} {f : α → Read β} {r : Read β} (hx : x = .ok a)
    (hf : f a = r) : (x >>= f) = r := by
  rw [hx, ok_bind, hf]

theorem field {x : Read Json} {value : Json} {read : Json → Read α} {a : α} {f : α → Read β}
    {r : Read β} (hx : x = .ok value) (hread : read value = .ok a) (hf : f a = r) :
    (x >>= fun v => read v >>= f) = r :=
  step hx (step hread hf)

theorem checked {p : Prop} [Decidable p] (hp : p) {f : PLift p → Read β} {r : Read β}
    (hf : f ⟨hp⟩ = r) : (check p >>= f) = r :=
  step (dif_pos hp) hf

/-- **A candidate is read back.** -/
theorem readRepository_doc {d : RepositoryDelivery} (h : CandidateIds d) :
    readRepository (repositoryDoc d) = .ok d := by
  obtain ⟨hrepository, htask, hdepends, hplan, hrun, hworker⟩ := h
  refine field rfl (uuid_idDoc hrepository) ?_
  refine field rfl (uuid_idDoc htask) ?_
  refine field rfl (text_str d.commitSha) ?_
  refine field rfl (text_str d.baseSha) ?_
  refine field rfl (text_str d.branchName) ?_
  refine field rfl (items_read fun id hid => uuid_idDoc (hdepends id hid)) ?_
  refine field rfl (natural_int d.mergeOrder) ?_
  refine field rfl (readRepositoryStatus_value d.status) ?_
  refine field rfl (kept_integer d.pullRequestNumber) ?_
  refine field rfl (kept_text d.pullRequestUrl) ?_
  refine field rfl (kept_text d.ciCheckRunId) ?_
  refine field rfl (kept_text d.ciSummary) ?_
  refine field rfl (kept_text d.mergeSha) ?_
  refine field rfl (items_read fun name _ => text_str name) ?_
  refine field rfl (items_read fun check _ => readCheck_doc check) ?_
  refine field rfl (integer_int d.requiredApprovals) ?_
  refine field rfl (uuidOrNone_idDoc hplan) ?_
  refine field rfl (uuidOrNone_idDoc hrun) ?_
  refine field rfl (uuidOrNone_idDoc hworker) ?_
  refine field rfl (items_read fun review _ => readReview_doc review) ?_
  refine checked d.shas_full (checked d.branch_named ?_)
  exact checked d.checks_wellFormed (checked d.approvals_nonneg rfl)

theorem readAction_doc {a : RecoveryAction} (h : ActionIds a) : readAction (actionDoc a) = .ok a := by
  obtain ⟨hid, hrepository, hrun⟩ := h
  refine field rfl (uuid_idDoc hid) ?_
  refine field rfl (natural_int a.sequence) ?_
  refine field rfl (readKind_value a.kind) ?_
  refine field rfl (readActionStatus_value a.status) ?_
  refine field rfl (uuidOrNone_idDoc hrepository) ?_
  refine field rfl (uuidOrNone_idDoc hrun) ?_
  exact field rfl (text_str a.detail) rfl

/-- **A recovery plan is read back.** -/
theorem readPlan_doc {p : RecoveryPlan × DateTime} (hid : IsId p.1.id)
    (hactions : ∀ a ∈ p.1.actions, ActionIds a) : readPlan (planDoc p) = .ok p := by
  refine field rfl (uuid_idDoc hid) ?_
  refine field rfl (readTrigger_value p.1.trigger) ?_
  refine field rfl (text_str p.1.reason) ?_
  refine field rfl (time_timeDoc p.2) ?_
  exact field rfl (items_read fun a ha => readAction_doc (hactions a ha)) rfl

/-- **A decision is read back.** -/
theorem readGovernance_doc {g : GovernanceDecision × Stamp}
    (h : IsId g.2.id ∧ IsId g.1.repositoryId ∧ IsId g.1.decidedByAgentId) :
    readGovernance (decisionDoc g) = .ok g := by
  obtain ⟨hid, hrepository, hagent⟩ := h
  refine field rfl (uuid_idDoc hid) ?_
  refine field rfl (uuid_idDoc hrepository) ?_
  refine field rfl (text_str g.1.headSha) ?_
  refine field rfl (readDecision_value g.1.decision) ?_
  refine field rfl (uuid_idDoc hagent) ?_
  refine field rfl (text_str g.1.reason) ?_
  refine field rfl (time_timeDoc g.2.time) ?_
  exact checked g.1.head_full (checked g.1.reason_given rfl)

/-- **A revision is read back**, unless the head before it is the empty text. -/
theorem readRevision_doc {v : CandidateRevision × Stamp}
    (h : IsId v.2.id ∧ IsId v.1.repositoryId ∧ IsId v.1.taskId)
    (hprevious : v.1.previousHeadSha ≠ some "") : readRevision (revisionDoc v) = .ok v := by
  obtain ⟨hid, hrepository, htask⟩ := h
  refine field rfl (uuid_idDoc hid) ?_
  refine field rfl (uuid_idDoc hrepository) ?_
  refine field rfl (uuid_idDoc htask) ?_
  refine field rfl (natural_int v.1.sequence) ?_
  refine field rfl (text_str v.1.headSha) ?_
  refine field rfl (textOrNone_str hprevious) ?_
  refine field rfl (text_str v.1.reason) ?_
  exact field rfl (time_timeDoc v.2.time) rfl

/-- **A row is read back.** -/
theorem hydrate_record {s : StampedChangeSet} (hs : s.Identified)
    (hprevious : ∀ v ∈ s.changeSet.candidateRevisions, v.previousHeadSha ≠ some "") :
    hydrate (record s) = .ok s := by
  have hrevisions : ∀ v ∈ s.revisions, v.1.previousHeadSha ≠ some "" := fun v hv =>
    hprevious v.1 (s.revisions_eq ▸ List.mem_map_of_mem hv)
  have hread : hydrate (record s) = .ok
      { s with
        changeSet :=
          { s.changeSet with
            recoveryPlans := s.plans.map Prod.fst
            governanceDecisions := s.decisions.map Prod.fst
            candidateRevisions := s.revisions.map Prod.fst }
        plans_eq := rfl
        decisions_eq := rfl
        revisions_eq := rfl } := by
    refine field rfl (items_read fun d hd => readRepository_doc (hs.candidates d hd)) ?_
    refine field rfl (items_read fun p hp => readPlan_doc (hs.plans p hp).1 (hs.plans p hp).2) ?_
    refine field rfl (items_read fun g hg => readGovernance_doc (hs.decisions g hg)) ?_
    refine field rfl (items_read fun v hv =>
      readRevision_doc (hs.revisions v hv) (hrevisions v hv)) ?_
    refine field rfl (uuid_idDoc hs.creator) ?_
    refine field rfl (text_str s.changeSet.title) ?_
    refine field rfl (uuidOrNone_idDoc hs.snapshot) ?_
    refine step (readStatus_value s.changeSet.status) ?_
    refine field rfl (natural_int s.changeSet.mergeCursor) ?_
    refine checked s.changeSet.titled (checked s.changeSet.nonempty ?_)
    exact checked s.changeSet.ids_nodup rfl
  rw [hread]
  refine congrArg _ (StampedChangeSet.ext (ChangeSet.eq_iff.mpr ?_) rfl rfl rfl rfl rfl)
  exact ⟨rfl, rfl, rfl, rfl, rfl, rfl, rfl, rfl, s.plans_eq, s.decisions_eq, s.revisions_eq, rfl, rfl⟩

/-! ## What a run stores -/

/-- The head before a revision is a full one. -/
def FullHeads (revisions : List CandidateRevision) : Prop :=
  ∀ v ∈ revisions, ∀ head ∈ v.previousHeadSha, isFullSha head = true

theorem fullHeads_initial (ds : List RepositoryDelivery) :
    FullHeads (ds.map CandidateRevision.initial) := by
  intro v hv head hhead
  obtain ⟨d, -, rfl⟩ := List.mem_map.mp hv
  cases hhead

theorem FullHeads.append {before after : List CandidateRevision} (hb : FullHeads before)
    (ha : FullHeads after) : FullHeads (before ++ after) := by
  intro v hv
  rcases List.mem_append.mp hv with hv | hv
  · exact hb v hv
  · exact ha v hv

/-- **One call keeps the heads full.** -/
theorem fullHeads_of_apply {nextId : UUID} {cs cs' : ChangeSet} {op : ChangeSetOp}
    (hcs : FullHeads cs.candidateRevisions) (h : op.apply nextId cs = .ok (some cs')) :
    FullHeads cs'.candidateRevisions := by
  cases ChangeSetOp.apply_some h with
  | candidate call upstream step changed written =>
    rw [withRepositories_history written]
    exact hcs
  | append fresh created written =>
    rw [appendRepositories_history written]
    exact hcs.append (fullHeads_initial _)
  | governance created written =>
    rw [recordGovernance_history written]
    exact hcs
  | revision written =>
    obtain ⟨d, d', v, -, -, -, -, -, hprevious, -, hhistory, -⟩ :=
      recordCandidateRevision_revision written
    rw [hhistory]
    refine hcs.append fun w hw head hhead => ?_
    rw [List.mem_singleton.mp hw, hprevious] at hhead
    obtain rfl := Option.some.inj hhead
    exact d.shas_full.1
  | recovery written =>
    subst written
    exact hcs
  | recoveryAction written =>
    rw [recordRecoveryAction_history written]
    exact hcs

theorem fullHeads_states (fingerprint : PrepareChangeSetCommand → String) (ops : List DeliveryOp) :
    ∀ st ∈ Runs.states (Runs.attempt (DeliveryService.apply fingerprint)) {} ops,
      ∀ cs ∈ st.items, FullHeads cs.candidateRevisions := by
  have hempty : ∀ cs ∈ ({} : ChangeSetStore).items, FullHeads cs.candidateRevisions :=
    fun cs hcs => by cases hcs
  have hprepared : ∀ c id cs, DeliveryService.preparedChangeSet c id = .ok cs →
      FullHeads cs.candidateRevisions := by
    intro c id cs h
    unfold DeliveryService.preparedChangeSet at h
    obtain ⟨order, -, h⟩ := bind_ok h
    obtain ⟨repositories, -, h⟩ := bind_ok h
    split_ifs at h
    obtain rfl := Except.ok.inj h
    exact fullHeads_initial repositories
  have hstep : ∀ (st : ChangeSetStore) (op : DeliveryOp),
      (∀ cs ∈ st.items, FullHeads cs.candidateRevisions) →
        ∀ cs ∈ (Runs.attempt (DeliveryService.apply fingerprint) st op).items,
          FullHeads cs.candidateRevisions := fun st op hst =>
    items_attempt_guarded fingerprint hprepared
      (fun _ _ _ _ _ hcs happly => fullHeads_of_apply hcs happly) hst
  exact Runs.states_invariant hstep hempty ops

/-- **Nothing is lost in the store.** A ChangeSet of any run of the service, with any times and
identifiers of decisions and revisions, is read back as it was written: from the row `add` writes,
and from a row that `update` writes over an earlier one of the same ChangeSet. -/
theorem hydrate_lossless (fingerprint : PrepareChangeSetCommand → String) (ops : List DeliveryOp) :
    ∀ st ∈ Runs.states (Runs.attempt (DeliveryService.apply fingerprint)) {} ops,
      ∀ cs ∈ st.items, ∀ s : StampedChangeSet, s.changeSet = cs → s.Identified →
        hydrate (record s) = .ok s ∧
          ∀ row : ChangeSetRecord, row.id = cs.id → row.organizationId = cs.organizationId →
            row.projectId = cs.projectId → row.createdAt = s.createdAt →
              hydrate (row.update s) = .ok s := by
  rintro st hst cs hcs s rfl hs
  have hprevious : ∀ v ∈ s.changeSet.candidateRevisions, v.previousHeadSha ≠ some "" := by
    intro v hv hempty
    have hfull := fullHeads_states fingerprint ops st hst s.changeSet hcs v hv "" hempty
    revert hfull
    decide
  have hread := hydrate_record hs hprevious
  refine ⟨hread, fun row hid horganization hproject hcreated => ?_⟩
  have hrow : row.update s = record s := by
    rw [ChangeSetRecord.update, record, hid, horganization, hproject, hcreated]
  rw [hrow, hread]

/-- The epoch. -/
def epoch : DateTime := ⟨⟨1970, 1, 1, 0, 0, 0, 0, some 0⟩, by decide⟩

/-- A ChangeSet that was prepared, decided on and revised is read back. -/
theorem hydrate_lossless_revisedRun :
    ∃ s : StampedChangeSet, s.changeSet.candidateRevisions.length = 2 ∧
      hydrate (record s) = .ok s := by
  have hrun : ∃ cs ∈ (revisedRun.foldl (Runs.attempt (DeliveryService.apply fun _ => "")) {}).items,
      cs.candidateRevisions.length = 2 ∧ IsId cs.createdByAgentId ∧
        cs.validationSnapshotId = none ∧ (∀ d ∈ cs.repositories, CandidateIds d) ∧
        cs.recoveryPlans = [] ∧
        (∀ g ∈ cs.governanceDecisions, IsId g.repositoryId ∧ IsId g.decidedByAgentId) ∧
        ∀ v ∈ cs.candidateRevisions, IsId v.repositoryId ∧ IsId v.taskId := by
    simp only [CandidateIds]
    decide +kernel
  obtain ⟨cs, hcs, hlength, hcreator, hsnapshot, hcandidates, hplans, hdecisions, hrevisions⟩ := hrun
  let s : StampedChangeSet :=
    { changeSet := cs
      plans := []
      decisions := cs.governanceDecisions.map fun g => (g, ⟨7, epoch⟩)
      revisions := cs.candidateRevisions.map fun v => (v, ⟨8, epoch⟩)
      createdAt := epoch
      updatedAt := epoch
      plans_eq := hplans.symm
      decisions_eq := by rw [List.map_map]; exact List.map_id _
      revisions_eq := by rw [List.map_map]; exact List.map_id _ }
  have hs : s.Identified := by
    refine ⟨hcreator, ?_, hcandidates, fun p hp => absurd hp List.not_mem_nil, ?_, ?_⟩
    · intro id hid
      rw [hsnapshot] at hid
      cases hid
    · intro g hg
      obtain ⟨x, hx, rfl⟩ := List.mem_map.mp hg
      exact ⟨show 7 < 2 ^ 128 by decide, hdecisions x hx⟩
    · intro v hv
      obtain ⟨x, hx, rfl⟩ := List.mem_map.mp hv
      exact ⟨show 8 < 2 ^ 128 by decide, hrevisions x hx⟩
  exact ⟨s, hlength, (hydrate_lossless (fun _ => "") revisedRun _ (Runs.foldl_mem_states _ _) cs hcs
    s rfl hs).1⟩

end Persistence
end Delivery
end RepoMesh
