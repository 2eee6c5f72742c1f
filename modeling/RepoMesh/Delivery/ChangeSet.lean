/-
# ChangeSets

The ChangeSet aggregate with its recovery plans, governance decisions and candidate revisions,
and the mutators that write its status.
-/
import RepoMesh.Delivery.Candidate

namespace RepoMesh
namespace Delivery

open Text

/-- One action of a recovery plan. -/
structure RecoveryAction where
  id : UUID
  sequence : ℕ
  kind : RecoveryActionKind
  repositoryId : Option UUID
  runId : Option UUID
  detail : String
  status : RecoveryActionStatus := .pending
  deriving DecidableEq

/-- `RecoveryAction.record`. -/
def RecoveryAction.record (a : RecoveryAction) (status : RecoveryActionStatus) (detail : String) :
    Except Raised RecoveryAction :=
  if a.status.isDone then
    if status ≠ a.status then
      .error (.deliveryConflict "completed recovery action cannot change status")
    else .ok a
  else if a.status = .waitingWorker ∧
      status ∉ [RecoveryActionStatus.running, .succeeded, .failed] then
    .error (.deliveryConflict "waiting recovery action requires Worker resolution")
  else .ok { a with status := status, detail := if isBlank detail then a.detail else strip detail }

/-- A recovery plan. -/
structure RecoveryPlan where
  id : UUID
  trigger : RecoveryTrigger
  reason : String
  actions : List RecoveryAction
  deriving DecidableEq

/-- Some action of the plan is neither `SUCCEEDED` nor `SKIPPED`. -/
def RecoveryPlan.incomplete (p : RecoveryPlan) : Bool := p.actions.any fun a => !a.status.isDone

/-- `RecoveryPlan.record_action`. -/
def RecoveryPlan.recordAction (p : RecoveryPlan) (actionId : UUID) (status : RecoveryActionStatus)
    (detail : String) : Except Raised RecoveryPlan :=
  if p.actions.any (fun a => a.id == actionId) then do
    let actions ← p.actions.mapM fun a =>
      if a.id = actionId then a.record status detail else .ok a
    .ok { p with actions := actions }
  else .error (.deliveryNotFound ("recovery action not found: " ++ uuidStr actionId))

/-- A governance decision, bound to a head. Its constructor checks the head and the reason. -/
structure GovernanceDecision where
  repositoryId : UUID
  headSha : String
  decision : GovernanceDecisionKind
  decidedByAgentId : UUID
  reason : String
  head_full : isFullSha headSha = true
  reason_given : isBlank reason = false

theorem GovernanceDecision.eq_iff {a b : GovernanceDecision} : a = b ↔
    a.repositoryId = b.repositoryId ∧ a.headSha = b.headSha ∧ a.decision = b.decision ∧
    a.decidedByAgentId = b.decidedByAgentId ∧ a.reason = b.reason := by
  cases a
  cases b
  simp only [GovernanceDecision.mk.injEq]

instance : DecidableEq GovernanceDecision := fun _ _ => decidable_of_iff' _ GovernanceDecision.eq_iff

/-- The governance decision a command asks to record. -/
def GovernanceDecision.create (c : RecordGovernanceDecisionCommand) :
    Except Raised GovernanceDecision :=
  if hh : isFullSha (normalize c.headSha) = true then
    if hr : isBlank (strip c.reason) = false then
      .ok
        { repositoryId := c.repositoryId
          headSha := normalize c.headSha
          decision := c.decision
          decidedByAgentId := c.decidedByAgentId
          reason := strip c.reason
          head_full := hh
          reason_given := hr }
    else .error (.valueError "governance decision reason is required")
  else .error (.valueError "governance decision head_sha must be a full Git object id")

/-- One entry of a candidate's revision history. -/
structure CandidateRevision where
  repositoryId : UUID
  taskId : UUID
  sequence : ℕ
  headSha : String
  previousHeadSha : Option String
  reason : String
  deriving DecidableEq

/-- The first entry of a candidate's revision history. -/
def CandidateRevision.initial (d : RepositoryDelivery) : CandidateRevision :=
  { repositoryId := d.repositoryId
    taskId := d.taskId
    sequence := 0
    headSha := d.commitSha
    previousHeadSha := none
    reason := "initial candidate" }

/-- `[item.repository_id for item in repositories]`. -/
def repositoryIds (repositories : List RepositoryDelivery) : List UUID :=
  repositories.map (·.repositoryId)

/-- A ChangeSet. The checks of `__post_init__` are its last fields. -/
structure ChangeSet where
  id : UUID
  organizationId : UUID
  projectId : UUID
  createdByAgentId : UUID
  title : String
  validationSnapshotId : Option UUID
  repositories : List RepositoryDelivery
  status : ChangeSetStatus := .ready
  recoveryPlans : List RecoveryPlan := []
  governanceDecisions : List GovernanceDecision := []
  candidateRevisions : List CandidateRevision := []
  version : ℕ := 1
  mergeCursor : ℕ := 0
  titled : isBlank title = false
  nonempty : repositories ≠ []
  ids_nodup : (repositoryIds repositories).Nodup

theorem ChangeSet.eq_iff {a b : ChangeSet} : a = b ↔
    a.id = b.id ∧ a.organizationId = b.organizationId ∧ a.projectId = b.projectId ∧
    a.createdByAgentId = b.createdByAgentId ∧ a.title = b.title ∧ a.validationSnapshotId = b.validationSnapshotId ∧
    a.repositories = b.repositories ∧ a.status = b.status ∧ a.recoveryPlans = b.recoveryPlans ∧
    a.governanceDecisions = b.governanceDecisions ∧ a.candidateRevisions = b.candidateRevisions ∧ a.version = b.version ∧
    a.mergeCursor = b.mergeCursor := by
  cases a
  cases b
  simp only [ChangeSet.mk.injEq]

instance : DecidableEq ChangeSet := fun _ _ => decidable_of_iff' _ ChangeSet.eq_iff

/-- The smallest merge order of a candidate that is not merged. -/
def pendingOrders (repositories : List RepositoryDelivery) : List ℕ :=
  (repositories.filter fun d => d.status ≠ .merged).map (·.mergeOrder)

/-- `status`, as `with_repositories` derives it from the candidates alone. -/
def deliveryStatus (repositories : List RepositoryDelivery) : ChangeSetStatus :=
  if repositories.all (fun d => d.status = .merged) then .delivered
  else if repositories.any (fun d => d.status = .ciFailed ∨ d.status = .reviewChangesRequested) then
    .blocked
  else .delivering

namespace ChangeSet

/-- `with_repositories`. `replace` runs `__post_init__` again on the new candidates. -/
def withRepositories (cs : ChangeSet) (repositories : List RepositoryDelivery) :
    Except Raised ChangeSet :=
  if hne : repositories ≠ [] then
    if hnd : (repositoryIds repositories).Nodup then
      .ok { cs with
        repositories := repositories
        status := deliveryStatus repositories
        version := cs.version + 1
        mergeCursor := (pendingOrders repositories).min?.getD repositories.length
        nonempty := hne
        ids_nodup := hnd }
    else .error (.valueError "ChangeSet contains duplicate repositories")
  else .error (.valueError "ChangeSet title and repositories are required")

/-- `append_repositories`. -/
def appendRepositories (cs : ChangeSet) (repositories : List RepositoryDelivery) :
    Except Raised ChangeSet :=
  if repositories.any (fun d => (repositoryIds cs.repositories).contains d.repositoryId) then
    .error (.deliveryConflict "ChangeSet already contains the repository candidate")
  else do
    let updated ← cs.withRepositories (cs.repositories ++ repositories)
    .ok { updated with
      candidateRevisions := cs.candidateRevisions ++ repositories.map CandidateRevision.initial }

/-- `add_recovery`. -/
def addRecovery (cs : ChangeSet) (plan : RecoveryPlan) : ChangeSet :=
  { cs with
    status := .compensating
    recoveryPlans := cs.recoveryPlans ++ [plan]
    version := cs.version + 1 }

/-- `next((item for item in self.repositories if item.repository_id == repository_id), None)`. -/
def candidate? (cs : ChangeSet) (repositoryId : UUID) : Option RepositoryDelivery :=
  cs.repositories.find? fun d => d.repositoryId == repositoryId

/-- `record_governance`. -/
def recordGovernance (cs : ChangeSet) (decision : GovernanceDecision) : Except Raised ChangeSet :=
  match cs.candidate? decision.repositoryId with
  | none => .error (.deliveryNotFound "governance repository is not in ChangeSet")
  | some candidate =>
    if decision.headSha ≠ candidate.commitSha then
      .error (.deliveryConflict "governance decision does not match candidate head")
    else
      let retained := cs.governanceDecisions.filter fun item =>
        !(item.repositoryId == decision.repositoryId && item.headSha == decision.headSha)
      .ok { cs with
        governanceDecisions := retained ++ [decision]
        version := cs.version + 1 }

/-- Replace the candidate of one repository. -/
def replaceCandidate (repositories : List RepositoryDelivery) (repositoryId : UUID)
    (revised : RepositoryDelivery) : List RepositoryDelivery :=
  repositories.map fun d => if d.repositoryId = repositoryId then revised else d

/-- `record_candidate_revision`. The status it writes is `DELIVERING`, whatever it was before. -/
def recordCandidateRevision (cs : ChangeSet) (repositoryId taskId : UUID)
    (previousHeadSha newHeadSha reason : String) : Except Raised ChangeSet :=
  match cs.candidate? repositoryId with
  | none => .error (.deliveryNotFound "revision repository is not in ChangeSet")
  | some candidate =>
    match candidate.revise taskId previousHeadSha newHeadSha with
    | .error e => .error e
    | .ok revised =>
      let sequences :=
        (cs.candidateRevisions.filter fun r => r.repositoryId == repositoryId).map (·.sequence)
      let revision : CandidateRevision :=
        { repositoryId := repositoryId
          taskId := taskId
          sequence := 1 + sequences.max?.getD 0
          headSha := revised.commitSha
          previousHeadSha := some candidate.commitSha
          reason := if isBlank reason then "candidate rework" else strip reason }
      let repositories := replaceCandidate cs.repositories repositoryId revised
      if hne : repositories ≠ [] then
        if hnd : (repositoryIds repositories).Nodup then
          .ok { cs with
            repositories := repositories
            candidateRevisions := cs.candidateRevisions ++ [revision]
            status := .delivering
            mergeCursor := (pendingOrders repositories).min?.getD 0
            version := cs.version + 1
            nonempty := hne
            ids_nodup := hnd }
        else .error (.valueError "ChangeSet contains duplicate repositories")
      else .error (.valueError "ChangeSet title and repositories are required")

/-- The status `record_recovery_action` derives from the plan it recorded into. -/
def recoveryStatus (active : RecoveryPlan) : ChangeSetStatus :=
  if active.actions.any (fun a => a.status = .failed) then .manualIntervention
  else if active.actions.all (fun a => a.status.isDone) then .compensated
  else .compensating

/-- `record_recovery_action`. -/
def recordRecoveryAction (cs : ChangeSet) (planId actionId : UUID) (status : RecoveryActionStatus)
    (detail : String) : Except Raised ChangeSet :=
  if cs.recoveryPlans.any (fun p => p.id == planId) then do
    let plans ← cs.recoveryPlans.mapM fun p =>
      if p.id = planId then p.recordAction actionId status detail else .ok p
    match plans.find? fun p => p.id == planId with
    | none => .error (.deliveryNotFound ("recovery plan not found: " ++ uuidStr planId))
    | some active =>
      .ok { cs with
        status := recoveryStatus active
        recoveryPlans := plans
        version := cs.version + 1 }
  else .error (.deliveryNotFound ("recovery plan not found: " ++ uuidStr planId))

end ChangeSet

end Delivery
end RepoMesh
