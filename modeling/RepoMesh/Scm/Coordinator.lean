/-
# The SCM coordinator

`ChangeSetSCMCoordinator`: opening pull requests, reconciling them with the remote, promoting
drafts and asking for merges. The calls are programs over the delivery service, the conflict cases,
the command queue and the provider, wired as the application wires them.
-/
import RepoMesh.Foundation.Async
import RepoMesh.Delivery.MergeGate
import RepoMesh.Delivery.CommandLeases
import RepoMesh.Scm.Contracts

namespace RepoMesh
namespace Scm

open Text Delivery
open Async (Prog)

/-! ## Conflict cases -/

/-- Status of a conflict case. -/
inductive DeliveryConflictCaseStatus where
  | opened | resolved | escalated
  deriving DecidableEq

/-- `DeliveryConflictCaseRecord`. -/
structure DeliveryConflictCaseRecord where
  id : UUID
  changeSetId : UUID
  organizationId : UUID
  projectId : UUID
  repositoryId : UUID
  candidateHeadSha : String
  kind : DeliveryConflictKind
  expectedBaseSha : String
  observedBaseSha : String
  detail : String
  status : DeliveryConflictCaseStatus := .opened
  repairTaskId : Option UUID := none
  version : ℕ := 1
  deriving DecidableEq

/-- What `ensure` is asked for. -/
structure EnsureConflictCase where
  changeSetId : UUID
  organizationId : UUID
  projectId : UUID
  repositoryId : UUID
  candidateHeadSha : String
  kind : DeliveryConflictKind
  expectedBaseSha : String
  observedBaseSha : String
  detail : String
  deriving DecidableEq

/-- `PostgresDeliveryConflictCaseStore`: the rows, and the supply of identifiers. -/
structure ConflictCaseStore where
  rows : List DeliveryConflictCaseRecord := []
  nextId : UUID := 0
  deriving DecidableEq

namespace ConflictCaseStore

/-- The row is the open case of the candidate. -/
def isActive (changeSetId repositoryId : UUID) (row : DeliveryConflictCaseRecord) : Bool :=
  row.changeSetId == changeSetId && row.repositoryId == repositoryId && row.status == .opened

/-- `active_for`. -/
def activeFor (st : ConflictCaseStore) (changeSetId repositoryId : UUID) :
    Option DeliveryConflictCaseRecord :=
  st.rows.find? (isActive changeSetId repositoryId)

/-- `resolve_for_revision`. -/
def resolveForRevision (st : ConflictCaseStore) (changeSetId repositoryId : UUID)
    (previousHeadSha : String) : ConflictCaseStore :=
  { st with rows := st.rows.map fun row =>
      if isActive changeSetId repositoryId row && row.candidateHeadSha == previousHeadSha then
        { row with status := .resolved, version := row.version + 1 }
      else row }

/-- `ensure`: the open case of this head is updated; one of another head is closed first. -/
def ensure (st : ConflictCaseStore) (c : EnsureConflictCase) :
    DeliveryConflictCaseRecord × ConflictCaseStore :=
  let created : DeliveryConflictCaseRecord :=
    { id := st.nextId
      changeSetId := c.changeSetId
      organizationId := c.organizationId
      projectId := c.projectId
      repositoryId := c.repositoryId
      candidateHeadSha := c.candidateHeadSha
      kind := c.kind
      expectedBaseSha := c.expectedBaseSha
      observedBaseSha := c.observedBaseSha
      detail := truncate 2000 c.detail }
  match st.activeFor c.changeSetId c.repositoryId with
  | none => (created, { rows := st.rows ++ [created], nextId := st.nextId + 1 })
  | some record =>
    if record.candidateHeadSha ≠ c.candidateHeadSha then
      let closed := st.rows.map fun row =>
        if row.id = record.id then { row with status := .resolved } else row
      (created, { rows := closed ++ [created], nextId := st.nextId + 1 })
    else
      let updated : DeliveryConflictCaseRecord :=
        { record with
          kind := c.kind
          observedBaseSha := c.observedBaseSha
          detail := truncate 2000 c.detail
          version := record.version + 1 }
      (updated, { st with rows := st.rows.map fun row =>
        if row.id = record.id then updated else row })

/-- `set_repair_task`. -/
def setRepairTask (st : ConflictCaseStore) (caseId taskId : UUID) :
    Except Raised ConflictCaseStore :=
  match st.rows.find? fun row => row.id == caseId with
  | none => .error (.deliveryConflict "delivery conflict case is not open")
  | some record =>
    if record.status ≠ .opened then
      .error (.deliveryConflict "delivery conflict case is not open")
    else if record.repairTaskId.any fun task => task != taskId then
      .error (.deliveryConflict "delivery conflict case already has another repair task")
    else
      .ok { st with rows := st.rows.map fun row =>
        if row.id = caseId then
          { record with repairTaskId := some taskId, version := record.version + 1 }
        else row }

end ConflictCaseStore

/-! ## What the coordinator calls -/

/-- The exceptions of the coordinator: those of delivery, `SCMConflict`, and what the provider
raises. -/
inductive CoordinatorRaised where
  | delivery (e : Raised)
  | scmConflict (message : String)
  | provider (message : String)
  deriving DecidableEq

/-- `BranchProtectionObservation`. -/
structure BranchProtectionObservation where
  requiredChecks : List String
  requiredApprovals : ℤ
  dismissesStaleReviews : Bool
  isProtected : Bool := true
  deriving DecidableEq

/-- `CreateDraftPullRequestCommand`, without its body. -/
structure CreateDraftPullRequestCommand where
  repository : RepositoryRef
  headBranch : String
  baseBranch : String
  expectedHeadSha : String
  title : String
  idempotencyKey : String
  draft : Bool
  deriving DecidableEq

/-- One call of a collaborator. -/
inductive CoordinatorOp where
  | get (changeSetId : UUID)
  | deliver (op : ChangeSetOp)
  | evaluateMergeGate (changeSetId repositoryId : UUID)
  | repositoryRef (repositoryId : UUID)
  | getPullRequest (repository : RepositoryRef) (number : ℤ)
  | listCheckRuns (repository : RepositoryRef) (headSha : String)
  | listPullRequestReviews (repository : RepositoryRef) (number : ℤ)
  | getBranchHead (repository : RepositoryRef) (branch : String)
  | getBranchProtection (repository : RepositoryRef) (branch : String)
  | createDraftPullRequest (command : CreateDraftPullRequestCommand)
  | activeFor (changeSetId repositoryId : UUID)
  | resolveForRevision (changeSetId repositoryId : UUID) (previousHeadSha : String)
  | ensureCase (command : EnsureConflictCase)
  | createRepairTask (changeSet : ChangeSet) (candidate : RepositoryDelivery)
      (case : DeliveryConflictCaseRecord)
  | setRepairTask (caseId taskId : UUID)
  | enqueue (command : EnqueueSCMCommand)

/-- What a call answers. -/
abbrev CoordinatorAnswer : CoordinatorOp → Type
  | .get _ => ChangeSet
  | .deliver _ => ChangeSet
  | .evaluateMergeGate _ _ => MergeGateDecision
  | .repositoryRef _ => RepositoryRef
  | .getPullRequest _ _ => PullRequestObservation
  | .listCheckRuns _ _ => List CheckRunObservation
  | .listPullRequestReviews _ _ => List PullRequestReviewObservation
  | .getBranchHead _ _ => Option String
  | .getBranchProtection _ _ => BranchProtectionObservation
  | .createDraftPullRequest _ => PullRequestObservation
  | .activeFor _ _ => Option DeliveryConflictCaseRecord
  | .resolveForRevision _ _ _ => Unit
  | .ensureCase _ => DeliveryConflictCaseRecord
  | .createRepairTask _ _ _ => UUID
  | .setRepairTask _ _ => Unit
  | .enqueue _ => SCMCommand

/-- A call of the coordinator. -/
abbrev Coordinated (α : Type) := Prog CoordinatorAnswer CoordinatorRaised α

namespace Coordinated

variable (changeSetId repositoryId : UUID)

def get : Coordinated ChangeSet := Prog.perform (CoordinatorOp.get changeSetId)
def deliver (op : ChangeSetOp) : Coordinated ChangeSet := Prog.perform (CoordinatorOp.deliver op)
def evaluateMergeGate : Coordinated MergeGateDecision :=
  Prog.perform (CoordinatorOp.evaluateMergeGate changeSetId repositoryId)
def repositoryRef : Coordinated RepositoryRef := Prog.perform (CoordinatorOp.repositoryRef repositoryId)
def getPullRequest (repository : RepositoryRef) (number : ℤ) :
    Coordinated PullRequestObservation := Prog.perform (CoordinatorOp.getPullRequest repository number)
def listCheckRuns (repository : RepositoryRef) (headSha : String) :
    Coordinated (List CheckRunObservation) := Prog.perform (CoordinatorOp.listCheckRuns repository headSha)
def listPullRequestReviews (repository : RepositoryRef) (number : ℤ) :
    Coordinated (List PullRequestReviewObservation) :=
  Prog.perform (CoordinatorOp.listPullRequestReviews repository number)
def getBranchHead (repository : RepositoryRef) (branch : String) : Coordinated (Option String) :=
  Prog.perform (CoordinatorOp.getBranchHead repository branch)
def getBranchProtection (repository : RepositoryRef) (branch : String) :
    Coordinated BranchProtectionObservation := Prog.perform (CoordinatorOp.getBranchProtection repository branch)
def createDraftPullRequest (command : CreateDraftPullRequestCommand) :
    Coordinated PullRequestObservation := Prog.perform (CoordinatorOp.createDraftPullRequest command)
def activeFor : Coordinated (Option DeliveryConflictCaseRecord) :=
  Prog.perform (CoordinatorOp.activeFor changeSetId repositoryId)
def resolveForRevision (previousHeadSha : String) : Coordinated Unit :=
  Prog.perform (CoordinatorOp.resolveForRevision changeSetId repositoryId previousHeadSha)
def ensureCase (command : EnsureConflictCase) : Coordinated DeliveryConflictCaseRecord :=
  Prog.perform (CoordinatorOp.ensureCase command)
def createRepairTask (changeSet : ChangeSet) (candidate : RepositoryDelivery)
    (case : DeliveryConflictCaseRecord) : Coordinated UUID :=
  Prog.perform (CoordinatorOp.createRepairTask changeSet candidate case)
def setRepairTask (caseId taskId : UUID) : Coordinated Unit :=
  Prog.perform (CoordinatorOp.setRepairTask caseId taskId)
def enqueue (command : EnqueueSCMCommand) : Coordinated SCMCommand :=
  Prog.perform (CoordinatorOp.enqueue command)

/-- `raise ValueError(message)`. -/
def refuse {α : Type} (message : String) : Coordinated α :=
  throw (.delivery (.valueError message))

/-- `_candidate`. -/
def candidate (changeSet : ChangeSet) : Coordinated RepositoryDelivery :=
  match changeSet.candidate? repositoryId with
  | some d => pure d
  | none => throw (.delivery (.deliveryNotFound
      ("repository not in ChangeSet: " ++ uuidStr repositoryId)))

end Coordinated

/-- `sorted(repositories, key=lambda item: item.merge_order)`. -/
def sortedCandidates (changeSet : ChangeSet) : List RepositoryDelivery :=
  changeSet.repositories.insertionSort fun a b => a.mergeOrder ≤ b.mergeOrder

/-- `for x in xs: current = body(current, x)`. -/
def forEach {α β : Type} (body : β → α → Coordinated β) : β → List α → Coordinated β
  | current, [] => pure current
  | current, x :: xs => do
    let next ← body current x
    forEach body next xs

/-! ## Merging -/

/-- `reconcile_pull_request`. -/
def reconcilePullRequest (changeSetId repositoryId : UUID) (number : ℤ) :
    Coordinated PullRequestObservation := do
  let repository ← Coordinated.repositoryRef repositoryId
  let observation ← Coordinated.getPullRequest repository number
  let changeSet ← Coordinated.get changeSetId
  let candidate ← Coordinated.candidate repositoryId changeSet
  if observation.headSha ≠ lower candidate.commitSha then
    Coordinated.refuse "remote PR head SHA differs from the frozen ChangeSet candidate"
  else pure observation

/-- The command `merge_when_allowed` enqueues. -/
def mergeCommand (changeSet : ChangeSet) (candidate : RepositoryDelivery) (number : ℤ) :
    EnqueueSCMCommand :=
  { changeSetId := changeSet.id
    repositoryId := candidate.repositoryId
    kind := .mergePullRequest
    idempotencyKey := "merge:" ++ uuidStr changeSet.id ++ ":" ++ uuidStr candidate.repositoryId ++
      ":" ++ candidate.commitSha
    payload := {
      pullRequestNumber := number
      expectedHeadSha := candidate.commitSha
      commitTitle := some changeSet.title } }

/-- `merge_when_allowed`. -/
def mergeWhenAllowed (changeSetId repositoryId : UUID) : Coordinated ChangeSet := do
  let gate ← Coordinated.evaluateMergeGate changeSetId repositoryId
  if !gate.allowed then Coordinated.refuse ("merge gate denied: " ++ join "; " gate.reasons)
  else do
    let changeSet ← Coordinated.get changeSetId
    let candidate ← Coordinated.candidate repositoryId changeSet
    match candidate.pullRequestNumber with
    | none => Coordinated.refuse "delivery candidate has no pull request"
    | some number => do
      let _ ← Coordinated.repositoryRef repositoryId
      let observation ← reconcilePullRequest changeSetId repositoryId number
      if observation.state ≠ .opened then Coordinated.refuse "pull request is no longer open"
      -- Draft is the designed early lifecycle of every delivery pull request.
      else if observation.draft then pure changeSet
      else if observation.mergeable = some false then
        Coordinated.refuse "pull request has conflicts"
      else do
        let _ ← Coordinated.enqueue (mergeCommand changeSet candidate number)
        pure changeSet

/-- `merge_ready_repositories`. -/
def mergeReadyRepositories (changeSetId : UUID) : Coordinated ChangeSet := do
  let current ← Coordinated.get changeSetId
  forEach (fun current candidate => do
    let gate ← Coordinated.evaluateMergeGate changeSetId candidate.repositoryId
    if gate.allowed then mergeWhenAllowed changeSetId candidate.repositoryId else pure current)
    current (sortedCandidates current)

/-! ## Promoting drafts -/

/-- `_UNDRAFTABLE_STATUSES`. -/
def undraftableStatuses : List RepositoryDeliveryStatus :=
  [.prOpen, .ciPending, .reviewPending, .readyToMerge]

/-- `all(self._candidate(change_set, dependency).status is MERGED for dependency in ...)`. -/
def dependenciesMerged (changeSet : ChangeSet) : List UUID → Coordinated Bool
  | [] => pure true
  | dependency :: rest => do
    let upstream ← Coordinated.candidate dependency changeSet
    if upstream.status = .merged then dependenciesMerged changeSet rest else pure false

/-- The command `undraft_when_allowed` enqueues. -/
def undraftCommand (changeSet : ChangeSet) (candidate : RepositoryDelivery) (number : ℤ) :
    EnqueueSCMCommand :=
  { changeSetId := changeSet.id
    repositoryId := candidate.repositoryId
    kind := .undraftPullRequest
    idempotencyKey := "undraft:" ++ uuidStr changeSet.id ++ ":" ++
      uuidStr candidate.repositoryId ++ ":" ++ toString number
    payload := {
      pullRequestNumber := number
      expectedHeadSha := candidate.commitSha } }

/-- The body of the loop of `undraft_when_allowed`. -/
def undraftCandidate (changeSet : ChangeSet) (candidate : RepositoryDelivery) :
    Coordinated Unit :=
  if candidate.status ∉ undraftableStatuses then pure ()
  else
    match candidate.pullRequestNumber with
    | none => pure ()
    | some number => do
      let merged ← dependenciesMerged changeSet candidate.dependsOn
      if merged then do
        let _ ← Coordinated.enqueue (undraftCommand changeSet candidate number)
        pure ()
      else pure ()

/-- `undraft_when_allowed`. -/
def undraftWhenAllowed (changeSetId : UUID) : Coordinated ChangeSet := do
  let changeSet ← Coordinated.get changeSetId
  forEach (fun _ candidate => undraftCandidate changeSet candidate) ()
    (sortedCandidates changeSet)
  pure changeSet

/-! ## Opening pull requests -/

/-- `repr` of a list of plain names. -/
def nameList (names : List String) : String :=
  "[" ++ join ", " (names.map fun name => "'" ++ name ++ "'") ++ "]"

/-- The checks of a protected base branch. -/
def checkProtection (candidate : RepositoryDelivery) (protection : BranchProtectionObservation) :
    Coordinated Unit :=
  if protection.isProtected then
    let missing := (candidate.requiredChecks.filter fun check =>
      !protection.requiredChecks.contains check).dedup.insertionSort (· ≤ ·)
    if missing ≠ [] then
      throw (.scmConflict ("base branch protection is missing required checks: " ++
        nameList missing))
    else if protection.requiredApprovals < candidate.requiredApprovals then
      throw (.scmConflict "base branch protection allows too few approvals")
    else if candidate.requiredApprovals ≠ 0 ∧ !protection.dismissesStaleReviews then
      throw (.scmConflict "base branch protection must dismiss stale reviews")
    else pure ()
  else pure ()

/-- `open_draft_pull_request`. -/
def openDraftPullRequest (changeSetId repositoryId : UUID) (baseBranch : String) (draft : Bool) :
    Coordinated ChangeSet := do
  let changeSet ← Coordinated.get changeSetId
  let candidate ← Coordinated.candidate repositoryId changeSet
  let repository ← Coordinated.repositoryRef repositoryId
  let protection ← Coordinated.getBranchProtection repository baseBranch
  checkProtection candidate protection
  let observation ← Coordinated.createDraftPullRequest
    { repository := repository
      headBranch := candidate.branchName
      baseBranch := baseBranch
      expectedHeadSha := candidate.commitSha
      title := changeSet.title
      idempotencyKey := "changeset:" ++ uuidStr changeSet.id ++ ":repository:" ++
        uuidStr candidate.repositoryId
      draft := draft }
  Coordinated.deliver (.observePullRequest
    { changeSetId := changeSet.id
      repositoryId := candidate.repositoryId
      pullRequestNumber := observation.number
      pullRequestUrl := observation.url
      headSha := observation.headSha })

/-- `_PUBLISHABLE_STATUSES`. -/
def publishableStatuses : List RepositoryDeliveryStatus := [.pending, .prOpen]

/-- The body of the loop of `complete_pending_publications`. -/
def completePublication (changeSetId : UUID) (baseBranch : String)
    (original : RepositoryDelivery) : Coordinated ChangeSet := do
  let current ← Coordinated.get changeSetId
  let candidate ← Coordinated.candidate original.repositoryId current
  if candidate.pullRequestNumber.isSome ∨ candidate.status ∉ publishableStatuses ∨
      isBlank candidate.branchName ∨ isBlank candidate.commitSha then pure current
  else do
    let repository ← Coordinated.repositoryRef candidate.repositoryId
    let remoteHead ← Coordinated.getBranchHead repository candidate.branchName
    match remoteHead with
    | none => pure current
    | some head =>
      if lower head ≠ lower candidate.commitSha then pure current
      else openDraftPullRequest changeSetId candidate.repositoryId baseBranch true

/-- `complete_pending_publications`. -/
def completePendingPublications (changeSetId : UUID) (baseBranch : String) :
    Coordinated ChangeSet := do
  let current ← Coordinated.get changeSetId
  forEach (fun _ original => completePublication changeSetId baseBranch original) current
    (sortedCandidates current)

/-! ## Reconciling -/

/-- The conflict a remote pull request shows: a mergeability answer overrides a moved base. -/
def conflictOf (pullRequest : PullRequestObservation) (candidate : RepositoryDelivery) :
    Option (DeliveryConflictKind × String) :=
  if pullRequest.mergeable = some false then
    some (.contentConflict, "SCM reports the pull request is not mergeable")
  else if lower pullRequest.baseSha ≠ lower candidate.baseSha then
    some (.baseDrift, "target branch moved after candidate validation")
  else none

/-- The conflict case of a candidate is opened, and its repair handed out. -/
def openConflictCase (changeSetId : UUID) (current : ChangeSet) (candidate : RepositoryDelivery)
    (pullRequest : PullRequestObservation) (kind : DeliveryConflictKind) (detail : String) :
    Coordinated Unit := do
  let case ← Coordinated.ensureCase
    { changeSetId := changeSetId
      organizationId := current.organizationId
      projectId := current.projectId
      repositoryId := candidate.repositoryId
      candidateHeadSha := candidate.commitSha
      kind := kind
      expectedBaseSha := candidate.baseSha
      observedBaseSha := pullRequest.baseSha
      detail := detail }
  if case.repairTaskId = none then
    try do
      let taskId ← Coordinated.createRepairTask current candidate case
      Coordinated.setRepairTask case.id taskId
    catch error =>
      match error with
      | .delivery (.valueError _) => pure ()
      | error => throw error
  else pure ()

/-- A case opened for an earlier head is closed. -/
def closeStaleCase (changeSetId : UUID) (candidate : RepositoryDelivery) : Coordinated Unit := do
  let active ← Coordinated.activeFor changeSetId candidate.repositoryId
  match active with
  | some case =>
    if case.candidateHeadSha ≠ candidate.commitSha then
      Coordinated.resolveForRevision changeSetId candidate.repositoryId case.candidateHeadSha
    else pure ()
  | none => pure ()

/-- The finished check runs of the candidate's head are recorded. -/
def recordChecks (changeSetId : UUID) (candidate : RepositoryDelivery) (current : ChangeSet)
    (checks : List CheckRunObservation) : Coordinated ChangeSet :=
  forEach (fun current check =>
    if !check.terminal ∨ check.headSha ≠ lower candidate.commitSha then pure current
    else Coordinated.deliver (.observeCi
      { changeSetId := changeSetId
        repositoryId := candidate.repositoryId
        passed := check.passed
        checkRunId := check.checkRunId
        summary := check.summary
        checkName := check.checkName })) current checks

/-- `latest_reviews`: the last review of each reviewer, where its first one stood. -/
def latestReviews (headSha : String) (reviews : List PullRequestReviewObservation) :
    List PullRequestReviewObservation :=
  (reviews.filter fun review => review.headSha = lower headSha).foldl (fun latest review =>
    if latest.any fun r => r.reviewer == review.reviewer then
      latest.map fun r => if r.reviewer = review.reviewer then review else r
    else latest ++ [review]) []

/-- `review_states`. -/
def reviewState : SCMReviewState → ReviewState
  | .approved => .approved
  | .changesRequested => .changesRequested
  | .dismissed => .dismissed

/-- The reviews of the candidate's head are recorded. -/
def recordReviews (changeSetId : UUID) (candidate : RepositoryDelivery) (current : ChangeSet)
    (reviews : List PullRequestReviewObservation) : Coordinated ChangeSet :=
  forEach (fun _ review => Coordinated.deliver (.observeReview
    { changeSetId := changeSetId
      repositoryId := candidate.repositoryId
      reviewId := review.reviewId
      reviewer := review.reviewer
      state := reviewState review.state
      headSha := review.headSha
      summary := review.summary })) current (latestReviews candidate.commitSha reviews)

/-- What follows once the evidence of a candidate without conflict is recorded: its merge is
observed, or asked for. -/
def settleCandidate (changeSetId repositoryId : UUID) (pullRequest : PullRequestObservation)
    (current : ChangeSet) : Coordinated ChangeSet := do
  let candidate ← Coordinated.candidate repositoryId current
  if pullRequest.state = .merged then
    match pullRequest.mergeSha.filter fun sha => !sha.isEmpty with
    | none => throw (.scmConflict "merged pull request has no merge commit SHA")
    | some mergeSha => do
      let gate ← Coordinated.evaluateMergeGate changeSetId candidate.repositoryId
      if candidate.status ≠ .mergeRequested ∧ !gate.allowed then
        throw (.scmConflict "remote pull request merged while RepoMesh merge gate was closed")
      else Coordinated.deliver (.observeMerge ⟨changeSetId, candidate.repositoryId, mergeSha⟩)
  else if candidate.status = .mergeRequested then pure current
  else if pullRequest.state ≠ .opened ∨ pullRequest.draft ∨ pullRequest.mergeable = some false then
    pure current
  else do
    let gate ← Coordinated.evaluateMergeGate changeSetId candidate.repositoryId
    if gate.allowed then mergeWhenAllowed changeSetId candidate.repositoryId else pure current

/-- The body of the loop of `reconcile_and_merge`. -/
def reconcileCandidate (changeSetId repositoryId : UUID) : Coordinated ChangeSet := do
  let current ← Coordinated.get changeSetId
  let candidate ← Coordinated.candidate repositoryId current
  match candidate.pullRequestNumber with
  | none => pure current
  | some number =>
    if candidate.status = .merged then pure current
    else do
      let repository ← Coordinated.repositoryRef candidate.repositoryId
      let pullRequest ← Coordinated.getPullRequest repository number
      if pullRequest.headSha ≠ lower candidate.commitSha then
        throw (.scmConflict "remote PR head SHA differs from the frozen ChangeSet candidate")
      else do
        closeStaleCase changeSetId candidate
        match conflictOf pullRequest candidate with
        | some (kind, detail) => do
          openConflictCase changeSetId current candidate pullRequest kind detail
          pure current
        | none => do
          let checks ← Coordinated.listCheckRuns repository candidate.commitSha
          let current ← recordChecks changeSetId candidate current checks
          let reviews ← Coordinated.listPullRequestReviews repository number
          let current ← recordReviews changeSetId candidate current reviews
          settleCandidate changeSetId candidate.repositoryId pullRequest current

/-- `reconcile_and_merge`. -/
def reconcileAndMerge (changeSetId : UUID) (baseBranch : String) : Coordinated ChangeSet := do
  let current ← completePendingPublications changeSetId baseBranch
  let current ← forEach (fun _ original => reconcileCandidate changeSetId original.repositoryId)
    current (sortedCandidates current)
  let _ ← undraftWhenAllowed changeSetId
  pure current

end Scm
end RepoMesh
