/-
# The delivery service

`DeliveryService` over its ChangeSet store: preparing and appending candidates in merge order,
recording observations, governance, revisions and recovery.
-/
import Mathlib.Data.List.Sort
import RepoMesh.Delivery.ChangeSet

namespace RepoMesh
namespace Delivery

open Text

/-! ## Merge order -/

/-- A dictionary literal over the candidates: a later candidate of one repository replaces the
dependencies of an earlier one. -/
def dependencyTable (candidates : List RepositoryCandidateInput) : List (UUID × List UUID) :=
  candidates.foldl (fun table c =>
    if table.any (fun e => e.1 == c.repositoryId) then
      table.map fun e => if e.1 = c.repositoryId then (e.1, c.dependsOn) else e
    else table ++ [(c.repositoryId, c.dependsOn)]) []

/-- The repositories whose dependencies are all ordered, sorted by identifier. -/
def readyRepositories (remaining : List (UUID × List UUID)) (order : List (UUID × ℕ)) :
    List UUID :=
  ((remaining.filter fun e => e.2.all fun dep => order.any fun o => o.1 == dep).map
    (·.1)).insertionSort (· ≤ ·)

/-- The `while remaining` loop of `_merge_order`. Each round removes at least one repository, so
`remaining.length` rounds are enough. -/
def mergeOrderLoop : ℕ → List (UUID × List UUID) → List (UUID × ℕ) → ℕ →
    Except Raised (List (UUID × ℕ))
  | 0, remaining, order, _ =>
    if remaining = [] then .ok order
    else .error (.deliveryConflict "repository dependency graph contains a cycle")
  | fuel + 1, remaining, order, index =>
    if remaining = [] then .ok order
    else
      let ready := readyRepositories remaining order
      if ready = [] then
        .error (.deliveryConflict "repository dependency graph contains a cycle")
      else
        mergeOrderLoop fuel (remaining.filter fun e => !ready.contains e.1)
          (order ++ ready.zipIdx index) (index + ready.length)

/-- `order[repository_id]`. -/
def orderOf (order : List (UUID × ℕ)) (repositoryId : UUID) : ℕ :=
  ((order.find? fun o => o.1 == repositoryId).map (·.2)).getD 0

/-- Every dependency of the candidates lies in `known`. -/
def dependenciesWithin (candidates : List RepositoryCandidateInput) (known : List UUID) : Bool :=
  candidates.all fun c => c.dependsOn.all fun dep => known.contains dep

/-- `_merge_order`. -/
def mergeOrder (candidates : List RepositoryCandidateInput) :
    Except Raised (List (UUID × ℕ)) :=
  let table := dependencyTable candidates
  let ids := candidates.map (·.repositoryId)
  if table.all (fun e => e.2.all fun dep => ids.contains dep) then
    mergeOrderLoop table.length table [] 0
  else .error (.deliveryConflict "repository dependency is outside the ChangeSet")

/-- `_merge_order_for_append`: appended candidates follow the current maximum. -/
def mergeOrderForAppend (cs : ChangeSet) (candidates : List RepositoryCandidateInput) :
    Except Raised (List (UUID × ℕ)) :=
  let order := cs.repositories.map fun d => (d.repositoryId, d.mergeOrder)
  let next := ((order.map (·.2)).max?.map (· + 1)).getD 0
  let table := dependencyTable candidates
  mergeOrderLoop table.length table order next

/-! ## The store -/

/-- `InMemoryChangeSetStore`: ChangeSets in insertion order, idempotency keys bound to a
ChangeSet and a fingerprint, and the supply `new_id` draws from. -/
structure ChangeSetStore where
  items : List ChangeSet := []
  keys : List (String × UUID × String) := []
  nextId : UUID := 0
  deriving DecidableEq

namespace ChangeSetStore

/-- `get`. -/
def get (st : ChangeSetStore) (id : UUID) : Option ChangeSet :=
  st.items.find? fun cs => cs.id == id

/-- `get_by_idempotency_key`. -/
def getByIdempotencyKey (st : ChangeSetStore) (key : String) : Option (ChangeSet × String) := do
  let entry ← st.keys.find? fun e => e.1 == key
  let cs ← st.get entry.2.1
  return (cs, entry.2.2)

/-- `add`. -/
def add (st : ChangeSetStore) (cs : ChangeSet) (key fingerprint : String) :
    Except Raised ChangeSetStore :=
  if st.keys.any (fun e => e.1 == key) then
    .error (.deliveryConflict "duplicate ChangeSet idempotency key")
  else .ok { st with items := st.items ++ [cs], keys := st.keys ++ [(key, cs.id, fingerprint)] }

/-- Put a ChangeSet in the place of the one stored under its identifier. -/
def write (st : ChangeSetStore) (cs : ChangeSet) : ChangeSetStore :=
  { st with items := st.items.map fun c => if c.id = cs.id then cs else c }

/-- `update`, a compare-and-set on the version. -/
def update (st : ChangeSetStore) (cs : ChangeSet) (expectedVersion : ℕ) :
    Except Raised ChangeSetStore :=
  match st.get cs.id with
  | none => .error (.deliveryConflict "ChangeSet version changed")
  | some current =>
    if current.version ≠ expectedVersion then
      .error (.deliveryConflict "ChangeSet version changed")
    else .ok (st.write cs)

/-- `find_by_project`. -/
def findByProject (st : ChangeSetStore) (projectId : UUID) : List ChangeSet :=
  st.items.filter fun cs => cs.projectId == projectId

/-- `list_active`. -/
def listActive (st : ChangeSetStore) : List ChangeSet :=
  st.items.filter fun cs => cs.status ≠ .delivered ∧ cs.status ≠ .compensated

end ChangeSetStore

/-! ## Operations on one ChangeSet -/

namespace ChangeSet

/-- The candidates after `operation` on those of one repository: the loop of
`_update_repository`. -/
def updatedRepositories (cs : ChangeSet) (repositoryId : UUID)
    (operation : RepositoryDelivery → Except Raised RepositoryDelivery) :
    Except Raised (List RepositoryDelivery) := do
  let repositories ← cs.repositories.mapM fun d =>
    if d.repositoryId = repositoryId then operation d else .ok d
  if (repositoryIds cs.repositories).contains repositoryId then .ok repositories
  else .error (.deliveryNotFound ("repository not in ChangeSet: " ++ uuidStr repositoryId))

/-- `_repository`. -/
def repository (cs : ChangeSet) (repositoryId : UUID) : Except Raised RepositoryDelivery :=
  match cs.candidate? repositoryId with
  | some d => .ok d
  | none => .error (.deliveryNotFound ("repository not in ChangeSet: " ++ uuidStr repositoryId))

/-- The dependencies of a candidate that are not merged, as `observe_merge` collects them. -/
def unmetUpstreams (cs : ChangeSet) (target : RepositoryDelivery) : Except Raised (List UUID) := do
  let upstreams ← target.dependsOn.mapM fun dep => (cs.repository dep).map fun d => (dep, d)
  return (upstreams.filter fun u => u.2.status ≠ .merged).map (·.1)

/-- The actions `plan_recovery` creates for one affected candidate. -/
def candidateRecovery (d : RepositoryDelivery) : List (RecoveryActionKind × String) :=
  if d.status = .merged then
    [(.createRevertPullRequest, "Create a revert PR; force-push rollback is forbidden."),
      (.mergeRevertPullRequest, "Merge the approved revert PR after required CI checks pass.")]
  else if d.pullRequestNumber.isSome then
    [(.closePullRequest, "Close the unmerged PR and retain its evidence.")]
  else []

/-- `_recovery_actions`, with the action identifiers drawn from `firstId` on. -/
def recoveryActions (cs : ChangeSet) (c : PlanRecoveryCommand) (firstId : UUID) :
    List RecoveryAction :=
  if c.trigger = .runnerFailed ∨ c.trigger = .runnerInterrupted then
    [{ id := firstId
       sequence := 1
       kind := if c.nativeSessionId.any (fun s => !s.isEmpty) then .resumeRunnerSession
         else .retryRunner
       repositoryId := c.repositoryId
       runId := c.runId
       detail := strip c.reason }]
  else
    let affected := cs.repositories.filter fun d => c.repositoryId.all fun r => d.repositoryId == r
    let reversed := affected.insertionSort fun a b => b.mergeOrder ≤ a.mergeOrder
    let planned : List (Option UUID × RecoveryActionKind × String) :=
      reversed.flatMap (fun d => (candidateRecovery d).map fun k => (some d.repositoryId, k)) ++
        [(none, .revalidateChangeset, "Create a new validation snapshot before delivery resumes.")]
    planned.mapIdx fun i p =>
      { id := firstId + i
        sequence := i + 1
        kind := p.2.1
        repositoryId := p.1
        runId := none
        detail := p.2.2 }

/-- `_update_repository` on the ChangeSet it read: nothing is written when the candidates come
out equal. -/
def updateRepository (cs : ChangeSet) (repositoryId : UUID)
    (operation : RepositoryDelivery → Except Raised RepositoryDelivery) :
    Except Raised (Option ChangeSet) := do
  let repositories ← cs.updatedRepositories repositoryId operation
  if repositories = cs.repositories then .ok none
  else do
    let updated ← cs.withRepositories repositories
    .ok (some updated)

/-- The body of `observe_merge`: every upstream has to be merged first. -/
def observeMerge (cs : ChangeSet) (repositoryId : UUID) (mergeSha : String) :
    Except Raised (Option ChangeSet) := do
  let target ← cs.repository repositoryId
  let unmet ← cs.unmetUpstreams target
  if unmet ≠ [] then .error (.deliveryConflict "upstream repositories must merge first")
  else cs.updateRepository repositoryId fun d => d.observeMerge mergeSha

/-- The body of `observe_pull_request`. -/
def observePullRequest (cs : ChangeSet) (c : PullRequestObservationCommand) :
    Except Raised (Option ChangeSet) := do
  let _ ← cs.repository c.repositoryId
  cs.updateRepository c.repositoryId fun d =>
    d.observePr c.pullRequestNumber c.pullRequestUrl c.headSha

/-- The candidates of an append that the ChangeSet does not contain yet. -/
def freshCandidates (cs : ChangeSet) (candidates : List RepositoryCandidateInput) :
    List RepositoryCandidateInput :=
  candidates.filter fun item => !(repositoryIds cs.repositories).contains item.repositoryId

/-- The candidate records an append adds. -/
def appendedRepositories (cs : ChangeSet) (fresh : List RepositoryCandidateInput) :
    Except Raised (List RepositoryDelivery) :=
  let combined := repositoryIds cs.repositories ++ fresh.map (·.repositoryId)
  if dependenciesWithin fresh combined then do
    let order ← mergeOrderForAppend cs fresh
    fresh.mapM fun item => RepositoryDelivery.create item (orderOf order item.repositoryId)
  else .error (.deliveryConflict "repository dependency is outside the ChangeSet")

/-- The body of `append_candidates`: repositories already present are skipped. -/
def appendCandidates (cs : ChangeSet) (candidates : List RepositoryCandidateInput) :
    Except Raised (Option ChangeSet) :=
  let fresh := cs.freshCandidates candidates
  if fresh = [] then .ok none
  else do
    let repositories ← cs.appendedRepositories fresh
    let appended ← cs.appendRepositories repositories
    .ok (some appended)

/-- The recovery plan `plan_recovery` adds: its own identifier first, its actions' after it. -/
def recoveryPlan (cs : ChangeSet) (c : PlanRecoveryCommand) (id : UUID) : RecoveryPlan :=
  { id := id
    trigger := c.trigger
    reason := strip c.reason
    actions := cs.recoveryActions c (id + 1) }

end ChangeSet

/-! ## Service calls -/

/-- A service call on an existing ChangeSet. -/
inductive ChangeSetOp where
  | appendCandidates (command : AppendCandidatesCommand) (idempotencyKey : String)
  | recordCandidateTraceability (command : RecordCandidateTraceabilityCommand)
  | observePullRequest (command : PullRequestObservationCommand)
  | observeCi (command : CIObservationCommand)
  | observeReview (command : ReviewObservationCommand)
  | observeMerge (command : MergeObservationCommand)
  | recordMergeRequested (command : RecordMergeRequestedCommand)
  | recordGovernanceDecision (command : RecordGovernanceDecisionCommand)
  | recordCandidateRevision (command : RecordCandidateRevisionCommand)
  | planRecovery (command : PlanRecoveryCommand)
  | recordRecoveryAction (command : RecordRecoveryActionCommand)
  deriving DecidableEq

namespace ChangeSetOp

/-- The ChangeSet a call is for. -/
def changeSetId : ChangeSetOp → UUID
  | appendCandidates c _ => c.changeSetId
  | recordCandidateTraceability c => c.changeSetId
  | observePullRequest c => c.changeSetId
  | observeCi c => c.changeSetId
  | observeReview c => c.changeSetId
  | observeMerge c => c.changeSetId
  | recordMergeRequested c => c.changeSetId
  | recordGovernanceDecision c => c.changeSetId
  | recordCandidateRevision c => c.changeSetId
  | planRecovery c => c.changeSetId
  | recordRecoveryAction c => c.changeSetId

/-- The check a call makes before it reads anything. -/
def validate : ChangeSetOp → Except Raised Unit
  | appendCandidates _ key =>
    if isBlank key then .error (.valueError "idempotency_key is required") else .ok ()
  | _ => .ok ()

/-- What a call does to the ChangeSet it read: the ChangeSet to write, or nothing to write.
`nextId` is where the identifiers it draws start. -/
def apply (nextId : UUID) (cs : ChangeSet) : ChangeSetOp → Except Raised (Option ChangeSet)
  | appendCandidates c _ => cs.appendCandidates c.candidates
  | recordCandidateTraceability c =>
    cs.updateRepository c.repositoryId fun d =>
      d.attachTraceability c.taskId c.commitSha c.planId c.runId c.workerAgentId
  | observePullRequest c => cs.observePullRequest c
  | observeCi c =>
    cs.updateRepository c.repositoryId fun d =>
      d.observeCi c.passed c.checkRunId c.summary c.checkName
  | observeReview c =>
    cs.updateRepository c.repositoryId fun d =>
      d.observeReview c.reviewId c.reviewer c.state c.headSha c.summary
  | observeMerge c => cs.observeMerge c.repositoryId c.mergeSha
  | recordMergeRequested c =>
    cs.updateRepository c.repositoryId fun d => d.requestMerge c.headSha
  | recordGovernanceDecision c => do
    let decision ← GovernanceDecision.create c
    let updated ← cs.recordGovernance decision
    .ok (some updated)
  | recordCandidateRevision c => do
    let updated ← cs.recordCandidateRevision c.repositoryId c.taskId c.previousHeadSha
      c.newHeadSha c.reason
    .ok (some updated)
  | planRecovery c => .ok (some (cs.addRecovery (cs.recoveryPlan c nextId)))
  | recordRecoveryAction c => do
    let updated ← cs.recordRecoveryAction c.recoveryPlanId c.actionId c.status c.detail
    .ok (some updated)

/-- How many identifiers a call draws. -/
def idsDrawn (nextId : UUID) (cs : ChangeSet) : ChangeSetOp → ℕ
  | planRecovery c => 1 + (cs.recoveryPlan c nextId).actions.length
  | _ => 0

end ChangeSetOp

/-- A call of the delivery service. -/
inductive DeliveryOp where
  | prepare (command : PrepareChangeSetCommand) (idempotencyKey : String)
  | change (op : ChangeSetOp)
  deriving DecidableEq

namespace DeliveryService

/-- The ChangeSet `prepare` builds, under the identifier `new_id` gave it. -/
def preparedChangeSet (c : PrepareChangeSetCommand) (id : UUID) : Except Raised ChangeSet := do
  let order ← mergeOrder c.candidates
  let repositories ← c.candidates.mapM fun item =>
    RepositoryDelivery.create item (orderOf order item.repositoryId)
  if ht : isBlank (strip c.title) = false then
    if hne : repositories ≠ [] then
      if hnd : (repositoryIds repositories).Nodup then
        .ok
          { id := id
            organizationId := c.organizationId
            projectId := c.projectId
            createdByAgentId := c.createdByAgentId
            title := strip c.title
            validationSnapshotId := c.validationSnapshotId
            repositories := repositories
            candidateRevisions := repositories.map CandidateRevision.initial
            titled := ht
            nonempty := hne
            ids_nodup := hnd }
      else .error (.valueError "ChangeSet contains duplicate repositories")
    else .error (.valueError "ChangeSet title and repositories are required")
  else .error (.valueError "ChangeSet title and repositories are required")

/-- `_required`. -/
def required (st : ChangeSetStore) (id : UUID) : Except Raised ChangeSet :=
  match st.get id with
  | some cs => .ok cs
  | none => .error (.deliveryNotFound ("ChangeSet not found: " ++ uuidStr id))

/-- `prepare`. `fingerprint` is the digest of the command without its provenance. -/
def prepare (fingerprint : PrepareChangeSetCommand → String) (st : ChangeSetStore)
    (c : PrepareChangeSetCommand) (idempotencyKey : String) : Except Raised ChangeSetStore :=
  let key := strip idempotencyKey
  if key.isEmpty then .error (.valueError "idempotency_key is required")
  else
    match st.getByIdempotencyKey key with
    | some (_, previous) =>
      if previous ≠ fingerprint c then
        .error (.deliveryConflict "idempotency key was used for another ChangeSet")
      else .ok st
    | none => do
      let cs ← preparedChangeSet c st.nextId
      let st' ← st.add cs key (fingerprint c)
      .ok { st' with nextId := st.nextId + 1 }

/-- A call on an existing ChangeSet: read it, compute, and write under the version read. -/
def change (st : ChangeSetStore) (op : ChangeSetOp) : Except Raised ChangeSetStore := do
  op.validate
  let cs ← required st op.changeSetId
  match ← op.apply st.nextId cs with
  | none => .ok st
  | some updated => do
    let st' ← st.update updated cs.version
    .ok { st' with nextId := st.nextId + op.idsDrawn st.nextId cs }

/-- One call of the delivery service. -/
def apply (fingerprint : PrepareChangeSetCommand → String) (op : DeliveryOp)
    (st : ChangeSetStore) : Except Raised ChangeSetStore :=
  match op with
  | .prepare c key => prepare fingerprint st c key
  | .change op => change st op

end DeliveryService

/-! ## A sample ChangeSet -/

/-- One candidate without required checks, on the head of forty `a`s. -/
def sampleInput : RepositoryCandidateInput :=
  { repositoryId := 10
    taskId := 20
    commitSha := "aaaaaaaaaaaaaaaaaaaaaaaaaaaaaaaaaaaaaaaa"
    baseSha := "bbbbbbbbbbbbbbbbbbbbbbbbbbbbbbbbbbbbbbbb"
    branchName := "feature"
    dependsOn := []
    requiredChecks := []
    requiredApprovals := 0
    planId := none
    runId := none
    workerAgentId := none }

/-- The record `prepare` makes of it. -/
def sampleCandidate : RepositoryDelivery :=
  { repositoryId := 10
    taskId := 20
    commitSha := "aaaaaaaaaaaaaaaaaaaaaaaaaaaaaaaaaaaaaaaa"
    baseSha := "bbbbbbbbbbbbbbbbbbbbbbbbbbbbbbbbbbbbbbbb"
    branchName := "feature"
    dependsOn := []
    mergeOrder := 0
    shas_full := by decide
    branch_named := by decide
    checks_wellFormed := by decide
    approvals_nonneg := by decide }

/-- A ChangeSet of that one candidate. -/
def samplePrepare : PrepareChangeSetCommand :=
  { organizationId := 1
    projectId := 2
    createdByAgentId := 3
    title := "delivery"
    validationSnapshotId := none
    candidates := [sampleInput] }

end Delivery
end RepoMesh
