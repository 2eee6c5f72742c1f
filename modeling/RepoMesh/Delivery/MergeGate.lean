/-
# The merge gate

`DeliveryService.evaluate_merge_gate` and the ports it reads.
-/
import RepoMesh.Delivery.Service

namespace RepoMesh
namespace Delivery

open Text

/-- What the gate reads besides the ChangeSet: the ports and flags the service was built with. -/
structure MergeGatePorts where
  conflictCases : Option (UUID → UUID → Option DeliveryConflictKind) := none
  requireGovernance : Bool := false
  requireValidation : Bool := false
  validationReader : Option (UUID → UUID → List (UUID × String) → ValidationEvidenceDecision) := none
  contractCatalog : Option (UUID → List ContractView) := none

namespace ChangeSet

/-- The reason an open conflict case gives. -/
def conflictReasons (ports : MergeGatePorts) (cs : ChangeSet) (repositoryId : UUID) :
    List String :=
  match ports.conflictCases.bind fun active => active cs.id repositoryId with
  | some kind => ["delivery conflict is unresolved: " ++ kind.value]
  | none => []

/-- The reasons the candidate's own status gives. -/
def readinessReasons (target : RepositoryDelivery) : List String :=
  (if target.status ≠ .readyToMerge then ["required CI checks have not passed"] else []) ++
    (if target.status = .reviewPending ∨ target.status = .reviewChangesRequested then
      ["required reviews have not passed"] else [])

/-- The reasons the candidate's upstreams give, one for each that is not merged. -/
def upstreamReasons (cs : ChangeSet) (target : RepositoryDelivery) :
    Except Raised (List String) := do
  let unmet ← cs.unmetUpstreams target
  return unmet.map fun dep => "upstream repository is not merged: " ++ uuidStr dep

/-- The reason the merge cursor gives. -/
def cursorReasons (cs : ChangeSet) (target : RepositoryDelivery) (before : List String) :
    List String :=
  if target.mergeOrder > cs.mergeCursor ∧
      ¬ before.any (fun reason => startsWith reason "upstream repository") then
    ["merge cursor is waiting at order " ++ toString cs.mergeCursor]
  else []

/-- The reason a failed earlier candidate gives. -/
def earlierReasons (cs : ChangeSet) (target : RepositoryDelivery) : List String :=
  if (cs.repositories.filter fun d =>
      d.mergeOrder < target.mergeOrder ∧ d.repositoryId ∉ target.dependsOn).any
        (fun d => d.status = .ciFailed) then
    ["an earlier delivery candidate has failed CI"]
  else []

/-- The reason a recovery gives. Only the last plan is looked at. -/
def recoveryReasons (cs : ChangeSet) : List String :=
  match cs.recoveryPlans.getLast? with
  | some active => if active.incomplete then ["an active recovery plan is incomplete"] else []
  | none => []

/-- The last decision recorded for a head. -/
def latestDecision (cs : ChangeSet) (repositoryId : UUID) (headSha : String) :
    Option GovernanceDecision :=
  cs.governanceDecisions.reverse.find? fun g =>
    g.repositoryId == repositoryId && g.headSha == headSha

/-- The reason governance gives. -/
def governanceReasons (ports : MergeGatePorts) (cs : ChangeSet) (target : RepositoryDelivery)
    (repositoryId : UUID) : List String :=
  if ports.requireGovernance then
    match cs.latestDecision repositoryId target.commitSha with
    | none => [mergeGateGovernanceMissingReason]
    | some decision =>
      match decision.decision with
      | .blocked => ["governance blocked delivery: " ++ decision.reason]
      | .rollbackRequired => ["governance requires rollback: " ++ decision.reason]
      | .ready => []
  else []

/-- The reasons validation gives. -/
def validationReasons (ports : MergeGatePorts) (cs : ChangeSet) : List String :=
  if ports.requireValidation then
    match cs.validationSnapshotId, ports.validationReader with
    | none, _ => ["validation snapshot is missing"]
    | some _, none => ["validation snapshot reader is unavailable"]
    | some snapshotId, some validateForDelivery =>
      (validateForDelivery snapshotId cs.projectId
        (cs.repositories.map fun d => (d.repositoryId, d.commitSha))).reasons
  else []

/-- The reason an uncovered contract consumer gives. -/
def contractReasons (ports : MergeGatePorts) (cs : ChangeSet) (repositoryId : UUID) :
    List String :=
  match ports.contractCatalog with
  | none => []
  | some contractsForProject =>
    if (contractsForProject cs.projectId).any fun contract =>
        contract.producer == repositoryId &&
          !(repositoryIds cs.repositories).contains contract.consumer &&
          !contract.consumerPlanned then
      ["contract change is missing a consumer adapter candidate"]
    else []

/-- The gate on one ChangeSet. -/
def mergeGate (ports : MergeGatePorts) (cs : ChangeSet) (repositoryId : UUID) :
    Except Raised MergeGateDecision := do
  let target ← cs.repository repositoryId
  let conflict := cs.conflictReasons ports repositoryId
  let upstream ← cs.upstreamReasons target
  let before := conflict ++ readinessReasons target ++ upstream
  let reasons := before ++ cs.cursorReasons target before ++ cs.earlierReasons target ++
    cs.recoveryReasons ++ cs.governanceReasons ports target repositoryId ++
    cs.validationReasons ports ++ cs.contractReasons ports repositoryId
  return {
    changeSetId := cs.id
    repositoryId := repositoryId
    allowed := reasons.isEmpty
    reasons := reasons }

end ChangeSet

/-- `evaluate_merge_gate`. -/
def DeliveryService.evaluateMergeGate (ports : MergeGatePorts) (st : ChangeSetStore)
    (changeSetId repositoryId : UUID) : Except Raised MergeGateDecision := do
  let cs ← required st changeSetId
  cs.mergeGate ports repositoryId

/-- The gate answers, and its answer is "allowed". -/
def gateAllows (ports : MergeGatePorts) (st : ChangeSetStore) (changeSetId repositoryId : UUID) :
    Bool :=
  match DeliveryService.evaluateMergeGate ports st changeSetId repositoryId with
  | .ok decision => decision.allowed
  | .error _ => false

/-- The gate answers, and its answer is "denied". -/
def gateDenies (ports : MergeGatePorts) (st : ChangeSetStore) (changeSetId repositoryId : UUID) :
    Bool :=
  match DeliveryService.evaluateMergeGate ports st changeSetId repositoryId with
  | .ok decision => !decision.allowed
  | .error _ => false

end Delivery
end RepoMesh
