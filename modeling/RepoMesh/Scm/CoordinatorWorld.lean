/-
# The world of the coordinator

What the coordinator's calls read and write, how each of them answers, and the rules that follow
the events of a call through its parts.
-/
import RepoMesh.Scm.Coordinator

namespace RepoMesh
namespace Scm

open Text Delivery
open Async (Prog)

/-- What the provider and the catalog answer. The number counts the reads made before, so that the
remote may change between two of them. -/
structure Remote where
  repositoryRef : ℕ → UUID → Except CoordinatorRaised RepositoryRef
  getPullRequest : ℕ → RepositoryRef → ℤ → Except CoordinatorRaised PullRequestObservation
  listCheckRuns : ℕ → RepositoryRef → String → Except CoordinatorRaised (List CheckRunObservation)
  listPullRequestReviews : ℕ → RepositoryRef → ℤ →
    Except CoordinatorRaised (List PullRequestReviewObservation)
  getBranchHead : ℕ → RepositoryRef → String → Except CoordinatorRaised (Option String)
  getBranchProtection : ℕ → RepositoryRef → String →
    Except CoordinatorRaised BranchProtectionObservation
  createDraftPullRequest : ℕ → CreateDraftPullRequestCommand →
    Except CoordinatorRaised PullRequestObservation
  createRepairTask : ℕ → ChangeSet → RepositoryDelivery → DeliveryConflictCaseRecord →
    Except CoordinatorRaised UUID

/-- The stores, the ports of the merge gate, the remote, and how often it was read. The time of an
enqueue is the number of reads. -/
structure CoordinatorWorld where
  delivery : ChangeSetStore := {}
  cases : ConflictCaseStore := {}
  commands : LeaseSystem InMemorySCMCommandStore := { store := {} }
  gate : MergeGatePorts := {}
  remote : Remote
  reads : ℕ := 0

namespace CoordinatorWorld

/-- A read of the remote. -/
def ask {α : Type} (w : CoordinatorWorld) (answer : Except CoordinatorRaised α) :
    Except CoordinatorRaised α × CoordinatorWorld :=
  (answer, { w with reads := w.reads + 1 })

/-- An answer of the delivery module. -/
def ofDelivery {α : Type} : Except Raised α → Except CoordinatorRaised α
  | .ok a => .ok a
  | .error e => .error (.delivery e)

/-- The ports of the merge gate: it reads the open conflict cases of the moment. -/
def ports (w : CoordinatorWorld) : MergeGatePorts :=
  { w.gate with conflictCases := some fun changeSetId repositoryId =>
      (w.cases.activeFor changeSetId repositoryId).map (·.kind) }

end CoordinatorWorld

/-- How a call answers, and what it changes. -/
def coordinate : (op : CoordinatorOp) → CoordinatorWorld →
    Except CoordinatorRaised (CoordinatorAnswer op) × CoordinatorWorld
  | .get changeSetId, w =>
    (CoordinatorWorld.ofDelivery (DeliveryService.required w.delivery changeSetId), w)
  | .deliver op, w =>
    match DeliveryService.change w.delivery op with
    | .ok st =>
      (CoordinatorWorld.ofDelivery (DeliveryService.required st op.changeSetId),
        { w with delivery := st })
    | .error e => (.error (.delivery e), w)
  | .evaluateMergeGate changeSetId repositoryId, w =>
    (CoordinatorWorld.ofDelivery
      (DeliveryService.evaluateMergeGate w.ports w.delivery changeSetId repositoryId), w)
  | .repositoryRef repositoryId, w => w.ask (w.remote.repositoryRef w.reads repositoryId)
  | .getPullRequest repository number, w =>
    w.ask (w.remote.getPullRequest w.reads repository number)
  | .listCheckRuns repository headSha, w =>
    w.ask (w.remote.listCheckRuns w.reads repository headSha)
  | .listPullRequestReviews repository number, w =>
    w.ask (w.remote.listPullRequestReviews w.reads repository number)
  | .getBranchHead repository branch, w => w.ask (w.remote.getBranchHead w.reads repository branch)
  | .getBranchProtection repository branch, w =>
    w.ask (w.remote.getBranchProtection w.reads repository branch)
  | .createDraftPullRequest command, w =>
    w.ask (w.remote.createDraftPullRequest w.reads command)
  | .activeFor changeSetId repositoryId, w =>
    (.ok (w.cases.activeFor changeSetId repositoryId), w)
  | .resolveForRevision changeSetId repositoryId previousHeadSha, w =>
    (.ok (), { w with
      cases := w.cases.resolveForRevision changeSetId repositoryId previousHeadSha })
  | .ensureCase command, w =>
    (.ok (w.cases.ensure command).1, { w with cases := (w.cases.ensure command).2 })
  | .createRepairTask changeSet candidate case, w =>
    w.ask (w.remote.createRepairTask w.reads changeSet candidate case)
  | .setRepairTask caseId taskId, w =>
    match w.cases.setRepairTask caseId taskId with
    | .ok cases => (.ok (), { w with cases := cases })
    | .error e => (.error (.delivery e), w)
  | .enqueue command, w =>
    match LeaseSystem.call inMemoryCommands id {} w.commands (.enqueue command w.reads) with
    | (.one c, commands) => (.ok c, { w with commands := commands })
    | (.raised e, commands) => (.error (.delivery e), { w with commands := commands })
    | (.batch _, commands) => (.error (.provider ""), { w with commands := commands })

end Scm
end RepoMesh
