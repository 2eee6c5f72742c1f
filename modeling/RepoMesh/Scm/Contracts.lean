/-
# SCM contracts

The values an SCM adapter answers with, under the source's names.
-/
import RepoMesh.Delivery.Contracts

namespace RepoMesh
namespace Scm

/-- `RepositoryRef` of a GitHub repository. -/
structure RepositoryRef where
  owner : String
  name : String
  deriving DecidableEq

/-- State of a pull request. -/
inductive PullRequestState where
  | opened | closed | merged
  deriving DecidableEq

/-- The text of a state. -/
def PullRequestState.value : PullRequestState → String
  | opened => "open"
  | closed => "closed"
  | merged => "merged"

/-- `PullRequestObservation`. -/
structure PullRequestObservation where
  repository : RepositoryRef
  number : ℤ
  url : String
  state : PullRequestState
  draft : Bool
  headBranch : String
  headSha : String
  baseBranch : String
  baseSha : String
  mergeable : Option Bool
  mergeSha : Option String := none
  deriving DecidableEq

/-- State of a review. -/
inductive SCMReviewState where
  | approved | changesRequested | dismissed
  deriving DecidableEq

/-- The text of a review state. -/
def SCMReviewState.value : SCMReviewState → String
  | approved => "approved"
  | changesRequested => "changes_requested"
  | dismissed => "dismissed"

/-- `CheckRunObservation`. -/
structure CheckRunObservation where
  checkRunId : String
  checkName : String
  headSha : String
  terminal : Bool
  passed : Bool
  summary : String
  deriving DecidableEq

/-- `PullRequestReviewObservation`. -/
structure PullRequestReviewObservation where
  reviewId : String
  reviewer : String
  headSha : String
  state : SCMReviewState
  summary : String := ""
  deriving DecidableEq

end Scm
end RepoMesh
