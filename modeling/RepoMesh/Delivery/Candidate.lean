/-
# Repository candidates

`RepositoryDelivery`, the record of one repository inside a ChangeSet, and its seven mutators.
-/
import Mathlib.Data.List.Dedup
import RepoMesh.Delivery.Contracts
import RepoMesh.Foundation.Runs

namespace RepoMesh
namespace Delivery

open Text

/-- The test of `normalize_full_sha`: forty hexadecimal digits once normalised. -/
def isFullSha (value : String) : Bool :=
  (normalize value).toList.length == 40 && (normalize value).toList.all isHexDigit

/-- `normalize_full_sha(value, field=...)`. -/
def normalizeFullSha (value field : String) : Except Raised String :=
  if isFullSha value then .ok (normalize value)
  else .error (.valueError (field ++ " must be a full Git object id"))

theorem isFullSha_normalize {value : String} (h : isFullSha value = true) :
    isFullSha (normalize value) = true := by
  have hhex : ∀ c ∈ (normalize value).toList, isHexDigit c = true := by
    rw [isFullSha, Bool.and_eq_true] at h
    exact List.all_eq_true.mp h.2
  rw [isFullSha, normalize_eq_self hhex]
  exact h

theorem normalizeFullSha_ok {value field sha : String} (h : normalizeFullSha value field = .ok sha) :
    sha = normalize value ∧ isFullSha sha = true := by
  unfold normalizeFullSha at h
  split at h
  · rename_i hfull
    obtain rfl := Except.ok.inj h
    exact ⟨rfl, isFullSha_normalize hfull⟩
  · cases h

/-- The test `__post_init__` makes on required checks: non-empty and unique once normalised. -/
def checksWellFormed (requiredChecks : List String) : Bool :=
  let normalized := requiredChecks.map normalize
  normalized.all (fun name => !name.isEmpty) && decide normalized.Nodup

/-- One CI check as last observed. -/
structure CICheckObservation where
  checkName : String
  checkRunId : String
  passed : Bool
  summary : String
  deriving DecidableEq

/-- The last review of one reviewer. -/
structure ReviewObservation where
  reviewId : String
  reviewer : String
  state : ReviewState
  summary : String
  deriving DecidableEq

/-- A repository candidate. The four checks of `__post_init__` are its last fields, so a value
that the constructor would refuse cannot be built. -/
structure RepositoryDelivery where
  repositoryId : UUID
  taskId : UUID
  commitSha : String
  baseSha : String
  branchName : String
  dependsOn : List UUID
  mergeOrder : ℕ
  requiredChecks : List String := []
  ciChecks : List CICheckObservation := []
  requiredApprovals : ℤ := 0
  reviews : List ReviewObservation := []
  status : RepositoryDeliveryStatus := .pending
  pullRequestNumber : Option ℤ := none
  pullRequestUrl : Option String := none
  ciCheckRunId : Option String := none
  ciSummary : Option String := none
  mergeSha : Option String := none
  planId : Option UUID := none
  runId : Option UUID := none
  workerAgentId : Option UUID := none
  shas_full : isFullSha commitSha = true ∧ isFullSha baseSha = true
  branch_named : isBlank branchName = false
  checks_wellFormed : checksWellFormed requiredChecks = true
  approvals_nonneg : 0 ≤ requiredApprovals
  deriving DecidableEq

namespace RepositoryDelivery

/-- The constructor as `prepare` and `append_candidates` call it: the checks of
`__post_init__` in the source's order. -/
def create (item : RepositoryCandidateInput) (order : ℕ) : Except Raised RepositoryDelivery :=
  let checks := item.requiredChecks.map normalize
  if hc : isFullSha item.commitSha = true then
    if hb : isFullSha item.baseSha = true then
      if hn : isBlank item.branchName = false then
        if hk : checksWellFormed checks = true then
          if ha : 0 ≤ item.requiredApprovals then
            .ok
              { repositoryId := item.repositoryId
                taskId := item.taskId
                commitSha := item.commitSha
                baseSha := item.baseSha
                branchName := item.branchName
                dependsOn := item.dependsOn
                mergeOrder := order
                requiredChecks := checks
                requiredApprovals := item.requiredApprovals
                planId := item.planId
                runId := item.runId
                workerAgentId := item.workerAgentId
                shas_full := ⟨hc, hb⟩
                branch_named := hn
                checks_wellFormed := hk
                approvals_nonneg := ha }
          else .error (.valueError "required_approvals cannot be negative")
        else .error (.valueError "required_checks must be non-empty and unique")
      else .error (.valueError "branch_name is required")
    else .error (.valueError "base_sha must be a full Git object id")
  else .error (.valueError "commit_sha must be a full Git object id")

/-- `observe_pr`. -/
def observePr (d : RepositoryDelivery) (number : ℤ) (url headSha : String) :
    Except Raised RepositoryDelivery :=
  if normalize headSha ≠ d.commitSha then
    .error (.deliveryConflict "pull request head does not match candidate commit")
  else if d.status ≠ .pending ∧ d.status ≠ .prOpen then
    .error (.deliveryConflict ("cannot attach pull request from " ++ d.status.value))
  else
    .ok { d with
      status := .prOpen
      pullRequestNumber := some number
      pullRequestUrl := some (strip url) }

/-- `attach_traceability`. -/
def attachTraceability (d : RepositoryDelivery) (taskId : UUID) (commitSha : String)
    (planId : UUID) (runId : Option UUID) (workerAgentId : UUID) :
    Except Raised RepositoryDelivery :=
  if taskId ≠ d.taskId then
    .error (.deliveryConflict "traceability task does not match candidate task")
  else if normalize commitSha ≠ d.commitSha then
    .error (.deliveryConflict "traceability commit does not match candidate commit")
  else if (d.planId.isSome ∨ d.runId.isSome ∨ d.workerAgentId.isSome) ∧
      (d.planId, d.runId, d.workerAgentId) ≠ (some planId, runId, some workerAgentId) then
    .error (.deliveryConflict "candidate traceability is already bound differently")
  else
    .ok { d with planId := some planId, runId := runId, workerAgentId := some workerAgentId }

/-- `{name.strip().lower() for name in self.required_checks}`. -/
def requiredNames (d : RepositoryDelivery) : List String := d.requiredChecks.map normalize

/-- `by_name[name]`: of several observations under one name the dictionary keeps the last. -/
def checkNamed (d : RepositoryDelivery) (name : String) : Option CICheckObservation :=
  d.ciChecks.reverse.find? fun item => item.checkName == name

/-- The distinct reviewers whose review is an approval. -/
def approvals (d : RepositoryDelivery) : List String :=
  ((d.reviews.filter fun item => item.state = .approved).map (·.reviewer)).dedup

/-- `_readiness_status`. -/
def readinessStatus (d : RepositoryDelivery) : RepositoryDeliveryStatus :=
  let required := d.requiredNames
  if required.any (fun name => (d.checkNamed name).any fun item => !item.passed) then .ciFailed
  else if required ≠ [] ∧
      ¬ required.all (fun name => (d.checkNamed name).any fun item => item.passed) then .ciPending
  else if required = [] ∧ d.ciChecks.getLast?.any (fun item => !item.passed) then .ciFailed
  else if d.reviews.any (fun item => item.state = .changesRequested) then .reviewChangesRequested
  else if (d.approvals.length : ℤ) < d.requiredApprovals then .reviewPending
  else if required = [] ∧ d.ciChecks = [] then .ciPending
  else .readyToMerge

/-- `observe_ci`. The source checks for a pull request and for nothing else. -/
def observeCi (d : RepositoryDelivery) (passed : Bool) (checkRunId summary checkName : String) :
    Except Raised RepositoryDelivery :=
  if d.pullRequestNumber = none then
    .error (.deliveryConflict "CI observation requires an open pull request")
  else
    let normalizedName :=
      lower (if isBlank checkName then strip checkRunId else strip checkName)
    let observation : CICheckObservation :=
      { checkName := normalizedName
        checkRunId := strip checkRunId
        passed := passed
        summary := strip summary }
    let checks := d.ciChecks.filter (fun item => item.checkName ≠ normalizedName) ++ [observation]
    let updated : RepositoryDelivery :=
      { d with
        ciCheckRunId := some (strip checkRunId)
        ciSummary := some (strip summary)
        ciChecks := checks }
    .ok { updated with status := updated.readinessStatus }

/-- `observe_review`. -/
def observeReview (d : RepositoryDelivery) (reviewId reviewer : String) (state : ReviewState)
    (headSha summary : String) : Except Raised RepositoryDelivery :=
  if d.pullRequestNumber = none then
    .error (.deliveryConflict "review observation requires an open pull request")
  else if normalize headSha ≠ d.commitSha then
    .error (.deliveryConflict "review head does not match candidate commit")
  else
    let normalizedReviewer := normalize reviewer
    if isBlank reviewId ∨ normalizedReviewer.isEmpty then
      .error (.valueError "review id and reviewer are required")
    else
      let observation : ReviewObservation :=
        { reviewId := strip reviewId
          reviewer := normalizedReviewer
          state := state
          summary := strip summary }
      let reviews :=
        d.reviews.filter (fun item => item.reviewer ≠ normalizedReviewer) ++ [observation]
      let updated : RepositoryDelivery := { d with reviews := reviews }
      .ok { updated with status := updated.readinessStatus }

/-- `observe_merge`. -/
def observeMerge (d : RepositoryDelivery) (mergeSha : String) : Except Raised RepositoryDelivery :=
  if d.status ≠ .readyToMerge ∧ d.status ≠ .mergeRequested then
    .error (.deliveryConflict "repository is not ready to merge")
  else
    match normalizeFullSha mergeSha "merge_sha" with
    | .error e => .error e
    | .ok normalized => .ok { d with status := .merged, mergeSha := some normalized }

/-- `request_merge`. -/
def requestMerge (d : RepositoryDelivery) (headSha : String) : Except Raised RepositoryDelivery :=
  if normalize headSha ≠ d.commitSha then
    .error (.deliveryConflict "merge request head does not match candidate commit")
  else if d.status = .mergeRequested then .ok d
  else if d.status ≠ .readyToMerge then
    .error (.deliveryConflict "repository is not ready to request merge")
  else .ok { d with status := .mergeRequested }

/-- `revise`. -/
def revise (d : RepositoryDelivery) (taskId : UUID) (previousHeadSha newHeadSha : String) :
    Except Raised RepositoryDelivery :=
  if d.status = .merged then
    .error (.deliveryConflict "merged candidate cannot be revised")
  else if normalize previousHeadSha ≠ d.commitSha then
    .error (.deliveryConflict "candidate revision is based on a stale head")
  else
    match h : normalizeFullSha newHeadSha "new candidate head" with
    | .error e => .error e
    | .ok normalized =>
      if normalized = d.commitSha then
        .error (.deliveryConflict "candidate revision must change the head SHA")
      else
        .ok { d with
          taskId := taskId
          baseSha := d.commitSha
          commitSha := normalized
          status := if d.pullRequestNumber.isSome then .prOpen else .pending
          ciCheckRunId := none
          ciSummary := none
          ciChecks := []
          reviews := []
          mergeSha := none
          shas_full := ⟨(normalizeFullSha_ok h).2, d.shas_full.1⟩ }

end RepositoryDelivery

/-- A call of one of the seven mutators of a candidate. -/
inductive CandidateOp where
  | observePr (number : ℤ) (url headSha : String)
  | observeCi (passed : Bool) (checkRunId summary checkName : String)
  | observeReview (reviewId reviewer : String) (state : ReviewState) (headSha summary : String)
  | requestMerge (headSha : String)
  | observeMerge (mergeSha : String)
  | attachTraceability (taskId : UUID) (commitSha : String) (planId : UUID) (runId : Option UUID)
      (workerAgentId : UUID)
  | revise (taskId : UUID) (previousHeadSha newHeadSha : String)
  deriving DecidableEq

/-- The mutator a call runs. -/
def CandidateOp.apply (op : CandidateOp) (d : RepositoryDelivery) :
    Except Raised RepositoryDelivery :=
  match op with
  | .observePr number url headSha => d.observePr number url headSha
  | .observeCi passed checkRunId summary checkName =>
    d.observeCi passed checkRunId summary checkName
  | .observeReview reviewId reviewer state headSha summary =>
    d.observeReview reviewId reviewer state headSha summary
  | .requestMerge headSha => d.requestMerge headSha
  | .observeMerge mergeSha => d.observeMerge mergeSha
  | .attachTraceability taskId commitSha planId runId workerAgentId =>
    d.attachTraceability taskId commitSha planId runId workerAgentId
  | .revise taskId previousHeadSha newHeadSha => d.revise taskId previousHeadSha newHeadSha

/-! ## What the mutators do to a candidate -/

theorem RepositoryDelivery.readinessStatus_ne_merged (d : RepositoryDelivery) :
    d.readinessStatus ≠ .merged := by
  unfold readinessStatus
  dsimp only
  split_ifs <;> decide

theorem RepositoryDelivery.observeCi_ok {d d' : RepositoryDelivery} {passed : Bool}
    {checkRunId summary checkName : String}
    (h : d.observeCi passed checkRunId summary checkName = .ok d') :
    d.pullRequestNumber ≠ none ∧ ∃ checks status,
      d' = { d with
        ciCheckRunId := some (strip checkRunId)
        ciSummary := some (strip summary)
        ciChecks := checks
        status := status } ∧ status ≠ .merged := by
  unfold observeCi at h
  split at h
  · cases h
  · rename_i hpr
    obtain rfl := Except.ok.inj h
    exact ⟨hpr, _, _, rfl, readinessStatus_ne_merged _⟩

theorem RepositoryDelivery.observeReview_ok {d d' : RepositoryDelivery}
    {reviewId reviewer : String} {state : ReviewState} {headSha summary : String}
    (h : d.observeReview reviewId reviewer state headSha summary = .ok d') :
    (d.pullRequestNumber ≠ none ∧ normalize headSha = d.commitSha ∧ isBlank reviewId = false ∧
      (normalize reviewer).isEmpty = false) ∧ ∃ reviews status,
      d' = { d with reviews := reviews, status := status } ∧ status ≠ .merged := by
  unfold observeReview at h
  dsimp only at h
  split_ifs at h with hpr hhead hblank
  obtain rfl := Except.ok.inj h
  rw [not_or, Bool.not_eq_true, Bool.not_eq_true] at hblank
  exact ⟨⟨hpr, not_not.mp hhead, hblank⟩, _, _, rfl, readinessStatus_ne_merged _⟩

theorem RepositoryDelivery.observePr_ok {d d' : RepositoryDelivery} {number : ℤ}
    {url headSha : String} (h : d.observePr number url headSha = .ok d') :
    (normalize headSha = d.commitSha ∧ (d.status = .pending ∨ d.status = .prOpen)) ∧
      d' = { d with
        status := .prOpen
        pullRequestNumber := some number
        pullRequestUrl := some (strip url) } := by
  unfold observePr at h
  split_ifs at h with hhead hstatus
  refine ⟨⟨not_not.mp hhead, ?_⟩, (Except.ok.inj h).symm⟩
  by_contra hno
  exact hstatus (not_or.mp hno)

theorem RepositoryDelivery.observeMerge_ok {d d' : RepositoryDelivery} {mergeSha : String}
    (h : d.observeMerge mergeSha = .ok d') :
    (d.status = .readyToMerge ∨ d.status = .mergeRequested) ∧
      d' = { d with status := .merged, mergeSha := some (normalize mergeSha) } := by
  unfold observeMerge at h
  split_ifs at h with hstatus
  cases hsha : normalizeFullSha mergeSha "merge_sha" with
  | error e => rw [hsha] at h; cases h
  | ok sha =>
    rw [hsha] at h
    rw [← (normalizeFullSha_ok hsha).1]
    refine ⟨?_, (Except.ok.inj h).symm⟩
    by_contra hno
    exact hstatus (not_or.mp hno)

theorem RepositoryDelivery.requestMerge_ok {d d' : RepositoryDelivery} {headSha : String}
    (h : d.requestMerge headSha = .ok d') :
    (d.status = .readyToMerge ∨ d.status = .mergeRequested) ∧
      d' = { d with status := .mergeRequested } := by
  unfold requestMerge at h
  split_ifs at h with hhead hrequested hready
  · obtain rfl := Except.ok.inj h
    refine ⟨Or.inr hrequested, ?_⟩
    cases d
    subst hrequested
    rfl
  · exact ⟨Or.inl (not_not.mp hready), (Except.ok.inj h).symm⟩

theorem RepositoryDelivery.attachTraceability_ok {d d' : RepositoryDelivery} {taskId : UUID}
    {commitSha : String} {planId : UUID} {runId : Option UUID} {workerAgentId : UUID}
    (h : d.attachTraceability taskId commitSha planId runId workerAgentId = .ok d') :
    d' = { d with
      planId := some planId, runId := runId, workerAgentId := some workerAgentId } := by
  unfold attachTraceability at h
  split_ifs at h
  exact (Except.ok.inj h).symm

theorem RepositoryDelivery.revise_ok {d d' : RepositoryDelivery} {taskId : UUID}
    {previousHeadSha newHeadSha : String}
    (h : d.revise taskId previousHeadSha newHeadSha = .ok d') :
    (d.status ≠ .merged ∧ normalize previousHeadSha = d.commitSha) ∧
      d'.commitSha = normalize newHeadSha ∧ d'.commitSha ≠ d.commitSha ∧
      d'.status = (if d.pullRequestNumber.isSome then .prOpen else .pending) ∧
      d'.pullRequestNumber = d.pullRequestNumber ∧ d'.repositoryId = d.repositoryId ∧
      d'.dependsOn = d.dependsOn ∧ d'.mergeOrder = d.mergeOrder := by
  unfold revise at h
  split at h
  · cases h
  · rename_i hmerged
    split at h
    · cases h
    · rename_i hstale
      split at h
      · cases h
      · rename_i sha hsha
        split at h
        · cases h
        · rename_i hsame
          obtain rfl := Except.ok.inj h
          exact ⟨⟨hmerged, not_not.mp hstale⟩, (normalizeFullSha_ok hsha).1, hsame, rfl, rfl, rfl,
            rfl, rfl⟩

theorem CandidateOp.apply_frame {op : CandidateOp} {d d' : RepositoryDelivery}
    (h : op.apply d = .ok d') :
    d'.repositoryId = d.repositoryId ∧ d'.dependsOn = d.dependsOn ∧
      d'.mergeOrder = d.mergeOrder := by
  cases op <;> simp only [CandidateOp.apply] at h
  case observePr =>
    rw [(RepositoryDelivery.observePr_ok h).2]; exact ⟨rfl, rfl, rfl⟩
  case observeCi =>
    obtain ⟨-, checks, status, rfl, -⟩ := RepositoryDelivery.observeCi_ok h
    exact ⟨rfl, rfl, rfl⟩
  case observeReview =>
    obtain ⟨-, reviews, status, rfl, -⟩ := RepositoryDelivery.observeReview_ok h
    exact ⟨rfl, rfl, rfl⟩
  case requestMerge =>
    rw [(RepositoryDelivery.requestMerge_ok h).2]; exact ⟨rfl, rfl, rfl⟩
  case observeMerge =>
    rw [(RepositoryDelivery.observeMerge_ok h).2]; exact ⟨rfl, rfl, rfl⟩
  case attachTraceability =>
    rw [RepositoryDelivery.attachTraceability_ok h]; exact ⟨rfl, rfl, rfl⟩
  case revise =>
    exact (RepositoryDelivery.revise_ok h).2.2.2.2.2

end Delivery
end RepoMesh
