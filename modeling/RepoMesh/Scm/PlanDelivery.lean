/-
# Candidates of a batch

`PlanDeliveryFinalizer._candidates_for_batch`: from the worker tasks of a batch's repositories to
delivery candidates, or to the refusal that names what is missing.
-/
import RepoMesh.Orchestration.World

namespace RepoMesh
namespace Scm

open Async (Prog)
open Delivery (UUID uuidStr RepositoryCandidateInput ContractView)
open Orchestration (Call Codecs ExecutionPlan PlannedRepositoryTask Task TaskEvidenceView)
open Text

/-- `PlanDeliveryPolicy`, the part a candidate carries. -/
structure PlanDeliveryPolicy where
  requiredChecks : List String := []
  requiredApprovals : ℤ := 1
  deriving DecidableEq

/-- `_WorkerProvenance`. -/
structure WorkerProvenance where
  runId : Option UUID
  workerAgentId : UUID
  deriving DecidableEq

/-- `ValidationTestInput`. -/
structure ValidationTestInput where
  repositoryId : UUID
  command : String
  exitCode : ℤ
  summary : String
  deriving DecidableEq

/-- The collaborators of the finalizer: its policy, the file system and the contract catalog. -/
structure PlanDeliveryFinalizer where
  policy : PlanDeliveryPolicy
  /-- `Path(text).is_dir()`. -/
  isDir : String → Bool
  /-- `contracts_for_project`, where a catalog is wired. -/
  contracts : Option (UUID → Except Orchestration.Raised (List ContractView))

/-- What a batch hands to delivery. -/
structure BatchCandidates where
  candidates : List RepositoryCandidateInput := []
  workspaces : List (UUID × String) := []
  tests : List ValidationTestInput := []
  provenance : List (UUID × WorkerProvenance) := []
  deriving DecidableEq

/-- `_full_sha`. -/
def fullSha (value : String) : Bool :=
  value.toList.length == 40 && value.toList.all isHexDigit

/-- `_WorkerProvenance.of`. -/
def provenanceOf [Codecs] (worker : Task) : WorkerProvenance :=
  { runId := worker.evidence.bind (·.runId), workerAgentId := worker.assigneeAgentId }

/-- `len(value or ())`. -/
def lengthOrZero : Json → Except Orchestration.Raised ℕ
  | .arr items => .ok items.length
  | .str s => .ok s.toList.length
  | .obj fields => .ok fields.length
  | value =>
    if value.truthy then .error (.runtimeError "object has no len()") else .ok 0

/-- `_evidence`. -/
def evidenceDocument [Codecs] (raw : Option String) : Except Orchestration.Raised Json :=
  match raw with
  | none => .ok (.obj [])
  | some text =>
    if text = "" then .ok (.obj [])
    else
      match Codecs.jsonLoads text with
      | none => .error (.valueError "task result is not structured Runner evidence")
      | some document => .ok (if document.isObj then document else .obj [])

/-- `raw_test_count`. -/
def rawTestCount [Codecs] (worker : Task) : Except Orchestration.Raised ℕ := do
  let document ← evidenceDocument worker.resultSummary
  lengthOrZero (document.get "testResults")

/-- A refusal that names the candidate. -/
def refused (reason : String) (repositoryId : UUID) (taskId : Option UUID) :
    Orchestration.Raised :=
  .batchDeliveryRefused reason (some repositoryId) taskId

/-- The succeeded tasks among a repository's worker tasks. -/
def succeededTasks (workers : List Task) : List Task :=
  workers.filter fun task => task.status = .succeeded

/-- `_successful_worker`. -/
def successfulWorker (repositoryId leaderTaskId : UUID) : Call Task := do
  let workers ← Call.tasksByParent leaderTaskId
  match succeededTasks workers with
  | [worker] => pure worker
  | _ => throw (refused
      ("repository " ++ uuidStr repositoryId ++ " has no unique successful candidate")
      repositoryId none)

section Candidates

variable [Codecs]

/-- The candidate of one worker task whose evidence passed the checks. -/
def candidateInput (finalizer : PlanDeliveryFinalizer) (plan : ExecutionPlan)
    (earlier : List UUID) (repositoryId : UUID) (worker : Task) (commitSha baseSha : String) :
    RepositoryCandidateInput :=
  { repositoryId
    taskId := worker.id
    commitSha
    baseSha
    branchName := "repomesh/" ++ truncate 8 (uuidStr plan.id) ++ "/" ++
      truncate 8 (uuidStr repositoryId)
    dependsOn := earlier
    requiredChecks := finalizer.policy.requiredChecks
    requiredApprovals := finalizer.policy.requiredApprovals
    planId := some plan.id
    runId := (provenanceOf worker).runId
    workerAgentId := some (provenanceOf worker).workerAgentId }

/-- The checks of one worker's evidence, in the order the loop body makes them. -/
def candidateOfWorker (finalizer : PlanDeliveryFinalizer) (plan : ExecutionPlan)
    (earlier : List UUID) (repositoryId : UUID) (worker : Task) (gathered : BatchCandidates) :
    Except Orchestration.Raised BatchCandidates :=
  match worker.evidence with
  | none =>
    .error (refused ("repository " ++ uuidStr repositoryId ++
      " candidate carries no Runner evidence") repositoryId (some worker.id))
  | some evidence =>
    let commitSha := lower (evidence.commitSha.getD "")
    let baseSha := lower (evidence.baseSha.getD "")
    let workspace := evidence.workspacePath.getD ""
    if fullSha commitSha = false ∨ fullSha baseSha = false then
      .error (refused "Runner evidence has no frozen commit/base SHA" repositoryId
        (some worker.id))
    else if workspace = "" ∨ finalizer.isDir workspace = false then
      .error (refused "Runner evidence workspace no longer exists" repositoryId (some worker.id))
    else
      match rawTestCount worker with
      | .error e => .error e
      | .ok count =>
        if evidence.testResults = [] then
          .error (refused "Runner evidence has no test results" repositoryId (some worker.id))
        else if evidence.testResults.length ≠ count then
          .error (refused "Runner test evidence is malformed" repositoryId (some worker.id))
        else
          .ok
            { candidates := gathered.candidates ++
                [candidateInput finalizer plan earlier repositoryId worker commitSha baseSha]
              workspaces := gathered.workspaces ++ [(repositoryId, workspace)]
              tests := gathered.tests ++ evidence.testResults.map fun result =>
                { repositoryId, command := result.command, exitCode := result.exitCode
                  summary := result.summary }
              provenance := gathered.provenance ++ [(repositoryId, provenanceOf worker)] }

/-- The loop over the planned items, with the repositories delivered before each. -/
def gatherCandidates (finalizer : PlanDeliveryFinalizer) (plan : ExecutionPlan) :
    List PlannedRepositoryTask → List UUID → BatchCandidates → Call BatchCandidates
  | [], _, gathered => pure gathered
  | planned :: rest, earlier, gathered =>
    match planned.leaderTaskId with
    | none => gatherCandidates finalizer plan rest earlier gathered
    | some leaderTaskId => do
      let worker ← successfulWorker planned.repositoryId leaderTaskId
      let gathered ← Prog.lift
        (candidateOfWorker finalizer plan earlier planned.repositoryId worker gathered)
      gatherCandidates finalizer plan rest (earlier ++ [planned.repositoryId]) gathered

/-- `_check_contract_coverage`, which only reads the catalog and logs. -/
def checkContractCoverage (finalizer : PlanDeliveryFinalizer) (plan : ExecutionPlan) :
    Call Unit :=
  match finalizer.contracts with
  | none => pure ()
  | some contractsForProject => do
    let _ ← Prog.lift (contractsForProject plan.projectId)
    pure ()

/-- `_candidates_for_batch`. -/
def candidatesForBatch (finalizer : PlanDeliveryFinalizer) (plan : ExecutionPlan)
    (batchIndex : ℕ) : Call BatchCandidates := do
  let earlier := (plan.batches.take batchIndex).flatMap fun batch => batch.map (·.repositoryId)
  let gathered ← gatherCandidates finalizer plan (plan.batch batchIndex) earlier {}
  checkContractCoverage finalizer plan
  pure gathered

end Candidates

end Scm
end RepoMesh
