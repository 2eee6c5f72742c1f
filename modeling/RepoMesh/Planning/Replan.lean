/-
# Replanning

`PlanExecutionBridge.replan`: the repositories a change affects, the re-integration of the plan, and
its two modes. A preview reports; a commit supersedes the tasks of the affected repositories, starts
the new plan and records its snapshot.
-/
import RepoMesh.Foundation.Async
import RepoMesh.Orchestration.Task
import RepoMesh.Planning.DependencyGraph
import RepoMesh.Planning.Diff
import RepoMesh.Planning.Integration

namespace RepoMesh
namespace Planning

open Text
open Async (Prog)
open Delivery (UUID uuidStr)
open Orchestration (Task)

/-! ## What a replan is given -/

/-- A repository of the catalog, as far as a plan depends on it. -/
structure RepositoryProfile where
  id : UUID
  name : String
  testCommands : List String := []
  testPaths : List String := []
  deriving DecidableEq

/-- The topology of a project: its organization, and the repositories that have a team. -/
structure ProjectTeams where
  organizationId : UUID
  repositoryIds : List UUID
  deriving DecidableEq

/-- `PlannedRepositoryTaskView`, as the bridge makes it. -/
structure PlannedRepositoryTaskView where
  repositoryId : UUID
  title : String
  instruction : String
  acceptance : List String
  tests : List String
  testPaths : List String
  deriving DecidableEq

/-- The arguments of `replan`. The integrator comes with the confirmation it reuses. -/
structure ReplanRequest where
  leaderAgentId : UUID
  feedback : String
  changeSourceRepo : String
  requirement : String
  idempotencyPrefix : String
  allRepos : List String
  integrator : Option (String → Except String IntegratedPlan) := none
  graph : Option DependencyGraphService := none

/-- `ReplanResult`. -/
structure ReplanResult where
  newPlanVersion : ℤ
  supersededTasks : List Task := []
  newTasks : List Task := []
  affectedRepos : List String
  feedbackSummary : String
  handoffDocIds : List UUID := []
  planId : Option UUID := none
  diff : Option PlanDiff := none

/-- `_truncate`. -/
def truncated (text : String) (limit : ℕ) : String :=
  if limit < (strip text).length then truncate limit (strip text) ++ "…" else strip text

/-! ## Impact analysis -/

/-- `reverse_dependencies`. -/
def DependencyGraphService.reverseDependencies (service : DependencyGraphService)
    (repository : String) : List ScanEdge :=
  service.edges.filter fun e => e.producer == repository

/-- The consumers of the change source: by the confirmed edges of the plan-layer graph, or else by
the world-layer graph. -/
def consumersOf (source : String) (planGraph : Option PlanGraph)
    (graph : Option DependencyGraphService) : List String :=
  match planGraph, graph with
  | some g, _ =>
    (g.edges.filter fun e => e.status == .confirmed && e.from_ == source).map (·.to_)
  | none, some service => (service.reverseDependencies source).map (·.consumer)
  | none, none => []

/-- `_compute_affected_repos`. -/
def computeAffectedRepos (changeSourceRepo : String) (allRepos : List String)
    (planGraph : Option PlanGraph) (graph : Option DependencyGraphService) : List String :=
  let known (name : String) : Bool := allRepos.isEmpty || allRepos.contains name
  sortedSet ((changeSourceRepo :: consumersOf changeSourceRepo planGraph graph).filter known)

/-! ## The new plan -/

/-- The requirement `_local_replan` integrates. -/
def scopedRequirement (request : ReplanRequest) (affectedRepos : List String) : String :=
  request.requirement ++ "\n\nReplan feedback (scope: " ++ join ", " affectedRepos ++ "): " ++
    request.feedback ++ "\nStability constraint: repositories outside the affected set must " ++
    "not change their public contracts."

/-- `_local_replan`: no plan without an integrator, or where it fails. -/
def localReplan (request : ReplanRequest) (affectedRepos : List String) : Option IntegratedPlan :=
  match request.integrator with
  | none => none
  | some integrate => (integrate (scopedRequirement request affectedRepos)).toOption

/-- `_by_name`: one list for each name; two that differ are none. -/
def byName (profiles : List RepositoryProfile) (declared : RepositoryProfile → List String)
    (name : String) : List String :=
  let found := (profiles.filter fun p => p.name == name && !(declared p).isEmpty).map declared
  match found with
  | [] => []
  | first :: rest => if rest.all (· == first) then first else []

/-- `_derive_task_acceptance`. -/
def deriveTaskAcceptance (task : TaskNode) : List String :=
  ["Code compiles without errors.", "Existing tests pass."] ++ task.instruction.told.toList

/-- `name_to_repo_id`: of several repositories of a name the last. -/
def repositoryOf (profiles : List RepositoryProfile) (name : String) : Option UUID :=
  (profiles.reverse.find? fun p => p.name == name).map (·.id)

/-- The planned task of a repository, if the platform can execute it. -/
def plannedTask (plan : IntegratedPlan) (profiles : List RepositoryProfile) (teams : ProjectTeams)
    (name : String) : Option PlannedRepositoryTaskView :=
  match plan.taskDag.find? fun t => t.repository == name, repositoryOf profiles name with
  | some task, some repositoryId =>
    if repositoryId ∈ teams.repositoryIds then
      some
        { repositoryId := repositoryId
          title := "Implement changes for " ++ name
          instruction := task.instruction.told.getD ("Implement changes for " ++ name)
          acceptance := deriveTaskAcceptance task
          tests := if task.tests = [] then byName profiles (·.testCommands) name else task.tests
          testPaths := byName profiles (·.testPaths) name }
    else none
  | _, _ => none

/-- `_plan_batches`. -/
def planBatches (plan : IntegratedPlan) (profiles : List RepositoryProfile) (teams : ProjectTeams) :
    List (List PlannedRepositoryTaskView) :=
  (plan.executionBatches.map fun batch =>
    batch.filterMap (plannedTask plan profiles teams)).filter (· ≠ [])

/-- `_repo_name_for_task`. -/
def repoNameForTask (planned : PlannedRepositoryTaskView) (profiles : List RepositoryProfile) :
    String :=
  ((profiles.find? fun p => p.id == planned.repositoryId).map (·.name)).getD ""

/-- The batches that touch an affected repository. -/
def scopedBatches (plan : IntegratedPlan) (profiles : List RepositoryProfile) (teams : ProjectTeams)
    (affectedRepos : List String) : List (List PlannedRepositoryTaskView) :=
  (planBatches plan profiles teams).filter fun batch =>
    batch.any fun planned => affectedRepos.contains (repoNameForTask planned profiles)

/-! ## Calls -/

/-- The exceptions of a replan; `raised` stands for whatever a port raises. -/
inductive ReplanError where
  | attributeError
  | raised (message : String)
  deriving DecidableEq

/-- What `save` is given for a new plan. -/
structure SnapshotFields where
  planVersion : ℤ
  columns : PlanColumns
  createdByAgentId : UUID
  requirementText : String
  deriving DecidableEq

/-- The operations of a replan on its collaborators. -/
inductive ReplanOp where
  | getLatestGraph
  | nextVersion
  | listProfiles
  | getTopology
  | listProjectTasks
  | supersede (taskId : UUID) (reason key : String)
  | startPlan (organizationId leaderAgentId : UUID)
      (batches : List (List PlannedRepositoryTaskView)) (key : String)
  | save (fields : SnapshotFields)
  | generateForPlan (planVersion : ℤ) (repositories : List String)
  | supersedeForRepos (planVersion : ℤ) (repositories : List String)
  deriving DecidableEq

/-- What they are answered with. A version is positive. -/
@[reducible] def ReplanAnswer : ReplanOp → Type
  | .getLatestGraph => Option PlanGraph
  | .nextVersion => {version : ℤ // 1 ≤ version}
  | .listProfiles => List RepositoryProfile
  | .getTopology => Option ProjectTeams
  | .listProjectTasks => List Task
  | .supersede .. => Task
  | .startPlan .. => List Task
  | .save _ => UUID
  | .generateForPlan .. => List UUID
  | .supersedeForRepos .. => Unit

/-- An operation that only reads. -/
def ReplanOp.isRead : ReplanOp → Bool
  | .getLatestGraph | .nextVersion | .listProfiles | .getTopology | .listProjectTasks => true
  | _ => false

/-- A call of the bridge. -/
abbrev ReplanCall (α : Type) := Prog ReplanAnswer ReplanError α

/-- One operation of a call. -/
abbrev askFor (op : ReplanOp) : ReplanCall (ReplanAnswer op) := Prog.perform op

/-- What both modes find out first. -/
structure Impact where
  planGraph : Option PlanGraph
  affectedRepos : List String
  newPlan : Option IntegratedPlan
  newPlanVersion : {version : ℤ // 1 ≤ version}

/-- The first three steps of `replan`: impact analysis, local re-integration, version minting. -/
def impactAnalysis (request : ReplanRequest) : ReplanCall Impact := do
  let planGraph ← tryCatch (askFor .getLatestGraph) fun _ => pure none
  let affected := computeAffectedRepos request.changeSourceRepo request.allRepos planGraph
    request.graph
  let version ← askFor .nextVersion
  pure ⟨planGraph, affected, localReplan request affected, version⟩

/-- The graph of the new plan under its version. -/
def Impact.graph (impact : Impact) : Option PlanGraph :=
  (impact.newPlan.bind (·.graph)).map fun g =>
    g.withVersion impact.newPlanVersion.1 impact.newPlanVersion.2

/-- `replan` with `mode="preview"`. -/
def replanPreview (request : ReplanRequest) : ReplanCall ReplanResult := do
  let impact ← impactAnalysis request
  pure
    { newPlanVersion := impact.newPlanVersion.1
      affectedRepos := impact.affectedRepos
      feedbackSummary := truncated request.feedback 200
      diff := diffPlanGraphs impact.planGraph impact.graph }

/-- The repositories of the catalog whose names are affected. -/
def affectedRepositoryIds (profiles : List RepositoryProfile) (affectedRepos : List String) :
    List UUID :=
  (profiles.filter fun p => affectedRepos.contains p.name).map (·.id)

/-- The reason tasks are superseded with. -/
def supersedeReason (request : ReplanRequest) : String :=
  "plan replan requested: " ++ truncated request.feedback 200

/-- Whether a task is superseded: an active one of an affected repository, or one that this reason
has superseded before. -/
def isCandidate (request : ReplanRequest) (repositoryIds : List UUID) (task : Task) : Bool :=
  repositoryIds.contains task.repositoryId &&
    (decide (task.status ∈ [.assigned, .inProgress, .blocked]) ||
      decide (task.status = .superseded ∧
        task.resultSummary = some ("SUPERSEDED: " ++ supersedeReason request)))

/-- `_supersede_affected_tasks`. -/
def supersedeAffectedTasks (request : ReplanRequest) (affectedRepos : List String) :
    ReplanCall (List Task) := do
  let profiles ← askFor .listProfiles
  let tasks ← askFor .listProjectTasks
  let repositoryIds := affectedRepositoryIds profiles affectedRepos
  Prog.each (fun task : Task => askFor (.supersede task.id (supersedeReason request)
      (request.idempotencyPrefix ++ ":supersede:" ++ uuidStr task.id)))
    (tasks.filter (isCandidate request repositoryIds))

/-- `_start_replan_batch`. -/
def startReplanBatch (request : ReplanRequest) (impact : Impact) (newPlan : IntegratedPlan) :
    ReplanCall (List Task) := do
  let topology ← askFor .getTopology
  match topology with
  | none => pure []
  | some teams =>
    let profiles ← askFor .listProfiles
    let batches := scopedBatches newPlan profiles teams impact.affectedRepos
    if batches = [] then pure []
    else askFor (.startPlan teams.organizationId request.leaderAgentId batches
      (request.idempotencyPrefix ++ "-replan-v" ++ toString impact.newPlanVersion.1))

/-- The columns a replan saves. -/
def replanColumns (plan : IntegratedPlan) (graph : PlanGraph) : PlanColumns where
  engineeringSpec := plan.engineeringSpec
  contracts := plan.contracts
  taskDag := plan.taskDag
  executionBatches := plan.executionBatches
  graphEdges := graph.edges

/-- The snapshot of a new plan is saved; an exception, also that of a plan without a graph, is
logged and leaves neither an identifier nor a diff. -/
def saveSnapshot (request : ReplanRequest) (impact : Impact) (newPlan : IntegratedPlan) :
    ReplanCall (Option UUID × Option PlanDiff) :=
  tryCatch
    (match impact.graph with
    | none => throw .attributeError
    | some graph => do
      let saved ← askFor (.save
        { planVersion := impact.newPlanVersion.1
          columns := replanColumns newPlan graph
          createdByAgentId := request.leaderAgentId
          requirementText := request.requirement })
      pure (some saved, diffPlanGraphs impact.planGraph (some graph)))
    fun _ => pure (none, none)

/-- The handoff documents of the affected repositories; an exception is logged. -/
def regenerateDocs (impact : Impact) : ReplanCall (List UUID) :=
  if impact.affectedRepos = [] then pure []
  else
    tryCatch
      (match impact.newPlan with
      | none => do
        askFor (.supersedeForRepos impact.newPlanVersion.1 impact.affectedRepos)
        pure []
      | some _ => askFor (.generateForPlan impact.newPlanVersion.1 impact.affectedRepos))
      fun _ => pure []

/-- What a commit does for its new plan, if it has one. -/
def commitPlan (request : ReplanRequest) (impact : Impact) :
    ReplanCall (List Task × Option UUID × Option PlanDiff) :=
  match impact.newPlan with
  | none => pure ([], none, none)
  | some newPlan => do
    let newTasks ← startReplanBatch request impact newPlan
    let saved ← saveSnapshot request impact newPlan
    pure (newTasks, saved)

/-- `replan` with `mode="commit"`. -/
def replanCommit (request : ReplanRequest) : ReplanCall ReplanResult := do
  let impact ← impactAnalysis request
  let superseded ← supersedeAffectedTasks request impact.affectedRepos
  let (newTasks, planId, diff) ← commitPlan request impact
  let docIds ← regenerateDocs impact
  pure
    { newPlanVersion := impact.newPlanVersion.1
      supersededTasks := superseded
      newTasks := newTasks
      affectedRepos := impact.affectedRepos
      feedbackSummary := truncated request.feedback 200
      handoffDocIds := docIds
      planId := planId
      diff := diff }

end Planning
end RepoMesh
