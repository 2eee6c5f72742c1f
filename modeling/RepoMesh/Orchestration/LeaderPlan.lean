/-
# The leader's plan

`LeaderAssignmentAuthorizer` and `SubmitRepositoryPlan`: who may act on a leader assignment, the
checks a submitted plan is clamped with, and the worker tasks it becomes.
-/
import RepoMesh.Orchestration.Decompose

namespace RepoMesh
namespace Orchestration

open Text
open Async (Prog)
open Delivery (UUID uuidStr)

/-! ## Authorization -/

/-- `LeaderAssignmentAuthorizer.resolve`. -/
def resolve (leaderTaskId callerAgentId : UUID) : Call (LeaderAssignmentView × Task) := do
  let caller ← Call.agent callerAgentId
  if caller.any fun c => c.status = .active ∧ c.role = .repositoryLeader then do
    let found ← Call.getAssignment leaderTaskId
    let row ← Call.getTask leaderTaskId
    match found, row with
    | some assignment, some task =>
      if task.assigneeAgentId ≠ callerAgentId then
        throw (.leaderActionRefused .forbiddenNotAssignee
          "this leader assignment belongs to another repository leader")
      else do
        let mode ← Call.decompositionMode assignment.projectId assignment.repositoryId
        if mode = .leader then pure (assignment, task)
        else throw (.leaderActionRefused .decompositionModeConflict
          "this team's planning is done server-side, so leader submissions are refused")
    | _, _ => throw (.leaderActionRefused .assignmentNotFound
        "no leader assignment exists for this task id")
  else throw (.leaderActionRefused .forbiddenRole
    "this credential does not belong to an active repository leader")

/-! ## The clamps -/

/-- `text.lstrip("./")`. -/
def lstripDotSlash (text : String) : String :=
  String.ofList (text.toList.dropWhile fun c => c = '.' || c = '/')

/-- `text.removesuffix(suffix)`. -/
def removeSuffix (text suffix : String) : String :=
  if endsWithText text suffix then truncate (text.length - suffix.length) text else text

/-- `_within_roots`. -/
def withinRoots (path : String) (roots : List String) : Bool :=
  roots.any fun root =>
    let normalised := removeSuffix (removeSuffix (lstripDotSlash (strip root)) "**") "*"
    normalised = "" ∨ startsWith (lstripDotSlash (strip path)) normalised

/-- `indegree[target] -= 1` for the targets of one node, with the nodes that become ready. -/
def releaseTargets (targets : List String) (ready : List String) (indegree : String → ℤ) :
    List String × (String → ℤ) :=
  targets.foldl (fun state target =>
    let degree := state.2 target - 1
    (if degree = 0 then state.1 ++ [target] else state.1,
      fun node => if node = target then degree else state.2 node)) (ready, indegree)

/-- The loop of `_has_cycle`: how many nodes it orders. A node becomes ready at most once, so as
many rounds as there are nodes are enough. -/
def orderedNodes (edges : List (String × String)) :
    ℕ → List String → (String → ℤ) → ℕ → ℕ
  | 0, _, _, ordered => ordered
  | rounds + 1, ready, indegree, ordered =>
    match ready.getLast? with
    | none => ordered
    | some node =>
      let targets := (edges.filter fun edge => edge.1 == node).map (·.2)
      let released := releaseTargets targets ready.dropLast indegree
      orderedNodes edges rounds released.1 released.2 (ordered + 1)

/-- `_has_cycle`. -/
def hasCycle (nodes : List String) (edges : List (String × String)) : Bool :=
  let indegree : String → ℤ := fun node => (edges.countP fun edge => edge.2 == node : ℕ)
  orderedNodes edges nodes.length (nodes.filter fun node => indegree node = 0) indegree 0
    != nodes.length

/-- The bounds of one worker task draft, in the order they are checked. -/
def assertDraftWithinEnvelope (assignment : LeaderAssignmentView) (draft : LeaderWorkerTaskDraft) :
    Except Raised Unit :=
  if assignment.workerRoster.all fun entry =>
      entry.workerAgentId != draft.assigneeWorkerAgentId then
    .error (.leaderActionRefused .planInvalidAssignee
      "a worker task is assigned to an agent outside this team's roster")
  else if draft.allowedPaths.any fun path =>
      !withinRoots path assignment.safetyEnvelope.allowedPathRoots then
    .error (.leaderActionRefused .planInvalidAllowedPaths
      "a worker task's allowed paths fall outside the safety envelope")
  else if assignment.safetyEnvelope.testCommands.any fun command =>
      !draft.tests.contains command then
    .error (.leaderActionRefused .planInvalidTestsRemoved
      "a worker task drops a verification command the envelope requires")
  else .ok ()

/-- `_assert_plan_is_within_envelope`. -/
def assertPlanIsWithinEnvelope (decision : RepositoryPlanDecision)
    (assignment : LeaderAssignmentView) : Except Raised Unit :=
  let claimed := decision.workerTasks.map (·.nodeId)
  if decision.provenance.source ≠ leaderProvenanceSource then
    .error (.leaderActionRefused .planInvalidProvenance
      "a repository plan must carry leader-codex-session provenance")
  else if ¬ decision.nodes.Nodup then
    .error (.leaderActionRefused .planInvalidDagCoverage
      "the task DAG declares the same node more than once")
  else if ¬ claimed.Nodup ∨ ¬ (claimed ⊆ decision.nodes ∧ decision.nodes ⊆ claimed) then
    .error (.leaderActionRefused .planInvalidDagCoverage
      "every DAG node must be named by exactly one worker task, and vice versa")
  else if decision.edges.any fun edge =>
      !(decision.nodes.contains edge.1 && decision.nodes.contains edge.2) then
    .error (.leaderActionRefused .planInvalidDagCoverage
      "a DAG edge references a node the plan does not declare")
  else if hasCycle decision.nodes decision.edges then
    .error (.leaderActionRefused .planInvalidDagCycle
      "the task DAG contains a cycle, so no execution order exists")
  else decision.workerTasks.forM (assertDraftWithinEnvelope assignment)

end Orchestration
end RepoMesh
