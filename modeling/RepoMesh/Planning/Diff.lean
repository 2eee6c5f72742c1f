/-
# The diff of two versions

`diff_plan_graphs`: what an edge pair, its attributes and the repositories of two plan-layer graphs
have gained, lost and changed.
-/
import RepoMesh.Planning.Graph

namespace RepoMesh
namespace Planning

/-- An edge difference (producer -> consumer) with its version snapshot. -/
structure DiffEdge where
  from_ : String
  to_ : String
  status : Option EdgeStatus := none
  source : Option EdgeSource := none
  interface : Option String := none
  agreement : Option String := none
  deriving DecidableEq

/-- Attribute change of an edge across two versions. -/
structure EdgeChangeView where
  from_ : String
  to_ : String
  old : DiffEdge
  new : DiffEdge
  deriving DecidableEq

/-- Graph difference between two plan-layer snapshot versions. -/
structure PlanDiff where
  fromVersion : ℤ
  toVersion : ℤ
  addedEdges : List DiffEdge := []
  removedEdges : List DiffEdge := []
  changedEdges : List EdgeChangeView := []
  addedRepos : List String := []
  removedRepos : List String := []
  affectedRepos : List String := []
  deriving DecidableEq

/-- `_to_diff_edge`. -/
def toDiffEdge (edge : GraphEdge) : DiffEdge where
  from_ := edge.from_
  to_ := edge.to_
  status := some edge.status
  source := some edge.source
  interface := edge.interface
  agreement := edge.agreement

/-- The order of edge pairs. -/
def pairBefore (a b : String × String) : Bool :=
  decide (a.1 < b.1) || (decide (a.1 = b.1) && decide (a.2 ≤ b.2))

/-- The edges of a graph whose pair passes a test, in the order of their pairs. -/
def sortedEdges (g : PlanGraph) (keep : String × String → Bool) : List GraphEdge :=
  (g.edges.filter fun e => keep e.key).insertionSort fun a b => pairBefore a.key b.key

/-- Whether a graph has an edge of a pair. -/
def PlanGraph.hasPair (g : PlanGraph) (pair : String × String) : Bool :=
  g.edges.any fun e => e.key == pair

/-- `changed_edges`: the pairs of both graphs whose attributes differ. -/
def changedEdges (g g' : PlanGraph) : List EdgeChangeView :=
  (sortedEdges g g'.hasPair).filterMap fun old =>
    match g'.edges.find? fun e => e.key == old.key with
    | none => none
    | some new =>
      if old.status = new.status ∧ old.source = new.source ∧ old.interface = new.interface ∧
          old.agreement = new.agreement then none
      else some { from_ := old.from_, to_ := old.to_, old := toDiffEdge old, new := toDiffEdge new }

/-- The repositories of `names` that are not among `others`, in order. -/
def newNames (names others : List String) : List String :=
  sortedSet (names.filter (· ∉ others))

/-- The diff of two graphs. -/
def diffGraphs (g g' : PlanGraph) : PlanDiff :=
  let added := sortedEdges g' fun pair => !g.hasPair pair
  let removed := sortedEdges g fun pair => !g'.hasPair pair
  let addedRepos := newNames (nodeNames g'.nodes) (nodeNames g.nodes)
  let removedRepos := newNames (nodeNames g.nodes) (nodeNames g'.nodes)
  { fromVersion := g.planVersion
    toVersion := g'.planVersion
    addedEdges := added.map toDiffEdge
    removedEdges := removed.map toDiffEdge
    changedEdges := changedEdges g g'
    addedRepos := addedRepos
    removedRepos := removedRepos
    affectedRepos := sortedSet
      (addedRepos ++ removedRepos ++ added.map (·.to_) ++ removed.map (·.to_)) }

/-- `diff_plan_graphs`: nothing where either side is missing. -/
def diffPlanGraphs (fromGraph toGraph : Option PlanGraph) : Option PlanDiff :=
  match fromGraph, toGraph with
  | some g, some g' => some (diffGraphs g g')
  | _, _ => none

theorem diffPlanGraphs_eq_none {fromGraph toGraph : Option PlanGraph} :
    diffPlanGraphs fromGraph toGraph = none ↔ fromGraph = none ∨ toGraph = none := by
  cases fromGraph <;> cases toGraph <;> simp [diffPlanGraphs]

end Planning
end RepoMesh
