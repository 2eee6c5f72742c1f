/-
# The integrated plan

What integration produces and the bridge consumes: a plan whose operational fields are projections
of a plan-layer graph, the graph that is rebuilt from the fields of a plan, and the columns a plan
is kept in.
-/
import RepoMesh.Foundation.Keyed
import RepoMesh.Planning.Graph

namespace RepoMesh
namespace Planning

/-- A cross-repository interface agreement. -/
structure ContractSpec where
  producer : String
  consumer : String
  interface : String
  agreement : String
  deriving DecidableEq

/-- An instruction: a text, or a value that is false and no text, by what `str` makes of it. -/
inductive Instruction where
  | text (s : String)
  | falsy (shown : String)
  deriving DecidableEq

/-- A single task in the execution DAG. -/
structure TaskNode where
  repository : String
  instruction : Instruction
  dependsOn : List String := []
  parallelizableWith : List String := []
  tests : List String := []
  deriving DecidableEq

/-- The complete integrated project plan. -/
structure IntegratedPlan where
  engineeringSpec : String
  contracts : List ContractSpec
  taskDag : List TaskNode
  executionBatches : List (List String)
  graph : Option PlanGraph := none

/-- `text or None`. -/
def nonEmpty (text : String) : Option String := if text = "" then none else some text

/-- An optional text, if it says something. -/
def told (text : Option String) : Option String := text.filter (· ≠ "")

/-- `text or other` of optional texts. -/
def orElse (text other : Option String) : Option String := (told text).or other

theorem getD_orElse (s : String) : (orElse (some s) none).getD "" = s := by
  simp only [orElse, told, Option.or_none, Option.filter_some]
  by_cases h : s = ""
  · simp [h]
  · simp [h]

/-- `instruction or None`. -/
def Instruction.told : Instruction → Option String
  | .text s => nonEmpty s
  | .falsy _ => none

theorem told_text {s : String} (h : s ≠ "") : told (Instruction.text s).told = some s := by
  have hsome : (Instruction.text s).told = some s := if_neg h
  rw [hsome, told, Option.filter_some, if_pos (by simpa using h)]

theorem ne_of_told {text : Option String} {s : String} (h : told text = some s) : s ≠ "" := by
  rw [told, Option.filter_eq_some_iff] at h
  simpa using h.2

/-- `str(instruction)`. -/
def Instruction.str : Instruction → String
  | .text s => s
  | .falsy shown => shown

/-! ## A graph from the fields of a plan -/

/-- The order edges from each repository of a batch to each of the next. -/
def orderEdges (names earlier later : List String) : List GraphEdge :=
  earlier.flatMap fun a => later.filterMap fun b =>
    if a = b ∨ a ∉ names ∨ b ∉ names then none
    else some { from_ := a, to_ := b, status := .confirmed, source := .tm }

/-- `tm_order_edges`: the edges of an explicitly approved batch order. -/
def tmOrderEdges (batches : List (List String)) (names : List String) : List GraphEdge :=
  (batches.zip batches.tail).flatMap fun pair => orderEdges names pair.1 pair.2

/-- `edges.setdefault`: the first edge of a pair stands. -/
def setDefault (edges : List GraphEdge) (edge : GraphEdge) : List GraphEdge :=
  Keyed.insertNew GraphEdge.key edges edge

/-- The dependencies a task states, as confirmed edges. -/
def dependencyEdges (task : TaskNode) : List GraphEdge :=
  task.dependsOn.map fun dep =>
    { from_ := dep, to_ := task.repository, status := .confirmed, source := .llm }

/-- A contract upgrades the edge of its pair, or becomes one. -/
def addContract (edges : List GraphEdge) (contract : ContractSpec) : List GraphEdge :=
  if (contract.producer, contract.consumer) ∈ edges.map GraphEdge.key then
    Keyed.write GraphEdge.key edges (contract.producer, contract.consumer) fun existing =>
      { existing with
        interface := orElse (some contract.interface) existing.interface
        agreement := orElse (some contract.agreement) existing.agreement }
  else
    edges ++ [{
      from_ := contract.producer
      to_ := contract.consumer
      status := .confirmed
      source := .llm
      interface := some contract.interface
      agreement := some contract.agreement }]

/-- An order edge is added unless the pair is connected already, in either direction. -/
def addOrder (edges : List GraphEdge) (order : GraphEdge) : List GraphEdge :=
  if order.key ∈ edges.map GraphEdge.key ∨ (order.to_, order.from_) ∈ edges.map GraphEdge.key then
    edges
  else edges ++ [order]

/-- The node of a task. -/
def taskNode (task : TaskNode) : GraphNode where
  repository := task.repository
  instruction := task.instruction.told
  tests := task.tests

/-- The edges of the facts of a plan: its dependencies, upgraded by its contracts. -/
def factEdges (plan : IntegratedPlan) : List GraphEdge :=
  plan.contracts.foldl addContract ((plan.taskDag.flatMap dependencyEdges).foldl setDefault [])

/-- The edges of a plan: its facts, and its batch order where that contradicts none of them. -/
def planEdges (plan : IntegratedPlan) : List GraphEdge :=
  (tmOrderEdges plan.executionBatches (plan.taskDag.map (·.repository))).foldl addOrder
    (factEdges plan)

/-- `plan_to_graph`: backfill a plan-layer graph from plan fields alone. -/
def planToGraph (plan : IntegratedPlan) : Except String PlanGraph :=
  PlanGraph.validate
    { planVersion := 1, nodes := plan.taskDag.map taskNode, edges := planEdges plan }

/-! ## Normalising a plan -/

/-- The task of a repository: of several the last. -/
def taskOf (tasks : List TaskNode) (repository : String) : Option TaskNode :=
  tasks.reverse.find? fun t => decide (t.repository = repository)

/-- The task of a node, with what only the integration model said. -/
def normalizeTask (tasks : List TaskNode) (view : TaskDagNodeView) : TaskNode :=
  let llm := taskOf tasks view.repository
  { repository := view.repository
    instruction :=
      match told view.instruction with
      | some instruction => .text instruction
      | none => (llm.map (·.instruction)).getD (.text "")
    dependsOn := view.dependsOn
    parallelizableWith := (llm.map (·.parallelizableWith)).getD []
    tests := (llm.map (·.tests)).getD [] }

/-- The contract of a contract edge. -/
def contractOf (view : ContractEdgeView) : ContractSpec where
  producer := view.producer
  consumer := view.consumer
  interface := view.interface
  agreement := view.agreement.getD ""

/-- `normalize_plan`: rebuild a plan so that its operational fields equal the graph projections. -/
def normalizePlan (plan : IntegratedPlan) (graph : PlanGraph) : IntegratedPlan where
  engineeringSpec := plan.engineeringSpec
  contracts := graph.contracts.map contractOf
  taskDag := graph.taskDag.map (normalizeTask plan.taskDag)
  executionBatches := projectBatches graph.nodes graph.edges
  graph := some graph

/-! ## The columns of a plan -/

/-- The columns of a snapshot that hold a plan. -/
structure PlanColumns where
  engineeringSpec : String := ""
  contracts : List ContractSpec := []
  taskDag : List TaskNode := []
  executionBatches : List (List String) := []
  graphEdges : List GraphEdge := []
  deriving DecidableEq

/-- The columns `PlanExecutionBridge.materialize` writes for a plan and its graph. -/
def materializeColumns (plan : IntegratedPlan) (graph : PlanGraph) (requirement : String) :
    PlanColumns :=
  let plan := normalizePlan plan graph
  { engineeringSpec := (nonEmpty plan.engineeringSpec).getD requirement
    contracts := plan.contracts
    taskDag := plan.taskDag
    executionBatches := plan.executionBatches
    graphEdges := graph.edges }

/-- The plan of a row without edges. -/
def legacyPlan (columns : PlanColumns) : IntegratedPlan where
  engineeringSpec := columns.engineeringSpec
  contracts := columns.contracts
  taskDag := columns.taskDag
  executionBatches := columns.executionBatches

/-- `plan_graph_from_snapshot`: reconstruct the plan-layer graph from a row. A row without edges is
backfilled as a plan without a graph is. -/
def planGraphFromSnapshot (planVersion : ℤ) (hversion : 1 ≤ planVersion) (columns : PlanColumns) :
    Except String PlanGraph :=
  if columns.graphEdges = [] then
    (planToGraph (legacyPlan columns)).map fun g => g.withVersion planVersion hversion
  else
    PlanGraph.validate
      { planVersion := planVersion
        nodes := columns.taskDag.map taskNode
        edges := columns.graphEdges }

end Planning
end RepoMesh
