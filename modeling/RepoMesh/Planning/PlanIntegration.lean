/-
# Plan integration

The plans of the confirmed repositories become one project plan: the scan gives the edges and the
model the words, or the model gives both. What the model replies is parsed, its contracts and
dependencies are kept where the approved plans ground them, and the plan is normalised by its graph.
-/
import RepoMesh.Planning.OneMeaning

namespace RepoMesh
namespace Planning

/-- The part of a repository's plan that grounds dependencies. -/
structure RepositoryPlan where
  dependsOn : List String := []
  impacts : List String := []
  deriving DecidableEq

/-- `ConfirmationResult`. -/
structure ConfirmationResult where
  repository : String
  status : String
  plan : Option RepositoryPlan := none
  deriving DecidableEq

/-- `ConfirmationSummary`, as integration reads it. -/
structure ConfirmationSummary where
  required : List ConfirmationResult
  maybe : List ConfirmationResult := []
  deriving DecidableEq

/-- A task the model replied, before it is checked against the confirmed repositories. -/
structure ReplyTask where
  repository : String
  instruction : Instruction := .text ""
  dependsOn : List String := []
  parallelizableWith : List String := []
  deriving DecidableEq

/-- The JSON object of a reply. A null `interface` or `agreement` reads as an empty one. -/
structure Reply where
  engineeringSpec : String := ""
  contracts : List ContractSpec := []
  taskDag : List ReplyTask := []
  deriving DecidableEq

/-- `_fallback_plan`: a minimal plan for a reply that is no JSON object. -/
def fallbackPlan (repoNames : List String) : IntegratedPlan where
  engineeringSpec := "Failed to generate engineering spec."
  contracts := []
  taskDag := repoNames.map fun repo => { repository := repo, instruction := .text "" }
  executionBatches := if repoNames = [] then [] else [repoNames]

/-- The task of a reply, among the confirmed repositories. -/
def parseTask (repoNames : List String) (task : ReplyTask) : TaskNode where
  repository := task.repository
  instruction := task.instruction
  dependsOn := task.dependsOn.filter (· ∈ repoNames)
  parallelizableWith := task.parallelizableWith.filter (· ∈ repoNames)

/-- `_parse_integrated_plan`: a reply, or `none` where no JSON object was found. -/
def parseIntegratedPlan (reply : Option Reply) (repoNames : List String) : IntegratedPlan :=
  match reply with
  | none => fallbackPlan repoNames
  | some reply =>
    let contracts := reply.contracts.filter fun c =>
      decide (c.producer ≠ "") && decide (c.consumer ≠ "") && decide (c.producer ∈ repoNames) &&
        decide (c.consumer ∈ repoNames)
    let tasks := (reply.taskDag.filter fun t => decide (t.repository ≠ "")).map (parseTask repoNames)
    let missing := repoNames.filter (· ∉ tasks.map (·.repository))
    { engineeringSpec := reply.engineeringSpec
      contracts := contracts
      taskDag := tasks ++ missing.map fun repo => { repository := repo, instruction := .text "" }
      executionBatches := [] }

/-- `_grounded_edge_keys`: the approved directional relationships. -/
def groundedEdgeKeys (results : List ConfirmationResult) (repoNames : List String) :
    List (String × String) :=
  results.flatMap fun result =>
    match result.plan with
    | none => []
    | some plan =>
      if result.repository ∈ repoNames then
        ((plan.dependsOn.filter fun producer =>
            decide (producer ∈ repoNames) && decide (producer ≠ result.repository)).map
          fun producer => (producer, result.repository)) ++
        ((plan.impacts.filter fun consumer =>
            decide (consumer ∈ repoNames) && decide (consumer ≠ result.repository)).map
          fun consumer => (result.repository, consumer))
      else []

/-! ## The graph of a scan and a reply -/

/-- A task's instruction goes to the node of its repository. -/
def instruct (nodes : List GraphNode) (task : TaskNode) : List GraphNode :=
  match task.instruction.told with
  | none => nodes
  | some instruction =>
    Keyed.write GraphNode.repository nodes task.repository fun node =>
      { node with instruction := some instruction }

/-- `edges[key] = edge` of a dictionary that keeps its order. -/
def setEdge (edges : List GraphEdge) (edge : GraphEdge) : List GraphEdge :=
  if edge.key ∈ edges.map GraphEdge.key then
    Keyed.write GraphEdge.key edges edge.key fun _ => edge
  else edges ++ [edge]

/-- The plan-layer edge of a scan edge. -/
def scanEdge (edge : ScanEdge) : GraphEdge where
  from_ := edge.producer
  to_ := edge.consumer
  status := if edge.confidence = .confirmed then .confirmed else .candidate
  source := .scan

/-- A contract promotes the edge of its pair, or becomes one where it is grounded. -/
def groundContract (grounded : List (String × String)) (edges : List GraphEdge)
    (contract : ContractSpec) : List GraphEdge :=
  if (contract.producer, contract.consumer) ∈ edges.map GraphEdge.key then
    Keyed.write GraphEdge.key edges (contract.producer, contract.consumer) fun existing =>
      { existing with
        status := .confirmed
        interface := orElse (some contract.interface) existing.interface
        agreement := orElse (some contract.agreement) existing.agreement }
  else if (contract.producer, contract.consumer) ∈ grounded then
    edges ++ [{
      from_ := contract.producer
      to_ := contract.consumer
      status := .confirmed
      source := .llm
      interface := some contract.interface
      agreement := some contract.agreement }]
  else edges

/-- A dependency that is new becomes an edge where it is grounded. -/
def groundDependency (grounded : List (String × String)) (edges : List GraphEdge)
    (dependency : GraphEdge) : List GraphEdge :=
  if dependency.key ∉ edges.map GraphEdge.key ∧ dependency.key ∈ grounded then
    edges ++ [dependency]
  else edges

/-- `_build_plan_graph`: merge the world layer and the model's semantics. -/
def buildPlanGraph (repoNames : List String) (scanEdges : List ScanEdge) (llm : IntegratedPlan)
    (grounded : List (String × String)) : Except String PlanGraph :=
  let named := (repoNames.map fun repo => ({ repository := repo } : GraphNode)).foldl
    (Keyed.insertNew GraphNode.repository) []
  let nodes := llm.taskDag.foldl instruct named
  let scanned := (scanEdges.map scanEdge).foldl setEdge []
  let contracted := llm.contracts.foldl (groundContract grounded) scanned
  let edges := (llm.taskDag.flatMap dependencyEdges).foldl (groundDependency grounded) contracted
  PlanGraph.validate { planVersion := 1, nodes := nodes, edges := edges }

/-! ## The service -/

/-- `PlanIntegrationService.integrate`: integrate confirmed repository plans into a complete project
plan, whatever the model replied to its prompt. -/
def integrate (scan : Option DependencyGraphService) (summary : ConfirmationSummary)
    (reply : Option Reply) : Except String IntegratedPlan :=
  let results := summary.required ++ summary.maybe
  if results = [] then
    .ok { engineeringSpec := "No repositories confirmed.", contracts := [], taskDag := [],
          executionBatches := [] }
  else
    let repoNames := (results.filter fun r => decide (r.status ≠ "EXCLUDED")).map (·.repository)
    let llm := parseIntegratedPlan reply repoNames
    match scan with
    | some service =>
      (buildPlanGraph repoNames (service.edgesIn repoNames) llm
        (groundedEdgeKeys results repoNames)).map (normalizePlan llm)
    | none => (planToGraph llm).map (normalizePlan llm)

theorem nodes_of_validate {fields : PlanGraphFields} {g : PlanGraph}
    (h : PlanGraph.validate fields = .ok g) : g.nodes = completeNodes fields.nodes fields.edges := by
  rw [PlanGraph.validate] at h
  split_ifs at h with hversion
  split at h
  · cases h
  · obtain rfl := Except.ok.inj h
    rfl

theorem nodesOf_completeNodes {nodes : List GraphNode} {edges : List GraphEdge} {g : PlanGraph}
    (h : g.nodes = completeNodes nodes edges) {repository : String} {last : GraphNode}
    (hlast : last ∈ (nodesOf g repository).getLast?) {instruction : String}
    (htold : instruction ∈ told last.instruction) :
    nodesOf g repository = nodes.filter fun n => decide (n.repository = repository) := by
  rw [nodesOf, h, completeNodes, List.filter_append] at hlast ⊢
  by_cases hname : repository ∈ nodeNames nodes
  · have hnone : ((missingNames nodes edges).map fun name => ({ repository := name } : GraphNode)).filter
        (fun n => decide (n.repository = repository)) = [] := by
      refine List.filter_eq_nil_iff.mpr fun n hn => ?_
      obtain ⟨name, hmissing, rfl⟩ := List.mem_map.mp hn
      simp only [missingNames, mem_sortedSet, List.mem_filter, decide_eq_true_eq] at hmissing
      simp only [decide_eq_true_eq]
      rintro rfl
      exact hmissing.2 hname
    rw [hnone, List.append_nil]
  · -- It was missing: its node is told nothing.
    exfalso
    have hold : nodes.filter (fun n => decide (n.repository = repository)) = [] := by
      refine List.filter_eq_nil_iff.mpr fun n hn => ?_
      simp only [decide_eq_true_eq]
      rintro rfl
      exact hname (List.mem_map_of_mem hn)
    rw [hold, List.nil_append] at hlast
    obtain ⟨name, -, rfl⟩ := List.mem_map.mp (List.mem_filter.mp (List.mem_of_getLast? hlast)).1
    simp [told] at htold

theorem told_of_nodup {llm : IntegratedPlan} {g : PlanGraph} {nodes : List GraphNode}
    {edges : List GraphEdge} (h : g.nodes = completeNodes nodes edges)
    (hnodup : (nodes.map GraphNode.repository).Nodup) : Told llm g := by
  intro repository last hlast instruction htold _ node hnode
  have hsame := nodesOf_completeNodes h hlast htold
  rw [hsame] at hlast hnode
  have hmem := List.mem_of_getLast? hlast
  obtain rfl : node = last := by
    simp only [List.mem_filter, decide_eq_true_eq] at hmem hnode
    exact List.inj_on_of_nodup_map hnodup hnode.1 hmem.1 (hnode.2.trans hmem.2.symm)
  rw [Option.mem_def] at htold
  rw [htold]
  exact Option.some_ne_none _

theorem Instruction.eq_of_told {instruction : Instruction} {s : String}
    (h : s ∈ Planning.told instruction.told) : instruction = .text s := by
  cases instruction with
  | falsy shown => simp [Instruction.told, Planning.told] at h
  | text s' =>
    simp only [Instruction.told, nonEmpty, Planning.told] at h
    split_ifs at h with hempty
    · simp at h
    · simp only [Option.mem_def, Option.filter_eq_some_iff, Option.some_inj] at h
      rw [h.1]

theorem told_planToGraph {llm : IntegratedPlan} {g : PlanGraph} (h : planToGraph llm = .ok g) :
    Told llm g := by
  intro repository last hlast instruction htold hother
  rw [nodesOf_completeNodes (nodes_of_validate h) hlast htold] at hlast
  have hfilter : (llm.taskDag.map taskNode).filter (fun n => decide (n.repository = repository)) =
      (llm.taskDag.filter fun t => decide (t.repository = repository)).map taskNode := by
    rw [List.filter_map]
    rfl
  rw [hfilter, List.getLast?_map] at hlast
  obtain ⟨task, htask, rfl⟩ := Option.mem_map.mp hlast
  have hplanned : plannedInstruction llm repository = task.instruction := by
    have hfound : taskOf llm.taskDag repository = some task := by
      rw [taskOf, ← List.head?_filter, List.filter_reverse, List.head?_reverse]
      exact htask
    rw [plannedInstruction, hfound]
    rfl
  rw [hplanned] at hother
  exact absurd (Instruction.eq_of_told htold).symm hother

theorem names_instruct (nodes : List GraphNode) (tasks : List TaskNode) :
    (tasks.foldl instruct nodes).map GraphNode.repository = nodes.map GraphNode.repository := by
  induction tasks generalizing nodes with
  | nil => rfl
  | cons task tasks ih =>
    rw [List.foldl_cons, ih]
    cases h : task.instruction.told with
    | none => simp only [instruct, h]
    | some instruction =>
      simp only [instruct, h]
      exact Keyed.keys_write fun _ hkey => hkey

/-- **What integration returns** is the reply normalised by the graph it carries, which leaves nothing
to say twice. -/
theorem integrate_normalized {scan : Option DependencyGraphService} {summary : ConfirmationSummary}
    {reply : Option Reply} {plan : IntegratedPlan} {g : PlanGraph}
    (h : integrate scan summary reply = .ok plan) (hgraph : plan.graph = some g) :
    ∃ llm, plan = normalizePlan llm g ∧ Told llm g := by
  simp only [integrate] at h
  split_ifs at h with hnone
  · obtain rfl := Except.ok.inj h
    cases hgraph
  · generalize parseIntegratedPlan reply _ = llm at h
    cases scan with
    | none =>
      simp only at h
      cases hbuilt : planToGraph llm with
      | error message =>
        rw [hbuilt] at h
        cases h
      | ok g' =>
        rw [hbuilt] at h
        obtain rfl : normalizePlan llm g' = plan := Except.ok.inj h
        obtain rfl : g' = g := Option.some.inj hgraph
        exact ⟨llm, rfl, told_planToGraph hbuilt⟩
    | some service =>
      simp only at h
      cases hbuilt : buildPlanGraph
          (((summary.required ++ summary.maybe).filter fun r => decide (r.status ≠ "EXCLUDED")).map
            (·.repository)) (service.edgesIn _) llm
          (groundedEdgeKeys (summary.required ++ summary.maybe) _) with
      | error message =>
        rw [hbuilt] at h
        cases h
      | ok g' =>
        rw [hbuilt] at h
        obtain rfl : normalizePlan llm g' = plan := Except.ok.inj h
        obtain rfl : g' = g := Option.some.inj hgraph
        refine ⟨llm, rfl, told_of_nodup (nodes_of_validate hbuilt) ?_⟩
        rw [names_instruct]
        exact Keyed.nodup_foldl_insertNew List.nodup_nil

end Planning
end RepoMesh
