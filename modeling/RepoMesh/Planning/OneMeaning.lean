/-
# One graph, one meaning

Every reading of a plan-layer graph agrees: its batches are the earliest partition its confirmed
edges permit, the dependency graph service sorts the same edges alike, and a graph that was dumped or
persisted reads as the graph it was. Normalising a plan by it twice is normalising it once, unless
two nodes of one repository are told different things.
-/
import RepoMesh.Planning.DependencyGraph
import RepoMesh.Planning.Integration

namespace RepoMesh
namespace Planning

open Levels

/-- The repositories of a task DAG with what they depend on. -/
def dependencies (g : PlanGraph) : List (String × List String) :=
  g.taskDag.map fun view => (view.repository, view.dependsOn)

/-- Two graphs have the same edges, batches, contracts and dependencies. -/
structure SameGraph (g g' : PlanGraph) : Prop where
  edges : g'.edges = g.edges
  executionBatches : g'.executionBatches = g.executionBatches
  contracts : g'.contracts = g.contracts
  dependencies : dependencies g' = dependencies g

/-- **The purpose.** What the readers of a graph rely on. -/
structure OneMeaning (plan : IntegratedPlan) (g : PlanGraph) : Prop where
  /-- The batches are a partition of the node names. -/
  partition : g.executionBatches.flatten.Nodup ∧
    (∀ name, name ∈ g.executionBatches.flatten ↔ name ∈ nodeNames g.nodes) ∧
    [] ∉ g.executionBatches
  /-- A confirmed edge leads to a strictly later batch. -/
  ordered : ∀ e ∈ g.edges, e.status = .confirmed → ¬ Stuck (Confirmed g.edges) e.to_ →
    ∃ i j, i < j ∧ InBatch g.executionBatches i e.from_ ∧ InBatch g.executionBatches j e.to_
  /-- A repository stands in the earliest batch its confirmed producers permit. -/
  earliest : ∀ i r, InBatch g.executionBatches i r → ¬ Stuck (Confirmed g.edges) r →
    IsLeast {k | ∀ p, Confirmed g.edges p r → ∃ j < k, InBatch g.executionBatches j p} i
  /-- The task DAG lists exactly the confirmed producers. -/
  dependsOn : ∀ view ∈ g.taskDag, view.dependsOn.Nodup ∧
    ∀ p, p ∈ view.dependsOn ↔ Confirmed g.edges p view.repository
  /-- The service sorts the same confirmed edges into the same batches. -/
  service : ∀ (service : DependencyGraphService) (repos : List String),
    (∀ name, name ∈ repos ↔ name ∈ nodeNames g.nodes) → SameConfirmed service repos g.edges →
      (service.topologicalBatches repos).batches = g.executionBatches
  /-- A graph that is dumped and validated again is the same graph. -/
  revalidated : PlanGraph.validate g.toPlanGraphFields = .ok g
  /-- Normalising is idempotent. -/
  normalized : normalizePlan (normalizePlan plan g) g = normalizePlan plan g
  /-- The row that is written for a plan reads as the graph. -/
  persisted : ∀ (planVersion : ℤ) (hversion : 1 ≤ planVersion) (requirement : String),
    ∃ g', planGraphFromSnapshot planVersion hversion (materializeColumns plan g requirement) =
      .ok g' ∧ SameGraph g g'

/-! ## The batches -/

variable {plan : IntegratedPlan} {g : PlanGraph}

theorem executionBatches_levels (g : PlanGraph) :
    g.executionBatches = levels (confirmedProducers g.edges) (sortedSet (nodeNames g.nodes)).length []
      (sortedSet (nodeNames g.nodes)) := by
  rw [g.executionBatches_eq, projectBatches_eq g.edges_derived]

theorem stuck_confirmedProducers {edges : List GraphEdge} {r : String} :
    Stuck (fun p r => p ∈ confirmedProducers edges r) r ↔ Stuck (Confirmed edges) r := by
  have h : (fun p r => p ∈ confirmedProducers edges r) = Confirmed edges := by
    funext p r
    exact propext mem_confirmedProducers
  rw [h]

theorem closed_confirmedProducers (g : PlanGraph) :
    ∀ r ∈ sortedSet (nodeNames g.nodes), ∀ p ∈ confirmedProducers g.edges r,
      p ∈ sortedSet (nodeNames g.nodes) := by
  intro r _ p hp
  obtain ⟨e, he, -, rfl, -⟩ := mem_confirmedProducers.mp hp
  exact mem_sortedSet.mpr (g.edges_derived.covered e he).1

theorem partition_executionBatches (g : PlanGraph) :
    g.executionBatches.flatten.Nodup ∧
      (∀ name, name ∈ g.executionBatches.flatten ↔ name ∈ nodeNames g.nodes) ∧
      [] ∉ g.executionBatches := by
  rw [executionBatches_levels]
  refine (levels_partition (nodup_sortedSet (nodeNames g.nodes)) le_rfl).imp_right fun h => ?_
  exact ⟨fun name => by rw [h.1, mem_sortedSet], h.2⟩

theorem earliest_executionBatches (g : PlanGraph) {i : ℕ} {r : String}
    (hr : InBatch g.executionBatches i r) (hfree : ¬ Stuck (Confirmed g.edges) r) :
    IsLeast {k | ∀ p, Confirmed g.edges p r → ∃ j < k, InBatch g.executionBatches j p} i := by
  rw [executionBatches_levels] at hr ⊢
  rw [← stuck_confirmedProducers] at hfree
  have hleast := inBatch_isLeast le_rfl (closed_confirmedProducers g) hr hfree
  simpa only [mem_confirmedProducers] using hleast

theorem ordered_executionBatches (g : PlanGraph) {e : GraphEdge} (he : e ∈ g.edges)
    (hconfirmed : e.status = .confirmed) (hfree : ¬ Stuck (Confirmed g.edges) e.to_) :
    ∃ i j, i < j ∧ InBatch g.executionBatches i e.from_ ∧ InBatch g.executionBatches j e.to_ := by
  have hto : e.to_ ∈ g.executionBatches.flatten :=
    ((partition_executionBatches g).2.1 _).mpr (g.edges_derived.covered e he).2
  obtain ⟨j, hj⟩ := exists_inBatch.mpr hto
  obtain ⟨i, hij, hi⟩ := (earliest_executionBatches g hj hfree).1 e.from_
    ⟨e, he, hconfirmed, rfl, rfl⟩
  exact ⟨i, j, hij, hi, hj⟩

theorem topologicalBatches_eq (g : PlanGraph) (service : DependencyGraphService)
    {repos : List String} (hrepos : ∀ name, name ∈ repos ↔ name ∈ nodeNames g.nodes)
    (hsame : SameConfirmed service repos g.edges) :
    (service.topologicalBatches repos).batches = g.executionBatches := by
  rw [DependencyGraphService.topologicalBatches, DependencyGraphService.batches_topologicalFrom,
    executionBatches_levels, List.nil_append, sortedSet_congr hrepos]
  refine levels_congr fun r hr p => ?_
  rw [DependencyGraphService.mem_producers_relevant, mem_confirmedProducers]
  rw [mem_sortedSet, ← hrepos] at hr
  constructor
  · rintro ⟨hedge, hp, -⟩
    exact (hsame p hp r hr).mp hedge
  · intro hedge
    have hp : p ∈ repos := by
      obtain ⟨e, he, -, rfl, -⟩ := hedge
      exact (hrepos _).mpr (g.edges_derived.covered e he).1
    exact ⟨(hsame p hp r hr).mpr hedge, hp, hr⟩

theorem dependsOn_taskDag (g : PlanGraph) {view : TaskDagNodeView} (hview : view ∈ g.taskDag) :
    view.dependsOn.Nodup ∧ ∀ p, p ∈ view.dependsOn ↔ Confirmed g.edges p view.repository := by
  rw [g.taskDag_eq] at hview
  obtain ⟨node, -, rfl⟩ := List.mem_map.mp hview
  constructor
  · exact (List.perm_insertionSort _ _).nodup_iff.mpr
      (nodup_confirmedProducers g.edges_derived node.repository)
  · intro p
    rw [mem_sortedTexts, mem_confirmedProducers]

/-! ## Normalising twice -/

/-- The nodes of a repository, in their order. -/
def nodesOf (g : PlanGraph) (repository : String) : List GraphNode :=
  g.nodes.filter fun n => decide (n.repository = repository)

/-- The instruction a plan has for a repository. -/
def plannedInstruction (plan : IntegratedPlan) (repository : String) : Instruction :=
  ((taskOf plan.taskDag repository).map (·.instruction)).getD (.text "")

/-- Where the last node of a repository is told something else than the plan has for it, each of its
nodes is told something. -/
def Told (plan : IntegratedPlan) (g : PlanGraph) : Prop :=
  ∀ repository, ∀ last ∈ (nodesOf g repository).getLast?, ∀ instruction ∈ told last.instruction,
    .text instruction ≠ plannedInstruction plan repository →
      ∀ node ∈ nodesOf g repository, told node.instruction ≠ none

/-- The view of a node. -/
def viewOf (g : PlanGraph) (node : GraphNode) : TaskDagNodeView where
  repository := node.repository
  instruction := node.instruction
  dependsOn := sortedTexts (confirmedProducers g.edges node.repository)
  tests := node.tests

theorem filter_taskDag (g : PlanGraph) (repository : String) :
    g.taskDag.filter (fun view => decide (view.repository = repository)) =
      (nodesOf g repository).map (viewOf g) := by
  rw [g.taskDag_eq, projectTaskDag, nodesOf, ← filter_insertionSort, List.filter_map]
  rfl

theorem mem_taskDag {view : TaskDagNodeView} :
    view ∈ g.taskDag ↔ ∃ node ∈ g.nodes, viewOf g node = view := by
  rw [g.taskDag_eq, projectTaskDag, List.mem_map]
  simp only [List.mem_insertionSort]
  rfl

theorem instruction_normalizeTask (plan : IntegratedPlan) (view : TaskDagNodeView) :
    (normalizeTask plan.taskDag view).instruction =
      ((told view.instruction).map .text).getD (plannedInstruction plan view.repository) := by
  rw [normalizeTask]
  cases told view.instruction with
  | none => rfl
  | some instruction => rfl

theorem taskOf_map {f : TaskDagNodeView → TaskNode} (hf : ∀ view, (f view).repository = view.repository)
    (views : List TaskDagNodeView) (repository : String) :
    taskOf (views.map f) repository =
      (views.filter fun view => decide (view.repository = repository)).getLast?.map f := by
  simp only [taskOf, ← List.map_reverse, List.find?_map, Function.comp_def, hf]
  rw [← List.head?_filter, List.filter_reverse, List.head?_reverse]

theorem normalizeTask_normalized (plan : IntegratedPlan) (g : PlanGraph) {view last : TaskDagNodeView}
    (hlast : (g.taskDag.filter fun v => decide (v.repository = view.repository)).getLast? =
      some last) :
    normalizeTask (normalizePlan plan g).taskDag view = normalizeTask plan.taskDag view ↔
      (told view.instruction = none → ∀ instruction ∈ told last.instruction,
        .text instruction = plannedInstruction plan view.repository) := by
  have hrepo : last.repository = view.repository := by
    simpa using (List.mem_filter.mp (List.mem_of_getLast? hlast)).2
  have htask : taskOf (normalizePlan plan g).taskDag view.repository =
      some (normalizeTask plan.taskDag last) := by
    rw [normalizePlan, taskOf_map (fun _ => rfl), hlast, Option.map_some]
  have hplanned : plannedInstruction (normalizePlan plan g) view.repository =
      ((told last.instruction).map .text).getD (plannedInstruction plan view.repository) := by
    rw [plannedInstruction, htask, Option.map_some, Option.getD_some, instruction_normalizeTask, hrepo]
  have hsame : normalizeTask (normalizePlan plan g).taskDag view = normalizeTask plan.taskDag view ↔
      (normalizeTask (normalizePlan plan g).taskDag view).instruction =
        (normalizeTask plan.taskDag view).instruction := by
    constructor
    · exact fun h => congrArg TaskNode.instruction h
    · intro h
      rw [TaskNode.mk.injEq]
      refine ⟨rfl, h, rfl, ?_, ?_⟩
      · show ((taskOf (normalizePlan plan g).taskDag view.repository).map
          (·.parallelizableWith)).getD [] = _
        rw [htask, Option.map_some, Option.getD_some]
        simp only [normalizeTask, hrepo]
      · show ((taskOf (normalizePlan plan g).taskDag view.repository).map (·.tests)).getD [] = _
        rw [htask, Option.map_some, Option.getD_some]
        simp only [normalizeTask, hrepo]
  rw [hsame, instruction_normalizeTask, instruction_normalizeTask, hplanned]
  cases told view.instruction with
  | some instruction => simp
  | none =>
    cases told last.instruction with
    | none => simp
    | some instruction => simp

/-- **Normalising is idempotent** exactly where the nodes of a repository do not leave its last one to
say something new. -/
theorem normalizePlan_idem_iff (plan : IntegratedPlan) (g : PlanGraph) :
    normalizePlan (normalizePlan plan g) g = normalizePlan plan g ↔ Told plan g := by
  have htasks : normalizePlan (normalizePlan plan g) g = normalizePlan plan g ↔
      ∀ view ∈ g.taskDag, normalizeTask (normalizePlan plan g).taskDag view =
        normalizeTask plan.taskDag view := by
    rw [← List.map_inj_left]
    constructor
    · exact fun h => congrArg IntegratedPlan.taskDag h
    · intro h
      rw [IntegratedPlan.mk.injEq]
      exact ⟨rfl, rfl, h, rfl, rfl⟩
  have hview : (∀ view ∈ g.taskDag, normalizeTask (normalizePlan plan g).taskDag view =
      normalizeTask plan.taskDag view) ↔ ∀ node ∈ g.nodes,
        ∀ last ∈ (nodesOf g node.repository).getLast?, told node.instruction = none →
          ∀ instruction ∈ told last.instruction,
            .text instruction = plannedInstruction plan node.repository := by
    constructor
    · intro h node hnode last hlast
      have hfound : (g.taskDag.filter fun v =>
          decide (v.repository = (viewOf g node).repository)).getLast? = some (viewOf g last) := by
        rw [filter_taskDag, List.getLast?_map]
        exact congrArg _ hlast
      exact (normalizeTask_normalized plan g hfound).mp (h _ (mem_taskDag.mpr ⟨node, hnode, rfl⟩))
    · rintro h view hview
      obtain ⟨node, hnode, rfl⟩ := mem_taskDag.mp hview
      have hne : nodesOf g node.repository ≠ [] :=
        List.ne_nil_of_mem (List.mem_filter.mpr ⟨hnode, by simp⟩)
      have hlast := List.getLast?_eq_some_getLast hne
      have hfound : (g.taskDag.filter fun v =>
          decide (v.repository = (viewOf g node).repository)).getLast? =
            some (viewOf g ((nodesOf g node.repository).getLast hne)) := by
        rw [filter_taskDag, List.getLast?_map]
        exact congrArg _ hlast
      exact (normalizeTask_normalized plan g hfound).mpr (h node hnode _ hlast)
  rw [htasks, hview]
  constructor
  · intro h repository last hlast instruction hinstruction hother node hnode hnone
    obtain ⟨hmem, hrepo⟩ : node ∈ g.nodes ∧ node.repository = repository := by
      simpa [nodesOf] using hnode
    subst hrepo
    exact hother (h node hmem last hlast hnone instruction hinstruction)
  · intro h node hnode last hlast hnone instruction hinstruction
    by_contra hother
    exact h _ last hlast instruction hinstruction hother node (by simp [nodesOf, hnode]) hnone

/-! ## Persisting -/

theorem batches_of_no_edges (g : PlanGraph) (hedges : g.edges = []) :
    g.executionBatches.tail = [] := by
  rw [executionBatches_levels, hedges]
  exact levels_free fun r _ => rfl

theorem planEdges_of_no_edges (plan : IntegratedPlan) (g : PlanGraph) (requirement : String)
    (hedges : g.edges = []) :
    planEdges (legacyPlan (materializeColumns plan g requirement)) = [] := by
  have hcontracts : g.contracts = [] := by
    rw [g.contracts_eq, hedges]
    rfl
  have hdeps : ∀ view ∈ g.taskDag, view.dependsOn = [] := by
    intro view hview
    obtain ⟨node, -, rfl⟩ := mem_taskDag.mp hview
    simp [viewOf, hedges, confirmedProducers, confirmedEdges, sortedTexts]
  have htasks : ((normalizePlan plan g).taskDag.flatMap dependencyEdges) = [] := by
    rw [List.flatMap_eq_nil_iff]
    intro task htask
    obtain ⟨view, hview, rfl⟩ := List.mem_map.mp htask
    simp [dependencyEdges, normalizeTask, hdeps view hview]
  have hbatches : (normalizePlan plan g).executionBatches.tail = [] := by
    rw [normalizePlan, ← g.executionBatches_eq]
    exact batches_of_no_edges g hedges
  simp only [planEdges, factEdges, legacyPlan, materializeColumns, tmOrderEdges, htasks, hbatches]
  simp [normalizePlan, hcontracts]

theorem nodeNames_materializeColumns (plan : IntegratedPlan) (g : PlanGraph) (requirement : String) :
    nodeNames ((materializeColumns plan g requirement).taskDag.map taskNode) =
      sortedTexts (nodeNames g.nodes) := by
  rw [← @repositories_projectTaskDag g.nodes g.edges, ← g.taskDag_eq]
  simp only [nodeNames, materializeColumns, normalizePlan, List.map_map]
  rfl

theorem sameGraph_of_edges {g g' : PlanGraph} (hedges : g'.edges = g.edges)
    (hnodes : nodeNames g'.nodes = sortedTexts (nodeNames g.nodes)) : SameGraph g g' where
  edges := hedges
  executionBatches := by
    rw [g.executionBatches_eq, g'.executionBatches_eq, hedges]
    exact projectBatches_congr fun name => by rw [hnodes, mem_sortedTexts]
  contracts := by rw [g.contracts_eq, g'.contracts_eq, hedges]
  dependencies := by
    have hsorted : sortedTexts (sortedTexts (nodeNames g.nodes)) = sortedTexts (nodeNames g.nodes) :=
      sortedTexts_eq_of_perm (List.perm_insertionSort _ _)
    rw [dependencies, dependencies, g.taskDag_eq, g'.taskDag_eq, dependencies_projectTaskDag,
      dependencies_projectTaskDag, hedges, hnodes, hsorted]

/-- **The row reads as the graph** it was written for. -/
theorem planGraphFromSnapshot_materializeColumns (plan : IntegratedPlan) (g : PlanGraph)
    (planVersion : ℤ) (hversion : 1 ≤ planVersion) (requirement : String) :
    ∃ g', planGraphFromSnapshot planVersion hversion (materializeColumns plan g requirement) =
      .ok g' ∧ SameGraph g g' := by
  have hnodes := nodeNames_materializeColumns plan g requirement
  have hderived : Derived
      (nodeNames ((materializeColumns plan g requirement).taskDag.map taskNode)) g.edges := by
    refine ⟨g.edges_derived.loopless, fun e he => ?_, g.edges_derived.keys_nodup⟩
    rw [hnodes, mem_sortedTexts, mem_sortedTexts]
    exact g.edges_derived.covered e he
  by_cases hedges : g.edges = []
  · have hnone : Derived
        (nodeNames ((materializeColumns plan g requirement).taskDag.map taskNode)) [] := by
      rwa [hedges] at hderived
    have hread : planGraphFromSnapshot planVersion hversion (materializeColumns plan g requirement) =
        .ok ((PlanGraph.ofDerived 1 _ [] le_rfl hnone).withVersion planVersion hversion) := by
      rw [planGraphFromSnapshot, if_pos (show (materializeColumns plan g requirement).graphEdges = []
        from hedges), planToGraph, planEdges_of_no_edges plan g requirement hedges]
      exact congrArg _ (PlanGraph.validate_of_derived _ le_rfl hnone)
    exact ⟨_, hread, sameGraph_of_edges hedges.symm hnodes⟩
  · have hread : planGraphFromSnapshot planVersion hversion (materializeColumns plan g requirement) =
        .ok (PlanGraph.ofDerived planVersion _ g.edges hversion hderived) := by
      rw [planGraphFromSnapshot, if_neg (show (materializeColumns plan g requirement).graphEdges ≠ []
        from hedges)]
      exact PlanGraph.validate_of_derived _ hversion hderived
    exact ⟨_, hread, sameGraph_of_edges rfl hnodes⟩

/-! ## The whole meaning -/

/-- **One graph, one meaning.** Any nodes and edges build a graph, and its readings agree exactly
where normalising a plan by it twice is normalising it once: where no repository's last node says
something new that another of its nodes leaves open. -/
theorem oneMeaning_iff (fields : PlanGraphFields) (hversion : 1 ≤ fields.planVersion)
    (plan : IntegratedPlan) :
    ∃ g, PlanGraph.validate fields = .ok g ∧ (OneMeaning plan g ↔ Told plan g) := by
  obtain ⟨g, hg⟩ := PlanGraph.validate_ok fields hversion
  refine ⟨g, hg, fun h => (normalizePlan_idem_iff plan g).mp h.normalized, fun h => ?_⟩
  exact
    { partition := partition_executionBatches g
      ordered := fun e he hconfirmed hfree => ordered_executionBatches g he hconfirmed hfree
      earliest := fun i r hr hfree => earliest_executionBatches g hr hfree
      dependsOn := fun view hview => dependsOn_taskDag g hview
      service := fun service repos hrepos hsame => topologicalBatches_eq g service hrepos hsame
      revalidated := g.validate_dump
      normalized := (normalizePlan_idem_iff plan g).mpr h
      persisted := planGraphFromSnapshot_materializeColumns plan g }

/-! ## Two nodes of one repository -/

/-- Two nodes of one repository, of which only the last is told what to do. -/
def twiceListed : PlanGraphFields where
  planVersion := 1
  nodes :=
    [{ repository := "api" }, { repository := "api", instruction := some "Rename the field." }]

theorem derived_twiceListed : Derived (nodeNames twiceListed.nodes) twiceListed.edges :=
  ⟨by simp [twiceListed], by simp [twiceListed], by simp [twiceListed]⟩

/-- A plan that has nothing for it. -/
def silentPlan : IntegratedPlan where
  engineeringSpec := "Rename a field."
  contracts := []
  taskDag := []
  executionBatches := []

/-- The instructions a plan is normalised to, once and twice. -/
def instructions (plan : IntegratedPlan) : List String := plan.taskDag.map (·.instruction.str)

/-- Of two nodes of one repository the first is told nothing when the plan is normalised once, and
what the last was told when it is normalised again. -/
theorem twiceListed_not_oneMeaning :
    ∃ g, PlanGraph.validate twiceListed = .ok g ∧
      instructions (normalizePlan silentPlan g) = ["", "Rename the field."] ∧
      instructions (normalizePlan (normalizePlan silentPlan g) g) =
        ["Rename the field.", "Rename the field."] ∧
      ¬ OneMeaning silentPlan g := by
  have hvalid := PlanGraph.validate_of_derived twiceListed le_rfl derived_twiceListed
  refine ⟨_, hvalid, by decide +kernel, by decide +kernel, fun h => ?_⟩
  have hsame := congrArg instructions h.normalized
  revert hsame
  decide +kernel

/-- A graph with an edge listed twice and a self-loop, and a plan for it. -/
def sampleFields : PlanGraphFields where
  planVersion := 1
  nodes := [{ repository := "web", instruction := some "Show the name." }]
  edges :=
    [{ from_ := "api", to_ := "web", status := .confirmed },
      { from_ := "api", to_ := "web" }, { from_ := "web", to_ := "web", status := .confirmed }]

theorem oneMeaning_iff_sample :
    1 ≤ sampleFields.planVersion ∧ ∃ g, PlanGraph.validate sampleFields = .ok g ∧
      (OneMeaning silentPlan g ↔ Told silentPlan g) :=
  ⟨by decide, oneMeaning_iff sampleFields (by decide) silentPlan⟩

end Planning
end RepoMesh
