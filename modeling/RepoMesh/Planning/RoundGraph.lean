/-
# The graph of a console round

The graph that was integrated is not kept: the columns of the draft hold its projections, and the
round rebuilds a graph from them. The facts come back, and with them one edge from each repository
of a batch to each of the next, so the round has the graph that was integrated exactly where those
edges were facts already.
-/
import RepoMesh.Planning.PlanIntegration

namespace RepoMesh
namespace Planning

open Levels

/-- `_plan_from_snapshot`: rebuild the integrated plan from the columns step 3 wrote. -/
def planFromSnapshot (columns : PlanColumns) : IntegratedPlan where
  engineeringSpec := columns.engineeringSpec
  contracts := columns.contracts
  taskDag := columns.taskDag.map fun task =>
    { task with instruction := .text task.instruction.str }
  executionBatches := columns.executionBatches

/-- The columns `run_plan` writes: the products of integration, and not the graph. -/
def runPlanColumns (draft : PlanColumns) (plan : IntegratedPlan) : PlanColumns :=
  { draft with
    engineeringSpec := plan.engineeringSpec
    contracts := plan.contracts
    taskDag := plan.taskDag
    executionBatches := plan.executionBatches }

/-- **The purpose.** The round that starts a plan from its columns uses and persists the confirmed
edges of the graph that was integrated, and writes the task DAG, contracts and batches back as they
were. -/
def RoundKept (draft : PlanColumns) (requirement : String) (plan : IntegratedPlan) (g : PlanGraph) :
    Prop :=
  ∃ g', planToGraph (planFromSnapshot (runPlanColumns draft plan)) = .ok g' ∧
    let written := materializeColumns (planFromSnapshot (runPlanColumns draft plan)) g' requirement
    (∀ producer consumer, Confirmed written.graphEdges producer consumer →
        Confirmed g.edges producer consumer) ∧
      (∀ producer consumer, Confirmed g.edges producer consumer →
        Confirmed written.graphEdges producer consumer) ∧
      written.taskDag = (runPlanColumns draft plan).taskDag ∧
      written.contracts = (runPlanColumns draft plan).contracts ∧
      written.executionBatches = (runPlanColumns draft plan).executionBatches

/-- A repository stands in the batch after another's. -/
def Follows (g : PlanGraph) (producer consumer : String) : Prop :=
  ∃ i, InBatch g.executionBatches i producer ∧ InBatch g.executionBatches (i + 1) consumer

/-- Each repository of a batch depends on each of the batch before. -/
def Layered (g : PlanGraph) : Prop :=
  ∀ producer consumer, Follows g producer consumer → Confirmed g.edges producer consumer

/-- Each instruction is a text. -/
def Worded (plan : IntegratedPlan) : Prop := ∀ task ∈ plan.taskDag, ∃ s, task.instruction = .text s

/-! ## Edges that are merged -/

/-- A contract's words for the edge of its pair. -/
def upgrade (edge : GraphEdge) (contract : ContractSpec) : GraphEdge :=
  if edge.key = (contract.producer, contract.consumer) then
    { edge with
      interface := orElse (some contract.interface) edge.interface
      agreement := orElse (some contract.agreement) edge.agreement }
  else edge

@[simp] theorem key_upgrade (edge : GraphEdge) (contract : ContractSpec) :
    (upgrade edge contract).key = edge.key := by
  unfold upgrade
  split_ifs
  · rfl
  · rfl

@[simp] theorem key_foldl_upgrade (edge : GraphEdge) (contracts : List ContractSpec) :
    (contracts.foldl upgrade edge).key = edge.key := by
  induction contracts generalizing edge with
  | nil => rfl
  | cons contract contracts ih => rw [List.foldl_cons, ih, key_upgrade]

theorem foldl_addContract {edges : List GraphEdge} {contracts : List ContractSpec}
    (h : ∀ c ∈ contracts, (c.producer, c.consumer) ∈ edges.map GraphEdge.key) :
    contracts.foldl addContract edges = edges.map fun e => contracts.foldl upgrade e := by
  induction contracts generalizing edges with
  | nil => simp
  | cons contract contracts ih =>
    have hstep : addContract edges contract = edges.map fun e => upgrade e contract := by
      rw [addContract, if_pos (h contract List.mem_cons_self)]
      rfl
    have hkeys : (edges.map fun e => upgrade e contract).map GraphEdge.key =
        edges.map GraphEdge.key := by
      rw [List.map_map]
      exact List.map_congr_left fun e _ => key_upgrade e contract
    rw [List.foldl_cons, hstep, ih fun c hc => by
      rw [hkeys]; exact h c (List.mem_cons_of_mem _ hc), List.map_map]
    rfl

theorem foldl_upgrade_of_notMem {contracts : List ContractSpec} {e : GraphEdge}
    (h : ∀ c ∈ contracts, e.key ≠ (c.producer, c.consumer)) : contracts.foldl upgrade e = e := by
  induction contracts with
  | nil => rfl
  | cons contract contracts ih =>
    have hother : upgrade e contract = e := if_neg (h contract List.mem_cons_self)
    rw [List.foldl_cons, hother, ih fun c hc => h c (List.mem_cons_of_mem _ hc)]

theorem foldl_upgrade {contracts : List ContractSpec} {e : GraphEdge}
    (hnodup : (contracts.map fun c => (c.producer, c.consumer)).Nodup) {c : ContractSpec}
    (hc : c ∈ contracts) (hkey : e.key = (c.producer, c.consumer)) :
    contracts.foldl upgrade e = upgrade e c := by
  induction contracts generalizing e with
  | nil => simp at hc
  | cons contract contracts ih =>
    rw [List.map_cons, List.nodup_cons] at hnodup
    rw [List.foldl_cons]
    rcases List.mem_cons.mp hc with rfl | hc
    · -- The others are of other pairs.
      refine foldl_upgrade_of_notMem fun c' hc' hsame => hnodup.1 ?_
      rw [key_upgrade, hkey] at hsame
      exact hsame ▸ List.mem_map_of_mem hc'
    · have hother : upgrade e contract = e := by
        refine if_neg fun hsame => hnodup.1 ?_
        rw [← hsame, hkey]
        exact List.mem_map_of_mem hc
      rw [hother]
      exact ih hnodup.2 hc hkey

theorem foldl_addOrder {edges orders : List GraphEdge}
    (h : ∀ o ∈ orders, (o.to_, o.from_) ∉ edges.map GraphEdge.key ∧
      (o.to_, o.from_) ∉ orders.map GraphEdge.key) :
    orders.foldl addOrder edges = orders.foldl (Keyed.insertNew GraphEdge.key) edges := by
  have hgeneral : ∀ rest : List GraphEdge, (∀ o ∈ rest, o ∈ orders) → ∀ edges,
      (∀ o ∈ orders, (o.to_, o.from_) ∉ edges.map GraphEdge.key) →
        rest.foldl addOrder edges = rest.foldl (Keyed.insertNew GraphEdge.key) edges := by
    intro rest
    induction rest with
    | nil => intros; rfl
    | cons o rest ih =>
      intro hrest edges hfree
      have ho := hrest o List.mem_cons_self
      have hstep : addOrder edges o = Keyed.insertNew GraphEdge.key edges o := by
        by_cases hkey : o.key ∈ edges.map GraphEdge.key
        · simp [addOrder, Keyed.insertNew, hkey]
        · rw [addOrder, Keyed.insertNew, if_neg hkey, if_neg fun h => h.elim hkey (hfree o ho)]
      rw [List.foldl_cons, List.foldl_cons, hstep]
      refine ih (fun o' ho' => hrest o' (List.mem_cons_of_mem _ ho')) _ fun o' ho' hmem => ?_
      obtain ⟨e, he, hkey⟩ := List.mem_map.mp hmem
      rcases Keyed.mem_insertNew he with hold | rfl
      · exact hfree o' ho' (hkey ▸ List.mem_map_of_mem hold)
      · exact (h o' ho').2 (hkey ▸ List.mem_map_of_mem ho)
  exact hgeneral orders (fun _ ho => ho) edges fun o ho => (h o ho).1

theorem mem_tmOrderEdges {batches : List (List String)} {names : List String} {e : GraphEdge} :
    e ∈ tmOrderEdges batches names ↔ ∃ i a b, InBatch batches i a ∧ InBatch batches (i + 1) b ∧
      ¬ (a = b ∨ a ∉ names ∨ b ∉ names) ∧
        { from_ := a, to_ := b, status := .confirmed, source := .tm } = e := by
  have hzip : ∀ pair : List String × List String, pair ∈ batches.zip batches.tail ↔
      ∃ i, batches[i]? = some pair.1 ∧ batches[i + 1]? = some pair.2 := by
    intro pair
    rw [List.mem_iff_getElem?]
    refine exists_congr fun i => ?_
    rw [List.getElem?_zip_eq_some, List.getElem?_tail]
  simp only [tmOrderEdges, orderEdges, List.mem_flatMap, List.mem_filterMap, hzip]
  constructor
  · rintro ⟨pair, ⟨i, hfirst, hsecond⟩, a, ha, b, hb, he⟩
    split_ifs at he with hskip
    exact ⟨i, a, b, ⟨_, hfirst, ha⟩, ⟨_, hsecond, hb⟩, hskip, Option.some.inj he⟩
  · rintro ⟨i, a, b, ⟨first, hfirst, ha⟩, ⟨second, hsecond, hb⟩, hskip, he⟩
    exact ⟨(first, second), ⟨i, hfirst, hsecond⟩, a, ha, b, hb, by rw [if_neg hskip, he]⟩

theorem mem_projectContracts {edges : List GraphEdge} {view : ContractEdgeView} :
    view ∈ projectContracts edges ↔ ∃ e ∈ edges, e.status = .confirmed ∧
      ∃ i ∈ told e.interface, ⟨e.from_, e.to_, i, e.agreement⟩ = view := by
  simp only [projectContracts, List.mem_filterMap, List.mem_insertionSort]
  refine exists_congr fun e => and_congr_right fun _ => ?_
  cases hstatus : e.status with
  | candidate => simp
  | confirmed =>
    simp only [told, true_and]
    cases e.interface.filter (fun x => decide (x ≠ "")) with
    | none => simp
    | some i => simp

/-! ## The edges that come back -/

section Rebuilt

variable (draft : PlanColumns) (llm : IntegratedPlan) (g : PlanGraph)

/-- The plan a round reads from its columns. -/
def stored : IntegratedPlan := planFromSnapshot (runPlanColumns draft (normalizePlan llm g))

/-- A task that is read back. -/
def readTask (view : TaskDagNodeView) : TaskNode :=
  { normalizeTask llm.taskDag view with
    instruction := .text (normalizeTask llm.taskDag view).instruction.str }

theorem taskDag_stored : (stored draft llm g).taskDag = g.taskDag.map (readTask llm) := by
  simp only [stored, planFromSnapshot, runPlanColumns, normalizePlan, List.map_map]
  rfl

theorem repositories_stored :
    (stored draft llm g).taskDag.map (·.repository) = sortedTexts (nodeNames g.nodes) := by
  rw [taskDag_stored, List.map_map, ← @repositories_projectTaskDag g.nodes g.edges, ← g.taskDag_eq]
  rfl

theorem mem_dependencies_stored {e : GraphEdge} :
    e ∈ (stored draft llm g).taskDag.flatMap dependencyEdges ↔
      ∃ a b, Confirmed g.edges a b ∧
        { from_ := a, to_ := b, status := .confirmed, source := .llm } = e := by
  simp only [taskDag_stored, List.mem_flatMap, List.mem_map, dependencyEdges]
  constructor
  · rintro ⟨task, ⟨view, hview, rfl⟩, a, ha, rfl⟩
    exact ⟨a, view.repository, ((dependsOn_taskDag g hview).2 a).mp ha, rfl⟩
  · rintro ⟨a, b, hedge, rfl⟩
    obtain ⟨e, he, -, -, rfl⟩ := id hedge
    obtain ⟨node, hnode, hname⟩ := List.mem_map.mp (g.edges_derived.covered e he).2
    have hview : viewOf g node ∈ g.taskDag := mem_taskDag.mpr ⟨node, hnode, rfl⟩
    have hname' : (viewOf g node).repository = e.to_ := hname
    refine ⟨_, ⟨viewOf g node, hview, rfl⟩, a, ?_, ?_⟩
    · exact ((dependsOn_taskDag g hview).2 a).mpr (hname' ▸ hedge)
    · exact congrArg (fun b => ({ from_ := a, to_ := b, status := .confirmed, source := .llm } :
        GraphEdge)) hname'

/-- The edges of the dependencies that are read back. -/
def dependencyFacts : List GraphEdge :=
  ((stored draft llm g).taskDag.flatMap dependencyEdges).foldl setDefault []

theorem nodup_dependencyFacts : ((dependencyFacts draft llm g).map GraphEdge.key).Nodup :=
  Keyed.nodup_foldl_insertNew List.nodup_nil

theorem key_mem_dependencyFacts {a b : String} :
    (a, b) ∈ (dependencyFacts draft llm g).map GraphEdge.key ↔ Confirmed g.edges a b := by
  have hkeys : (a, b) ∈ (dependencyFacts draft llm g).map GraphEdge.key ↔ (a, b) ∈
      ((stored draft llm g).taskDag.flatMap dependencyEdges).map GraphEdge.key :=
    Keyed.mem_keys_foldl_insertNew.trans (or_iff_right List.not_mem_nil)
  rw [hkeys, List.mem_map]
  simp only [mem_dependencies_stored]
  constructor
  · rintro ⟨e, ⟨a', b', hedge, rfl⟩, hkey⟩
    obtain ⟨rfl, rfl⟩ := Prod.mk.injEq .. ▸ hkey
    exact hedge
  · exact fun hedge => ⟨_, ⟨a, b, hedge, rfl⟩, rfl⟩

theorem mem_dependencyFacts {e : GraphEdge} (he : e ∈ dependencyFacts draft llm g) :
    ∃ a b, Confirmed g.edges a b ∧
      { from_ := a, to_ := b, status := .confirmed, source := .llm } = e := by
  refine (mem_dependencies_stored draft llm g).mp ?_
  exact (Keyed.mem_foldl_insertNew he).resolve_left List.not_mem_nil

theorem factEdges_stored :
    factEdges (stored draft llm g) = (dependencyFacts draft llm g).map fun e =>
      (stored draft llm g).contracts.foldl upgrade e := by
  refine foldl_addContract fun c hc => ?_
  obtain ⟨view, hview, rfl⟩ := List.mem_map.mp hc
  rw [g.contracts_eq, mem_projectContracts] at hview
  obtain ⟨e, he, hconfirmed, i, -, rfl⟩ := hview
  exact (key_mem_dependencyFacts draft llm g).mpr ⟨e, he, hconfirmed, rfl, rfl⟩

theorem keys_factEdges :
    (factEdges (stored draft llm g)).map GraphEdge.key =
      (dependencyFacts draft llm g).map GraphEdge.key := by
  rw [factEdges_stored, List.map_map]
  exact List.map_congr_left fun e _ => key_foldl_upgrade e _

theorem key_mem_factEdges {a b : String} :
    (a, b) ∈ (factEdges (stored draft llm g)).map GraphEdge.key ↔ Confirmed g.edges a b := by
  rw [keys_factEdges, key_mem_dependencyFacts]

/-- The order edges of the stored plan. -/
def orders : List GraphEdge :=
  tmOrderEdges (stored draft llm g).executionBatches
    ((stored draft llm g).taskDag.map (·.repository))

theorem mem_orders {e : GraphEdge} :
    e ∈ orders draft llm g ↔ ∃ a b, Follows g a b ∧
      { from_ := a, to_ := b, status := .confirmed, source := .tm } = e := by
  obtain ⟨hnodup, hmem, -⟩ := partition_executionBatches g
  have hbatches : (stored draft llm g).executionBatches = g.executionBatches :=
    g.executionBatches_eq.symm
  rw [orders, mem_tmOrderEdges, hbatches, repositories_stored]
  constructor
  · rintro ⟨i, a, b, ha, hb, -, he⟩
    exact ⟨a, b, ⟨i, ha, hb⟩, he⟩
  · rintro ⟨a, b, ⟨i, ha, hb⟩, he⟩
    refine ⟨i, a, b, ha, hb, ?_, he⟩
    simp only [mem_sortedTexts, not_or, not_not, ← hmem]
    refine ⟨?_, exists_inBatch.mp ⟨i, ha⟩, exists_inBatch.mp ⟨i + 1, hb⟩⟩
    rintro rfl
    have hsame := ha.unique hnodup hb
    omega

/-- **No fact goes against the order of the batches.** -/
theorem not_confirmed_of_follows {g : PlanGraph} {a b : String} (h : Follows g a b) :
    ¬ Confirmed g.edges b a := by
  obtain ⟨i, ha, hb⟩ := h
  intro hedge
  have hnodup := (partition_executionBatches g).1
  have hlast : i + 1 < g.executionBatches.length := by
    obtain ⟨batch, hbatch, -⟩ := hb
    exact (List.getElem?_eq_some_iff.mp hbatch).1
  rw [executionBatches_levels] at ha hb hlast hnodup
  have hp : b ∈ confirmedProducers g.edges a := mem_confirmedProducers.mpr hedge
  rcases inBatch_before_of_lt le_rfl ha hlast hp with hplaced | ⟨j, hj, hin⟩
  · exact List.not_mem_nil hplaced
  · have hsame := hin.unique hnodup hb
    omega

theorem not_follows_of_follows {g : PlanGraph} {a b : String} (h : Follows g a b) :
    ¬ Follows g b a := by
  obtain ⟨i, ha, hb⟩ := h
  rintro ⟨j, hb', ha'⟩
  have hnodup := (partition_executionBatches g).1
  have hi := hb.unique hnodup hb'
  have hj := ha.unique hnodup ha'
  omega

theorem planEdges_stored :
    planEdges (stored draft llm g) =
      (orders draft llm g).foldl (Keyed.insertNew GraphEdge.key) (factEdges (stored draft llm g)) := by
  refine foldl_addOrder fun o ho => ?_
  obtain ⟨a, b, hfollows, rfl⟩ := (mem_orders draft llm g).mp ho
  constructor
  · rw [key_mem_factEdges]
    exact not_confirmed_of_follows hfollows
  · intro hmem
    obtain ⟨o', ho', hkey⟩ := List.mem_map.mp hmem
    obtain ⟨a', b', hfollows', rfl⟩ := (mem_orders draft llm g).mp ho'
    obtain ⟨rfl, rfl⟩ := Prod.mk.injEq .. ▸ hkey
    exact not_follows_of_follows hfollows hfollows'

theorem key_mem_planEdges {a b : String} :
    (a, b) ∈ (planEdges (stored draft llm g)).map GraphEdge.key ↔
      Confirmed g.edges a b ∨ Follows g a b := by
  rw [planEdges_stored, Keyed.mem_keys_foldl_insertNew, key_mem_factEdges, List.mem_map]
  refine or_congr_right ?_
  simp only [mem_orders]
  constructor
  · rintro ⟨e, ⟨a', b', hfollows, rfl⟩, hkey⟩
    obtain ⟨rfl, rfl⟩ := Prod.mk.injEq .. ▸ hkey
    exact hfollows
  · exact fun hfollows => ⟨_, ⟨a, b, hfollows, rfl⟩, rfl⟩

theorem confirmed_planEdges : ∀ e ∈ planEdges (stored draft llm g), e.status = .confirmed := by
  have hupgrade : ∀ (contracts : List ContractSpec) (e : GraphEdge),
      (contracts.foldl upgrade e).status = e.status := by
    intro contracts
    induction contracts with
    | nil => intro e; rfl
    | cons c contracts ih =>
      intro e
      rw [List.foldl_cons, ih]
      unfold upgrade
      split_ifs
      · rfl
      · rfl
  intro e he
  rw [planEdges_stored] at he
  rcases Keyed.mem_foldl_insertNew he with hfact | horder
  · rw [factEdges_stored] at hfact
    obtain ⟨e', he', rfl⟩ := List.mem_map.mp hfact
    obtain ⟨a, b, -, rfl⟩ := mem_dependencyFacts draft llm g he'
    exact hupgrade _ _
  · obtain ⟨a, b, -, rfl⟩ := (mem_orders draft llm g).mp horder
    rfl

theorem confirmed_planEdges_iff {a b : String} :
    Confirmed (planEdges (stored draft llm g)) a b ↔ Confirmed g.edges a b ∨ Follows g a b := by
  rw [← key_mem_planEdges draft llm g, List.mem_map]
  constructor
  · rintro ⟨e, he, -, rfl, rfl⟩
    exact ⟨e, he, rfl⟩
  · rintro ⟨e, he, hkey⟩
    obtain ⟨rfl, rfl⟩ := Prod.mk.injEq .. ▸ hkey
    exact ⟨e, he, confirmed_planEdges draft llm g e he, rfl, rfl⟩

theorem derived_planEdges :
    Derived (nodeNames ((stored draft llm g).taskDag.map taskNode))
      (planEdges (stored draft llm g)) := by
  have hnames : nodeNames ((stored draft llm g).taskDag.map taskNode) =
      sortedTexts (nodeNames g.nodes) := by
    rw [← repositories_stored draft llm g]
    simp [nodeNames, taskNode, Function.comp_def]
  have hpair : ∀ e ∈ planEdges (stored draft llm g),
      Confirmed g.edges e.from_ e.to_ ∨ Follows g e.from_ e.to_ := fun e he =>
    (key_mem_planEdges draft llm g).mp (List.mem_map_of_mem he)
  obtain ⟨hnodup, hmem, -⟩ := partition_executionBatches g
  refine ⟨fun e he hself => ?_, fun e he => ?_, ?_⟩
  · rcases hpair e he with ⟨e', he', -, hfrom, hto⟩ | ⟨i, hi, hj⟩
    · exact g.edges_derived.loopless e' he' (hfrom.trans (hself.trans hto.symm))
    · rw [hself] at hi
      have hsame := hi.unique hnodup hj
      omega
  · rw [hnames, mem_sortedTexts, mem_sortedTexts]
    rcases hpair e he with ⟨e', he', -, hfrom, hto⟩ | ⟨i, hi, hj⟩
    · rw [← hfrom, ← hto]
      exact g.edges_derived.covered e' he'
    · rw [← hmem, ← hmem]
      exact ⟨exists_inBatch.mp ⟨i, hi⟩, exists_inBatch.mp ⟨i + 1, hj⟩⟩
  · rw [planEdges_stored]
    refine Keyed.nodup_foldl_insertNew ?_
    rw [keys_factEdges]
    exact nodup_dependencyFacts draft llm g

/-- The graph that is rebuilt. -/
def rebuilt : PlanGraph :=
  PlanGraph.ofDerived 1 ((stored draft llm g).taskDag.map taskNode) (planEdges (stored draft llm g))
    first_version (derived_planEdges draft llm g)

theorem planToGraph_stored : planToGraph (stored draft llm g) = .ok (rebuilt draft llm g) :=
  PlanGraph.validate_of_derived _ le_rfl (derived_planEdges draft llm g)

/-- **The batches come back.** Edges between consecutive batches move no repository. -/
theorem executionBatches_rebuilt : (rebuilt draft llm g).executionBatches = g.executionBatches := by
  have hnames : sortedSet (nodeNames (rebuilt draft llm g).nodes) = sortedSet (nodeNames g.nodes) := by
    refine sortedSet_congr fun name => ?_
    have hsame : nodeNames (rebuilt draft llm g).nodes = sortedTexts (nodeNames g.nodes) := by
      rw [← repositories_stored draft llm g]
      simp [rebuilt, PlanGraph.ofDerived, nodeNames, taskNode, Function.comp_def]
    rw [hsame, mem_sortedTexts]
  rw [executionBatches_levels (rebuilt draft llm g), hnames, executionBatches_levels g]
  refine levels_eq_of_before le_rfl (nodup_sortedSet _) (fun r p hp => ?_) fun r _ p hp => ?_
  · rw [mem_confirmedProducers] at hp ⊢
    exact (confirmed_planEdges_iff draft llm g).mpr (Or.inl hp)
  · rw [mem_confirmedProducers] at hp
    rcases (confirmed_planEdges_iff draft llm g).mp hp with hedge | ⟨i, hi, hj⟩
    · exact Or.inl (mem_confirmedProducers.mpr hedge)
    · rw [executionBatches_levels] at hi hj
      exact Or.inr (Or.inr ⟨i, i + 1, Nat.lt_succ_self i, hi, hj⟩)

theorem nodup_contracts_stored :
    ((stored draft llm g).contracts.map fun c => (c.producer, c.consumer)).Nodup := by
  have hsorted := pairwise_projectContracts g.edges_derived.keys_nodup
  rw [← g.contracts_eq] at hsorted
  have hpairs : (stored draft llm g).contracts.map (fun c => (c.producer, c.consumer)) =
      g.contracts.map ContractEdgeView.pair := by
    simp only [stored, planFromSnapshot, runPlanColumns, normalizePlan, List.map_map]
    rfl
  rw [hpairs]
  refine List.pairwise_map.mpr (hsorted.imp ?_)
  intro v w hlt heq
  rw [heq] at hlt
  exact lt_irrefl _ hlt

theorem contractOf_upgrade {a b : String} {source : EdgeSource} {c : ContractSpec}
    (hc : c ∈ (stored draft llm g).contracts) (hpair : (a, b) = (c.producer, c.consumer)) :
    ∃ e, upgrade { from_ := a, to_ := b, status := .confirmed, source := source } c = e ∧
      e.status = .confirmed ∧ ∃ i ∈ told e.interface,
        contractOf ⟨e.from_, e.to_, i, e.agreement⟩ = c := by
  obtain ⟨view, hview, rfl⟩ := List.mem_map.mp hc
  rw [g.contracts_eq, mem_projectContracts] at hview
  obtain ⟨fact, -, -, i, hi, rfl⟩ := hview
  have hne : i ≠ "" := ne_of_told hi
  obtain ⟨rfl, rfl⟩ := Prod.mk.injEq .. ▸ hpair
  refine ⟨_, if_pos rfl, rfl, i, ?_, ?_⟩
  · simp [contractOf, orElse, told, hne]
  · simp only [contractOf, getD_orElse]

/-- **The contracts come back.** -/
theorem contracts_rebuilt :
    (rebuilt draft llm g).contracts.map contractOf = g.contracts.map contractOf := by
  have hsorted : ∀ g : PlanGraph, (g.contracts.map contractOf).Pairwise fun c d =>
      toLex (c.producer, c.consumer) < toLex (d.producer, d.consumer) := by
    intro g
    have h := pairwise_projectContracts g.edges_derived.keys_nodup
    rw [← g.contracts_eq] at h
    exact List.pairwise_map.mpr h
  have hirrefl : Std.Irrefl fun c d : ContractSpec =>
      toLex (c.producer, c.consumer) < toLex (d.producer, d.consumer) := ⟨fun c => lt_irrefl _⟩
  have hantisymm : Std.Antisymm fun c d : ContractSpec =>
      toLex (c.producer, c.consumer) < toLex (d.producer, d.consumer) :=
    ⟨fun c d h h' => absurd h' (lt_asymm h)⟩
  refine (hsorted _).eq_of_mem_iff (hsorted g) fun c => ?_
  have hedges : (rebuilt draft llm g).edges = planEdges (stored draft llm g) := rfl
  have hstored : g.contracts.map contractOf = (stored draft llm g).contracts := rfl
  rw [(rebuilt draft llm g).contracts_eq, hedges, hstored, List.mem_map]
  simp only [mem_projectContracts]
  constructor
  · rintro ⟨view, ⟨e, he, -, i, hi, rfl⟩, rfl⟩
    rw [planEdges_stored] at he
    rcases Keyed.mem_foldl_insertNew he with hfact | horder
    · rw [factEdges_stored] at hfact
      obtain ⟨d, hd, rfl⟩ := List.mem_map.mp hfact
      obtain ⟨a, b, -, rfl⟩ := mem_dependencyFacts draft llm g hd
      by_cases hcontract : ∃ c ∈ (stored draft llm g).contracts, (a, b) = (c.producer, c.consumer)
      · obtain ⟨c, hc, hpair⟩ := hcontract
        have hwords := foldl_upgrade
          (e := { from_ := a, to_ := b, status := .confirmed, source := .llm })
          (nodup_contracts_stored draft llm g) hc hpair
        rw [hwords] at hi ⊢
        obtain ⟨e, he, -, i', hi', hsame⟩ := contractOf_upgrade draft llm g hc hpair
        rw [he] at hi ⊢
        obtain rfl : i = i' := Option.some.inj (hi.symm.trans hi')
        rw [hsame]
        exact hc
      · -- Its interface is that of no contract: there is none.
        push Not at hcontract
        rw [foldl_upgrade_of_notMem hcontract] at hi
        simp [told] at hi
    · obtain ⟨a, b, -, rfl⟩ := (mem_orders draft llm g).mp horder
      simp [told] at hi
  · intro hc
    have hedge : (c.producer, c.consumer) ∈ (dependencyFacts draft llm g).map GraphEdge.key := by
      obtain ⟨view, hview, rfl⟩ := List.mem_map.mp (show c ∈ g.contracts.map contractOf from hc)
      rw [g.contracts_eq, mem_projectContracts] at hview
      obtain ⟨e, he, hconfirmed, i, -, rfl⟩ := hview
      exact (key_mem_dependencyFacts draft llm g).mpr ⟨e, he, hconfirmed, rfl, rfl⟩
    obtain ⟨d, hd, hkey⟩ := List.mem_map.mp hedge
    have hfact : upgrade d c ∈ factEdges (stored draft llm g) := by
      rw [factEdges_stored]
      exact List.mem_map.mpr ⟨d, hd, foldl_upgrade (nodup_contracts_stored draft llm g) hc hkey⟩
    obtain ⟨a, b, -, rfl⟩ := mem_dependencyFacts draft llm g hd
    obtain ⟨e, he, hconfirmed, i, hi, hsame⟩ := contractOf_upgrade draft llm g hc hkey
    rw [he] at hfact
    refine ⟨_, ⟨e, ?_, hconfirmed, i, hi, rfl⟩, hsame⟩
    rw [planEdges_stored]
    exact Keyed.subset_foldl_insertNew hfact

/-! ## The task DAG that comes back -/

/-- The view a stored task has in the rebuilt graph. -/
def rebuiltView (task : TaskNode) : TaskDagNodeView where
  repository := task.repository
  instruction := task.instruction.told
  dependsOn := sortedTexts (confirmedProducers (planEdges (stored draft llm g)) task.repository)
  tests := task.tests

theorem taskDag_rebuilt :
    (rebuilt draft llm g).taskDag = (stored draft llm g).taskDag.map (rebuiltView draft llm g) := by
  have hsorted : ((stored draft llm g).taskDag.map taskNode).Pairwise fun a b =>
      a.repository ≤ b.repository := by
    have hnames : ((stored draft llm g).taskDag.map (·.repository)).Pairwise (· ≤ ·) := by
      rw [repositories_stored]
      exact List.pairwise_insertionSort _ _
    rw [List.pairwise_map] at hnames ⊢
    exact hnames
  rw [(rebuilt draft llm g).taskDag_eq]
  show projectTaskDag ((stored draft llm g).taskDag.map taskNode) (planEdges (stored draft llm g)) = _
  rw [projectTaskDag, hsorted.insertionSort_eq, List.map_map]
  rfl

/-- The task a view is written back as. -/
def rewritten (view : TaskDagNodeView) : TaskNode :=
  normalizeTask (stored draft llm g).taskDag (rebuiltView draft llm g (readTask llm view))

theorem lastTask_stored {node : GraphNode} (hnode : node ∈ g.nodes) :
    ∃ last, (nodesOf g node.repository).getLast? = some last ∧
      last.repository = node.repository ∧
      taskOf (stored draft llm g).taskDag node.repository = some (readTask llm (viewOf g last)) := by
  have hmem : node ∈ nodesOf g node.repository := List.mem_filter.mpr ⟨hnode, by simp⟩
  have hlast := List.getLast?_eq_some_getLast (List.ne_nil_of_mem hmem)
  refine ⟨_, hlast, ?_, ?_⟩
  · simpa [nodesOf] using (List.mem_filter.mp (List.mem_of_getLast? hlast)).2
  · rw [taskDag_stored, taskOf_map (fun _ => rfl), filter_taskDag, List.getLast?_map, hlast]
    rfl

theorem instruction_rewritten (htold : Told llm g) {view : TaskDagNodeView} (hview : view ∈ g.taskDag) :
    (rewritten draft llm g view).instruction = (normalizeTask llm.taskDag view).instruction ↔
      ∃ s, (normalizeTask llm.taskDag view).instruction = .text s := by
  obtain ⟨node, hnode, rfl⟩ := mem_taskDag.mp hview
  have hmem : node ∈ nodesOf g node.repository := List.mem_filter.mpr ⟨hnode, by simp⟩
  obtain ⟨last, hlast, hlastRepository, htask⟩ := lastTask_stored draft llm g hnode
  have hrewritten : (rewritten draft llm g (viewOf g node)).instruction =
      ((told (Instruction.text (normalizeTask llm.taskDag (viewOf g node)).instruction.str).told).map
        .text).getD (.text (normalizeTask llm.taskDag (viewOf g last)).instruction.str) := by
    rw [rewritten, instruction_normalizeTask]
    refine congrArg _ ?_
    show ((taskOf (stored draft llm g).taskDag node.repository).map (·.instruction)).getD
      (.text "") = _
    rw [htask]
    rfl
  rw [hrewritten]
  cases hinstruction : (normalizeTask llm.taskDag (viewOf g node)).instruction with
  | falsy shown =>
    -- What is written back is always a text.
    refine iff_of_false ?_ (by simp)
    cases told (Instruction.text (Instruction.falsy shown).str).told with
    | none => simp
    | some instruction => simp
  | text s =>
    refine iff_of_true ?_ ⟨s, rfl⟩
    by_cases hempty : s = ""
    · subst hempty
      -- Neither the node nor, by the condition, the last of its repository is told anything.
      rw [instruction_normalizeTask] at hinstruction
      have hnone : told node.instruction = none := by
        cases h : told node.instruction with
        | none => rfl
        | some i =>
          have hsame : told (viewOf g node).instruction = some i := h
          rw [hsame, Option.map_some, Option.getD_some] at hinstruction
          exact absurd (Instruction.text.inj hinstruction) (ne_of_told h)
      have hplanned : plannedInstruction llm node.repository = .text "" := by
        have hsame : told (viewOf g node).instruction = none := hnone
        rwa [hsame] at hinstruction
      have hlastNone : told last.instruction = none := by
        cases h : told last.instruction with
        | none => rfl
        | some i =>
          by_cases hi : Instruction.text i = plannedInstruction llm node.repository
          · rw [hplanned] at hi
            exact absurd (Instruction.text.inj hi) (ne_of_told h)
          · exact absurd hnone (htold _ last hlast i h hi node hmem)
      have hsame : told (viewOf g last).instruction = none := hlastNone
      have hrepository : (viewOf g last).repository = node.repository := hlastRepository
      rw [instruction_normalizeTask, hsame, hrepository, hplanned]
      rfl
    · have hsame : told (Instruction.text (Instruction.text s).str).told = some s := told_text hempty
      rw [hsame]
      rfl

theorem rewritten_eq_iff {view : TaskDagNodeView} (hview : view ∈ g.taskDag) :
    rewritten draft llm g view = normalizeTask llm.taskDag view ↔
      (rewritten draft llm g view).dependsOn = view.dependsOn ∧
        (rewritten draft llm g view).instruction = (normalizeTask llm.taskDag view).instruction := by
  constructor
  · intro h
    rw [h]
    exact ⟨rfl, rfl⟩
  · rintro ⟨hdeps, hinstruction⟩
    obtain ⟨node, hnode, rfl⟩ := mem_taskDag.mp hview
    obtain ⟨last, -, hrepository, htask⟩ := lastTask_stored draft llm g hnode
    have hlast : (viewOf g last).repository = node.repository := hrepository
    rw [TaskNode.mk.injEq]
    refine ⟨rfl, hinstruction, hdeps, ?_, ?_⟩
    · show ((taskOf (stored draft llm g).taskDag node.repository).map (·.parallelizableWith)).getD [] = _
      rw [htask, Option.map_some, Option.getD_some]
      simp only [readTask, normalizeTask, hlast]
      rfl
    · show ((taskOf (stored draft llm g).taskDag node.repository).map (·.tests)).getD [] = _
      rw [htask, Option.map_some, Option.getD_some]
      simp only [readTask, normalizeTask, hlast]
      rfl

theorem dependsOn_rewritten :
    (∀ view ∈ g.taskDag, (rewritten draft llm g view).dependsOn = view.dependsOn) ↔ Layered g := by
  have hrewritten : ∀ node : GraphNode, (rewritten draft llm g (viewOf g node)).dependsOn =
      sortedTexts (confirmedProducers (planEdges (stored draft llm g)) node.repository) :=
    fun _ => rfl
  constructor
  · intro h a b hfollows
    obtain ⟨i, -, hb⟩ := id hfollows
    have hname := ((partition_executionBatches g).2.1 b).mp (exists_inBatch.mp ⟨i + 1, hb⟩)
    obtain ⟨node, hnode, rfl⟩ := List.mem_map.mp hname
    have hdeps := h _ (mem_taskDag.mpr ⟨node, hnode, rfl⟩)
    rw [hrewritten] at hdeps
    have hmem : a ∈ sortedTexts (confirmedProducers (planEdges (stored draft llm g)) node.repository) := by
      rw [mem_sortedTexts, mem_confirmedProducers]
      exact (confirmed_planEdges_iff draft llm g).mpr (Or.inr hfollows)
    rw [hdeps] at hmem
    exact mem_confirmedProducers.mp (mem_sortedTexts.mp hmem)
  · rintro h view hview
    obtain ⟨node, hnode, rfl⟩ := mem_taskDag.mp hview
    rw [hrewritten]
    refine sortedTexts_eq_of_perm ((List.perm_ext_iff_of_nodup
      (nodup_confirmedProducers (derived_planEdges draft llm g) _)
      (nodup_confirmedProducers g.edges_derived _)).mpr fun a => ?_)
    rw [mem_confirmedProducers, mem_confirmedProducers, confirmed_planEdges_iff]
    exact ⟨fun hedge => hedge.elim id (h a _), Or.inl⟩

/-- **The round keeps the graph** exactly where each repository of a batch depends on each of the
batch before, and each instruction is a text. -/
theorem roundKept_iff (htold : Told llm g) (requirement : String) :
    RoundKept draft requirement (normalizePlan llm g) g ↔
      Layered g ∧ Worded (normalizePlan llm g) := by
  have hkept : RoundKept draft requirement (normalizePlan llm g) g ↔
      (∀ a b, Confirmed (planEdges (stored draft llm g)) a b → Confirmed g.edges a b) ∧
        ∀ view ∈ g.taskDag, rewritten draft llm g view = normalizeTask llm.taskDag view := by
    have htasks : (materializeColumns (stored draft llm g) (rebuilt draft llm g) requirement).taskDag =
        g.taskDag.map (rewritten draft llm g) := by
      show (rebuilt draft llm g).taskDag.map (normalizeTask (stored draft llm g).taskDag) = _
      rw [taskDag_rebuilt, taskDag_stored, List.map_map, List.map_map]
      rw [← taskDag_stored draft llm g]
      rfl
    constructor
    · rintro ⟨g', hg', hsound, -, hdag, -⟩
      obtain rfl : rebuilt draft llm g = g' :=
        Except.ok.inj ((planToGraph_stored draft llm g).symm.trans hg')
      exact ⟨hsound, List.map_inj_left.mp (htasks.symm.trans hdag)⟩
    · rintro ⟨hsound, hviews⟩
      refine ⟨rebuilt draft llm g, planToGraph_stored draft llm g, hsound, fun a b hedge => ?_, ?_, ?_,
        ?_⟩
      · exact (confirmed_planEdges_iff draft llm g).mpr (Or.inl hedge)
      · exact htasks.trans (List.map_inj_left.mpr hviews)
      · exact contracts_rebuilt draft llm g
      · show projectBatches (rebuilt draft llm g).nodes (rebuilt draft llm g).edges =
          projectBatches g.nodes g.edges
        rw [← (rebuilt draft llm g).executionBatches_eq, ← g.executionBatches_eq]
        exact executionBatches_rebuilt draft llm g
  have hlayered : (∀ a b, Confirmed (planEdges (stored draft llm g)) a b → Confirmed g.edges a b) ↔
      Layered g := by
    simp only [confirmed_planEdges_iff]
    exact ⟨fun h a b hfollows => h a b (Or.inr hfollows), fun h a b hedge => hedge.elim id (h a b)⟩
  have hworded : (∀ view ∈ g.taskDag, ∃ s, (normalizeTask llm.taskDag view).instruction = .text s) ↔
      Worded (normalizePlan llm g) := by
    simp [Worded, normalizePlan]
  rw [hkept, hlayered, ← hworded]
  refine and_congr_right fun hlayers => ?_
  rw [← dependsOn_rewritten draft llm g] at hlayers
  constructor
  · intro h view hview
    exact (instruction_rewritten draft llm g htold hview).mp
      ((rewritten_eq_iff draft llm g hview).mp (h view hview)).2
  · intro h view hview
    exact (rewritten_eq_iff draft llm g hview).mpr ⟨hlayers view hview,
      (instruction_rewritten draft llm g htold hview).mpr (h view hview)⟩

end Rebuilt

/-- **The graph of a console round is the graph that was integrated** exactly where each repository of
a batch depends on each of the batch before, and each instruction of the plan is a text: whatever the
scan, the confirmed repositories and the reply of the model. -/
theorem integrated_roundKept_iff (scan : Option DependencyGraphService) (summary : ConfirmationSummary)
    (reply : Option Reply) (draft : PlanColumns) (requirement : String) {plan : IntegratedPlan}
    {g : PlanGraph} (hplan : integrate scan summary reply = .ok plan) (hgraph : plan.graph = some g) :
    RoundKept draft requirement plan g ↔ Layered g ∧ Worded plan := by
  obtain ⟨llm, rfl, htold⟩ := integrate_normalized hplan hgraph
  exact roundKept_iff draft llm g htold requirement

/-! ## A repository that nothing ties -/

namespace Untied

/-- Three confirmed repositories. -/
def summary : ConfirmationSummary where
  required :=
    [{ repository := "api", status := "REQUIRED" }, { repository := "docs", status := "REQUIRED" },
      { repository := "web", status := "REQUIRED" }]

/-- The consumer depends on the producer; nothing depends on the documentation. -/
def reply : Reply where
  engineeringSpec := "Rename a field."
  taskDag :=
    [{ repository := "api", instruction := .text "Rename the field." },
      { repository := "docs", instruction := .text "Describe the field." },
      { repository := "web", instruction := .text "Show the new name.", dependsOn := ["api"] }]

/-- The plan of the reply. -/
def llm : IntegratedPlan := parseIntegratedPlan (some reply) ["api", "docs", "web"]

theorem derived : Derived (nodeNames (llm.taskDag.map taskNode)) (planEdges llm) :=
  ⟨by decide +kernel, by decide +kernel, by decide +kernel⟩

/-- The graph that is integrated. -/
def graph : PlanGraph :=
  PlanGraph.ofDerived 1 (llm.taskDag.map taskNode) (planEdges llm) first_version derived

theorem planToGraph_llm : planToGraph llm = .ok graph := PlanGraph.validate_of_derived _ le_rfl derived

theorem integrated : integrate none summary (some reply) = .ok (normalizePlan llm graph) :=
  congrArg (Except.map (normalizePlan llm)) planToGraph_llm

end Untied

theorem integrated_roundKept_iff_sample :
    RoundKept {} "Rename a field." (normalizePlan Untied.llm Untied.graph) Untied.graph ↔
      Layered Untied.graph ∧ Worded (normalizePlan Untied.llm Untied.graph) :=
  integrated_roundKept_iff none Untied.summary (some Untied.reply) {} "Rename a field."
    Untied.integrated rfl

/-- The round orders the documentation before the consumer, which nothing that was integrated does. -/
theorem untied_round :
    integrate none Untied.summary (some Untied.reply) =
        .ok (normalizePlan Untied.llm Untied.graph) ∧
      Untied.graph.executionBatches = [["api", "docs"], ["web"]] ∧
      ¬ Confirmed Untied.graph.edges "docs" "web" ∧
      ¬ RoundKept {} "Rename a field." (normalizePlan Untied.llm Untied.graph) Untied.graph := by
  have hbatches : Untied.graph.executionBatches = [["api", "docs"], ["web"]] := by decide +kernel
  have hfree : ¬ Confirmed Untied.graph.edges "docs" "web" := by
    unfold Confirmed
    decide +kernel
  refine ⟨Untied.integrated, hbatches, hfree, fun hkept => hfree ?_⟩
  have hlayered := ((roundKept_iff {} Untied.llm Untied.graph
    (told_planToGraph Untied.planToGraph_llm) "Rename a field.").mp hkept).1
  refine hlayered "docs" "web" ⟨0, ⟨["api", "docs"], ?_, by simp⟩, ⟨["web"], ?_, by simp⟩⟩
  · rw [hbatches]
    rfl
  · rw [hbatches]
    rfl

end Planning
end RepoMesh
