/-
# The plan-layer graph

The single source of truth for the dependencies between repositories: nodes, edges, and the three
projections its consumers read, materialised when a graph is built. A graph that was built carries
what the validator established.
-/
import Mathlib.Data.List.Sort
import Mathlib.Data.Prod.Lex
import Mathlib.Data.String.Basic
import RepoMesh.Foundation.Levels

namespace RepoMesh
namespace Planning

open Levels

/-- `EdgeStatus`. -/
inductive EdgeStatus where
  | candidate
  | confirmed
  deriving DecidableEq

/-- `EdgeSource`: where an edge came from. -/
inductive EdgeSource where
  | scan
  | tm
  | llm
  deriving DecidableEq

/-- Plan-layer node: a repository plus plan-time semantics. -/
structure GraphNode where
  repository : String
  instruction : Option String := none
  tests : List String := []
  deriving DecidableEq

/-- A directed dependency edge: `from_` is the producer, `to_` the consumer. -/
structure GraphEdge where
  from_ : String
  to_ : String
  status : EdgeStatus := .candidate
  source : EdgeSource := .scan
  interface : Option String := none
  agreement : Option String := none
  deriving DecidableEq

/-- The pair of an edge. -/
def GraphEdge.key (edge : GraphEdge) : String × String := (edge.from_, edge.to_)

/-- Projection of a confirmed edge carrying contract metadata. -/
structure ContractEdgeView where
  producer : String
  consumer : String
  interface : String
  agreement : Option String := none
  deriving DecidableEq

/-- Projection of a plan-layer node with its confirmed dependency list. -/
structure TaskDagNodeView where
  repository : String
  instruction : Option String := none
  dependsOn : List String := []
  tests : List String := []
  deriving DecidableEq

/-- The names of the nodes. -/
def nodeNames (nodes : List GraphNode) : List String := nodes.map (·.repository)

/-- `sorted` of texts. -/
def sortedTexts (texts : List String) : List String := texts.insertionSort (· ≤ ·)

/-- A set of texts, listed in order. -/
def sortedSet (texts : List String) : List String := sortedTexts texts.dedup

@[simp] theorem mem_sortedTexts {texts : List String} {name : String} :
    name ∈ sortedTexts texts ↔ name ∈ texts := List.mem_insertionSort _

@[simp] theorem mem_sortedSet {texts : List String} {name : String} :
    name ∈ sortedSet texts ↔ name ∈ texts := by
  rw [sortedSet, mem_sortedTexts, List.mem_dedup]

theorem nodup_sortedSet (texts : List String) : (sortedSet texts).Nodup :=
  (List.perm_insertionSort _ _).nodup_iff.mpr (List.nodup_dedup texts)

theorem sortedTexts_eq_of_perm {texts texts' : List String} (h : texts.Perm texts') :
    sortedTexts texts = sortedTexts texts' := by
  refine List.Perm.eq_of_pairwise (fun a b _ _ hab hba => le_antisymm hab hba)
    (List.pairwise_insertionSort (· ≤ ·) _) (List.pairwise_insertionSort (· ≤ ·) _) ?_
  exact (List.perm_insertionSort _ _).trans (h.trans (List.perm_insertionSort _ _).symm)

/-- Pairs of names are compared as they are. -/
scoped instance keyLawful : LawfulBEq (String × String) := inferInstance

theorem first_version : (1 : ℤ) ≤ 1 := le_rfl

/-! ## Normalising edges -/

/-- The loop of `derive_edges`: the edges still to read, and the pairs seen. -/
def deriveFrom (names : List String) : List GraphEdge → List (String × String) →
    Except String (List GraphEdge)
  | [], _ => .ok []
  | edge :: rest, seen =>
    if edge.from_ = edge.to_ then deriveFrom names rest seen
    else if edge.from_ ∉ names ∨ edge.to_ ∉ names then
      .error ("dangling edge " ++ edge.from_ ++ " -> " ++ edge.to_ ++
        ": endpoint missing from nodes")
    else if edge.key ∈ seen then deriveFrom names rest seen
    else (deriveFrom names rest (edge.key :: seen)).map (edge :: ·)

/-- `derive_edges`: drop self-loops, keep the first edge of a pair, refuse a dangling edge. -/
def deriveEdges (nodes : List GraphNode) (edges : List GraphEdge) : Except String (List GraphEdge) :=
  deriveFrom (nodeNames nodes) edges []

/-- Edges that are normal: no self-loop, no dangling edge, no pair twice. -/
structure Derived (names : List String) (edges : List GraphEdge) : Prop where
  loopless : ∀ e ∈ edges, e.from_ ≠ e.to_
  covered : ∀ e ∈ edges, e.from_ ∈ names ∧ e.to_ ∈ names
  keys_nodup : (edges.map GraphEdge.key).Nodup

variable {names : List String} {nodes : List GraphNode} {edges derived : List GraphEdge}

theorem derived_deriveFrom {seen : List (String × String)}
    (h : deriveFrom names edges seen = .ok derived) :
    Derived names derived ∧ ∀ e ∈ derived, e ∈ edges ∧ e.key ∉ seen := by
  induction edges generalizing seen derived with
  | nil =>
    obtain rfl : [] = derived := Except.ok.inj h
    exact ⟨⟨by simp, by simp, by simp⟩, by simp⟩
  | cons edge rest ih =>
    rw [deriveFrom] at h
    split_ifs at h with hloop hdangling hseen
    · obtain ⟨hderived, hold⟩ := ih h
      exact ⟨hderived, fun e he => ⟨List.mem_cons_of_mem _ (hold e he).1, (hold e he).2⟩⟩
    · obtain ⟨hderived, hold⟩ := ih h
      exact ⟨hderived, fun e he => ⟨List.mem_cons_of_mem _ (hold e he).1, (hold e he).2⟩⟩
    · push Not at hdangling
      cases hrest : deriveFrom names rest (edge.key :: seen) with
      | error m =>
        rw [hrest] at h
        cases h
      | ok tail =>
        rw [hrest] at h
        obtain rfl : edge :: tail = derived := Except.ok.inj h
        obtain ⟨htail, hold⟩ := ih hrest
        refine ⟨⟨?_, ?_, ?_⟩, ?_⟩
        · simpa using ⟨hloop, htail.loopless⟩
        · intro e he
          rcases List.mem_cons.mp he with rfl | he
          · exact hdangling
          · exact htail.covered e he
        · rw [List.map_cons, List.nodup_cons]
          refine ⟨fun hmem => ?_, htail.keys_nodup⟩
          obtain ⟨e, he, hkey⟩ := List.mem_map.mp hmem
          exact (hold e he).2 (hkey ▸ List.mem_cons_self)
        · intro e he
          rcases List.mem_cons.mp he with rfl | he
          · exact ⟨List.mem_cons_self, hseen⟩
          · exact ⟨List.mem_cons_of_mem _ (hold e he).1,
              fun hmem => (hold e he).2 (List.mem_cons_of_mem _ hmem)⟩

theorem key_mem_of_deriveFrom {seen : List (String × String)}
    (h : deriveFrom names edges seen = .ok derived) {e : GraphEdge} (he : e ∈ edges)
    (hloop : e.from_ ≠ e.to_) : e.key ∈ seen ∨ e.key ∈ derived.map GraphEdge.key := by
  induction edges generalizing seen derived with
  | nil => simp at he
  | cons edge rest ih =>
    rw [deriveFrom] at h
    split_ifs at h with hself hdangling hseen
    · rcases List.mem_cons.mp he with rfl | he
      · exact absurd hself hloop
      · exact ih h he
    · rcases List.mem_cons.mp he with rfl | he
      · exact Or.inl hseen
      · exact ih h he
    · cases hrest : deriveFrom names rest (edge.key :: seen) with
      | error m =>
        rw [hrest] at h
        cases h
      | ok tail =>
        rw [hrest] at h
        obtain rfl : edge :: tail = derived := Except.ok.inj h
        rw [List.map_cons, List.mem_cons]
        rcases List.mem_cons.mp he with rfl | he
        · exact Or.inr (Or.inl rfl)
        · rcases ih hrest he with hmem | hmem
          · rcases List.mem_cons.mp hmem with hkey | hmem
            · exact Or.inr (Or.inl hkey)
            · exact Or.inl hmem
          · exact Or.inr (Or.inr hmem)

theorem deriveFrom_self {seen : List (String × String)} (h : Derived names edges)
    (hnew : ∀ e ∈ edges, e.key ∉ seen) : deriveFrom names edges seen = .ok edges := by
  induction edges generalizing seen with
  | nil => rfl
  | cons edge rest ih =>
    have hkeys := h.keys_nodup
    rw [List.map_cons, List.nodup_cons] at hkeys
    have hcovered := h.covered edge List.mem_cons_self
    have hrest : deriveFrom names rest (edge.key :: seen) = .ok rest := by
      refine ih ⟨fun e he => h.loopless e (List.mem_cons_of_mem _ he),
        fun e he => h.covered e (List.mem_cons_of_mem _ he), hkeys.2⟩ fun e he hmem => ?_
      rcases List.mem_cons.mp hmem with hkey | hmem
      · exact hkeys.1 (hkey ▸ List.mem_map_of_mem he)
      · exact hnew e (List.mem_cons_of_mem _ he) hmem
    rw [deriveFrom, if_neg (h.loopless edge List.mem_cons_self),
      if_neg (by simp [hcovered.1, hcovered.2]), if_neg (hnew edge List.mem_cons_self), hrest]
    rfl

theorem deriveFrom_ok {seen : List (String × String)}
    (h : ∀ e ∈ edges, e.from_ ∈ names ∧ e.to_ ∈ names) :
    ∃ derived, deriveFrom names edges seen = .ok derived := by
  induction edges generalizing seen with
  | nil => exact ⟨[], rfl⟩
  | cons edge rest ih =>
    have hrest : ∀ seen, ∃ derived, deriveFrom names rest seen = .ok derived := fun seen =>
      ih fun e he => h e (List.mem_cons_of_mem _ he)
    obtain ⟨hfrom, hto⟩ := h edge List.mem_cons_self
    rw [deriveFrom]
    simp only [hfrom, hto, not_true_eq_false, or_self, if_false]
    split_ifs
    · exact hrest seen
    · exact hrest seen
    · obtain ⟨derived, hderived⟩ := hrest (edge.key :: seen)
      exact ⟨edge :: derived, by rw [hderived]; rfl⟩

/-! ## The projections -/

/-- The edges that take part in topology. -/
def confirmedEdges (edges : List GraphEdge) : List GraphEdge :=
  edges.filter fun e => decide (e.status = .confirmed)

/-- The producers that confirmed edges give a consumer. -/
def confirmedProducers (edges : List GraphEdge) (consumer : String) : List String :=
  ((confirmedEdges edges).filter fun e => decide (e.to_ = consumer)).map (·.from_)

/-- A confirmed edge leads from a producer to a consumer. -/
def Confirmed (edges : List GraphEdge) (producer consumer : String) : Prop :=
  ∃ e ∈ edges, e.status = .confirmed ∧ e.from_ = producer ∧ e.to_ = consumer

theorem mem_confirmedProducers {producer consumer : String} :
    producer ∈ confirmedProducers edges consumer ↔ Confirmed edges producer consumer := by
  simp only [confirmedProducers, confirmedEdges, Confirmed, List.mem_map, List.mem_filter,
    decide_eq_true_eq]
  constructor
  · rintro ⟨e, ⟨⟨he, hconfirmed⟩, hto⟩, hfrom⟩
    exact ⟨e, he, hconfirmed, hfrom, hto⟩
  · rintro ⟨e, he, hconfirmed, hfrom, hto⟩
    exact ⟨e, ⟨⟨he, hconfirmed⟩, hto⟩, hfrom⟩

/-- The loop of `project_batches`: the batches so far, the names placed and those remaining. -/
def batchesFrom (deps : String → List String) : ℕ → List (List String) → List String → List String →
    List (List String)
  | 0, batches, _, _ => batches
  | rounds + 1, batches, placed, remaining =>
    if remaining = [] then batches
    else
      let ready := remaining.filter fun r => (deps r).all (· ∈ placed)
      if ready = [] then batches ++ [remaining]
      else batchesFrom deps rounds (batches ++ [ready]) (placed ++ ready)
        (remaining.filter (· ∉ ready))

/-- `project_batches`: a topological sort over the node set, by confirmed edges only. -/
def projectBatches (nodes : List GraphNode) (edges : List GraphEdge) : List (List String) :=
  let repos := sortedSet (nodeNames nodes)
  let deps := fun r => (confirmedProducers edges r).filter (· ∈ repos)
  batchesFrom deps repos.length [] [] repos

theorem batchesFrom_eq (deps : String → List String) (rounds : ℕ) (batches : List (List String))
    (placed remaining : List String) :
    batchesFrom deps rounds batches placed remaining =
      batches ++ levels deps rounds placed remaining := by
  induction rounds generalizing batches placed remaining with
  | zero => simp [batchesFrom, levels]
  | succ rounds ih =>
    by_cases hdone : remaining = []
    · simp [batchesFrom, hdone]
    · by_cases hready : ready deps placed remaining = []
      · rw [levels_blocked hdone hready]
        rw [ready] at hready
        simp [batchesFrom, hdone, hready]
      · rw [levels_ready hready, ← List.singleton_append, ← List.append_assoc, ← ih]
        rw [ready] at hready
        simp only [batchesFrom, hdone, hready, if_false]
        rfl

/-- The order of `sorted(edges, key=lambda e: (e.from_, e.to))`. -/
def GraphEdge.before (a b : GraphEdge) : Bool :=
  decide (a.from_ < b.from_) || decide (a.from_ = b.from_) && decide (a.to_ ≤ b.to_)

/-- `project_contracts`: the confirmed edges that carry an interface. -/
def projectContracts (edges : List GraphEdge) : List ContractEdgeView :=
  (edges.insertionSort fun a b => a.before b).filterMap fun e =>
    match e.status, e.interface.filter (· ≠ "") with
    | .confirmed, some interface => some ⟨e.from_, e.to_, interface, e.agreement⟩
    | _, _ => none

/-- `project_task_dag`: the nodes with their confirmed dependency lists. -/
def projectTaskDag (nodes : List GraphNode) (edges : List GraphEdge) : List TaskDagNodeView :=
  (nodes.insertionSort fun a b => a.repository ≤ b.repository).map fun node =>
    { repository := node.repository
      instruction := node.instruction
      dependsOn := sortedTexts (confirmedProducers edges node.repository)
      tests := node.tests }

/-! ## A graph -/

/-- The fields of a graph, as `model_dump` gives and `model_validate` takes them. -/
structure PlanGraphFields where
  planVersion : ℤ
  nodes : List GraphNode := []
  edges : List GraphEdge := []
  executionBatches : List (List String) := []
  contracts : List ContractEdgeView := []
  taskDag : List TaskDagNodeView := []
  deriving DecidableEq

/-- `PlanGraph`: its edges are normal, and its projections are those of its nodes and edges. -/
structure PlanGraph extends PlanGraphFields where
  planVersion_pos : 1 ≤ planVersion
  edges_derived : Derived (nodeNames nodes) edges
  executionBatches_eq : executionBatches = projectBatches nodes edges
  contracts_eq : contracts = projectContracts edges
  taskDag_eq : taskDag = projectTaskDag nodes edges

/-- The endpoints that no node names. -/
def missingNames (nodes : List GraphNode) (edges : List GraphEdge) : List String :=
  sortedSet ((edges.flatMap fun e => [e.from_, e.to_]).filter (· ∉ nodeNames nodes))

/-- The nodes with one for each missing endpoint. -/
def completeNodes (nodes : List GraphNode) (edges : List GraphEdge) : List GraphNode :=
  nodes ++ (missingNames nodes edges).map fun name => { repository := name }

namespace PlanGraph

/-- The graph of normal edges. -/
def ofDerived (planVersion : ℤ) (nodes : List GraphNode) (edges : List GraphEdge)
    (hversion : 1 ≤ planVersion) (hderived : Derived (nodeNames nodes) edges) : PlanGraph where
  planVersion := planVersion
  nodes := nodes
  edges := edges
  executionBatches := projectBatches nodes edges
  contracts := projectContracts edges
  taskDag := projectTaskDag nodes edges
  planVersion_pos := hversion
  edges_derived := hderived
  executionBatches_eq := rfl
  contracts_eq := rfl
  taskDag_eq := rfl

/-- Build a graph: complete the nodes, normalise the edges, materialise the projections, whatever
projections the fields held. -/
def validate (fields : PlanGraphFields) : Except String PlanGraph :=
  if hversion : 1 ≤ fields.planVersion then
    match hedges : deriveEdges (completeNodes fields.nodes fields.edges) fields.edges with
    | .error message => .error message
    | .ok edges =>
      .ok (ofDerived fields.planVersion (completeNodes fields.nodes fields.edges) edges hversion
        (derived_deriveFrom hedges).1)
  else .error "plan_version: Input should be greater than or equal to 1"

/-- `model_copy(update={"plan_version": ...})`. -/
def withVersion (g : PlanGraph) (planVersion : ℤ) (hversion : 1 ≤ planVersion) : PlanGraph :=
  { g with planVersion := planVersion, planVersion_pos := hversion }

end PlanGraph

theorem covered_completeNodes (nodes : List GraphNode) (edges : List GraphEdge) :
    ∀ e ∈ edges, e.from_ ∈ nodeNames (completeNodes nodes edges) ∧
      e.to_ ∈ nodeNames (completeNodes nodes edges) := by
  have hnamed : ∀ name, (∃ e ∈ edges, name = e.from_ ∨ name = e.to_) →
      name ∈ nodeNames (completeNodes nodes edges) := by
    intro name hend
    by_cases hname : name ∈ nodeNames nodes
    · simp only [completeNodes, nodeNames, List.map_append, List.mem_append]
      exact Or.inl hname
    · simp only [completeNodes, nodeNames, List.map_append, List.mem_append, List.map_map]
      refine Or.inr (List.mem_map.mpr ⟨name, ?_, rfl⟩)
      simp only [missingNames, mem_sortedSet, List.mem_filter, List.mem_flatMap]
      obtain ⟨e, he, hend⟩ := hend
      exact ⟨⟨e, he, by simpa using hend⟩, by simpa using hname⟩
  exact fun e he => ⟨hnamed _ ⟨e, he, Or.inl rfl⟩, hnamed _ ⟨e, he, Or.inr rfl⟩⟩

theorem completeNodes_of_covered
    (h : ∀ e ∈ edges, e.from_ ∈ nodeNames nodes ∧ e.to_ ∈ nodeNames nodes) :
    completeNodes nodes edges = nodes := by
  have hnone : (edges.flatMap fun e => [e.from_, e.to_]).filter (· ∉ nodeNames nodes) = [] := by
    refine List.filter_eq_nil_iff.mpr fun name hname => ?_
    obtain ⟨e, he, hend⟩ := List.mem_flatMap.mp hname
    have hcovered := h e he
    rcases List.mem_pair.mp hend with rfl | rfl
    · simpa using hcovered.1
    · simpa using hcovered.2
  rw [completeNodes, missingNames, hnone]
  simp [sortedSet, sortedTexts]

/-- **Building succeeds** for every version from one on. -/
theorem PlanGraph.validate_ok (fields : PlanGraphFields) (h : 1 ≤ fields.planVersion) :
    ∃ g, PlanGraph.validate fields = .ok g := by
  obtain ⟨derived, hderived⟩ : ∃ derived,
      deriveEdges (completeNodes fields.nodes fields.edges) fields.edges = .ok derived :=
    deriveFrom_ok (covered_completeNodes fields.nodes fields.edges)
  rw [PlanGraph.validate, dif_pos h]
  split
  · next hedges =>
    rw [hderived] at hedges
    cases hedges
  · exact ⟨_, rfl⟩

theorem PlanGraph.validate_of_derived (fields : PlanGraphFields) (hversion : 1 ≤ fields.planVersion)
    (hderived : Derived (nodeNames fields.nodes) fields.edges) :
    PlanGraph.validate fields =
      .ok (ofDerived fields.planVersion fields.nodes fields.edges hversion hderived) := by
  have hnodes := completeNodes_of_covered hderived.covered
  have hedges : deriveEdges (completeNodes fields.nodes fields.edges) fields.edges =
      .ok fields.edges := by
    rw [hnodes]
    exact deriveFrom_self hderived (by simp)
  rw [PlanGraph.validate, dif_pos hversion]
  split
  · next h =>
    rw [hedges] at h
    cases h
  · next h =>
    rw [hedges] at h
    obtain rfl := Except.ok.inj h
    simp only [hnodes]

/-- **Reading back.** A graph that is dumped and validated again is the same graph. -/
theorem PlanGraph.validate_dump (g : PlanGraph) :
    PlanGraph.validate g.toPlanGraphFields = .ok g := by
  rw [validate_of_derived _ g.planVersion_pos g.edges_derived]
  obtain ⟨fields, hversion, hderived, hbatches, hcontracts, htasks⟩ := g
  obtain ⟨planVersion, nodes, edges, executionBatches, contracts, taskDag⟩ := fields
  obtain rfl : executionBatches = projectBatches nodes edges := hbatches
  obtain rfl : contracts = projectContracts edges := hcontracts
  obtain rfl : taskDag = projectTaskDag nodes edges := htasks
  rfl

/-! ## What the projections depend on -/

theorem sortedSet_congr {texts texts' : List String} (h : ∀ name, name ∈ texts ↔ name ∈ texts') :
    sortedSet texts = sortedSet texts' := by
  refine sortedTexts_eq_of_perm ?_
  exact (List.perm_ext_iff_of_nodup (List.nodup_dedup _) (List.nodup_dedup _)).mpr fun name => by
    rw [List.mem_dedup, List.mem_dedup, h]

theorem projectBatches_congr {nodes' : List GraphNode}
    (h : ∀ name, name ∈ nodeNames nodes ↔ name ∈ nodeNames nodes') :
    projectBatches nodes edges = projectBatches nodes' edges := by
  simp only [projectBatches, sortedSet_congr h]

/-- **The batches are levels** of the confirmed producers. -/
theorem projectBatches_eq (h : Derived (nodeNames nodes) edges) :
    projectBatches nodes edges =
      levels (confirmedProducers edges) (sortedSet (nodeNames nodes)).length []
        (sortedSet (nodeNames nodes)) := by
  have hdeps : (fun r => (confirmedProducers edges r).filter (· ∈ sortedSet (nodeNames nodes))) =
      confirmedProducers edges := by
    funext r
    refine List.filter_eq_self.mpr fun producer hproducer => decide_eq_true ?_
    obtain ⟨e, he, -, rfl, -⟩ := mem_confirmedProducers.mp hproducer
    exact mem_sortedSet.mpr (h.covered e he).1
  simp only [projectBatches, hdeps, batchesFrom_eq, List.nil_append]

theorem dependencies_projectTaskDag :
    (projectTaskDag nodes edges).map (fun view => (view.repository, view.dependsOn)) =
      (sortedTexts (nodeNames nodes)).map fun r =>
        (r, sortedTexts (confirmedProducers edges r)) := by
  have hsort : (nodes.insertionSort fun a b => a.repository ≤ b.repository).map (·.repository) =
      sortedTexts (nodeNames nodes) :=
    List.map_insertionSort _ _ _ _ fun a _ b _ => Iff.rfl
  rw [← hsort, projectTaskDag, List.map_map, List.map_map]
  rfl

theorem repositories_projectTaskDag :
    (projectTaskDag nodes edges).map (·.repository) = sortedTexts (nodeNames nodes) := by
  have h := congrArg (List.map Prod.fst) (@dependencies_projectTaskDag nodes edges)
  simpa [List.map_map, Function.comp_def] using h

theorem filter_insertionSort (name : String) :
    (nodes.insertionSort fun a b => a.repository ≤ b.repository).filter
        (fun n => decide (n.repository = name)) =
      nodes.filter fun n => decide (n.repository = name) := by
  have hinsert : ∀ (a : GraphNode) (l : List GraphNode),
      (l.orderedInsert (fun a b => a.repository ≤ b.repository) a).filter
          (fun n => decide (n.repository = name)) =
        (a :: l).filter fun n => decide (n.repository = name) := by
    intro a l
    induction l with
    | nil => rfl
    | cons b l ih =>
      rw [List.orderedInsert_cons]
      split_ifs with hle
      · rfl
      · -- What is passed over has a lesser name.
        rw [List.filter_cons, ih]
        by_cases ha : a.repository = name
        · have hb : b.repository ≠ name := by
            rintro rfl
            exact hle ha.le
          simp [ha, hb]
        · simp [ha, List.filter_cons]
  induction nodes with
  | nil => rfl
  | cons a l ih => rw [List.insertionSort_cons, hinsert, List.filter_cons, List.filter_cons, ih]

theorem nodup_confirmedProducers (h : Derived names edges) (consumer : String) :
    (confirmedProducers edges consumer).Nodup := by
  refine List.Nodup.map_on ?_ ((h.keys_nodup.of_map _).filter _ |>.filter _)
  intro a ha b hb hab
  simp only [confirmedEdges, List.mem_filter, decide_eq_true_eq] at ha hb
  refine List.inj_on_of_nodup_map h.keys_nodup ha.1.1 hb.1.1 ?_
  rw [GraphEdge.key, GraphEdge.key, hab, ha.2, hb.2]

/-! ## The order of contracts -/

theorem GraphEdge.before_iff {a b : GraphEdge} :
    a.before b = true ↔ toLex a.key ≤ toLex b.key := by
  simp [GraphEdge.before, GraphEdge.key, Prod.Lex.toLex_le_toLex]

instance : Std.Total fun a b : GraphEdge => a.before b = true where
  total a b := by
    rw [GraphEdge.before_iff, GraphEdge.before_iff]
    exact le_total _ _

instance : IsTrans GraphEdge fun a b => a.before b = true where
  trans a b c hab hbc := by
    rw [GraphEdge.before_iff] at hab hbc ⊢
    exact hab.trans hbc

/-- The pair of a contract. -/
def ContractEdgeView.pair (view : ContractEdgeView) : String × String := (view.producer, view.consumer)

theorem pairwise_projectContracts (h : (edges.map GraphEdge.key).Nodup) :
    (projectContracts edges).Pairwise fun v w => toLex v.pair < toLex w.pair := by
  have hnodup : ((edges.insertionSort fun a b => a.before b).map GraphEdge.key).Nodup :=
    (((List.perm_insertionSort _ edges).map _).nodup_iff).mpr h
  have hsorted : (edges.insertionSort fun a b => a.before b).Pairwise fun a b =>
      toLex a.key < toLex b.key := by
    refine ((List.pairwise_insertionSort _ edges).and (List.pairwise_map.mp hnodup)).imp ?_
    rintro a b ⟨hle, hne⟩
    exact lt_of_le_of_ne (GraphEdge.before_iff.mp hle) fun heq => hne (toLex.injective heq)
  refine hsorted.filterMap _ fun a b hab v hv w hw => ?_
  have hpair : ∀ {e : GraphEdge} {v : ContractEdgeView},
      (match e.status, e.interface.filter (· ≠ "") with
        | .confirmed, some interface => some (⟨e.from_, e.to_, interface, e.agreement⟩ :
            ContractEdgeView)
        | _, _ => none) = some v → v.pair = e.key := by
    intro e v hv
    split at hv
    · obtain rfl := Option.some.inj hv
      rfl
    · cases hv
  rwa [hpair hv, hpair hw]

end Planning
end RepoMesh
