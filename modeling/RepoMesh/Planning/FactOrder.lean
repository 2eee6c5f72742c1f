/-
# Facts and a manual order

The graph that is backfilled for a plan holds the facts of the plan, its dependencies and contracts, and
its batch order where that does not reverse a fact, or an earlier pair of the order itself. Longer
cycles of facts and order pairs are not kept out, and what is on one, or downstream of it, shares the
last batch. Two contracts of one pair share an edge, and only the words that are said last are kept.
-/
import RepoMesh.Planning.RoundGraph

namespace RepoMesh
namespace Planning

open Levels

variable {plan : IntegratedPlan}

/-- A dependency fact: a task depends on the producer, or a contract is between the two. -/
def Fact (plan : IntegratedPlan) (producer consumer : String) : Prop :=
  (∃ task ∈ plan.taskDag, task.repository = consumer ∧ producer ∈ task.dependsOn) ∨
    ∃ c ∈ plan.contracts, c.producer = producer ∧ c.consumer = consumer

/-- The pairs of the batch order, in the order in which they are looked at. -/
def orderPairs (plan : IntegratedPlan) : List (String × String) :=
  (tmOrderEdges plan.executionBatches (plan.taskDag.map (·.repository))).map GraphEdge.key

/-- A pair of the batch order that reverses no fact, and no pair of the order before it. -/
def Serialised (plan : IntegratedPlan) (earlier later : String) : Prop :=
  ¬ Fact plan later earlier ∧ ∃ before rest, orderPairs plan = before ++ (earlier, later) :: rest ∧
    (later, earlier) ∉ before

/-- A fact or a pair of the batch order leads from one repository to another. -/
def Leads (plan : IntegratedPlan) (earlier later : String) : Prop :=
  Fact plan earlier later ∨ Serialised plan earlier later

/-- No producer of a fact is on a cycle of facts and order pairs, or downstream of one. -/
def Untangled (plan : IntegratedPlan) : Prop :=
  ∀ producer consumer, Fact plan producer consumer → ¬ Stuck (Leads plan) producer

/-- The last of some texts that says something. -/
def lastTold (texts : List String) : Option String := texts.reverse.find? fun text => text ≠ ""

/-- The contracts of a pair. -/
def contractsOf (plan : IntegratedPlan) (pair : String × String) : List ContractSpec :=
  plan.contracts.filter fun c => (c.producer, c.consumer) = pair

/-- Each contract with an interface has the interface and the agreement that the contracts of its pair
say last. -/
def Agreeing (plan : IntegratedPlan) : Prop :=
  ∀ c ∈ plan.contracts, c.interface ≠ "" →
    lastTold ((contractsOf plan (c.producer, c.consumer)).map (·.interface)) = some c.interface ∧
    (lastTold ((contractsOf plan (c.producer, c.consumer)).map (·.agreement))).getD "" = c.agreement

/-- **The facts of a plan are kept** by another: each producer stands in a strictly earlier batch than
its consumer, and each contract with an interface is there. -/
structure FactsKept (plan plan' : IntegratedPlan) : Prop where
  ordered : ∀ producer consumer, Fact plan producer consumer →
    ∃ i j, i < j ∧ InBatch plan'.executionBatches i producer ∧
      InBatch plan'.executionBatches j consumer
  contracts : ∀ c ∈ plan.contracts, c.interface ≠ "" → c ∈ plan'.contracts

/-! ## The pairs of the edges -/

theorem mem_keys_dependencies {p r : String} :
    (p, r) ∈ ((plan.taskDag.flatMap dependencyEdges).foldl setDefault []).map GraphEdge.key ↔
      ∃ task ∈ plan.taskDag, task.repository = r ∧ p ∈ task.dependsOn := by
  have hkeys : (p, r) ∈
      ((plan.taskDag.flatMap dependencyEdges).foldl setDefault []).map GraphEdge.key ↔
        (p, r) ∈ (plan.taskDag.flatMap dependencyEdges).map GraphEdge.key :=
    Keyed.mem_keys_foldl_insertNew.trans (or_iff_right List.not_mem_nil)
  rw [hkeys]
  simp only [List.mem_map, List.mem_flatMap, dependencyEdges]
  constructor
  · rintro ⟨e, ⟨task, htask, dep, hdep, rfl⟩, hkey⟩
    obtain ⟨rfl, rfl⟩ := Prod.mk.inj hkey
    exact ⟨task, htask, rfl, hdep⟩
  · rintro ⟨task, htask, rfl, hdep⟩
    exact ⟨_, ⟨task, htask, p, hdep, rfl⟩, rfl⟩

theorem keys_addContract (edges : List GraphEdge) (c : ContractSpec) (k : String × String) :
    k ∈ (addContract edges c).map GraphEdge.key ↔
      k ∈ edges.map GraphEdge.key ∨ k = (c.producer, c.consumer) := by
  rw [addContract]
  split_ifs with hkey
  · have hkeys := @Keyed.keys_write _ _ _ GraphEdge.key edges (c.producer, c.consumer)
      (fun existing => { existing with
        interface := orElse (some c.interface) existing.interface
        agreement := orElse (some c.agreement) existing.agreement }) fun _ h => h
    rw [hkeys]
    exact ⟨Or.inl, fun h => h.elim id fun heq => heq ▸ hkey⟩
  · rw [List.map_append, List.mem_append]
    simp [GraphEdge.key]

theorem mem_keys_addContracts {edges : List GraphEdge} {contracts : List ContractSpec}
    {k : String × String} :
    k ∈ (contracts.foldl addContract edges).map GraphEdge.key ↔
      k ∈ edges.map GraphEdge.key ∨ ∃ c ∈ contracts, (c.producer, c.consumer) = k := by
  induction contracts generalizing edges with
  | nil => simp
  | cons c contracts ih =>
    rw [List.foldl_cons, ih, keys_addContract, or_assoc]
    simp [eq_comm]

theorem mem_keys_factEdges {p r : String} :
    (p, r) ∈ (factEdges plan).map GraphEdge.key ↔ Fact plan p r := by
  rw [factEdges, mem_keys_addContracts, mem_keys_dependencies, Fact]
  simp only [Prod.mk.injEq]

/-- **What an order adds**: its pairs that reverse no edge, and none of its own pairs before. -/
theorem mem_keys_addOrders {edges orders : List GraphEdge} {a b : String} :
    (a, b) ∈ (orders.foldl addOrder edges).map GraphEdge.key ↔
      (a, b) ∈ edges.map GraphEdge.key ∨ (b, a) ∉ edges.map GraphEdge.key ∧
        ∃ before rest, orders.map GraphEdge.key = before ++ (a, b) :: rest ∧ (b, a) ∉ before := by
  induction orders generalizing edges with
  | nil => simp
  | cons o orders ih =>
    have hcons : (∃ before rest, (o :: orders).map GraphEdge.key = before ++ (a, b) :: rest ∧
        (b, a) ∉ before) ↔ o.key = (a, b) ∨ o.key ≠ (b, a) ∧
          ∃ before rest, orders.map GraphEdge.key = before ++ (a, b) :: rest ∧ (b, a) ∉ before := by
      constructor
      · rintro ⟨before, rest, heq, hbefore⟩
        cases before with
        | nil => exact Or.inl (List.cons.inj heq).1
        | cons k before =>
          obtain ⟨rfl, hrest⟩ := List.cons.inj heq
          rw [List.mem_cons, not_or] at hbefore
          exact Or.inr ⟨fun h => hbefore.1 h.symm, before, rest, hrest, hbefore.2⟩
      · rintro (hkey | ⟨hkey, before, rest, hrest, hbefore⟩)
        · exact ⟨[], orders.map GraphEdge.key, by rw [List.map_cons, hkey]; rfl, List.not_mem_nil⟩
        · refine ⟨o.key :: before, rest, by rw [List.map_cons, hrest]; rfl, ?_⟩
          rw [List.mem_cons, not_or]
          exact ⟨fun h => hkey h.symm, hbefore⟩
    have hsame : o.key = (a, b) → (o.to_, o.from_) = (b, a) := by
      intro h
      obtain ⟨hfrom, hto⟩ := Prod.mk.inj h
      rw [hfrom, hto]
    have hswap : o.key = (b, a) → (o.to_, o.from_) = (a, b) := by
      intro h
      obtain ⟨hfrom, hto⟩ := Prod.mk.inj h
      rw [hfrom, hto]
    rw [List.foldl_cons, ih, hcons, addOrder]
    split_ifs with hold
    · -- The pair, or the reverse one, is there: nothing of the order's first pair is new.
      refine or_congr_right' fun hab => and_congr_right fun hba => ?_
      have hne : o.key ≠ (a, b) := by
        intro h
        rcases hold with hmem | hmem
        · exact hab (h ▸ hmem)
        · exact hba (hsame h ▸ hmem)
      have hne' : o.key ≠ (b, a) := by
        intro h
        rcases hold with hmem | hmem
        · exact hba (h ▸ hmem)
        · exact hab (hswap h ▸ hmem)
      rw [or_iff_right hne, and_iff_right hne']
    · have hkeys : ∀ k, k ∈ (edges ++ [o]).map GraphEdge.key ↔ k ∈ edges.map GraphEdge.key ∨ o.key = k := by
        intro k
        rw [List.map_append, List.mem_append]
        simp [eq_comm]
      have hfree : o.key = (a, b) → (b, a) ∉ edges.map GraphEdge.key :=
        fun h hmem => hold (Or.inr (hsame h ▸ hmem))
      rw [hkeys, hkeys, not_or]
      by_cases hkey : o.key = (a, b)
      · exact iff_of_true (Or.inl (Or.inr hkey)) (Or.inr ⟨hfree hkey, Or.inl hkey⟩)
      · rw [or_iff_left hkey, or_iff_right hkey, and_assoc]

/-- **The pairs of the edges** of a plan. -/
theorem mem_keys_planEdges {p r : String} :
    (p, r) ∈ (planEdges plan).map GraphEdge.key ↔ Leads plan p r := by
  rw [planEdges, mem_keys_addOrders, mem_keys_factEdges, mem_keys_factEdges]
  rfl

/-! ## The words of the edges -/

theorem lastTold_concat (texts : List String) (text : String) :
    lastTold (texts ++ [text]) = (told (some text)).or (lastTold texts) := by
  rw [lastTold, lastTold, List.reverse_append, List.reverse_singleton, List.singleton_append,
    List.find?_cons, told, Option.filter_some]
  by_cases htext : text = ""
  · simp [htext]
  · simp [htext]

theorem told_orElse (text other : Option String) : told (orElse text other) = (told text).or (told other) := by
  rw [orElse]
  cases htext : told text with
  | none => rfl
  | some s =>
    have hsaid : told (some s) = some s := by
      rw [told, Option.filter_some, if_pos (by simpa using ne_of_told htext)]
    rw [Option.some_or, Option.some_or, hsaid]

/-- The words of an edge are those that some contracts say last. -/
def Words (contracts : List ContractSpec) (e : GraphEdge) : Prop :=
  told e.interface = lastTold ((contracts.filter fun c => (c.producer, c.consumer) = e.key).map
      (·.interface)) ∧
    told e.agreement = lastTold ((contracts.filter fun c => (c.producer, c.consumer) = e.key).map
      (·.agreement))

/-- What holds of edges that some contracts were added to. -/
structure Merged (contracts : List ContractSpec) (edges : List GraphEdge) : Prop where
  status : ∀ e ∈ edges, e.status = .confirmed
  words : ∀ e ∈ edges, Words contracts e
  keys : (edges.map GraphEdge.key).Nodup
  pairs : ∀ c ∈ contracts, (c.producer, c.consumer) ∈ edges.map GraphEdge.key

theorem merged_dependencies (plan : IntegratedPlan) :
    Merged [] ((plan.taskDag.flatMap dependencyEdges).foldl setDefault []) := by
  have hfact : ∀ e ∈ (plan.taskDag.flatMap dependencyEdges).foldl setDefault [],
      ∃ a b, ({ from_ := a, to_ := b, status := .confirmed, source := .llm } : GraphEdge) = e := by
    intro e he
    have hmem := (Keyed.mem_foldl_insertNew he).resolve_left List.not_mem_nil
    obtain ⟨task, -, hdep⟩ := List.mem_flatMap.mp hmem
    obtain ⟨dep, -, rfl⟩ := List.mem_map.mp hdep
    exact ⟨dep, task.repository, rfl⟩
  refine ⟨fun e he => ?_, fun e he => ?_, Keyed.nodup_foldl_insertNew List.nodup_nil, by simp⟩
  · obtain ⟨a, b, rfl⟩ := hfact e he
    rfl
  · obtain ⟨a, b, rfl⟩ := hfact e he
    exact ⟨rfl, rfl⟩

theorem words_concat {contracts : List ContractSpec} {c : ContractSpec} {e : GraphEdge} :
    Words (contracts ++ [c]) e ↔ if (c.producer, c.consumer) = e.key then
      told e.interface = (told (some c.interface)).or (lastTold
        ((contracts.filter fun c => (c.producer, c.consumer) = e.key).map (·.interface))) ∧
      told e.agreement = (told (some c.agreement)).or (lastTold
        ((contracts.filter fun c => (c.producer, c.consumer) = e.key).map (·.agreement)))
    else Words contracts e := by
  rw [Words, List.filter_append]
  split_ifs with hpair
  · have hlast : [c].filter (fun c => (c.producer, c.consumer) = e.key) = [c] := by simp [hpair]
    rw [hlast, List.map_append, List.map_append]
    exact and_congr (by rw [← lastTold_concat]; rfl) (by rw [← lastTold_concat]; rfl)
  · have hnone : [c].filter (fun c => (c.producer, c.consumer) = e.key) = [] := by simp [hpair]
    rw [hnone, List.append_nil]
    rfl

/-- **Adding a contract.** -/
theorem Merged.add {contracts : List ContractSpec} {edges : List GraphEdge}
    (h : Merged contracts edges) (c : ContractSpec) :
    Merged (contracts ++ [c]) (addContract edges c) := by
  have hpairs : ∀ d ∈ contracts ++ [c],
      (d.producer, d.consumer) ∈ (addContract edges c).map GraphEdge.key := by
    intro d hd
    rw [keys_addContract]
    rcases List.mem_append.mp hd with hold | hnew
    · exact Or.inl (h.pairs d hold)
    · obtain rfl := List.mem_singleton.mp hnew
      exact Or.inr rfl
  by_cases hkey : (c.producer, c.consumer) ∈ edges.map GraphEdge.key
  · have hedges : addContract edges c = edges.map fun e => upgrade e c := by
      rw [addContract, if_pos hkey]
      rfl
    refine ⟨fun e he => ?_, fun e he => ?_, ?_, hpairs⟩
    · rw [hedges] at he
      obtain ⟨fact, hfact, rfl⟩ := List.mem_map.mp he
      rw [upgrade]
      split_ifs
      · exact h.status fact hfact
      · exact h.status fact hfact
    · rw [hedges] at he
      obtain ⟨fact, hfact, rfl⟩ := List.mem_map.mp he
      obtain ⟨hinterface, hagreement⟩ := h.words fact hfact
      rw [words_concat, key_upgrade]
      split_ifs with hpair
      · rw [upgrade, if_pos hpair.symm, told_orElse, told_orElse, hinterface, hagreement]
        exact ⟨rfl, rfl⟩
      · rw [upgrade, if_neg fun heq => hpair heq.symm]
        exact ⟨hinterface, hagreement⟩
    · have hsame : (edges.map fun e => upgrade e c).map GraphEdge.key = edges.map GraphEdge.key := by
        rw [List.map_map]
        exact List.map_congr_left fun e _ => key_upgrade e c
      rw [hedges, hsame]
      exact h.keys
  · have hedges : addContract edges c = edges ++ [{
        from_ := c.producer, to_ := c.consumer, status := .confirmed, source := .llm
        interface := some c.interface, agreement := some c.agreement }] := by
      rw [addContract, if_neg hkey]
    rw [hedges] at hpairs ⊢
    refine ⟨fun e he => ?_, fun e he => ?_, ?_, hpairs⟩
    · rcases List.mem_append.mp he with hold | hnew
      · exact h.status e hold
      · obtain rfl := List.mem_singleton.mp hnew
        rfl
    · rw [words_concat]
      rcases List.mem_append.mp he with hold | hnew
      · have hother : (c.producer, c.consumer) ≠ e.key := by
          intro hpair
          rw [hpair] at hkey
          exact hkey (List.mem_map_of_mem hold)
        rw [if_neg hother]
        exact h.words e hold
      · -- No contract of the pair came before.
        have heq := List.mem_singleton.mp hnew
        have hpair : e.key = (c.producer, c.consumer) := by rw [heq]; rfl
        have hinterface : e.interface = some c.interface := by rw [heq]
        have hagreement : e.agreement = some c.agreement := by rw [heq]
        have hnone : contracts.filter (fun d => (d.producer, d.consumer) = e.key) = [] := by
          refine List.filter_eq_nil_iff.mpr fun d hd hsame => hkey ?_
          rw [← hpair, ← of_decide_eq_true hsame]
          exact h.pairs d hd
        rw [if_pos hpair.symm, hnone, hinterface, hagreement]
        exact ⟨Option.or_none.symm, Option.or_none.symm⟩
    · refine Keyed.nodup_append h.keys fun e he heq => hkey ?_
      have hpair : e.key = (c.producer, c.consumer) := heq
      rw [← hpair]
      exact List.mem_map_of_mem he

theorem merged_factEdges (plan : IntegratedPlan) : Merged plan.contracts (factEdges plan) := by
  have hall : ∀ contracts : List ContractSpec, Merged contracts (contracts.foldl addContract
      ((plan.taskDag.flatMap dependencyEdges).foldl setDefault [])) := by
    intro contracts
    induction contracts using List.reverseRecOn with
    | nil => exact merged_dependencies plan
    | append_singleton front c ih =>
      rw [List.foldl_append]
      exact ih.add c
  exact hall plan.contracts

/-! ## The graph -/

theorem foldl_addOrder_spec {edges orders : List GraphEdge} (hkeys : (edges.map GraphEdge.key).Nodup) :
    ((orders.foldl addOrder edges).map GraphEdge.key).Nodup ∧
      (∀ e ∈ edges, e ∈ orders.foldl addOrder edges) ∧
      ∀ e ∈ orders.foldl addOrder edges, e ∈ edges ∨ e ∈ orders := by
  induction orders generalizing edges with
  | nil => exact ⟨hkeys, fun e he => he, fun e he => Or.inl he⟩
  | cons o orders ih =>
    rw [List.foldl_cons, addOrder]
    split_ifs with hold
    · obtain ⟨hnodup, hkept, hall⟩ := ih hkeys
      exact ⟨hnodup, hkept, fun e he => (hall e he).imp_right (List.mem_cons_of_mem _)⟩
    · rw [not_or] at hold
      have hnew : ((edges ++ [o]).map GraphEdge.key).Nodup :=
        Keyed.nodup_append hkeys fun e he heq => hold.1 (heq ▸ List.mem_map_of_mem he)
      obtain ⟨hnodup, hkept, hall⟩ := ih hnew
      refine ⟨hnodup, fun e he => hkept e (List.mem_append_left _ he), fun e he => ?_⟩
      rcases hall e he with hmem | hmem
      · rcases List.mem_append.mp hmem with hedge | horder
        · exact Or.inl hedge
        · exact Or.inr (List.mem_singleton.mp horder ▸ List.mem_cons_self)
      · exact Or.inr (List.mem_cons_of_mem _ hmem)

theorem order_spec {batches : List (List String)} {names : List String} {e : GraphEdge}
    (he : e ∈ tmOrderEdges batches names) :
    e.status = .confirmed ∧ told e.interface = none ∧ e.from_ ≠ e.to_ := by
  obtain ⟨i, a, b, -, -, hskip, rfl⟩ := mem_tmOrderEdges.mp he
  rw [not_or] at hskip
  exact ⟨rfl, rfl, hskip.1⟩

theorem ne_of_serialised {a b : String} (h : Serialised plan a b) : a ≠ b := by
  obtain ⟨-, before, rest, heq, -⟩ := h
  have hmem : (a, b) ∈ orderPairs plan := by simp [heq]
  obtain ⟨e, he, hkey⟩ := List.mem_map.mp hmem
  obtain ⟨rfl, rfl⟩ := Prod.mk.inj hkey
  exact (order_spec he).2.2

theorem planEdges_spec (plan : IntegratedPlan) :
    ((planEdges plan).map GraphEdge.key).Nodup ∧ (∀ e ∈ planEdges plan, e.status = .confirmed) ∧
      (∀ e ∈ factEdges plan, e ∈ planEdges plan) ∧
      ∀ e ∈ planEdges plan, told e.interface ≠ none → e ∈ factEdges plan := by
  have hmerged := merged_factEdges plan
  obtain ⟨hkeys, hkept, hall⟩ := @foldl_addOrder_spec (factEdges plan)
    (tmOrderEdges plan.executionBatches (plan.taskDag.map (·.repository))) hmerged.keys
  refine ⟨hkeys, fun e he => ?_, hkept, fun e he htold => ?_⟩
  · rcases hall e he with hfact | horder
    · exact hmerged.status e hfact
    · exact (order_spec horder).1
  · rcases hall e he with hfact | horder
    · exact hfact
    · exact absurd (order_spec horder).2.1 htold

/-- **The graph that is backfilled** holds the edges of the plan, without self-loops. -/
theorem planToGraph_spec (plan : IntegratedPlan) : ∃ g, planToGraph plan = .ok g ∧
    ∀ e, e ∈ g.edges ↔ e ∈ planEdges plan ∧ e.from_ ≠ e.to_ := by
  obtain ⟨edges, hedges⟩ : ∃ edges, deriveEdges
      (completeNodes (plan.taskDag.map taskNode) (planEdges plan)) (planEdges plan) = .ok edges :=
    deriveFrom_ok (covered_completeNodes _ _)
  obtain ⟨hderived, hread⟩ := derived_deriveFrom hedges
  refine ⟨PlanGraph.ofDerived 1 _ edges le_rfl hderived, ?_, fun e => ⟨fun he => ?_, fun he => ?_⟩⟩
  · rw [planToGraph, PlanGraph.validate, dif_pos le_rfl]
    split
    · next h =>
      rw [hedges] at h
      cases h
    · next h =>
      rw [hedges] at h
      obtain rfl := Except.ok.inj h
      rfl
  · exact ⟨(hread e he).1, hderived.loopless e he⟩
  · rcases key_mem_of_deriveFrom hedges he.1 he.2 with hseen | hmem
    · cases hseen
    · obtain ⟨e', he', hkey⟩ := List.mem_map.mp hmem
      have hsame := List.inj_on_of_nodup_map (planEdges_spec plan).1 (hread e' he').1 he.1 hkey
      exact hsame ▸ he'

/-- **Stuck repositories share the last batch.** -/
theorem stuck_executionBatches {g : PlanGraph} {i j : ℕ} {p r : String}
    (hp : InBatch g.executionBatches i p) (hr : InBatch g.executionBatches j r)
    (hstuck : Stuck (Confirmed g.edges) r) :
    (Stuck (Confirmed g.edges) p → i = j) ∧ (¬ Stuck (Confirmed g.edges) p → i < j) := by
  rw [executionBatches_levels] at hp hr
  rw [← stuck_confirmedProducers] at hstuck ⊢
  refine inBatch_stuck le_rfl (fun q hq => absurd hq List.not_mem_nil) ?_ hp hr hstuck
  exact fun q hq p' hp' => Or.inr (closed_confirmedProducers g q hq p' hp')

section Graph

variable {g : PlanGraph} (hedges : ∀ e, e ∈ g.edges ↔ e ∈ planEdges plan ∧ e.from_ ≠ e.to_)
include hedges

theorem confirmed_iff_leads {p r : String} : Confirmed g.edges p r ↔ Leads plan p r ∧ p ≠ r := by
  constructor
  · rintro ⟨e, he, -, rfl, rfl⟩
    obtain ⟨hplan, hne⟩ := (hedges e).mp he
    exact ⟨mem_keys_planEdges.mp (List.mem_map_of_mem hplan), hne⟩
  · rintro ⟨hleads, hne⟩
    obtain ⟨e, he, hkey⟩ := List.mem_map.mp (mem_keys_planEdges.mpr hleads)
    obtain ⟨rfl, rfl⟩ := Prod.mk.inj hkey
    exact ⟨e, (hedges e).mpr ⟨he, hne⟩, (planEdges_spec plan).2.1 e he, rfl, rfl⟩

theorem confirmed_eq_leads (hloopless : ∀ r, ¬ Fact plan r r) : Confirmed g.edges = Leads plan := by
  funext p r
  refine propext ((confirmed_iff_leads hedges).trans (and_iff_left_of_imp ?_))
  rintro (hfact | horder)
  · rintro rfl
    exact hloopless p hfact
  · exact ne_of_serialised horder

theorem exists_inBatch_of_fact (hloopless : ∀ r, ¬ Fact plan r r) {p r : String}
    (hfact : Fact plan p r) :
    (∃ i, InBatch g.executionBatches i p) ∧ ∃ j, InBatch g.executionBatches j r := by
  have hconfirmed : Confirmed g.edges p r := by
    rw [confirmed_eq_leads hedges hloopless]
    exact Or.inl hfact
  obtain ⟨e, he, -, rfl, rfl⟩ := hconfirmed
  have hnames := (partition_executionBatches g).2.1
  obtain ⟨hfrom, hto⟩ := g.edges_derived.covered e he
  exact ⟨exists_inBatch.mpr ((hnames _).mpr hfrom), exists_inBatch.mpr ((hnames _).mpr hto)⟩

/-- **Producers come first** exactly where no producer of a fact is stuck. -/
theorem ordered_iff : (∀ p r, Fact plan p r → ∃ i j, i < j ∧ InBatch g.executionBatches i p ∧
    InBatch g.executionBatches j r) ↔ Untangled plan := by
  by_cases hloopless : ∀ r, ¬ Fact plan r r
  · have hsame := confirmed_eq_leads hedges hloopless
    constructor
    · intro hordered p r hfact hstuck
      obtain ⟨i, j, hij, hi, hj⟩ := hordered p r hfact
      have hr : Stuck (Leads plan) r := hstuck.tail (Or.inl hfact)
      rw [← hsame] at hstuck hr
      have heq := (stuck_executionBatches hi hj hr).1 hstuck
      omega
    · intro huntangled p r hfact
      obtain ⟨⟨i, hi⟩, j, hj⟩ := exists_inBatch_of_fact hedges hloopless hfact
      have hfree : ¬ Stuck (Confirmed g.edges) p := by
        rw [hsame]
        exact huntangled p r hfact
      by_cases hr : Stuck (Confirmed g.edges) r
      · exact ⟨i, j, (stuck_executionBatches hi hj hr).2 hfree, hi, hj⟩
      · have hconfirmed : Confirmed g.edges p r := by
          rw [hsame]
          exact Or.inl hfact
        obtain ⟨e, he, hstatus, rfl, rfl⟩ := hconfirmed
        exact ordered_executionBatches g he hstatus hr
  · obtain ⟨r, hself⟩ := not_forall_not.mp hloopless
    refine iff_of_false (fun hordered => ?_) fun huntangled => ?_
    · obtain ⟨i, j, hij, hi, hj⟩ := hordered r r hself
      have heq := hi.unique (partition_executionBatches g).1 hj
      omega
    · exact huntangled r r hself ⟨r, Relation.TransGen.single (Or.inl hself),
        Relation.ReflTransGen.refl⟩

/-- **A contract is kept** exactly where it has the words of its pair. -/
theorem mem_contracts_iff (hloopless : ∀ r, ¬ Fact plan r r) {c : ContractSpec} (hc : c ∈ plan.contracts)
    (hinterface : c.interface ≠ "") : c ∈ g.contracts.map contractOf ↔
      lastTold ((contractsOf plan (c.producer, c.consumer)).map (·.interface)) = some c.interface ∧
      (lastTold ((contractsOf plan (c.producer, c.consumer)).map (·.agreement))).getD ""
        = c.agreement := by
  have hmerged := merged_factEdges plan
  obtain ⟨hkeys, hconfirmed, hkept, htold⟩ := planEdges_spec plan
  have hsaid : ∀ text : Option String, (told text).getD "" = text.getD "" := by
    intro text
    cases text with
    | none => rfl
    | some s =>
      have hsame := getD_orElse s
      rwa [orElse, Option.or_none] at hsame
  rw [g.contracts_eq, List.mem_map]
  simp only [mem_projectContracts]
  constructor
  · rintro ⟨view, ⟨e, he, -, i, hi, rfl⟩, rfl⟩
    have hfact := htold e ((hedges e).mp he).1 (by rw [hi]; simp)
    obtain ⟨hwords, hagreement⟩ := hmerged.words e hfact
    constructor
    · exact hwords.symm.trans hi
    · show (lastTold ((plan.contracts.filter fun c => (c.producer, c.consumer) = e.key).map
        (·.agreement))).getD "" = e.agreement.getD ""
      rw [← hagreement, hsaid]
  · rintro ⟨hlast, hagreed⟩
    obtain ⟨e, he, hkey⟩ := List.mem_map.mp (hmerged.pairs c hc)
    obtain ⟨hwords, hagreement⟩ := hmerged.words e he
    obtain ⟨hfrom, hto⟩ := Prod.mk.inj hkey
    have hne : e.from_ ≠ e.to_ := by
      intro hself
      rw [hfrom, hto] at hself
      refine hloopless c.consumer (Or.inr ⟨c, hc, hself, rfl⟩)
    refine ⟨⟨e.from_, e.to_, c.interface, e.agreement⟩, ⟨e, (hedges e).mpr ⟨hkept e he, hne⟩,
      hmerged.status e he, c.interface, ?_, rfl⟩, ?_⟩
    · rw [hwords, hkey]
      exact hlast
    · rw [hkey] at hagreement
      rw [contractOf, hfrom, hto, ← hsaid, hagreement]
      have hsame : (lastTold ((plan.contracts.filter fun d =>
          (d.producer, d.consumer) = (c.producer, c.consumer)).map (·.agreement))).getD ""
          = c.agreement := hagreed
      rw [hsame]

end Graph

/-- **When the facts are kept.** In the normalised plan each producer of a fact stands in a strictly
earlier batch than its consumer, and each contract with an interface is there, exactly where no producer
of a fact is on, or downstream of, a cycle of facts and order pairs, and the contracts of one pair that
have an interface say what the last ones say. -/
theorem factsKept_iff (plan : IntegratedPlan) : ∃ g, planToGraph plan = .ok g ∧
    (FactsKept plan (normalizePlan plan g) ↔ Untangled plan ∧ Agreeing plan) := by
  obtain ⟨g, hg, hedges⟩ := planToGraph_spec plan
  have hbatches : (normalizePlan plan g).executionBatches = g.executionBatches :=
    g.executionBatches_eq.symm
  have hsplit : FactsKept plan (normalizePlan plan g) ↔ Untangled plan ∧
      ∀ c ∈ plan.contracts, c.interface ≠ "" → c ∈ g.contracts.map contractOf := by
    rw [← ordered_iff hedges]
    constructor
    · rintro ⟨hordered, hcontracts⟩
      rw [hbatches] at hordered
      exact ⟨hordered, hcontracts⟩
    · rintro ⟨hordered, hcontracts⟩
      refine ⟨?_, hcontracts⟩
      rw [hbatches]
      exact hordered
  refine ⟨g, hg, hsplit.trans (and_congr_right fun huntangled => ?_)⟩
  have hloopless : ∀ r, ¬ Fact plan r r := fun r hself =>
    huntangled r r hself ⟨r, Relation.TransGen.single (Or.inl hself), Relation.ReflTransGen.refl⟩
  exact forall_congr' fun c => forall_congr' fun hc => forall_congr' fun hinterface =>
    mem_contracts_iff hedges hloopless hc hinterface

/-- The consumer depends on the producer, and the order puts two other steps between them the other way
round. -/
def tangledPlan : IntegratedPlan where
  engineeringSpec := "Rename a field."
  contracts := []
  taskDag := [⟨"api", .text "Rename it.", [], [], []⟩, ⟨"docs", .text "Describe it.", [], [], []⟩,
    ⟨"web", .text "Show it.", ["api"], [], []⟩]
  executionBatches := [["web"], ["docs"], ["api"]]

/-- **A manual order overrides a fact**: the only fact of the plan is that `web` depends on `api`, and
all repositories share one batch. -/
theorem tangledPlan_not_kept : (∀ r, ¬ Relation.TransGen (Fact tangledPlan) r r) ∧
    ∀ g, planToGraph tangledPlan = .ok g → ¬ FactsKept tangledPlan (normalizePlan tangledPlan g) := by
  have hfacts : ∀ p r, Fact tangledPlan p r → p = "api" ∧ r = "web" := by
    rintro p r (⟨task, htask, rfl, hdep⟩ | ⟨c, hc, -⟩)
    · simp only [tangledPlan, List.mem_cons, List.not_mem_nil, or_false] at htask
      rcases htask with rfl | rfl | rfl
      · cases hdep
      · cases hdep
      · exact ⟨List.mem_singleton.mp hdep, rfl⟩
    · cases hc
  constructor
  · intro r hcycle
    obtain ⟨p, hfirst, -⟩ := Relation.TransGen.head'_iff.mp hcycle
    obtain ⟨q, -, hlast⟩ := Relation.TransGen.tail'_iff.mp hcycle
    have hsame : "api" = "web" := (hfacts r p hfirst).1.symm.trans (hfacts q r hlast).2
    exact absurd hsame (by decide)
  · intro g hg hkept
    have hbatches : (planToGraph tangledPlan).toOption.map (·.executionBatches)
        = some [["api", "docs", "web"]] := by decide +kernel
    rw [hg] at hbatches
    obtain ⟨i, j, hij, ⟨batch, hbatch, -⟩, batch', hbatch', -⟩ := hkept.ordered "api" "web"
      (Or.inl ⟨⟨"web", .text "Show it.", ["api"], [], []⟩, by simp [tangledPlan], rfl, by simp⟩)
    have hone : (normalizePlan tangledPlan g).executionBatches = [["api", "docs", "web"]] :=
      g.executionBatches_eq.symm.trans (Option.some.inj hbatches)
    rw [hone] at hbatch hbatch'
    have hi := (List.getElem?_eq_some_iff.mp hbatch).1
    have hj := (List.getElem?_eq_some_iff.mp hbatch').1
    simp only [List.length_singleton] at hi hj
    omega

end Planning
end RepoMesh
