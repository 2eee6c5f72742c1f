/-
# Versions and links of the decision chain

What one turn of the loop of `drain` makes of a chain, and what holds of every chain that drains have
made: an event has at most one node, the versions of a step have no gap, and an upstream node exists
in the same project at an earlier step.
-/
import Mathlib.Data.List.Nodup
import RepoMesh.DecisionChain.Projection
import RepoMesh.Foundation.Backlog

namespace RepoMesh
namespace DecisionChain

open Delivery (UUID)
open Json (Fault)

/-! ## One event -/

/-- The event lacks an identity, and `drain` passes over it. -/
def unowned (event : EventEnvelope) : Bool :=
  event.organizationId.isNone || event.projectId.isNone

/-- What one turn of the loop makes of the chain, unless it raises. -/
def takeEvent (ids : ℕ → UUID) (chain : Chain) (event : EventEnvelope) : Option Chain :=
  match event.organizationId, event.projectId with
  | some organizationId, some projectId =>
    match projectNode chain event organizationId projectId with
    | .error _ => none
    | .ok node => some (append ids chain node)
  | _, _ => some chain

/-- **The loop of `drain` is a pass** over its events. -/
theorem drainEvents_chain (ids : ℕ → UUID) (events : List EventEnvelope) (projected : ℕ)
    (chain : Chain) : (drainEvents ids events projected chain).2
      = Backlog.pass unowned (takeEvent ids) events chain := by
  induction events generalizing projected chain with
  | nil => rfl
  | cons event events ih =>
    rw [drainEvents, Backlog.pass, unowned, takeEvent]
    cases event.organizationId with
    | none => exact ih _ _
    | some organizationId =>
      cases event.projectId with
      | none => exact ih _ _
      | some projectId =>
        simp only [Option.isNone_some, Bool.or_self, Bool.false_eq_true, if_false]
        cases projectNode chain event organizationId projectId with
        | error fault => rfl
        | ok node => exact ih _ _

/-- The identities of a node that come from its event. -/
def DecisionNodeView.key (n : DecisionNodeView) : UUID × Option UUID × DecisionStep :=
  (n.eventId, some n.projectId, n.step)

/-- The same identities of an event. -/
def EventEnvelope.key (event : EventEnvelope) : UUID × Option UUID × DecisionStep :=
  (event.eventId, event.projectId, event.step)

/-- The node stores its tiers as a dictionary, if it is one of a classification. -/
def DecisionNodeView.KeepsTiers (n : DecisionNodeView) : Prop :=
  n.step = .classification →
    ∃ tiers, (Json.obj n.payloadSummary).get? "effective_tiers" = some (.obj tiers)

theorem payloadSummary_tiers {event : EventEnvelope} {summary : List (String × Json)}
    (hstep : event.step = .classification) (h : event.payloadSummary = .ok summary) :
    ∃ tiers, (Json.obj summary).get? "effective_tiers" = some (.obj tiers) := by
  have htype : event.eventType = .classificationDecided := by
    rw [EventEnvelope.step] at hstep
    cases heq : event.eventType <;> rw [heq] at hstep <;> simp_all
  rw [EventEnvelope.payloadSummary, htype] at h
  obtain ⟨required, -, h⟩ := Fallible.bind_ok h
  obtain ⟨maybe, -, h⟩ := Fallible.bind_ok h
  obtain ⟨excluded, -, h⟩ := Fallible.bind_ok h
  obtain ⟨stored, -, h⟩ := Fallible.bind_ok h
  obtain ⟨effective, -, h⟩ := Fallible.bind_ok h
  obtain ⟨supplemented, -, h⟩ := Fallible.bind_ok h
  obtain rfl := Except.ok.inj h
  exact ⟨effective, by simp [Json.get?]⟩

theorem projectNode_ok {chain : Chain} {event : EventEnvelope} {organizationId projectId : UUID}
    {node : DecisionNodeInput} (h : projectNode chain event organizationId projectId = .ok node) :
    node.eventId = event.eventId ∧ node.projectId = projectId ∧ node.step = event.step ∧
      (node.step = .classification →
        ∃ tiers, (Json.obj node.payloadSummary).get? "effective_tiers" = some (.obj tiers)) := by
  rw [projectNode] at h
  obtain ⟨status, -, h⟩ := Fallible.bind_ok h
  obtain ⟨actor, -, h⟩ := Fallible.bind_ok h
  obtain ⟨evidenceRefs, -, h⟩ := Fallible.bind_ok h
  obtain ⟨summary, hsummary, h⟩ := Fallible.bind_ok h
  obtain ⟨hint, -, h⟩ := Fallible.bind_ok h
  by_cases hconfirmation : event.step = .confirmation
  · simp only [if_pos hconfirmation] at h
    obtain ⟨payloadSummary, -, h⟩ := Fallible.bind_ok h
    obtain ⟨affected, -, h⟩ := Fallible.bind_ok h
    obtain rfl := Except.ok.inj h
    refine ⟨rfl, rfl, rfl, fun hstep => ?_⟩
    rw [hconfirmation] at hstep
    cases hstep
  · simp only [if_neg hconfirmation] at h
    obtain ⟨payloadSummary, hpayload, h⟩ := Fallible.bind_ok h
    obtain ⟨affected, -, h⟩ := Fallible.bind_ok h
    obtain rfl := Except.ok.inj h
    obtain rfl := Except.ok.inj hpayload
    exact ⟨rfl, rfl, rfl, fun hstep => payloadSummary_tiers hstep hsummary⟩

theorem takeEvent_cases {ids : ℕ → UUID} {chain chain' : Chain} {event : EventEnvelope}
    (h : takeEvent ids chain event = some chain') : (unowned event = true ∧ chain' = chain) ∨
      ∃ organizationId projectId node, event.organizationId = some organizationId ∧
        event.projectId = some projectId ∧
        projectNode chain event organizationId projectId = .ok node ∧
        chain' = append ids chain node := by
  rw [takeEvent] at h
  cases horg : event.organizationId with
  | none =>
    rw [horg] at h
    exact Or.inl ⟨by simp [unowned, horg], (Option.some.inj h).symm⟩
  | some organizationId =>
    cases hproject : event.projectId with
    | none =>
      rw [horg, hproject] at h
      exact Or.inl ⟨by simp [unowned, hproject], (Option.some.inj h).symm⟩
    | some projectId =>
      rw [horg, hproject] at h
      simp only at h
      cases hnode : projectNode chain event organizationId projectId with
      | error fault =>
        rw [hnode] at h
        cases h
      | ok node =>
        rw [hnode] at h
        exact Or.inr ⟨organizationId, projectId, node, rfl, rfl, hnode, (Option.some.inj h).symm⟩

/-! ## Appending -/

/-- The node that `append` adds. -/
def viewOf (ids : ℕ → UUID) (chain : Chain) (node : DecisionNodeInput) : DecisionNodeView :=
  let links := resolveChainLinks (chain.filter fun n => n.projectId = node.projectId) node
  { decisionId := ids chain.length, eventId := node.eventId, projectId := node.projectId
    organizationId := node.organizationId, step := node.step, version := links.1
    status := node.status, actor := node.actor, upstreamRef := links.2
    evidenceRefs := node.evidenceRefs, payloadSummary := node.payloadSummary
    affectedRepositoryIds := node.affectedRepositoryIds, businessTime := node.businessTime
    eventType := node.eventType }

theorem append_eq (ids : ℕ → UUID) (chain : Chain) (node : DecisionNodeInput) :
    append ids chain node = if chain.any fun n => n.eventId = node.eventId then chain
      else chain ++ [viewOf ids chain node] := rfl

/-- The nodes of a step, in the order they were appended. -/
def nodesOf (chain : Chain) (projectId : UUID) (step : DecisionStep) : List DecisionNodeView :=
  chain.filter fun n => n.projectId = projectId && n.step = step

/-- **A chain is linked**: an event has one node at most, the versions of a step are `1, 2, …` without
a gap, and an upstream node exists in the same project at an earlier step. -/
structure Linked (chain : Chain) : Prop where
  once : (chain.map (·.eventId)).Nodup
  versions : ∀ projectId step, (nodesOf chain projectId step).map (·.version)
    = (List.range (nodesOf chain projectId step).length).map (· + 1)
  upstream : ∀ n ∈ chain, ∀ ref, n.upstreamRef = some ref → ∃ u ∈ chain, u.decisionId = ref ∧
    u.projectId = n.projectId ∧ u.step.chainOrder < n.step.chainOrder

theorem foldl_max_range (k : ℕ) : ((List.range k).map (· + 1)).foldl max 0 = k := by
  induction k with
  | zero => rfl
  | succ k ih =>
    rw [List.range_succ, List.map_append, List.foldl_append, ih]
    simp

theorem foldl_choice_mem {α : Type*} {choose : Option α → α → Option α}
    (hchoose : ∀ best a, choose best a = some a ∨ choose best a = best) {items : List α}
    {best : Option α} {n : α} (h : items.foldl choose best = some n) : n ∈ items ∨ best = some n := by
  induction items generalizing best with
  | nil => exact Or.inr h
  | cons m items ih =>
    rw [List.foldl_cons] at h
    rcases ih h with hmem | hbest
    · exact Or.inl (List.mem_cons_of_mem _ hmem)
    · rcases hchoose best m with hnew | hkept
      · obtain rfl := Option.some.inj (hnew.symm.trans hbest)
        exact Or.inl List.mem_cons_self
      · exact Or.inr (hkept.symm.trans hbest)

theorem newest_mem {nodes : List DecisionNodeView} {n : DecisionNodeView}
    (h : newest nodes = some n) : n ∈ nodes := by
  refine (foldl_choice_mem (fun best a => ?_) h).resolve_right (Option.some_ne_none n).symm
  cases best with
  | none => exact Or.inl rfl
  | some b =>
    dsimp only
    split_ifs with hlt
    · exact Or.inl rfl
    · exact Or.inr rfl

theorem newest_eq_none {nodes : List DecisionNodeView} : newest nodes = none ↔ nodes = [] := by
  constructor
  · intro h
    rcases List.eq_nil_or_concat nodes with rfl | ⟨front, n, rfl⟩
    · rfl
    · exfalso
      rw [newest, List.concat_eq_append, List.foldl_concat] at h
      split at h
      · cases h
      · split_ifs at h
  · rintro rfl
    rfl

theorem resolveChainLinks_upstream {existing : List DecisionNodeView} {node : DecisionNodeInput}
    {ref : UUID} (h : (resolveChainLinks existing node).2 = some ref) :
    ∃ u ∈ existing, u.decisionId = ref ∧ u.step.chainOrder < node.step.chainOrder := by
  rw [resolveChainLinks] at h
  simp only at h
  split_ifs at h
  obtain ⟨u, hu, rfl⟩ := Option.map_eq_some_iff.mp h
  rcases Option.or_eq_some_iff.mp hu with hhinted | ⟨-, hprevious⟩
  · obtain ⟨hint, -, hfind⟩ := Option.bind_eq_some_iff.mp hhinted
    have hpred := List.find?_some hfind
    rw [Bool.and_eq_true] at hpred
    exact ⟨u, List.mem_of_find?_eq_some hfind, rfl, by simpa using hpred.1⟩
  · have hmem := List.mem_filter.mp (newest_mem hprevious)
    have horder : u.step.chainOrder + 1 = node.step.chainOrder := by simpa using hmem.2
    exact ⟨u, hmem.1, rfl, by omega⟩

theorem viewOf_version {ids : ℕ → UUID} {chain : Chain} (h : Linked chain)
    (node : DecisionNodeInput) : (viewOf ids chain node).version
      = (nodesOf chain node.projectId node.step).length + 1 := by
  have hsame : (chain.filter fun n => n.projectId = node.projectId).filter
      (fun n => decide (n.step = node.step)) = nodesOf chain node.projectId node.step := by
    rw [List.filter_filter, nodesOf]
    refine List.filter_congr fun n _ => ?_
    rw [Bool.and_comm]
  rw [viewOf]
  simp only [resolveChainLinks]
  rw [hsame, h.versions, foldl_max_range]

/-- **Appending keeps a chain linked.** -/
theorem Linked.append {ids : ℕ → UUID} {chain : Chain} (h : Linked chain)
    (node : DecisionNodeInput) : Linked (append ids chain node) := by
  rw [append_eq]
  split_ifs with hany
  · exact h
  constructor
  · have hnew : node.eventId ∉ chain.map (·.eventId) := by
      intro hmem
      obtain ⟨n, hn, heq⟩ := List.mem_map.mp hmem
      exact hany (List.any_eq_true.mpr ⟨n, hn, by simpa using heq⟩)
    rw [List.map_append, List.nodup_append]
    refine ⟨h.once, by simp, ?_⟩
    intro eventId hmem other hother
    have hid : other = node.eventId := by simpa [viewOf] using hother
    rw [hid]
    rintro rfl
    exact hnew hmem
  · intro projectId step
    by_cases hsame : projectId = node.projectId ∧ step = node.step
    · obtain ⟨rfl, rfl⟩ := hsame
      have hnodes : nodesOf (chain ++ [viewOf ids chain node]) node.projectId node.step
          = nodesOf chain node.projectId node.step ++ [viewOf ids chain node] := by
        rw [nodesOf, List.filter_append]
        simp [viewOf, nodesOf]
      rw [hnodes, List.map_append, h.versions, List.map_singleton, viewOf_version h,
        List.length_append, List.length_singleton, List.range_succ, List.map_append,
        List.map_singleton]
    · have hnodes : nodesOf (chain ++ [viewOf ids chain node]) projectId step
          = nodesOf chain projectId step := by
        rw [nodesOf, List.filter_append]
        have hother : ([viewOf ids chain node].filter fun n =>
            n.projectId = projectId && n.step = step) = [] := by
          rw [List.filter_eq_nil_iff]
          intro n hn hboth
          rw [List.mem_singleton.mp hn] at hboth
          rw [Bool.and_eq_true, decide_eq_true_iff, decide_eq_true_iff] at hboth
          exact hsame ⟨hboth.1.symm, hboth.2.symm⟩
        rw [hother, List.append_nil, nodesOf]
      rw [hnodes]
      exact h.versions projectId step
  · intro n hn ref href
    rcases List.mem_append.mp hn with hold | hnew
    · obtain ⟨u, hu, hrest⟩ := h.upstream n hold ref href
      exact ⟨u, by simp [hu], hrest⟩
    · rw [List.mem_singleton.mp hnew] at href ⊢
      obtain ⟨u, hu, hid, horder⟩ := resolveChainLinks_upstream href
      have hmem := List.mem_filter.mp hu
      have hproject : u.projectId = node.projectId := by simpa using hmem.2
      exact ⟨u, by simp [hmem.1], hid, hproject, horder⟩

/-! ## Every chain -/

/-- The chains that drains make of an empty one, whatever the log and the limit of each. -/
inductive Reachable (ids : ℕ → UUID) : Chain → Prop
  | empty : Reachable ids []
  | drain {chain : Chain} (log : AuditLog) (limit : ℕ) :
    Reachable ids chain → Reachable ids (drain ids log limit chain).2

/-- What holds of a chain along the drains: it is linked, and it can read its tiers. -/
structure Sound (chain : Chain) : Prop where
  linked : Linked chain
  tiers : ∀ n ∈ chain, n.KeepsTiers

theorem sound_nil : Sound [] := by
  refine ⟨⟨by simp, ?_, by simp⟩, by simp⟩
  intro projectId step
  rfl

theorem Sound.takeEvent {ids : ℕ → UUID} {chain chain' : Chain} {event : EventEnvelope}
    (h : Sound chain) (htake : takeEvent ids chain event = some chain') : Sound chain' := by
  rcases takeEvent_cases htake with ⟨-, rfl⟩ | ⟨organizationId, projectId, node, -, -, hnode, rfl⟩
  · exact h
  refine ⟨h.linked.append node, ?_⟩
  obtain ⟨-, -, -, htiers⟩ := projectNode_ok hnode
  intro n hn
  rw [append_eq] at hn
  split_ifs at hn
  · exact h.tiers n hn
  · rcases List.mem_append.mp hn with hold | hnew
    · exact h.tiers n hold
    · rw [List.mem_singleton.mp hnew]
      exact htiers

theorem Sound.pass {ids : ℕ → UUID} {chain : Chain} (h : Sound chain)
    (events : List EventEnvelope) :
    Sound (Backlog.pass unowned (DecisionChain.takeEvent ids) events chain) := by
  induction events generalizing chain with
  | nil => exact h
  | cons event events ih =>
    rw [Backlog.pass]
    split_ifs
    · exact ih h
    · cases htake : DecisionChain.takeEvent ids chain event with
      | none => exact h
      | some chain' => exact ih (h.takeEvent htake)

theorem Sound.landed {ids : ℕ → UUID} {chain : Chain} (h : Sound chain)
    (events : List EventEnvelope) :
    Sound (Backlog.landed unowned (DecisionChain.takeEvent ids) events chain) := by
  induction events generalizing chain with
  | nil => exact h
  | cons event events ih =>
    rw [Backlog.landed]
    split_ifs
    · exact ih h
    · cases htake : DecisionChain.takeEvent ids chain event with
      | none => exact ih h
      | some chain' => exact ih (h.takeEvent htake)

/-- **Every chain that drains make is linked.** -/
theorem Reachable.sound {ids : ℕ → UUID} {chain : Chain} (h : Reachable ids chain) :
    Sound chain := by
  induction h with
  | empty => exact sound_nil
  | drain log limit _ ih =>
    rw [DecisionChain.drain, drainEvents_chain]
    exact ih.pass _

end DecisionChain
end RepoMesh
