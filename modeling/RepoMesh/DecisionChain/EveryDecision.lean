/-
# Which decisions reach the chain

A drain looks at the oldest events without a node, up to its limit. It passes over those that lack an
identity and ends at the first whose projection raises; both stay without a node, so the next drain
looks at them again. A well-formed event reaches the chain exactly when fewer events than the limit
lack an identity in front of it and the projection of none in front of it raises.
-/
import Mathlib.Data.List.Sort
import Mathlib.Data.Prod.Lex
import RepoMesh.DecisionChain.Links

namespace RepoMesh
namespace DecisionChain

open Delivery (UUID)
open Json (Fault)

/-! ## The queue -/

/-- The events of the log in the order of `list_chain_events`. -/
def oldestFirst (log : AuditLog) : List EventEnvelope :=
  log.events.insertionSort fun a b => isOlder a b

/-- The order of the query. -/
def Older (a b : EventEnvelope) : Prop := isOlder a b = true

instance : DecidableRel Older := fun a b => inferInstanceAs (Decidable (isOlder a b = true))

theorem older_iff {a b : EventEnvelope} :
    Older a b ↔ toLex (a.occurredAt, a.eventId) ≤ toLex (b.occurredAt, b.eventId) := by
  rw [Older, isOlder, Bool.or_eq_true, Bool.and_eq_true, Prod.Lex.toLex_le_toLex]
  simp only [decide_eq_true_iff]

instance : Std.Total Older := ⟨fun a b => by simpa only [older_iff] using le_total _ _⟩

instance : IsTrans EventEnvelope Older := ⟨fun a b c hab hbc => by
  rw [older_iff] at hab hbc ⊢
  exact hab.trans hbc⟩

theorem oldestFirst_perm (log : AuditLog) : (oldestFirst log).Perm log.events :=
  List.perm_insertionSort _ _

theorem mem_oldestFirst {log : AuditLog} {event : EventEnvelope} :
    event ∈ oldestFirst log ↔ event ∈ log.events := (oldestFirst_perm log).mem_iff

theorem oldestFirst_ids (log : AuditLog) : ((oldestFirst log).map (·.eventId)).Nodup :=
  ((oldestFirst_perm log).map _).nodup_iff.mpr log.ids_nodup

theorem oldestFirst_nodup (log : AuditLog) : (oldestFirst log).Nodup :=
  (oldestFirst_ids log).of_map

theorem listChainEvents_eq (log : AuditLog) (chain : Chain) (limit : ℕ) :
    listChainEvents log chain limit
      = ((oldestFirst log).filter fun e => !isProjected chain e).take limit := by
  have hperm : ((log.events.filter fun e => !isProjected chain e).insertionSort
      fun a b => isOlder a b).Perm ((oldestFirst log).filter fun e => !isProjected chain e) :=
    (List.perm_insertionSort _ _).trans ((oldestFirst_perm log).symm.filter _)
  have hsorted : ((log.events.filter fun e => !isProjected chain e).insertionSort
      fun a b => isOlder a b).Pairwise Older := List.pairwise_insertionSort Older _
  have hqueue : (oldestFirst log).Pairwise Older := List.pairwise_insertionSort Older _
  have hsame := hperm.eq_of_pairwise (fun a b ha hb hab hba => ?_) hsorted
    (hqueue.sublist List.filter_sublist)
  · rw [listChainEvents, hsame]
  · rw [older_iff] at hab hba
    have hid : a.eventId = b.eventId := congrArg (fun p => (ofLex p).2) (le_antisymm hab hba)
    rw [List.mem_insertionSort] at ha
    exact List.inj_on_of_nodup_map log.ids_nodup (List.mem_filter.mp ha).1
      (mem_oldestFirst.mp (List.mem_filter.mp hb).1) hid

/-- **A drain is a round** over the queue of the log. -/
theorem drain_chain (ids : ℕ → UUID) (log : AuditLog) (limit : ℕ) :
    (fun chain => (drain ids log limit chain).2)
      = Backlog.round unowned (takeEvent ids) isProjected (oldestFirst log) limit := by
  funext chain
  rw [drain, drainEvents_chain, listChainEvents_eq, Backlog.round]

theorem isProjected_iff {chain : Chain} {event : EventEnvelope} :
    isProjected chain event = true ↔ ∃ n ∈ chain, n.eventId = event.eventId := by
  simp [isProjected]

theorem isProjected_append {ids : ℕ → UUID} {chain : Chain} {node : DecisionNodeInput}
    {event : EventEnvelope} : isProjected (append ids chain node) event = true ↔
      isProjected chain event = true ∨ node.eventId = event.eventId := by
  rw [append_eq, isProjected_iff, isProjected_iff]
  split_ifs with hany
  · simp only [List.any_eq_true, decide_eq_true_iff] at hany
    obtain ⟨n, hn, heq⟩ := hany
    constructor
    · exact Or.inl
    · rintro (hold | hid)
      · exact hold
      · exact ⟨n, hn, heq.trans hid⟩
  · constructor
    · rintro ⟨n, hn, heq⟩
      rcases List.mem_append.mp hn with hold | hnew
      · exact Or.inl ⟨n, hold, heq⟩
      · rw [List.mem_singleton.mp hnew] at heq
        exact Or.inr heq
    · rintro (⟨n, hn, heq⟩ | hid)
      · exact ⟨n, by simp [hn], heq⟩
      · exact ⟨viewOf ids chain node, by simp, hid⟩

theorem isProjected_takeEvent {ids : ℕ → UUID} {chain chain' : Chain} {x event : EventEnvelope}
    (hown : unowned x = false) (h : takeEvent ids chain x = some chain') :
    isProjected chain' event = true ↔ isProjected chain event = true ∨ x.eventId = event.eventId := by
  rcases takeEvent_cases h with ⟨hskip, -⟩ | ⟨organizationId, projectId, node, -, -, hnode, rfl⟩
  · rw [hown] at hskip
    cases hskip
  · rw [isProjected_append, (projectNode_ok hnode).1]

/-! ## What raises -/

namespace EventEnvelope

variable (event : EventEnvelope)

/-- All that is read of the payload alone is of the type expected. -/
def Readable : Prop :=
  event.status.isOk = true ∧ event.actor.isOk = true ∧ event.evidenceRefs.isOk = true ∧
    event.payloadSummary.isOk = true ∧ event.upstreamRefHint.isOk = true ∧
    event.affectedRepositories.isOk = true

/-- The adjustments can be applied to the tiers of a classification. -/
def Adjustable : Bool :=
  match (event.payloadOr "adjustments" (.arr [])).listOf with
  | .ok adjustments => adjustments.all fun adjustment => (adjust [] adjustment).isOk
  | .error _ => false

/-- The event carries both identities and a payload whose projection never raises. -/
def WellFormed : Prop :=
  unowned event = false ∧ event.Readable ∧ (event.step = .confirmation → event.Adjustable = true)

end EventEnvelope

theorem adjust_isOk (tiers : List (String × Json)) (adjustment : Json) :
    (adjust tiers adjustment).isOk = (adjust [] adjustment).isOk := by
  rw [adjust, adjust]
  cases adjustment.getOr "repository" .null with
  | error fault => rfl
  | ok repository =>
    rw [Fallible.ok_bind, Fallible.ok_bind]
    cases adjustment.getOr "to" .null with
    | error fault => rfl
    | ok target =>
      rw [Fallible.ok_bind, Fallible.ok_bind]
      split_ifs <;> rfl

theorem foldlM_adjust_isOk (adjustments : List Json) (tiers : List (String × Json)) :
    (adjustments.foldlM adjust tiers).isOk
      = adjustments.all fun adjustment => (adjust [] adjustment).isOk := by
  induction adjustments generalizing tiers with
  | nil => rfl
  | cons adjustment adjustments ih =>
    rw [List.foldlM_cons, List.all_cons, ← adjust_isOk tiers]
    cases adjust tiers adjustment with
    | error fault => rfl
    | ok tiers' =>
      rw [Fallible.ok_bind, ih]
      rfl

/-- There is a classification of the project to apply adjustments to. -/
def Classified (chain : Chain) (projectId : Option UUID) : Prop :=
  ∃ n ∈ chain, some n.projectId = projectId ∧ n.step = .classification

theorem latestNode_eq_none {chain : Chain} {projectId : UUID} :
    latestNode chain projectId .classification = none ↔ ¬ Classified chain (some projectId) := by
  rw [latestNode, newest_eq_none, List.filter_eq_nil_iff, Classified]
  simp

theorem withEffectiveTiers_isOk {chain : Chain} (h : Sound chain) (event : EventEnvelope)
    (projectId : UUID) (summary : List (String × Json)) :
    (withEffectiveTiers chain event projectId summary).isOk = true ↔
      (Classified chain (some projectId) → event.Adjustable = true) := by
  rw [withEffectiveTiers]
  cases hlatest : latestNode chain projectId .classification with
  | none =>
    rw [latestNode_eq_none] at hlatest
    simp [hlatest, Except.isOk, Except.toBool]
  | some classification =>
    have hmem := List.mem_filter.mp (newest_mem hlatest)
    have hkeys : classification.projectId = projectId ∧ classification.step = .classification := by
      simpa using hmem.2
    have hclassified : Classified chain (some projectId) :=
      ⟨classification, hmem.1, by rw [hkeys.1], hkeys.2⟩
    obtain ⟨tiers, htiers⟩ := h.tiers classification hmem.1 hkeys.2
    have hdict : (((Json.obj classification.payloadSummary).get? "effective_tiers").getD
        (.obj [])).dictOf = .ok tiers := by
      rw [htiers]
      rfl
    simp only [hclassified, true_implies, hdict, Fallible.ok_bind, EventEnvelope.Adjustable]
    cases (event.payloadOr "adjustments" (.arr [])).listOf with
    | error fault => simp [Except.isOk, Except.toBool]
    | ok adjustments =>
      simp only [Fallible.ok_bind]
      rw [← foldlM_adjust_isOk adjustments tiers]
      cases adjustments.foldlM adjust tiers with
      | error fault => rfl
      | ok effective => rfl

/-- **When the projection of an event succeeds.** -/
theorem projectNode_isOk {chain : Chain} (h : Sound chain) (event : EventEnvelope)
    (organizationId projectId : UUID) :
    (projectNode chain event organizationId projectId).isOk = true ↔ event.Readable ∧
      (event.step = .confirmation → Classified chain (some projectId) →
        event.Adjustable = true) := by
  rw [projectNode, EventEnvelope.Readable]
  cases event.status with
  | error fault => simp [Except.isOk, Except.toBool]
  | ok status =>
  cases event.actor with
  | error fault => simp [Except.isOk, Except.toBool]
  | ok actor =>
  cases event.evidenceRefs with
  | error fault => simp [Except.isOk, Except.toBool]
  | ok evidenceRefs =>
  cases event.payloadSummary with
  | error fault => simp [Except.isOk, Except.toBool]
  | ok summary =>
  cases event.upstreamRefHint with
  | error fault => simp [Except.isOk, Except.toBool]
  | ok hint =>
  simp only [Fallible.ok_bind]
  by_cases hconfirmation : event.step = .confirmation
  · have htiers := withEffectiveTiers_isOk h event projectId summary
    simp only [hconfirmation, true_implies, if_true]
    rw [← htiers]
    cases withEffectiveTiers chain event projectId summary with
    | error fault => simp [Except.isOk, Except.toBool]
    | ok payloadSummary =>
      cases event.affectedRepositories with
      | error fault => simp [Except.isOk, Except.toBool]
      | ok affected => simp [Except.isOk, Except.toBool]
  · simp only [if_neg hconfirmation]
    cases event.affectedRepositories with
    | error fault => simp [Except.isOk, Except.toBool]
    | ok affected => simp [Except.isOk, Except.toBool, hconfirmation]

theorem owned_iff {event : EventEnvelope} : unowned event = false ↔ ∃ organizationId projectId,
    event.organizationId = some organizationId ∧ event.projectId = some projectId := by
  rw [unowned]
  cases event.organizationId <;> cases event.projectId <;> simp

theorem takeEvent_isSome {ids : ℕ → UUID} {chain : Chain} (h : Sound chain) {event : EventEnvelope}
    (hown : unowned event = false) : (takeEvent ids chain event).isSome = true ↔ event.Readable ∧
      (event.step = .confirmation → Classified chain event.projectId →
        event.Adjustable = true) := by
  obtain ⟨organizationId, projectId, horg, hproject⟩ := owned_iff.mp hown
  rw [takeEvent, horg, hproject]
  simp only
  rw [← projectNode_isOk h event organizationId projectId]
  cases projectNode chain event organizationId projectId with
  | error fault => simp [Except.isOk, Except.toBool]
  | ok node => simp [Except.isOk, Except.toBool]

/-! ## What blocks the queue -/

/-- The projection of the event raises where the events `before` it have been projected. -/
def Blocks (before : List EventEnvelope) (event : EventEnvelope) : Prop :=
  unowned event = false ∧ (¬ event.Readable ∨ event.step = .confirmation ∧
    event.Adjustable = false ∧ ∃ c ∈ before, unowned c = false ∧ c.step = .classification ∧
      c.projectId = event.projectId)

/-- The chain once all of the events are projected that have an owner. -/
abbrev projected (ids : ℕ → UUID) (events : List EventEnvelope) : Chain :=
  Backlog.landed unowned (takeEvent ids) events []

theorem takeEvent_keys {ids : ℕ → UUID} {chain chain' : Chain} {event : EventEnvelope}
    (hown : unowned event = false) (hnew : isProjected chain event = false)
    (h : takeEvent ids chain event = some chain') :
    chain'.map (·.key) = chain.map (·.key) ++ [event.key] := by
  rcases takeEvent_cases h with ⟨hskip, -⟩ |
    ⟨organizationId, projectId, node, -, hproject, hnode, rfl⟩
  · rw [hown] at hskip
    cases hskip
  obtain ⟨hid, hsame, hstep, -⟩ := projectNode_ok hnode
  have hany : (chain.any fun n => n.eventId = node.eventId) = false := by
    rw [hid]
    exact hnew
  rw [append_eq, hany, if_neg (by simp), List.map_append, List.map_singleton]
  simp [DecisionNodeView.key, EventEnvelope.key, viewOf, hid, hsame, hstep, hproject]

/-- **The nodes of the chain are those of the events**, where no projection raises. -/
theorem projected_keys {ids : ℕ → UUID} {events : List EventEnvelope}
    (hnodup : (events.map (·.eventId)).Nodup)
    (hclear : Backlog.Clear unowned (takeEvent ids) [] events) :
    (projected ids events).map (·.key) = (events.filter fun e => !unowned e).map (·.key) := by
  induction events using List.reverseRecOn with
  | nil => rfl
  | append_singleton events event ih =>
    rw [List.map_append, List.nodup_append] at hnodup
    have hkeys := ih hnodup.1 hclear.left
    rw [projected, Backlog.landed_append, List.filter_append, List.map_append, ← hkeys]
    by_cases hown : unowned event = true
    · simp [Backlog.landed, hown]
    · have howned : unowned event = false := by simpa using hown
      obtain ⟨chain', hchain'⟩ := Option.isSome_iff_exists.mp (hclear events event [] rfl howned)
      have hnew : isProjected (projected ids events) event = false := by
        rw [Bool.eq_false_iff]
        intro hold
        obtain ⟨n, hn, heq⟩ := isProjected_iff.mp hold
        have hkey : n.key ∈ (projected ids events).map (·.key) := List.mem_map_of_mem hn
        rw [hkeys] at hkey
        obtain ⟨e, he, hsame⟩ := List.mem_map.mp hkey
        have hid : e.eventId = n.eventId := congrArg Prod.fst hsame
        exact hnodup.2.2 e.eventId (List.mem_map_of_mem (List.mem_filter.mp he).1) event.eventId
          (by simp) (hid.trans heq)
      rw [Backlog.landed, if_neg hown, hchain', Backlog.landed, Option.getD_some,
        takeEvent_keys howned hnew hchain']
      simp [howned]

theorem classified_projected {ids : ℕ → UUID} {events : List EventEnvelope}
    (hnodup : (events.map (·.eventId)).Nodup)
    (hclear : Backlog.Clear unowned (takeEvent ids) [] events) (projectId : Option UUID) :
    Classified (projected ids events) projectId ↔ ∃ c ∈ events, unowned c = false ∧
      c.step = .classification ∧ c.projectId = projectId := by
  have hkeys := projected_keys hnodup hclear
  constructor
  · rintro ⟨n, hn, hproject, hstep⟩
    have hkey : n.key ∈ (projected ids events).map (·.key) := List.mem_map_of_mem hn
    rw [hkeys] at hkey
    obtain ⟨c, hc, hsame⟩ := List.mem_map.mp hkey
    have hrest := congrArg Prod.snd hsame
    have hmem := List.mem_filter.mp hc
    exact ⟨c, hmem.1, by simpa using hmem.2, (congrArg Prod.snd hrest).trans hstep,
      (congrArg Prod.fst hrest).trans hproject⟩
  · rintro ⟨c, hc, hown, hstep, hproject⟩
    have hkey : c.key ∈ (events.filter fun e => !unowned e).map (·.key) :=
      List.mem_map_of_mem (List.mem_filter.mpr ⟨hc, by simp [hown]⟩)
    rw [← hkeys] at hkey
    obtain ⟨n, hn, hsame⟩ := List.mem_map.mp hkey
    have hrest := congrArg Prod.snd hsame
    exact ⟨n, hn, (congrArg Prod.fst hrest).trans hproject, (congrArg Prod.snd hrest).trans hstep⟩

theorem takeEvent_isSome_iff {ids : ℕ → UUID} {events : List EventEnvelope} {event : EventEnvelope}
    (hnodup : (events.map (·.eventId)).Nodup)
    (hclear : Backlog.Clear unowned (takeEvent ids) [] events) (hown : unowned event = false) :
    (takeEvent ids (projected ids events) event).isSome = true ↔ ¬ Blocks events event := by
  rw [takeEvent_isSome (sound_nil.landed events) hown,
    classified_projected hnodup hclear, Blocks]
  constructor
  · rintro ⟨hreadable, hadjustable⟩ ⟨-, hnot | ⟨hstep, hnot, hclassified⟩⟩
    · exact hnot hreadable
    · rw [hadjustable hstep hclassified] at hnot
      cases hnot
  · intro hfree
    refine ⟨by_contra fun hnot => hfree ⟨hown, Or.inl hnot⟩, fun hstep hclassified => ?_⟩
    rw [← Bool.not_eq_false]
    intro hnot
    exact hfree ⟨hown, Or.inr ⟨hstep, hnot, hclassified⟩⟩

/-- **No projection raises exactly where no event blocks.** -/
theorem clear_iff {ids : ℕ → UUID} {events : List EventEnvelope}
    (hnodup : (events.map (·.eventId)).Nodup) :
    Backlog.Clear unowned (takeEvent ids) [] events ↔
      ∀ earlier event later, events = earlier ++ event :: later → ¬ Blocks earlier event := by
  have hstep : ∀ earlier event later, events = earlier ++ event :: later →
      Backlog.Clear unowned (takeEvent ids) [] earlier → unowned event = false →
      ((takeEvent ids (projected ids earlier) event).isSome = true ↔ ¬ Blocks earlier event) := by
    intro earlier event later heq hclear hown
    rw [heq, List.map_append, List.nodup_append] at hnodup
    exact takeEvent_isSome_iff hnodup.1 hclear hown
  constructor
  · intro hclear earlier event later heq hblocks
    have hleft : Backlog.Clear unowned (takeEvent ids) [] earlier := by
      rw [heq] at hclear
      exact hclear.left
    exact (hstep earlier event later heq hleft hblocks.1).mp
      (hclear earlier event later heq hblocks.1) hblocks
  · intro hfree
    -- induction on the length of the part that is known to be clear
    have hgo : ∀ k earlier later, earlier.length = k → events = earlier ++ later →
        Backlog.Clear unowned (takeEvent ids) [] earlier := by
      intro k
      induction k with
      | zero =>
        intro earlier later hlen heq
        rw [List.eq_nil_of_length_eq_zero hlen]
        exact Backlog.clear_nil []
      | succ k ih =>
        intro earlier later hlen heq
        rcases List.eq_nil_or_concat earlier with rfl | ⟨front, event, rfl⟩
        · simp at hlen
        · rw [List.concat_eq_append] at hlen heq ⊢
          rw [List.append_assoc, List.singleton_append] at heq
          have hfront : Backlog.Clear unowned (takeEvent ids) [] front := by
            refine ih front (event :: later) ?_ heq
            rw [List.length_append, List.length_singleton] at hlen
            omega
          refine hfront.append (Backlog.clear_cons.mpr ⟨fun hown => ?_, Backlog.clear_nil _⟩)
          exact (hstep front event later heq hfront hown).mpr (hfree front event later heq)
    exact hgo events.length events [] rfl (by simp)

/-! ## Every decision -/

/-- **Every decision reaches the chain.** From some drain on, every well-formed event has exactly one
node; every chain that drains make is linked; and from some drain on a further one changes nothing. -/
structure ChainKept (ids : ℕ → UUID) (log : AuditLog) (limit : ℕ) : Prop where
  projected : ∃ n, ∀ m, n ≤ m → ∀ event ∈ log.events, event.WellFormed →
    ∃! node, node ∈ chainAfter ids log limit m ∧ node.eventId = event.eventId
  linked : ∀ chain, Reachable ids chain → Linked chain
  settles : ∃ n, ∀ m, n ≤ m → chainAfter ids log limit m = chainAfter ids log limit n

theorem chainAfter_eq (ids : ℕ → UUID) (log : AuditLog) (limit n : ℕ) :
    chainAfter ids log limit n
      = (Backlog.round unowned (takeEvent ids) isProjected (oldestFirst log) limit)^[n] [] := by
  rw [chainAfter, drain_chain]

theorem reachable_chainAfter (ids : ℕ → UUID) (log : AuditLog) (limit n : ℕ) :
    Reachable ids (chainAfter ids log limit n) := by
  induction n with
  | zero => exact Reachable.empty
  | succ n ih =>
    rw [chainAfter, Function.iterate_succ_apply']
    exact ih.drain log limit

theorem existsUnique_node {chain : Chain} (h : Linked chain) {event : EventEnvelope} :
    (∃! node, node ∈ chain ∧ node.eventId = event.eventId) ↔ isProjected chain event = true := by
  rw [isProjected_iff]
  constructor
  · rintro ⟨node, ⟨hmem, hid⟩, -⟩
    exact ⟨node, hmem, hid⟩
  · rintro ⟨node, hmem, hid⟩
    refine ⟨node, ⟨hmem, hid⟩, ?_⟩
    rintro other ⟨hother, hsame⟩
    exact List.inj_on_of_nodup_map h.once hother hmem (hsame.trans hid.symm)

theorem existsUnique_chainAfter (ids : ℕ → UUID) (log : AuditLog) (limit n : ℕ)
    (event : EventEnvelope) :
    (∃! node, node ∈ chainAfter ids log limit n ∧ node.eventId = event.eventId) ↔
      isProjected ((Backlog.round unowned (takeEvent ids) isProjected (oldestFirst log) limit)^[n] [])
        event = true := by
  rw [← chainAfter_eq]
  exact existsUnique_node (reachable_chainAfter ids log limit n).sound.linked

theorem handles_takeEvent (ids : ℕ → UUID) (log : AuditLog) :
    Backlog.Handles unowned (takeEvent ids) isProjected (oldestFirst log) := by
  intro chain chain' x hx hown h event hevent
  rw [isProjected_takeEvent hown h]
  constructor
  · rintro (hold | hid)
    · exact Or.inl hold
    · exact Or.inr (List.inj_on_of_nodup_map (oldestFirst_ids log) hevent hx hid.symm)
  · rintro (hold | rfl)
    · exact Or.inl hold
    · exact Or.inr rfl

theorem EventEnvelope.WellFormed.takeEvent_isSome {event : EventEnvelope} (h : event.WellFormed)
    {ids : ℕ → UUID} {chain : Chain} (hsound : Sound chain) :
    (takeEvent ids chain event).isSome = true := by
  rw [DecisionChain.takeEvent_isSome hsound h.1]
  exact ⟨h.2.1, fun hstep _ => h.2.2 hstep⟩

/-- **When every decision reaches the chain.** Exactly when in front of every well-formed event of the
log fewer events than the limit lack an identity, and the projection of none raises. -/
theorem chainKept_iff (ids : ℕ → UUID) (log : AuditLog) (limit : ℕ) :
    ChainKept ids log limit ↔ ∀ before event after, oldestFirst log = before ++ event :: after →
      event.WellFormed → (before.filter unowned).length < limit ∧
        ∀ earlier x later, before = earlier ++ x :: later → ¬ Blocks earlier x := by
  have hnew : ∀ event ∈ oldestFirst log, isProjected [] event = false := fun _ _ => rfl
  have hall : (∃ n, ∀ m, n ≤ m → ∀ event ∈ log.events, event.WellFormed →
      ∃! node, node ∈ chainAfter ids log limit m ∧ node.eventId = event.eventId) ↔
      ∀ before event after, oldestFirst log = before ++ event :: after → event.WellFormed →
        Backlog.skipped unowned before < limit ∧
          Backlog.Clear unowned (takeEvent ids) [] before := by
    rw [← Backlog.all_handled_iff (handles_takeEvent ids log) (oldestFirst_nodup log) hnew
      (fun _ h => h.1) (fun _ h front => h.takeEvent_isSome (sound_nil.landed front))]
    simp only [existsUnique_chainAfter, mem_oldestFirst]
  have hcond : (∀ before event after, oldestFirst log = before ++ event :: after →
      event.WellFormed → Backlog.skipped unowned before < limit ∧
        Backlog.Clear unowned (takeEvent ids) [] before) ↔
      ∀ before event after, oldestFirst log = before ++ event :: after →
        event.WellFormed → (before.filter unowned).length < limit ∧
          ∀ earlier x later, before = earlier ++ x :: later → ¬ Blocks earlier x := by
    refine forall_congr' fun before => forall_congr' fun event => forall_congr' fun after =>
      forall_congr' fun hqueue => forall_congr' fun _ => and_congr_right fun _ => clear_iff ?_
    have hids := oldestFirst_ids log
    rw [hqueue, List.map_append] at hids
    exact (List.nodup_append.mp hids).1
  rw [← hcond, ← hall]
  constructor
  · exact fun h => h.projected
  · intro hprojected
    refine ⟨hprojected, fun chain h => h.sound.linked, ?_⟩
    obtain ⟨n, hn⟩ := Backlog.settles (handles_takeEvent ids log) (oldestFirst_nodup log) hnew
    exact ⟨n, fun m hm => by rw [chainAfter_eq, chainAfter_eq, hn m hm]⟩

/-- A classification whose payload is a list, and a task of another project that was planned later. -/
def blockedLog : AuditLog where
  events := [
    { eventId := 1, eventType := .classificationDecided, actorId := "analyst"
      payload := [("classification", .arr [])], occurredAt := 0
      organizationId := some 10, projectId := some 20 },
    { eventId := 2, eventType := .tasksPlanned, actorId := "planner"
      payload := [("task", .obj [("task_id", .str "t")])], occurredAt := 1
      organizationId := some 10, projectId := some 21 }]
  ids_nodup := by decide

/-- **One classification keeps the tasks out**: every drain raises at it. -/
theorem task_kept_out : ¬ ChainKept id blockedLog 200 := by
  rintro ⟨⟨n, hprojected⟩, -, -⟩
  have hempty : chainAfter id blockedLog 200 n = [] := Function.iterate_fixed rfl n
  have hwell : (blockedLog.events[1]).WellFormed := by
    refine ⟨rfl, ⟨rfl, rfl, rfl, rfl, rfl, rfl⟩, fun hstep => ?_⟩
    cases hstep
  obtain ⟨node, ⟨hmem, -⟩, -⟩ := hprojected n le_rfl _ (List.getElem_mem _) hwell
  rw [hempty] at hmem
  cases hmem

end DecisionChain
end RepoMesh
