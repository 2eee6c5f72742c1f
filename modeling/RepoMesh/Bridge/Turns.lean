/-
# The history of the turns

What the ledger, the running turns and the seen set say of each turn agrees with its history, and
every operation that the supervisor performs with care keeps that: no terminal turn is touched.
-/
import RepoMesh.Bridge.World

namespace RepoMesh
namespace Bridge

open Async
open Async.Prog (Within)
open Delivery (UUID Instant)

/-! ## The history of a turn -/

/-- The last thing that happened to a turn: nothing, a grant, or a settlement. -/
def lastOf (key : TurnKey) : List Mark → Option (Option String)
  | [] => none
  | .granted k :: log => if k = key then some none else lastOf key log
  | .settled k status :: log => if k = key then some (some status) else lastOf key log
  | .booted :: log => lastOf key log
  | .batchRead _ :: log => lastOf key log
  | .syncRefused :: log => lastOf key log

/-- The grants of a turn outstanding in the running process. -/
def outstanding (key : TurnKey) : List Mark → ℕ
  | [] => 0
  | .booted :: _ => 0
  | .granted k :: log => if k = key then outstanding key log + 1 else outstanding key log
  | .settled k _ :: log => if k = key then outstanding key log - 1 else outstanding key log
  | .batchRead _ :: log => outstanding key log
  | .syncRefused :: log => outstanding key log

/-- How often a turn was granted. -/
def grantsOf (key : TurnKey) (log : List Mark) : ℕ := log.count (.granted key)

/-- The last turn was claimed by a process that is gone, and never settled. -/
def Abandoned (key : TurnKey) (w : World) : Prop :=
  lastOf key w.log = some none ∧ outstanding key w.log = 0

/-- The last turn ended in a timeout or an interruption. -/
def Unanswered (key : TurnKey) (w : World) : Prop :=
  ∃ status ∈ RETRYABLE_STATUSES, lastOf key w.log = some (some status)

/-- The last turn ran out of time. -/
def TimedOut (key : TurnKey) (w : World) : Prop := lastOf key w.log = some (some "timeout")

/-- A terminal turn stays as it is and is not granted again. -/
def NeverAgain (w w' : World) : Prop :=
  ∀ key, ∀ state ∈ TERMINAL_TURN_STATES, w.inbox.state.turnState key = some state →
    w'.inbox.state.turnState key = some state ∧ grantsOf key w'.log = grantsOf key w.log

section

variable (sv : RoomSupervisor) (timeline : String → RoomEvent)

/-- An event of the history in which an id names one event. -/
def Told (timeline : String → RoomEvent) (event : RoomEvent) : Prop :=
  timeline event.eventId = event

/-- An event of the room's history that mentions this worker in one of its rooms. -/
def Mention (event : RoomEvent) : Prop :=
  timeline event.eventId = event ∧ addressedToUs sv.matrixUserId sv.rooms event = true

/-- Should the room deliver the event now, it is offered and its turn granted. -/
def Offered (event : RoomEvent) (w : World) : Prop :=
  ∀ batch : RoomBatch, event ∈ batch.events →
    event.trigger ∈ w.inbox.triggers sv.matrixUserId sv.rooms batch ∧
      (w.inbox.claim event.trigger).1.granted = true

/-- **The purpose.** At most one grant of a turn is outstanding, and a mention whose turn was
abandoned or not answered is offered again. -/
structure Answerable (w : World) : Prop where
  single : ∀ key, outstanding key w.log ≤ 1
  abandoned : ∀ event, Mention sv timeline event → Abandoned event.trigger.key w →
    Offered sv event w
  unanswered : ∀ event, Mention sv timeline event → Unanswered event.trigger.key w →
    Offered sv event w

/-- The seen set that acknowledging a batch leaves holds none of its mentions whose last turn ran
out of time. -/
def LeavesTimeouts [Protocol] (op : BridgeOp) (w : World) : Prop :=
  match op with
  | .commit batch =>
    ∀ event ∈ batch.events, Mention sv timeline event → TimedOut event.trigger.key w →
      (w.inbox.commit batch 0).2.state.hasSeen event.eventId = false
  | _ => True

end

/-! ## What leaves the turns alone -/

/-- The ledger, the seen set, the cursor, the running turns and their history are the same. -/
structure SameTurns (w w' : World) : Prop where
  ledger : w'.inbox.state.turnLedger = w.inbox.state.turnLedger
  seen : w'.inbox.state.seenEvents = w.inbox.state.seenEvents
  cursor : w'.inbox.state.syncCursor = w.inbox.state.syncCursor
  active : w'.inbox.active = w.inbox.active
  last : ∀ key, lastOf key w'.log = lastOf key w.log
  outstanding : ∀ key, outstanding key w'.log = outstanding key w.log
  grants : ∀ key, grantsOf key w'.log = grantsOf key w.log

theorem SameTurns.refl (w : World) : SameTurns w w :=
  ⟨rfl, rfl, rfl, rfl, fun _ => rfl, fun _ => rfl, fun _ => rfl⟩

theorem SameTurns.trans {a b c : World} (hab : SameTurns a b) (hbc : SameTurns b c) :
    SameTurns a c where
  ledger := hbc.ledger.trans hab.ledger
  seen := hbc.seen.trans hab.seen
  cursor := hbc.cursor.trans hab.cursor
  active := hbc.active.trans hab.active
  last key := (hbc.last key).trans (hab.last key)
  outstanding key := (hbc.outstanding key).trans (hab.outstanding key)
  grants key := (hbc.grants key).trans (hab.grants key)

theorem SameTurns.turnState {w w' : World} (h : SameTurns w w') (key : TurnKey) :
    w'.inbox.state.turnState key = w.inbox.state.turnState key := by
  simp only [BridgeState.turnState, h.ledger]

theorem SameTurns.hasSeen {w w' : World} (h : SameTurns w w') (eventId : String) :
    w'.inbox.state.hasSeen eventId = w.inbox.state.hasSeen eventId := by
  simp only [BridgeState.hasSeen, h.seen]

theorem SameTurns.isBaseline {w w' : World} (h : SameTurns w w') :
    w'.inbox.isBaseline = w.inbox.isBaseline := by
  simp only [Inbox.isBaseline, h.cursor]

theorem SameTurns.neverAgain {w w' : World} (h : SameTurns w w') : NeverAgain w w' :=
  fun key _ _ hstate => ⟨(h.turnState key).trans hstate, h.grants key⟩

theorem NeverAgain.trans {a b c : World} (hab : NeverAgain a b) (hbc : NeverAgain b c) :
    NeverAgain a c := by
  intro key state hterminal hstate
  obtain ⟨hb, hgrants⟩ := hab key state hterminal hstate
  obtain ⟨hc, hgrants'⟩ := hbc key state hterminal hb
  exact ⟨hc, hgrants'.trans hgrants⟩

section

variable [Protocol]

/-- The operations that leave the turns alone. -/
def Quiet : BridgeOp → Prop
  | .claim _ => False
  | .settle _ _ => False
  | .commit _ => False
  | .recordBaseline _ => False
  | _ => True

variable [Names] {sv : RoomSupervisor} {timeline : String → RoomEvent} {w w' : World}

theorem operate_quiet (now : Instant) (answers : (op : BridgeOp) → Except Raised op.Answer)
    (takes : Bool) {op : BridgeOp} (hop : Quiet op) (w : World) :
    SameTurns w (operate sv now answers takes op w).2 := by
  cases op with
  | claim | settle | commit | recordBaseline => exact hop.elim
  | sync since =>
    simp only [operate]
    split
    · exact ⟨rfl, rfl, rfl, rfl, fun _ => rfl, fun _ => rfl, fun _ => by simp [grantsOf]⟩
    · exact ⟨rfl, rfl, rfl, rfl, fun _ => rfl, fun _ => rfl, fun _ => by simp [grantsOf]⟩
    · exact .refl w
  | enqueue trigger lane observations =>
    simp only [operate, Outbox.enqueue]
    split <;> exact ⟨rfl, rfl, rfl, rfl, fun _ => rfl, fun _ => rfl, fun _ => rfl⟩
  | recordAnchor anchor =>
    simp only [operate, BridgeState.recordAnchor]
    split <;> rename_i h
    · split at h
      · split_ifs at h
        cases h
        exact ⟨rfl, rfl, rfl, rfl, fun _ => rfl, fun _ => rfl, fun _ => rfl⟩
      · cases h
        exact ⟨rfl, rfl, rfl, rfl, fun _ => rfl, fun _ => rfl, fun _ => rfl⟩
    · exact .refl w
  | _ => exact ⟨rfl, rfl, rfl, rfl, fun _ => rfl, fun _ => rfl, fun _ => rfl⟩

omit [Protocol] in
theorem narrate_quiet (now : Instant) (n : Narration) (w : World) :
    SameTurns w (narrate sv now n w) := by
  have hstate := Outbox.enqueueAt_state sv.workerAgentId n.roomId n.threadRootId n.key n.observation
    now w.inbox.state
  rcases hstate with h | h
  · exact ⟨by rw [narrate, h], by rw [narrate, h], by rw [narrate, h], rfl, fun _ => rfl,
      fun _ => rfl, fun _ => rfl⟩
  · exact ⟨by rw [narrate, h]; rfl, by rw [narrate, h]; rfl, by rw [narrate, h]; rfl, rfl,
      fun _ => rfl, fun _ => rfl, fun _ => rfl⟩

end

/-! ## The invariant -/

/-- What the ledger holds of a turn. -/
def recorded : Option (Option String) → Option String
  | none => none
  | some none => some IN_FLIGHT
  | some (some status) =>
    if status ∈ TERMINAL_TURN_STATES then some status
    else if status = "timeout" then none
    else some INTERRUPTED

/-- The ledger, the running turns and the seen set agree with the history. -/
structure Consistent (sv : RoomSupervisor) (timeline : String → RoomEvent) (w : World) : Prop where
  ledger : ∀ key, w.inbox.state.turnState key = recorded (lastOf key w.log)
  running : ∀ key, outstanding key w.log = if key ∈ w.inbox.active then 1 else 0
  claimed : ∀ key ∈ w.inbox.active, lastOf key w.log = some none
  unseen : ∀ key, lastOf key w.log = some none → ∃ event, Mention sv timeline event ∧
    event.trigger.key = key ∧ w.inbox.state.hasSeen event.eventId = false
  begun : w.inbox.isBaseline = true → ∀ key, lastOf key w.log = none

/-- The last turn was settled for good, or ran out of time. -/
def Answered (key : TurnKey) (w : World) : Prop :=
  ∃ status, lastOf key w.log = some (some status) ∧
    (status = "timeout" ∨ status ∈ TERMINAL_TURN_STATES)

variable {sv : RoomSupervisor} {timeline : String → RoomEvent} {w w' : World}

theorem consistent_initial : Consistent sv timeline World.initial where
  ledger key := rfl
  running key := by simp [World.initial, outstanding]
  claimed key h := by simp [World.initial] at h
  unseen key h := by simp [World.initial, lastOf] at h
  begun _ key := rfl

theorem recorded_terminal {last : Option (Option String)} {state : String}
    (hstate : state ∈ TERMINAL_TURN_STATES) (h : recorded last = some state) :
    last = some (some state) := by
  match last with
  | none => cases h
  | some none =>
    cases h
    exact absurd hstate (by decide)
  | some (some status) =>
    simp only [recorded] at h
    split_ifs at h with hterminal htimeout
    · rw [Option.some.inj h]
    · cases h
      exact absurd hstate (by decide)

theorem Consistent.same (h : Consistent sv timeline w) (hsame : SameTurns w w') :
    Consistent sv timeline w' where
  ledger key := by rw [hsame.turnState, hsame.last, h.ledger]
  running key := by rw [hsame.outstanding, hsame.active, h.running]
  claimed key hkey := by
    rw [hsame.active] at hkey
    rw [hsame.last, h.claimed key hkey]
  unseen key hkey := by
    rw [hsame.last] at hkey
    obtain ⟨event, hmention, htrigger, hseen⟩ := h.unseen key hkey
    exact ⟨event, hmention, htrigger, by rw [hsame.hasSeen, hseen]⟩
  begun hbaseline key := by
    rw [hsame.isBaseline] at hbaseline
    rw [hsame.last, h.begun hbaseline key]

theorem Consistent.booted (h : Consistent sv timeline w) :
    Consistent sv timeline (booted w) where
  ledger := h.ledger
  running key := by simp [Bridge.booted, outstanding]
  claimed key hkey := by simp [Bridge.booted] at hkey
  unseen := h.unseen
  begun := h.begun

/-- Claims that may be made: of a mention that was not seen, after the baseline. -/
def Claimable (sv : RoomSupervisor) (timeline : String → RoomEvent) (trigger : Trigger)
    (w : World) : Prop :=
  ∃ event, Mention sv timeline event ∧ event.trigger = trigger ∧
    w.inbox.state.hasSeen event.eventId = false ∧ w.inbox.isBaseline = false

/-- A grant, with its mark. -/
def granted (key : TurnKey) (w : World) : World :=
  { w with
    inbox := (w.inbox.grant key "").2
    log := .granted key :: w.log }

theorem Consistent.granted {trigger : Trigger} (h : Consistent sv timeline w)
    (hclaim : Claimable sv timeline trigger w) (hfree : ¬ w.inbox.Refused trigger.key) :
    Consistent sv timeline (granted trigger.key w) := by
  have hidle : trigger.key ∉ w.inbox.active := by
    intro hactive
    refine hfree (Or.inr ⟨?_, hactive⟩)
    rw [h.ledger, h.claimed _ hactive, recorded]
  obtain ⟨event, hmention, htrigger, hseen, hbegun⟩ := hclaim
  constructor
  · intro key
    show (w.inbox.state.recordTurn trigger.key IN_FLIGHT).turnState key = _
    rw [BridgeState.turnState_recordTurn]
    by_cases hkey : key = trigger.key
    · simp [Bridge.granted, lastOf, hkey, recorded]
    · simp [Bridge.granted, lastOf, hkey, Ne.symm hkey, h.ledger]
  · intro key
    have hrun := h.running key
    by_cases hkey : key = trigger.key
    · subst hkey
      simp [Bridge.granted, Inbox.grant, outstanding, hidle, hrun]
    · simp [Bridge.granted, Inbox.grant, outstanding, hidle, hkey, Ne.symm hkey, hrun]
  · intro key hkey
    by_cases hk : key = trigger.key
    · simp [Bridge.granted, lastOf, hk]
    · have hmem : key ∈ w.inbox.active := by
        simpa [Bridge.granted, Inbox.grant, hidle, hk] using hkey
      simp [Bridge.granted, lastOf, Ne.symm hk, h.claimed key hmem]
  · intro key hkey
    by_cases hk : key = trigger.key
    · exact ⟨event, hmention, by rw [htrigger, hk], hseen⟩
    · have hlast : lastOf key w.log = some none := by
        simpa [Bridge.granted, lastOf, Ne.symm hk] using hkey
      exact h.unseen key hlast
  · intro hbaseline
    exact absurd hbaseline (by rw [show (Bridge.granted trigger.key w).inbox.isBaseline =
      w.inbox.isBaseline from rfl, hbegun]; simp)

/-- The statuses a turn is settled with. -/
def Settles (status : String) : Prop :=
  status ∈ TERMINAL_TURN_STATES ∨ status ∈ RETRYABLE_STATUSES

theorem settle_state (trigger : Trigger) {status : String} (i : Inbox) (hstatus : Settles status) :
    (i.settle trigger status).1 = .ok () ∧
      (i.settle trigger status).2.active = i.active.filter (· ≠ trigger.key) ∧
      (∀ key, (i.settle trigger status).2.state.turnState key =
        if key = trigger.key then recorded (some (some status)) else i.state.turnState key) ∧
      (i.settle trigger status).2.state.seenEvents = i.state.seenEvents ∧
      (i.settle trigger status).2.state.syncCursor = i.state.syncCursor := by
  unfold Inbox.settle
  by_cases hterminal : status ∈ TERMINAL_TURN_STATES
  · simp only [hterminal, if_true, BridgeState.turnState_recordTurn, recorded]
    exact ⟨trivial, trivial, fun _ => trivial, rfl, rfl⟩
  · have hretry : status ∈ RETRYABLE_STATUSES := hstatus.resolve_left hterminal
    simp only [hterminal, hretry, not_true_eq_false, if_false, recorded]
    by_cases htimeout : status = "timeout"
    · simp only [htimeout, if_true, BridgeState.turnState_forgetTurn]
      exact ⟨trivial, trivial, fun _ => trivial, rfl, rfl⟩
    · simp only [htimeout, if_false, BridgeState.turnState_recordTurn]
      exact ⟨trivial, trivial, fun _ => trivial, rfl, rfl⟩

/-- A settlement, with its mark. -/
def settled (trigger : Trigger) (status : String) (w : World) : World :=
  { w with
    inbox := (w.inbox.settle trigger status).2
    log := .settled trigger.key status :: w.log }

theorem Consistent.settled {trigger : Trigger} {status : String} (h : Consistent sv timeline w)
    (hactive : trigger.key ∈ w.inbox.active) (hstatus : Settles status) :
    Consistent sv timeline (settled trigger status w) := by
  obtain ⟨-, hfilter, hledger, hseen, hcursor⟩ := settle_state trigger w.inbox hstatus
  have hlast : ∀ key, lastOf key (Bridge.settled trigger status w).log =
      if key = trigger.key then some (some status) else lastOf key w.log := by
    intro key
    by_cases hkey : key = trigger.key
    · simp [Bridge.settled, lastOf, hkey]
    · simp [Bridge.settled, lastOf, hkey, Ne.symm hkey]
  have hbaseline : (Bridge.settled trigger status w).inbox.isBaseline = w.inbox.isBaseline := by
    show (w.inbox.settle trigger status).2.isBaseline = _
    simp only [Inbox.isBaseline, hcursor]
  constructor
  · intro key
    rw [hlast]
    show (w.inbox.settle trigger status).2.state.turnState key = _
    rw [hledger]
    split_ifs
    · rfl
    · exact h.ledger key
  · intro key
    show outstanding key (.settled trigger.key status :: w.log) =
      if key ∈ (w.inbox.settle trigger status).2.active then 1 else 0
    rw [hfilter]
    have hrun := h.running key
    by_cases hkey : key = trigger.key
    · subst hkey
      simp [outstanding, hrun, hactive]
    · simp [outstanding, hrun, hkey, Ne.symm hkey]
  · intro key hkey
    have hmem : key ∈ w.inbox.active ∧ key ≠ trigger.key := by
      have hkey' : key ∈ (w.inbox.settle trigger status).2.active := hkey
      rw [hfilter] at hkey'
      simpa using hkey'
    rw [hlast, if_neg hmem.2, h.claimed key hmem.1]
  · intro key hkey
    rw [hlast] at hkey
    split_ifs at hkey with hk
    · cases hkey
    · obtain ⟨event, hmention, htrigger, hfresh⟩ := h.unseen key hkey
      refine ⟨event, hmention, htrigger, ?_⟩
      show BridgeState.hasSeen event.eventId (w.inbox.settle trigger status).2.state = false
      simpa only [BridgeState.hasSeen, hseen] using hfresh
  · intro hbase key
    rw [hbaseline] at hbase
    have hclaimed := h.claimed _ hactive
    rw [h.begun hbase] at hclaimed
    cases hclaimed

theorem acknowledge_state (batch : RoomBatch) (baseline : Bool) (now : Instant) (i : Inbox) :
    (i.acknowledge batch baseline now).2.active = i.active ∧
      (i.acknowledge batch baseline now).2.state.turnLedger = i.state.turnLedger ∧
      (∀ eventId, (i.acknowledge batch baseline now).2.state.hasSeen eventId = true →
        i.state.hasSeen eventId = true ∨ ∃ e ∈ batch.events, e.eventId = eventId) ∧
      ((i.acknowledge batch baseline now).2.isBaseline = true → i.isBaseline = true) := by
  unfold Inbox.acknowledge BridgeState.commitBatch
  by_cases hinteger : BridgeState.isInteger (newest batch.events) = true
  · simp only [hinteger, if_true]
    refine ⟨trivial, trivial, fun eventId hseen => ?_, fun hbaseline => ?_⟩
    · obtain ⟨row, hrow, hid⟩ := List.any_eq_true.mp hseen
      have hid' : row.eventId = eventId := beq_iff_eq.mp hid
      rcases BridgeState.mem_remember hrow with hold | ⟨pair, hpair, hnew⟩
      · exact Or.inl (List.any_eq_true.mpr ⟨row, hold, hid⟩)
      · obtain ⟨e, he, rfl⟩ := List.mem_map.mp hpair
        exact Or.inr ⟨e, he, hnew.trans hid'⟩
    · cases hcursor : i.state.syncCursor with
      | none => simp only [Inbox.isBaseline, hcursor]
      | some cursor =>
        simp only [Inbox.isBaseline, hcursor, Option.bind_some] at hbaseline ⊢
        cases hat : cursor.baselineAt with
        | none => rfl
        | some at₀ => simp [hat] at hbaseline
  · simp only [hinteger, if_false, Bool.false_eq_true]
    exact ⟨trivial, trivial, fun _ h => Or.inl h, fun h => h⟩

theorem Consistent.acknowledged {batch : RoomBatch} {baseline : Bool} {now : Instant}
    (h : Consistent sv timeline w)
    (hbatch : ∀ e ∈ batch.events, timeline e.eventId = e → Mention sv timeline e →
      w.inbox.state.hasSeen e.eventId = false → lastOf e.trigger.key w.log ≠ some none)
    (hevents : ∀ e ∈ batch.events, timeline e.eventId = e) :
    Consistent sv timeline { w with inbox := (w.inbox.acknowledge batch baseline now).2 } := by
  obtain ⟨hactive, hledger, hseen, hbaseline⟩ := acknowledge_state batch baseline now w.inbox
  constructor
  · intro key
    show (w.inbox.acknowledge batch baseline now).2.state.turnState key = _
    rw [← h.ledger, BridgeState.turnState, BridgeState.turnState, hledger]
  · intro key
    show outstanding key w.log = if key ∈ (w.inbox.acknowledge batch baseline now).2.active then 1 else 0
    rw [hactive, h.running]
  · intro key hkey
    have hmem : key ∈ w.inbox.active := hactive ▸ hkey
    exact h.claimed key hmem
  · intro key hkey
    obtain ⟨event, hmention, htrigger, hfresh⟩ := h.unseen key hkey
    refine ⟨event, hmention, htrigger, ?_⟩
    by_contra hnow
    rcases hseen event.eventId (by simpa using hnow) with hold | ⟨e, he, hid⟩
    · rw [hfresh] at hold
      cases hold
    · have hsame : e = event := by rw [← hevents e he, hid, hmention.1]
      subst hsame
      exact hbatch e he hmention.1 hmention hfresh (htrigger ▸ hkey)
  · exact fun hbase => h.begun (hbaseline hbase)

/-! ## What each operation does -/

section

variable [Protocol]

/-- What the supervisor guarantees of an operation where it performs it. -/
def Careful (sv : RoomSupervisor) (timeline : String → RoomEvent) (op : BridgeOp) (w : World) :
    Prop :=
  match op with
  | .claim trigger => Claimable sv timeline trigger w
  | .settle trigger status => trigger.key ∈ w.inbox.active ∧ Settles status
  | .commit batch => ∀ e ∈ batch.events, timeline e.eventId = e ∧
      (Mention sv timeline e → w.inbox.state.hasSeen e.eventId = true ∨ Answered e.trigger.key w)
  | .recordBaseline batch => w.inbox.isBaseline = true ∧ ∀ e ∈ batch.events, timeline e.eventId = e
  | _ => True

/-- What a port may answer. -/
def Answers (timeline : String → RoomEvent) : (op : BridgeOp) → Except Raised op.Answer → Prop
  | .sync _ => fun r => ∀ batch, r = .ok batch → ∀ e ∈ batch.events, timeline e.eventId = e
  | _ => fun _ => True

variable [Names]

/-- **One operation.** The invariant stays, and no terminal turn is touched. -/
theorem Consistent.operate (h : Consistent sv timeline w) (now : Instant)
    (answers : (op : BridgeOp) → Except Raised op.Answer) (takes : Bool) {op : BridgeOp}
    (hop : Careful sv timeline op w) :
    Consistent sv timeline (operate sv now answers takes op w).2 ∧
      NeverAgain w (Bridge.operate sv now answers takes op w).2 := by
  by_cases hquiet : Quiet op
  · have hsame : SameTurns w (Bridge.operate sv now answers takes op w).2 :=
      operate_quiet now answers takes hquiet w
    exact ⟨h.same hsame, hsame.neverAgain⟩
  cases op with
  | claim trigger =>
    rcases Inbox.claim_cases trigger w.inbox with ⟨reason, hclaim, -⟩ | ⟨reason, hclaim, hfree⟩
    · simp only [Bridge.operate, hclaim, Bool.false_eq_true, if_false]
      exact ⟨h, (SameTurns.refl w).neverAgain⟩
    · simp only [Bridge.operate, hclaim, Inbox.grant, if_true]
      refine ⟨h.granted hop hfree, fun key state hterminal hstate => ?_⟩
      have hkey : key ≠ trigger.key := by
        rintro rfl
        exact hfree (Or.inl ⟨state, hterminal, hstate⟩)
      refine ⟨?_, ?_⟩
      · show (w.inbox.state.recordTurn trigger.key IN_FLIGHT).turnState key = some state
        rw [BridgeState.turnState_recordTurn, if_neg hkey, hstate]
      · simp [grantsOf, Ne.symm hkey]
  | settle trigger status =>
    obtain ⟨hactive, hstatus⟩ := hop
    obtain ⟨-, -, hledger, -, -⟩ := settle_state trigger w.inbox hstatus
    refine ⟨h.settled hactive hstatus, fun key state hterminal hstate => ?_⟩
    have hkey : key ≠ trigger.key := by
      rintro rfl
      rw [h.ledger, h.claimed _ hactive] at hstate
      have hlast := recorded_terminal hterminal hstate
      cases hlast
    refine ⟨?_, ?_⟩
    · show (w.inbox.settle trigger status).2.state.turnState key = some state
      rw [hledger, if_neg hkey, hstate]
    · simp [Bridge.operate, grantsOf]
  | commit batch =>
    obtain ⟨-, hledger, -, -⟩ := acknowledge_state batch false now w.inbox
    refine ⟨h.acknowledged (fun e he _ hmention hfresh hlast => ?_) fun e he => (hop e he).1, ?_⟩
    · rcases (hop e he).2 hmention with hseen | ⟨status, hstatus, -⟩
      · rw [hfresh] at hseen
        cases hseen
      · rw [hlast] at hstatus
        cases hstatus
    · intro key state _ hstate
      refine ⟨?_, rfl⟩
      show (w.inbox.acknowledge batch false now).2.state.turnState key = some state
      rw [← hstate, BridgeState.turnState, BridgeState.turnState, hledger]
  | recordBaseline batch =>
    obtain ⟨hbaseline, hevents⟩ := hop
    obtain ⟨-, hledger, -, -⟩ := acknowledge_state batch true now w.inbox
    refine ⟨h.acknowledged (fun e he _ _ _ hlast => ?_) hevents, ?_⟩
    · rw [h.begun hbaseline] at hlast
      cases hlast
    · intro key state _ hstate
      refine ⟨?_, rfl⟩
      show (w.inbox.acknowledge batch true now).2.state.turnState key = some state
      rw [← hstate, BridgeState.turnState, BridgeState.turnState, hledger]
  | _ => exact absurd trivial hquiet

end

end Bridge
end RepoMesh
