/-
# The inbox

Which room events become turns, and which are refused: the seen set, the turn ledger and the turns
this process is running right now.
-/
import RepoMesh.Bridge.State

namespace RepoMesh
namespace Bridge

open Delivery (UUID Instant)

/-- One timeline message, already reduced to what the inbox decides on. -/
structure RoomEvent where
  eventId : String
  roomId : String
  sender : String
  body : String
  originServerTs : ℤ
  threadRootId : Option String
  mentionsMe : Bool
  deriving DecidableEq

/-- A pending invitation. -/
structure RoomInvite where
  roomId : String
  inviter : String
  deriving DecidableEq

/-- One `/sync` answer. -/
structure RoomBatch where
  nextBatch : String
  events : List RoomEvent
  invites : List RoomInvite
  limitedRooms : List String
  deriving DecidableEq

/-- One mention this Bridge has decided to answer. -/
structure Trigger where
  eventId : String
  roomId : String
  threadId : String
  threadRootId : Option String
  sender : String
  prompt : String
  originServerTs : ℤ
  deriving DecidableEq

/-- Whether a turn may run, and on what grounds. -/
structure TurnClaim where
  granted : Bool
  reason : String
  deriving DecidableEq

/-- `_key`. -/
def Trigger.key (t : Trigger) : TurnKey := ⟨t.roomId, t.threadId, t.eventId⟩

/-- `event.thread_root_id or event.event_id`. -/
def RoomEvent.threadId (event : RoomEvent) : String :=
  match event.threadRootId with
  | none => event.eventId
  | some root => if root = "" then event.eventId else root

/-- The turn an event asks for. -/
def RoomEvent.trigger (event : RoomEvent) : Trigger where
  eventId := event.eventId
  roomId := event.roomId
  threadId := event.threadId
  threadRootId := event.threadRootId
  sender := event.sender
  prompt := event.body
  originServerTs := event.originServerTs

/-- `_addressed_to_us`. -/
def addressedToUs (matrixUserId : String) (rooms : List String) (event : RoomEvent) : Bool :=
  if event.roomId ∈ rooms then
    if event.sender = matrixUserId then false else event.mentionsMe
  else false

/-- `_newest`. -/
def newest : List RoomEvent → ℤ
  | [] => 0
  | event :: events => events.foldl (fun m e => max m e.originServerTs) event.originServerTs

/-- `_RETRYABLE_STATUSES`. -/
def RETRYABLE_STATUSES : List String := ["timeout", "cancelled", "interrupted"]

/-- The inbound half of the reliability core: the file, and the turns this process is running. -/
structure Inbox where
  state : BridgeState
  active : List TurnKey
  deriving DecidableEq

namespace Inbox

/-- True until a position has been committed. -/
def isBaseline (i : Inbox) : Bool :=
  match i.state.syncCursor with
  | none => true
  | some cursor => cursor.baselineAt.isNone

/-- The token to resume from, or `none` to ask for the baseline. -/
def since (i : Inbox) : Option String := i.state.syncCursor.map (·.sinceToken)

/-- `commit_batch` with the events of a batch. -/
def acknowledge (batch : RoomBatch) (baseline : Bool) (now : Instant) (i : Inbox) :
    Except Raised Unit × Inbox :=
  match i.state.commitBatch batch.nextBatch (batch.events.map fun e => (e.eventId, e.roomId))
      (newest batch.events) baseline now with
  | .ok s => (.ok (), { i with state := s })
  | .error e => (.error e, i)

/-- Adopt this batch as the past, and run none of it. -/
def recordBaseline (batch : RoomBatch) (now : Instant) (i : Inbox) : Except Raised Unit × Inbox :=
  i.acknowledge batch true now

/-- Acknowledge the batch: its events are seen, the cursor moves on. -/
def commit (batch : RoomBatch) (now : Instant) (i : Inbox) : Except Raised Unit × Inbox :=
  i.acknowledge batch false now

/-- The events in this batch that are ours to answer, oldest first. -/
def triggers (matrixUserId : String) (allowedRooms : List String) (batch : RoomBatch) (i : Inbox) :
    List Trigger :=
  (batch.events.filter fun e =>
    addressedToUs matrixUserId allowedRooms e && !i.state.hasSeen e.eventId).map RoomEvent.trigger

/-- Grant a turn: it is in flight on disk and active in this process. -/
def grant (key : TurnKey) (reason : String) (i : Inbox) : TurnClaim × Inbox :=
  (⟨true, reason⟩,
    { state := i.state.recordTurn key IN_FLIGHT
      active := if key ∈ i.active then i.active else key :: i.active })

/-- Ask permission to run this turn, and record the attempt if granted. -/
def claim (trigger : Trigger) (i : Inbox) : TurnClaim × Inbox :=
  let key := trigger.key
  match i.state.turnState key with
  | some recorded =>
    if recorded ∈ TERMINAL_TURN_STATES then (⟨false, "settled"⟩, i)
    else if recorded = IN_FLIGHT ∧ key ∈ i.active then (⟨false, "active"⟩, i)
    else if recorded = IN_FLIGHT then i.grant key "reauthorized"
    else if recorded = INTERRUPTED then i.grant key "retry"
    else i.grant key "new"
  | none => i.grant key "new"

/-- Record how the turn ended, and release this process's claim. -/
def settle (trigger : Trigger) (status : String) (i : Inbox) : Except Raised Unit × Inbox :=
  let key := trigger.key
  let i := { i with active := i.active.filter (· ≠ key) }
  if status ∈ TERMINAL_TURN_STATES then
    (.ok (), { i with state := i.state.recordTurn key status })
  else if status ∉ RETRYABLE_STATUSES then
    (.error (.valueError ("unknown turn status '" ++ status ++ "'")), i)
  else if status = "timeout" then (.ok (), { i with state := i.state.forgetTurn key })
  else (.ok (), { i with state := i.state.recordTurn key INTERRUPTED })

/-! ## What the calls do -/

variable {matrixUserId : String} {rooms : List String} {batch : RoomBatch} {trigger : Trigger}
  {i i' : Inbox}

/-- **Selection.** An event of the batch is offered exactly when it is addressed to this worker and
not in the seen set. -/
theorem mem_triggers {t : Trigger} :
    t ∈ i.triggers matrixUserId rooms batch ↔
      ∃ e ∈ batch.events, addressedToUs matrixUserId rooms e = true ∧
        i.state.hasSeen e.eventId = false ∧ e.trigger = t := by
  simp only [triggers, List.mem_map, List.mem_filter, Bool.and_eq_true, Bool.not_eq_true']
  constructor
  · rintro ⟨e, ⟨he, haddr, hseen⟩, rfl⟩
    exact ⟨e, he, haddr, hseen, rfl⟩
  · rintro ⟨e, he, haddr, hseen, rfl⟩
    exact ⟨e, ⟨he, haddr, hseen⟩, rfl⟩

/-- A turn that may not run again: its state is terminal, or this process is running it. -/
def Refused (key : TurnKey) (i : Inbox) : Prop :=
  (∃ state ∈ TERMINAL_TURN_STATES, i.state.turnState key = some state) ∨
    (i.state.turnState key = some IN_FLIGHT ∧ key ∈ i.active)

/-- **Claims.** A claim is refused for a turn that may not run again and changes nothing then; any
other is granted. -/
theorem claim_cases (trigger : Trigger) (i : Inbox) :
    (∃ reason, i.claim trigger = (⟨false, reason⟩, i) ∧ i.Refused trigger.key) ∨
      ∃ reason, i.claim trigger = i.grant trigger.key reason ∧ ¬ i.Refused trigger.key := by
  cases hstate : i.state.turnState trigger.key with
  | none =>
    refine Or.inr ⟨"new", by simp only [claim, hstate], ?_⟩
    simp [Refused, hstate]
  | some recorded =>
    by_cases hterminal : recorded ∈ TERMINAL_TURN_STATES
    · refine Or.inl ⟨"settled", by simp only [claim, hstate, hterminal, if_true], ?_⟩
      exact Or.inl ⟨recorded, hterminal, hstate⟩
    · by_cases hactive : recorded = IN_FLIGHT ∧ trigger.key ∈ i.active
      · refine Or.inl ⟨"active", ?_, Or.inr ⟨by rw [hstate, hactive.1], hactive.2⟩⟩
        simp only [claim, hstate, if_neg hterminal, if_pos hactive]
      · have hfree : ¬ i.Refused trigger.key := by
          rintro (⟨state, hmem, heq⟩ | ⟨heq, hrun⟩)
          · rw [hstate] at heq
            exact hterminal (Option.some.inj heq ▸ hmem)
          · rw [hstate] at heq
            exact hactive ⟨Option.some.inj heq, hrun⟩
        refine Or.inr ?_
        simp only [claim, hstate, if_neg hterminal, if_neg hactive]
        split_ifs
        · exact ⟨_, rfl, hfree⟩
        · exact ⟨_, rfl, hfree⟩
        · exact ⟨_, rfl, hfree⟩

theorem claim_granted_iff : (i.claim trigger).1.granted = true ↔ ¬ i.Refused trigger.key := by
  rcases claim_cases trigger i with ⟨reason, hclaim, hrefused⟩ | ⟨reason, hclaim, hfree⟩
  · simp [hclaim, hrefused]
  · simp [hclaim, hfree, grant]

end Inbox
end Bridge
end RepoMesh
