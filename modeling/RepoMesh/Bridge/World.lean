/-
# The Bridge at work

The supervisor over its state file and its room: what each operation does, the process that runs
round after round and may stop at any point, and the narration of governed runs beside it. The
history of turns, the offers made to the room, the messages it has taken and the messages attempts
have written are kept beside the state.
-/
import RepoMesh.Foundation.Service
import RepoMesh.Bridge.Supervisor

namespace RepoMesh
namespace Bridge

open Async
open Delivery (UUID Instant)

/-- What happened: a process booted, a turn was granted or settled, a batch was read, the homeserver
refused a sync. -/
inductive Mark where
  | booted
  | granted (key : TurnKey)
  | settled (key : TurnKey) (status : String)
  | batchRead (nextBatch : String)
  | syncRefused
  deriving DecidableEq

/-- A message a room has taken, under the transaction id it was sent with. -/
structure Message where
  key : OutboxKey
  txnId : String
  body : String
  deriving DecidableEq

/-- A message an attempt wanted to have written down. -/
structure Written where
  attempt : ℕ
  key : OutboxKey
  kind : String
  body : String
  deriving DecidableEq

/-- The inbox with its file, the history of turns with the newest mark first, the offers made to the
room and the messages it took, and what the attempts have written. -/
structure World where
  inbox : Inbox
  log : List Mark
  offers : List OutboxKey
  room : List Message
  written : List Written
  deriving DecidableEq

/-- A worker that was never started. -/
def World.initial : World := ⟨⟨{}, []⟩, [], [], [], []⟩

/-- The message of a row. -/
def OutboxRow.message (row : OutboxRow) : Message := ⟨row.key, row.txnId, row.body⟩

/-- The homeserver takes a transaction id once. -/
def deliverTo (room : List Message) (row : OutboxRow) : List Message :=
  if room.any fun m => m.txnId == row.txnId then room else room ++ [row.message]

/-- An attempt writes each of its positions once. -/
def record (attempt : ℕ) (written : List Written) (row : OutboxRow) : List Written :=
  if written.any fun w => w.attempt == attempt && w.key == row.key then written
  else written ++ [⟨attempt, row.key, row.kind, row.body⟩]

/-- How many turns were granted: the number of the attempt that runs now. -/
def grants (log : List Mark) : ℕ :=
  log.countP fun m => match m with
    | .granted _ => true
    | _ => false

/-- One message of a governed run, written at its place in the run lane by the runner's loop. -/
structure Narration where
  attempt : ℕ
  roomId : String
  threadRootId : Option String
  triggerEventId : String
  ordinal : ℕ
  observation : RoomObservation
  deriving DecidableEq

/-- The position of a narration. -/
def Narration.key (n : Narration) : OutboxKey := ⟨n.triggerEventId, RUN_LANE, n.ordinal⟩

section

variable [Protocol] [Names]

/-- What an operation does, from the clock, the answers of the ports, and whether the room takes a
message whose send is not acknowledged. -/
def operate (sv : RoomSupervisor) (now : Instant)
    (answers : (op : BridgeOp) → Except Raised op.Answer) (takes : Bool) :
    (op : BridgeOp) → World → Except Raised op.Answer × World
  | .pending, w => (.ok w.inbox.state.pendingSends, w)
  | .markSent txnId eventId, w =>
    (.ok (), { w with inbox.state := w.inbox.state.markSent txnId eventId })
  | .markRefused txnId, w =>
    (.ok (), { w with inbox.state := w.inbox.state.markRefused txnId now })
  | .since, w => (.ok w.inbox.since, w)
  | .isBaseline, w => (.ok w.inbox.isBaseline, w)
  | .recordBaseline batch, w =>
    let (r, inbox) := w.inbox.recordBaseline batch now
    (r, { w with inbox := inbox })
  | .triggers batch, w => (.ok (w.inbox.triggers sv.matrixUserId sv.rooms batch), w)
  | .claim trigger, w =>
    let (claim, inbox) := w.inbox.claim trigger
    (.ok claim,
      { w with
        inbox := inbox
        log := if claim.granted then .granted trigger.key :: w.log else w.log })
  | .settle trigger status, w =>
    let (r, inbox) := w.inbox.settle trigger status
    (r, { w with inbox := inbox, log := .settled trigger.key status :: w.log })
  | .commit batch, w =>
    let (r, inbox) := w.inbox.commit batch now
    (r, { w with inbox := inbox })
  | .enqueue trigger lane observations, w =>
    let rows := Outbox.rows sv.workerAgentId trigger.roomId trigger.threadRootId trigger.eventId
      lane observations now
    let (r, state) := Outbox.enqueue sv.workerAgentId trigger.roomId trigger.threadRootId
      trigger.eventId lane observations now w.inbox.state
    (r.map fun _ => (),
      { w with
        inbox.state := state
        written := rows.foldl (record (grants w.log)) w.written })
  | .resumeHandle roomId threadId profile, w =>
    (.ok (w.inbox.state.resumeHandle roomId threadId profile), w)
  | .bindSession roomId threadId profile nativeSessionId, w =>
    (.ok (),
      { w with inbox.state := w.inbox.state.bindSession roomId threadId profile nativeSessionId })
  | .countTurn roomId threadId profile, w =>
    (.ok (), { w with inbox.state := w.inbox.state.countTurn roomId threadId profile })
  | .recordAnchor anchor, w =>
    match w.inbox.state.recordAnchor anchor with
    | .ok state => (.ok (), { w with inbox.state := state })
    | .error e => (.error e, w)
  | .sync since, w =>
    (answers (.sync since),
      match answers (.sync since) with
      | .ok batch => { w with log := .batchRead batch.nextBatch :: w.log }
      | .error (.roomRefused _) => { w with log := .syncRefused :: w.log }
      | _ => w)
  | .send row, w =>
    (answers (.send row),
      { w with
        offers := w.offers ++ [row.key]
        room := if takes || (answers (.send row)).isOk then deliverTo w.room row else w.room })
  | .join roomId, w => (answers (.join roomId), w)
  | .respond turn, w => (answers (.respond turn), w)
  | .startTask taskId workerAgentId, w => (answers (.startTask taskId workerAgentId), w)
  | .fetchAssignment taskId, w => (answers (.fetchAssignment taskId), w)
  | .plan package, w => (answers (.plan package), w)
  | .submitPlan taskId decision, w => (answers (.submitPlan taskId decision), w)
  | .review package, w => (answers (.review package), w)
  | .submitReview taskId decision, w => (answers (.submitReview taskId decision), w)

/-- The room delivers such events only. -/
def Truthful (delivers : RoomEvent → Prop)
    (answers : (op : BridgeOp) → Except Raised op.Answer) : Prop :=
  ∀ since batch, answers (.sync since) = .ok batch → ∀ event ∈ batch.events, delivers event

/-- Write a narration at its place. -/
def narrate (sv : RoomSupervisor) (now : Instant) (n : Narration) (w : World) : World :=
  { w with
    inbox.state := (Outbox.enqueueAt sv.workerAgentId n.roomId n.threadRootId n.key n.observation
      now w.inbox.state).2
    written := record n.attempt w.written
      (Outbox.row sv.workerAgentId n.roomId n.threadRootId n.key n.observation now) }

/-- A process starts with no turn running. -/
def booted (w : World) : World :=
  { w with inbox.active := [], log := .booted :: w.log }

/-- The Bridge of one worker, in rooms that deliver such events only; a run that is narrated was started by a turn that was granted. -/
def service (sv : RoomSupervisor) (delivers : RoomEvent → Prop) :
    Service BridgeOp.Answer Narration Raised Unit World where
  Exec := fun op w r w' =>
    ∃ now answers takes, Truthful delivers answers ∧ operate sv now answers takes op w = (r, w')
  round := round sv
  Absorbs := fun e => e = .roomTrouble
  Boot := fun w w' => w' = booted w
  Environment := fun n w w' => n.attempt ≤ grants w.log ∧ ∃ now, w' = narrate sv now n w

theorem serves {sv : RoomSupervisor} {delivers : RoomEvent → Prop}
    {moves : List (Move BridgeOp Narration Raised × World × World)} {w : World}
    (trace : (service sv delivers).Trace World.initial moves (.waiting, w)) (now : Instant)
    {answers : (op : BridgeOp) → Except Raised op.Answer} (takes : Bool)
    (htruth : Truthful delivers answers) :
    ∃ moves', (service sv delivers).Trace World.initial moves'
        (.serving (.done ((round sv).run (operate sv now answers takes) w).1),
          ((round sv).run (operate sv now answers takes) w).2) ∧
      ∀ m ∈ moves', m ∈ moves ∨ ∀ op, m.1 = .perform op →
        (op, m.2.1) ∈ Service.performed (operate sv now answers takes) (round sv) w := by
  have hexec : ∀ op w, (service sv delivers).Exec op w (operate sv now answers takes op w).1
      (operate sv now answers takes op w).2 := fun op w => ⟨now, answers, takes, htruth, rfl⟩
  refine ⟨_, (trace.snoc .start).runs hexec, fun m hm => ?_⟩
  rcases List.mem_append.mp hm with hm | hm
  · rcases List.mem_append.mp hm with hm | hm
    · exact Or.inl hm
    · obtain rfl := List.mem_singleton.mp hm
      exact Or.inr fun op hop => by cases hop
  · obtain ⟨x, hx, rfl⟩ := List.mem_map.mp hm
    refine Or.inr fun op hop => ?_
    cases hop
    exact hx

theorem boots (sv : RoomSupervisor) (delivers : RoomEvent → Prop) :
    ∃ moves, (service sv delivers).Trace World.initial moves (.waiting, booted World.initial) :=
  ⟨_, Service.Trace.nil.snoc (.boot rfl)⟩

end

end Bridge
end RepoMesh
