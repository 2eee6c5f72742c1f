/-
# The outbox

Outbound intent: written down before it is sent, and named deterministically. The names are taken
from two functions of text, the digest of a transaction id and the `uuid5` of an observation id.
-/
import Mathlib
import RepoMesh.Bridge.State

namespace RepoMesh
namespace Bridge

open Text
open Delivery (UUID Instant uuidStr)

/-- The functions the outbox derives its names with: `hashlib.sha256(text).hexdigest()[:40]` and
`uuid5(ROOM_OBSERVATION_NAMESPACE, text)`. -/
class Names where
  digest : String → String
  uuid5 : String → UUID

def TXN_PREFIX : String := "rmb-"

/-- What the coding session itself said. -/
def TURN_LANE : String := "turn"

/-- What the supervisor had to say on the session's behalf. -/
def NOTE_LANE : String := "note"

/-- What a governed run said about itself. -/
def RUN_LANE : String := "run"

/-- Every lane there is. -/
def LANES : List String := [TURN_LANE, NOTE_LANE, RUN_LANE]

/-- The ceiling on a room message. -/
def ROOM_BODY_LIMIT : ℕ := 4000

def KIND_LABELS : List (String × String) :=
  [("run_accepted", "accepted"), ("run_started", "started"), ("phase_changed", "phase"),
    ("tool_action", "tool"), ("files_changed", "files"), ("test_completed", "tests"),
    ("question", "question"), ("blocked", "blocked"), ("resumed", "resumed"),
    ("run_completed", "done"), ("run_failed", "failed"), ("run_interrupted", "interrupted"),
    ("note", "note")]

/-- One observable fact the Bridge may project into a room; its identity and its emission time are
derived again when it is written down. -/
structure RoomObservation where
  kind : String
  body : String
  taskId : Option UUID := none
  runId : Option UUID := none
  phase : Option String := none
  toolName : Option String := none
  changedFiles : Option (List String) := none
  testCommand : Option String := none
  testExitCode : Option ℤ := none
  commitSha : Option String := none
  deriving DecidableEq

section

variable [Names]

/-- The Matrix transaction id for one response within one turn. -/
def observationTxnId (key : OutboxKey) : String :=
  TXN_PREFIX ++ Names.digest
    (key.triggerEventId ++ "\x1f" ++ key.lane ++ "\x1f" ++ toString key.ordinal)

/-- The stable identity of one response. -/
def observationId (workerAgentId : UUID) (roomId : String) (key : OutboxKey) : UUID :=
  Names.uuid5 (uuidStr workerAgentId ++ "|" ++ roomId ++ "|" ++ key.triggerEventId ++ "|" ++
    key.lane ++ "|" ++ toString key.ordinal)

end

/-- `_detail`. -/
def detail (o : RoomObservation) : String :=
  ", ".intercalate
    ((o.runId.toList.map fun id => "run " ++ uuidStr id) ++
      ((o.phase.filter (· ≠ "")).toList.map fun phase => "phase " ++ phase) ++
      (o.toolName.filter (· ≠ "")).toList ++
      (o.testCommand.filter (· ≠ "")).toList ++
      (o.testExitCode.toList.map fun code => "exit " ++ toString code) ++
      ((o.changedFiles.filter (· ≠ [])).toList.map fun files =>
        toString files.length ++ " files") ++
      ((o.commitSha.filter (· ≠ "")).toList.map fun sha => truncate 12 sha))

/-- `_bounded`: hold the ceiling on a body. -/
def bounded (line : String) : String :=
  if line.length ≤ ROOM_BODY_LIMIT then line
  else truncate (ROOM_BODY_LIMIT - 1) line ++ "…"

/-- Project one observation into the text a room is allowed to see. -/
def render (o : RoomObservation) : String :=
  let label := (KIND_LABELS.lookup o.kind).getD o.kind
  let text := strip o.body
  let line := if text = "" then "[" ++ label ++ "]" else "[" ++ label ++ "] " ++ text
  bounded (if detail o = "" then line else line ++ " (" ++ detail o ++ ")")

/-- `_require_lane`: refuse a lane nobody declared. -/
def requireLane (lane : String) : Except Raised Unit :=
  if lane ∈ LANES then .ok ()
  else
    .error (.valueError ("unknown outbox lane '" ++ lane ++ "'; one of " ++
      ", ".intercalate LANES))

namespace Outbox

variable [Names]

/-- `_row`: one intent, named and rendered. -/
def row (workerAgentId : UUID) (roomId : String) (threadRootId : Option String)
    (key : OutboxKey) (observation : RoomObservation) (emittedAt : Instant) : OutboxRow where
  roomId := roomId
  threadRootId := threadRootId
  key := key
  txnId := observationTxnId key
  observationId := observationId workerAgentId roomId key
  emittedAt := emittedAt
  kind := observation.kind
  body := render observation

/-- The rows of a turn's responses: the ordinal is the place in the answer. -/
def rows (workerAgentId : UUID) (roomId : String) (threadRootId : Option String)
    (triggerEventId lane : String) (observations : List RoomObservation) (emittedAt : Instant) :
    List OutboxRow :=
  observations.zipIdx.map fun (o, i) =>
    row workerAgentId roomId threadRootId ⟨triggerEventId, lane, i⟩ o emittedAt

/-- What is still owed of one trigger. -/
def owedFor (triggerEventId : String) (s : BridgeState) : List OutboxRow :=
  s.outbox.filter fun r => r.key.triggerEventId == triggerEventId && r.isPending

/-- Write a turn's responses down, and return what still needs sending. -/
def enqueue (workerAgentId : UUID) (roomId : String) (threadRootId : Option String)
    (triggerEventId lane : String) (observations : List RoomObservation) (now : Instant)
    (s : BridgeState) : Except Raised (List OutboxRow) × BridgeState :=
  match requireLane lane with
  | .error e => (.error e, s)
  | .ok () =>
    let s' := s.enqueueSends
      (rows workerAgentId roomId threadRootId triggerEventId lane observations now)
    (.ok (owedFor triggerEventId s'), s')

/-- Write one response down at a position the caller already knows. -/
def enqueueAt (workerAgentId : UUID) (roomId : String) (threadRootId : Option String)
    (key : OutboxKey) (observation : RoomObservation) (now : Instant) (s : BridgeState) :
    Except Raised (List OutboxRow) × BridgeState :=
  match requireLane key.lane with
  | .error e => (.error e, s)
  | .ok () =>
    match s.enqueueSendAt (row workerAgentId roomId threadRootId key observation now) with
    | (.error e, s') => (.error e, s')
    | (.ok (), s') => (.ok (owedFor key.triggerEventId s'), s')

theorem enqueueAt_state (workerAgentId : UUID) (roomId : String) (threadRootId : Option String)
    (key : OutboxKey) (observation : RoomObservation) (now : Instant) (s : BridgeState) :
    (enqueueAt workerAgentId roomId threadRootId key observation now s).2 = s ∨
      (enqueueAt workerAgentId roomId threadRootId key observation now s).2 =
        s.enqueueSends [row workerAgentId roomId threadRootId key observation now] := by
  cases hlane : requireLane key.lane with
  | error e => exact Or.inl (by simp only [enqueueAt, hlane])
  | ok _ =>
    have hstate := s.enqueueSendAt_state
      (row workerAgentId roomId threadRootId key observation now)
    cases h : s.enqueueSendAt (row workerAgentId roomId threadRootId key observation now) with
    | mk r s' =>
      rw [h] at hstate
      cases r with
      | error e => simpa only [enqueueAt, hlane, h] using hstate
      | ok _ => simpa only [enqueueAt, hlane, h] using hstate

end Outbox

/-! ## Names -/

theorem separator_notMem_lane {lane : String} (h : lane ∈ LANES) : '\x1f' ∉ lane.toList := by
  simp only [LANES, List.mem_cons, List.not_mem_nil, or_false] at h
  rcases h with rfl | rfl | rfl <;> decide

theorem separator_notMem_toString (n : ℕ) : '\x1f' ∉ (toString n).toList := by
  intro hmem
  rcases mem_toString_int (n := n) hmem with h | h
  · exact absurd h (by decide)
  · exact absurd h (by decide)

section

variable [Names]

/-- **Distinct positions have distinct transaction ids**, when the digest keeps texts apart. -/
theorem observationTxnId_inj (hinj : Function.Injective Names.digest) {k k' : OutboxKey}
    (hk : k.lane ∈ LANES) (hk' : k'.lane ∈ LANES)
    (h : observationTxnId k = observationTxnId k') : k = k' := by
  obtain ⟨t, l, n⟩ := k
  obtain ⟨t', l', n'⟩ := k'
  have htext : t ++ "\x1f" ++ l ++ "\x1f" ++ toString n =
      t' ++ "\x1f" ++ l' ++ "\x1f" ++ toString n' := hinj (append_cancel h)
  -- Read from the right: the digits end at the first separator, the lane at the second.
  have hsep : "\x1f".toList = ['\x1f'] := rfl
  have hread : ∀ (t l : String) (n : ℕ),
      (t ++ "\x1f" ++ l ++ "\x1f" ++ toString n).toList.reverse =
        (toString n).toList.reverse ++ '\x1f' :: (l.toList.reverse ++ '\x1f' :: t.toList.reverse) :=
    fun t l n => by simp [String.toList_append, hsep]
  have hlist := congrArg (fun s => s.toList.reverse) htext
  simp only [hread] at hlist
  have hdigitsFree : ∀ m : ℕ, '\x1f' ∉ (toString m).toList.reverse := fun m hm =>
    separator_notMem_toString m (List.mem_reverse.mp hm)
  have hlaneFree : ∀ {lane : String}, lane ∈ LANES → '\x1f' ∉ lane.toList.reverse :=
    fun hlane hm => separator_notMem_lane hlane (List.mem_reverse.mp hm)
  obtain ⟨hdigits, hrest⟩ := append_cons_inj (hdigitsFree n) (hdigitsFree n') hlist
  obtain ⟨hlane, htrigger⟩ := append_cons_inj (hlaneFree hk) (hlaneFree hk') hrest
  have hn : n = n' := Nat.repr_injective (String.toList_inj.mp (List.reverse_inj.mp hdigits))
  obtain rfl := String.toList_inj.mp (List.reverse_inj.mp hlane)
  obtain rfl := String.toList_inj.mp (List.reverse_inj.mp htrigger)
  rw [hn]

end

end Bridge
end RepoMesh
