/-
# The Bridge's local state

One SQLite file per worker: the sync cursor and the seen set, the turn ledger, the outbox, the run
anchors and the session references. One public method is one transaction; the outbox is listed in
the order of its row ids.
-/
import RepoMesh.Foundation.Keyed
import RepoMesh.Delivery.Contracts

namespace RepoMesh
namespace Bridge

open Delivery (UUID Instant uuidStr)

/-- What a call of the Bridge may raise: a cancellation, the ports' refusals and troubles, the
refusals of the state file, and the exceptions of Python itself. -/
inductive Raised where
  | cancelledError
  | timeoutError
  | roomRefused (message : String)
  | roomTrouble
  | governedTaskRefused (message : String)
  | governedTaskUnavailable (message : String)
  | leaderActionRefused (code : Option String) (message : String)
  | leaderActionUnavailable (message : String)
  | leaderDocumentInvalid (message : String)
  | stateRefused (message : String)
  | workspaceNotWritable (message : String)
  | valueError (message : String)
  | typeError (message : String)
  | overflowError (message : String)
  | exception (message : String)
  deriving DecidableEq

/-- How many inbound event ids the first replay layer remembers. -/
def SEEN_EVENT_LIMIT : ℕ := 4096

def IN_FLIGHT : String := "in_flight"

def INTERRUPTED : String := "interrupted"

/-- States a turn never leaves. -/
def TERMINAL_TURN_STATES : List String := ["completed", "failed", "blocked"]

/-! ## The tables -/

/-- Where the last committed `/sync` left off. -/
structure SyncCursor where
  sinceToken : String
  baselineAt : Option Instant
  watermarkTs : ℤ
  deriving DecidableEq

/-- A row of `seen_events`. -/
structure SeenEvent where
  eventId : String
  roomId : String
  seq : ℕ
  deriving DecidableEq

/-- The primary key of `turn_ledger`. -/
structure TurnKey where
  roomId : String
  threadId : String
  triggerEventId : String
  deriving DecidableEq

/-- A row of `turn_ledger`. -/
structure TurnRow where
  key : TurnKey
  state : String
  deriving DecidableEq

/-- The position of an outbound intent: its trigger, its lane and its place in the lane. -/
structure OutboxKey where
  triggerEventId : String
  lane : String
  ordinal : ℕ
  deriving DecidableEq

/-- One outbound intent, exactly as it sits on disk. -/
structure OutboxRow where
  roomId : String
  threadRootId : Option String
  key : OutboxKey
  txnId : String
  observationId : UUID
  emittedAt : Instant
  kind : String
  body : String
  sentEventId : Option String := none
  refusedAt : Option Instant := none
  deriving DecidableEq

/-- What makes two intents at one key the same intent. -/
def OutboxRow.payload (row : OutboxRow) :
    String × Option String × String × UUID × String × String :=
  (row.roomId, row.threadRootId, row.txnId, row.observationId, row.kind, row.body)

/-- An intent still owed to a room. -/
def OutboxRow.isPending (row : OutboxRow) : Bool :=
  row.sentEventId.isNone && row.refusedAt.isNone

/-- Where a governed run came from, so its progress can go back there. -/
structure RunAnchor where
  runId : UUID
  taskId : UUID
  roomId : String
  threadRootId : Option String
  triggerEventId : String
  deriving DecidableEq

/-- The coding session serving one thread, and who issued its handle. -/
structure SessionRef where
  roomId : String
  threadId : String
  profile : String
  nativeSessionId : Option String
  turnCount : ℕ
  deriving DecidableEq

/-- The file of one worker. -/
structure BridgeState where
  syncCursor : Option SyncCursor := none
  seenEvents : List SeenEvent := []
  turnLedger : List TurnRow := []
  outbox : List OutboxRow := []
  runAnchors : List RunAnchor := []
  sessionRefs : List SessionRef := []
  deriving DecidableEq

namespace BridgeState

/-! ## The sync cursor and the seen set -/

/-- What fits a column of type `INTEGER`. -/
def isInteger (n : ℤ) : Bool := decide (-2 ^ 63 ≤ n) && decide (n < 2 ^ 63)

/-- `INSERT OR IGNORE INTO seen_events`. -/
def insertSeen (seen : List SeenEvent) (event : SeenEvent) : List SeenEvent :=
  if seen.any fun e => e.eventId == event.eventId then seen else seen ++ [event]

/-- Delete all but the `limit` rows of the highest `seq`. -/
def keepNewest (limit : ℕ) (seen : List SeenEvent) : List SeenEvent :=
  seen.filter fun e => decide (seen.countP (fun e' => decide (e.seq < e'.seq)) < limit)

/-- `_remember`: events are numbered on from the highest number in the table. -/
def remember (events : List (String × String)) (seen : List SeenEvent) : List SeenEvent :=
  if events.isEmpty then seen
  else
    let start := seen.foldl (fun m e => max m e.seq) 0
    let rows := events.zipIdx.map fun ((eventId, roomId), i) => ⟨eventId, roomId, start + (i + 1)⟩
    keepNewest SEEN_EVENT_LIMIT (rows.foldl insertSeen seen)

/-- Acknowledge one `/sync` answer: its events, then its position. -/
def commitBatch (nextBatch : String) (events : List (String × String)) (watermarkTs : ℤ)
    (baseline : Bool) (now : Instant) (s : BridgeState) : Except Raised BridgeState :=
  if isInteger watermarkTs then
    .ok { s with
      seenEvents := remember events s.seenEvents
      syncCursor := some
        { sinceToken := nextBatch
          baselineAt := (s.syncCursor.bind (·.baselineAt)).or (if baseline then some now else none)
          watermarkTs :=
            match s.syncCursor with
            | none => watermarkTs
            | some c => max c.watermarkTs watermarkTs } }
  else .error (.overflowError "Python int too large to convert to SQLite INTEGER")

def hasSeen (eventId : String) (s : BridgeState) : Bool :=
  s.seenEvents.any fun e => e.eventId == eventId

/-! ## The turn ledger -/

/-- The recorded state of one turn, or `none` if it has none. -/
def turnState (key : TurnKey) (s : BridgeState) : Option String :=
  (Keyed.find (·.key) s.turnLedger key).map (·.state)

def recordTurn (key : TurnKey) (state : String) (s : BridgeState) : BridgeState :=
  { s with
    turnLedger :=
      if s.turnLedger.any fun r => r.key == key then
        Keyed.write (·.key) s.turnLedger key fun r => { r with state := state }
      else s.turnLedger ++ [⟨key, state⟩] }

/-- Drop the row entirely, leaving the turn claimable as if never tried. -/
def forgetTurn (key : TurnKey) (s : BridgeState) : BridgeState :=
  { s with turnLedger := s.turnLedger.filter fun r => r.key != key }

/-! ## The outbox -/

/-- Two intents that the unique keys of the table do not allow together. -/
def conflicts (row row' : OutboxRow) : Bool := row.txnId == row'.txnId || row.key == row'.key

/-- `INSERT OR IGNORE INTO outbox`. -/
def insertSend (outbox : List OutboxRow) (row : OutboxRow) : List OutboxRow :=
  if outbox.any (conflicts row) then outbox else outbox ++ [row]

/-- Persist a turn's outbound intents in one transaction. -/
def enqueueSends (rows : List OutboxRow) (s : BridgeState) : BridgeState :=
  { s with outbox := rows.foldl insertSend s.outbox }

/-- The intent at a position. -/
def sendAt (key : OutboxKey) (s : BridgeState) : Option OutboxRow :=
  Keyed.find (·.key) s.outbox key

/-- Persist one intent at the key the caller names. A row that was never read back is a subscript
of `None`, and the transaction rolls back. -/
def enqueueSendAt (row : OutboxRow) (s : BridgeState) : Except Raised Unit × BridgeState :=
  let s' := s.enqueueSends [row]
  match s'.sendAt row.key with
  | none => (.error (.typeError "'NoneType' object is not subscriptable"), s)
  | some stored =>
    if stored.payload = row.payload then (.ok (), s')
    else
      (.error (.stateRefused ("outbox " ++ row.key.lane ++ " position " ++
        toString row.key.ordinal ++ " of " ++ row.key.triggerEventId ++
        " already holds a different message; a derived name must derive the same row twice")), s')

/-- Every intent still owed to a room, oldest row first. -/
def pendingSends (s : BridgeState) : List OutboxRow := s.outbox.filter OutboxRow.isPending

/-- Update the intents of a transaction id that are still owed. -/
def settleSend (txnId : String) (update : OutboxRow → OutboxRow) (s : BridgeState) : BridgeState :=
  { s with
    outbox := s.outbox.map fun r => if r.txnId = txnId ∧ r.isPending = true then update r else r }

/-- Record the homeserver's answer. -/
def markSent (txnId eventId : String) (s : BridgeState) : BridgeState :=
  s.settleSend txnId fun r => { r with sentEventId := some eventId }

/-- Put one intent down for good. -/
def markRefused (txnId : String) (now : Instant) (s : BridgeState) : BridgeState :=
  s.settleSend txnId fun r => { r with refusedAt := some now }

/-! ## Run anchors and session references -/

def anchorForRun (runId : UUID) (s : BridgeState) : Option RunAnchor :=
  Keyed.find (·.runId) s.runAnchors runId

/-- Tie one governed run to the room message that woke it. -/
def recordAnchor (anchor : RunAnchor) (s : BridgeState) : Except Raised BridgeState :=
  match s.anchorForRun anchor.runId with
  | some stored =>
    if stored = anchor then .ok s
    else
      .error (.stateRefused ("run " ++ uuidStr anchor.runId ++
        " is already anchored to a different room message; one run belongs to one conversation"))
  | none => .ok { s with runAnchors := s.runAnchors ++ [anchor] }

def sessionRef (roomId threadId : String) (s : BridgeState) : Option SessionRef :=
  s.sessionRefs.find? fun r => r.roomId == roomId && r.threadId == threadId

/-- The handle this thread may be resumed with, or `none`. -/
def resumeHandle (roomId threadId profile : String) (s : BridgeState) : Option String :=
  match s.sessionRef roomId threadId with
  | none => none
  | some r => if r.profile = profile then r.nativeSessionId else none

/-- Update the reference of a thread, or insert one. -/
def upsertSession (fresh : SessionRef) (update : SessionRef → SessionRef) (s : BridgeState) :
    BridgeState :=
  { s with
    sessionRefs :=
      if (s.sessionRef fresh.roomId fresh.threadId).isSome then
        s.sessionRefs.map fun r =>
          if r.roomId = fresh.roomId ∧ r.threadId = fresh.threadId then update r else r
      else s.sessionRefs ++ [fresh] }

/-- Record the session serving this thread, the moment it announces itself. -/
def bindSession (roomId threadId profile : String) (nativeSessionId : Option String)
    (s : BridgeState) : BridgeState :=
  s.upsertSession ⟨roomId, threadId, profile, nativeSessionId, 0⟩ fun r =>
    { r with
      profile := profile
      nativeSessionId :=
        if r.profile = profile then nativeSessionId.or r.nativeSessionId else nativeSessionId }

/-- Note that this thread served another turn, creating the row if needed. -/
def countTurn (roomId threadId profile : String) (s : BridgeState) : BridgeState :=
  s.upsertSession ⟨roomId, threadId, profile, none, 1⟩ fun r =>
    { r with turnCount := r.turnCount + 1 }

/-! ## Reading what was written -/

theorem enqueueSendAt_state (row : OutboxRow) (s : BridgeState) :
    (s.enqueueSendAt row).2 = s ∨ (s.enqueueSendAt row).2 = s.enqueueSends [row] := by
  cases h : (s.enqueueSends [row]).sendAt row.key with
  | none => exact Or.inl (by simp only [enqueueSendAt, h])
  | some stored =>
    by_cases hsame : stored.payload = row.payload
    · exact Or.inr (by simp only [enqueueSendAt, h, hsame, if_true])
    · exact Or.inr (by simp only [enqueueSendAt, h, hsame, if_false])

section Ledger

variable {key key' : TurnKey} {state : String} {s : BridgeState}

theorem turnState_recordTurn :
    (s.recordTurn key state).turnState key' =
      if key' = key then some state else s.turnState key' := by
  have hkey : ∀ r : TurnRow, r.key = key → ({ r with state := state } : TurnRow).key = key :=
    fun r hr => hr
  by_cases hany : (s.turnLedger.any fun r => r.key == key) = true
  · simp only [turnState, recordTurn, hany, if_true]
    split_ifs with hk
    · subst hk
      rw [Keyed.find_write_self hkey]
      obtain ⟨r, hr, hrk⟩ := List.any_eq_true.mp hany
      cases hfind : Keyed.find (·.key) s.turnLedger key' with
      | none => exact absurd (beq_iff_eq.mp hrk) (Keyed.find_eq_none.mp hfind r hr)
      | some r' => rfl
    · rw [Keyed.find_write_of_ne hkey hk]
  · simp only [turnState, recordTurn, hany, Bool.false_eq_true, if_false]
    have hnew : ∀ r ∈ s.turnLedger, r.key ≠ key := by
      intro r hr hrk
      exact hany (List.any_eq_true.mpr ⟨r, hr, beq_iff_eq.mpr hrk⟩)
    split_ifs with hk
    · subst hk
      rw [show key' = (⟨key', state⟩ : TurnRow).key from rfl, Keyed.find_append_self hnew]
      rfl
    · rw [Keyed.find_append_of_ne (Ne.symm hk)]

theorem turnState_forgetTurn :
    (s.forgetTurn key).turnState key' = if key' = key then none else s.turnState key' := by
  simp only [turnState, forgetTurn, Keyed.find, List.find?_filter]
  split_ifs with hk
  · subst hk
    simp
  · congr 2
    funext r
    by_cases hr : r.key = key'
    · simp [hr, hk]
    · simp [hr]

end Ledger

section Seen

variable {events : List (String × String)} {seen : List SeenEvent} {eventId : String}

theorem mem_insertSeen {e event : SeenEvent} (h : e ∈ insertSeen seen event) :
    e ∈ seen ∨ e = event := by
  unfold insertSeen at h
  split_ifs at h
  · exact Or.inl h
  · simpa using h

theorem mem_foldl_insertSeen {rows : List SeenEvent} {e : SeenEvent}
    (h : e ∈ rows.foldl insertSeen seen) : e ∈ seen ∨ e ∈ rows := by
  induction rows generalizing seen with
  | nil => exact Or.inl h
  | cons r rows ih =>
    rcases ih h with h | h
    · rcases mem_insertSeen h with h | rfl
      · exact Or.inl h
      · exact Or.inr (by simp)
    · exact Or.inr (by simp [h])

/-- **The seen set** remembers what it held and what was acknowledged, and nothing else. -/
theorem mem_remember {e : SeenEvent} (h : e ∈ remember events seen) :
    e ∈ seen ∨ ∃ p ∈ events, p.1 = e.eventId := by
  unfold remember at h
  split_ifs at h with hempty
  · exact Or.inl h
  · rcases mem_foldl_insertSeen (List.mem_of_mem_filter h) with h | h
    · exact Or.inl h
    · obtain ⟨⟨⟨eid, rid⟩, i⟩, hi, rfl⟩ := List.mem_map.mp h
      exact Or.inr ⟨(eid, rid), (List.mem_zipIdx' hi).2 ▸ List.getElem_mem _, rfl⟩

end Seen

end BridgeState
end Bridge
end RepoMesh
