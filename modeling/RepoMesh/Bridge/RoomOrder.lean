/-
# What the room reads, in order

The messages on disk are a queue of named intents, the room has read a part of it in its order, and
what attempts have written is on disk. Whatever the supervisor and the runs do keeps that: answers
join at the end, and only the oldest owed intent is offered or settled.
-/
import RepoMesh.Bridge.Calls
import RepoMesh.Bridge.Queue
import RepoMesh.Bridge.World

namespace RepoMesh
namespace Bridge

open Async
open Async.Prog (Within)
open Delivery (UUID Instant)

/-! ## What the room reads -/

/-- In a lane of a trigger. -/
def inLane (trigger lane : String) (key : OutboxKey) : Bool :=
  key.triggerEventId == trigger && key.lane == lane

/-- What a message says, and at which position. -/
abbrev Content := OutboxKey × String × String

def OutboxRow.content (row : OutboxRow) : Content := (row.key, row.kind, row.body)

def Written.content (x : Written) : Content := (x.key, x.kind, x.body)

/-- The messages of a lane on disk, oldest first. -/
def stored (trigger lane : String) (w : World) : List Content :=
  (w.inbox.state.outbox.filter fun r => inLane trigger lane r.key).map OutboxRow.content

/-- The messages of a lane that an attempt wanted to write, oldest first. -/
def writtenBy (attempt : ℕ) (trigger lane : String) (w : World) : List Content :=
  (w.written.filter fun x => x.attempt == attempt && inLane trigger lane x.key).map
    Written.content

/-- The messages of a lane that the room has read. -/
def roomOf (trigger lane : String) (w : World) : List Message :=
  w.room.filter fun m => inLane trigger lane m.key

/-- The rows of a lane as messages. -/
def messagesOf (trigger lane : String) (w : World) : List Message :=
  (w.inbox.state.outbox.filter fun r => inLane trigger lane r.key).map OutboxRow.message

/-- Each position keeps its transaction id and its message. -/
def Kept (w w' : World) : Prop :=
  ∀ key row, w.inbox.state.sendAt key = some row →
    ∃ row', w'.inbox.state.sendAt key = some row' ∧ row'.txnId = row.txnId ∧
      row'.content = row.content

/-! ## Writing messages down -/

section

variable [Names] {w w' : World} {rows : List OutboxRow} {attempt : ℕ} {trigger lane : String}

/-- The rows are written down for an attempt. -/
def wrote (attempt : ℕ) (rows : List OutboxRow) (w : World) : World :=
  { w with
    inbox.state := w.inbox.state.enqueueSends rows
    written := rows.foldl (record attempt) w.written }

/-- The rows of one answer: named, owed, each at a position of its own in one lane. -/
structure Answering (trigger lane : String) (rows : List OutboxRow) : Prop where
  named : ∀ r ∈ rows, r.Named
  owed : ∀ r ∈ rows, r.isPending = true
  keys : (rows.map (·.key)).Nodup
  inLane : ∀ r ∈ rows, inLane trigger lane r.key = true

/-- The messages are named, queued and read in order; what attempts wrote is on disk. -/
structure Orderly (w : World) : Prop where
  queued : w.inbox.state.Queued
  read : w.room.Sublist
    ((w.inbox.state.settledSends ++ w.inbox.state.pendingSends.take 1).map OutboxRow.message)
  heard : ∀ row ∈ w.inbox.state.outbox, row.sentEventId.isSome = true → row.message ∈ w.room
  placed : ∀ x ∈ w.written, x.key ∈ w.inbox.state.outbox.map (·.key)
  past : ∀ x ∈ w.written, x.attempt ≤ grants w.log

/-- The entry of a row. -/
def entry (attempt : ℕ) (row : OutboxRow) : Written := ⟨attempt, row.key, row.kind, row.body⟩

omit [Names] in
theorem record_eq (written : List Written) (row : OutboxRow) :
    record attempt written row =
      Keyed.insertNew (fun x => (x.attempt, x.key)) written (entry attempt row) := by
  have htaken : (written.any fun x => x.attempt == attempt && x.key == row.key) = true ↔
      (attempt, row.key) ∈ written.map fun x => (x.attempt, x.key) := by
    simp only [List.any_eq_true, Bool.and_eq_true, beq_iff_eq, List.mem_map, Prod.mk.injEq]
  unfold record Keyed.insertNew entry
  by_cases hkey : (attempt, row.key) ∈ written.map fun x => (x.attempt, x.key)
  · rw [if_pos (htaken.mpr hkey), if_pos hkey]
  · rw [if_neg (fun h => hkey (htaken.mp h)), if_neg hkey]

omit [Names] in
/-- **What an attempt wrote** grows by the rows at positions it has not written. -/
theorem wrote_written (hkeys : (rows.map (·.key)).Nodup) :
    (wrote attempt rows w).written = w.written ++
      (rows.filter fun r => (attempt, r.key) ∉ w.written.map fun x => (x.attempt, x.key)).map
        (entry attempt) := by
  have hfold : ∀ written : List Written, rows.foldl (record attempt) written =
      (rows.map (entry attempt)).foldl (Keyed.insertNew fun x => (x.attempt, x.key)) written := by
    intro written
    rw [List.foldl_map]
    congr 1
    funext written row
    exact record_eq written row
  have hnd : ((rows.map (entry attempt)).map fun x => (x.attempt, x.key)).Nodup := by
    rw [List.map_map]
    have hpair : ((fun x : Written => (x.attempt, x.key)) ∘ entry attempt) =
        (Prod.mk attempt) ∘ (fun r : OutboxRow => r.key) := rfl
    rw [hpair, ← List.map_map]
    exact hkeys.map (Prod.mk_right_injective attempt)
  show rows.foldl (record attempt) w.written = _
  rw [hfold, Keyed.foldl_insertNew hnd, List.filter_map]
  congr 2
  exact List.filter_congr fun r _ => decide_eq_decide.mpr Iff.rfl

/-- The outbox only grows at its end, nothing is offered, read or granted, and only lanes of runs
are written to. -/
structure Grows (w w' : World) : Prop where
  outbox : w.inbox.state.outbox <+: w'.inbox.state.outbox
  room : w'.room = w.room
  offers : w'.offers = w.offers
  grants : grants w'.log = grants w.log
  written : ∀ x ∈ w'.written, x ∈ w.written ∨ x.key.lane = RUN_LANE

omit [Names] in
theorem Grows.refl (w : World) : Grows w w :=
  ⟨List.prefix_rfl, rfl, rfl, rfl, fun _ hx => Or.inl hx⟩

omit [Names] in
theorem Grows.trans {a b c : World} (hab : Grows a b) (hbc : Grows b c) : Grows a c where
  outbox := hab.outbox.trans hbc.outbox
  room := hbc.room.trans hab.room
  offers := hbc.offers.trans hab.offers
  grants := hbc.grants.trans hab.grants
  written x hx := by
    rcases hbc.written x hx with hx | hx
    · exact hab.written x hx
    · exact Or.inr hx

omit [Names] in
theorem Grows.pending (h : Grows w w') :
    w.inbox.state.pendingSends <+: w'.inbox.state.pendingSends := by
  obtain ⟨rows, hrows⟩ := h.outbox
  exact ⟨rows.filter OutboxRow.isPending, by
    rw [BridgeState.pendingSends, BridgeState.pendingSends, ← hrows, List.filter_append]⟩

theorem orderly_initial : Orderly World.initial where
  queued := ⟨by simp [World.initial], by simp [World.initial], rfl⟩
  read := List.nil_sublist _
  heard := by simp [World.initial]
  placed := by simp [World.initial]
  past := by simp [World.initial]

section

variable (hinj : Function.Injective Names.digest)

include hinj

theorem wrote_outbox (attempt : ℕ) (h : Orderly w) (hanswer : Answering trigger lane rows) :
    (wrote attempt rows w).inbox.state.outbox = w.inbox.state.outbox ++
      rows.filter fun r => r.key ∉ w.inbox.state.outbox.map (·.key) :=
  BridgeState.enqueueSends_outbox hinj h.queued.named hanswer.named hanswer.keys

/-- **Writing an answer down** keeps the order. -/
theorem Orderly.wrote (h : Orderly w) (hanswer : Answering trigger lane rows)
    (hattempt : attempt ≤ grants w.log) : Orderly (wrote attempt rows w) := by
  have houtbox := wrote_outbox hinj attempt h hanswer
  obtain ⟨hqueued, hsettled, hpending⟩ := h.queued.append houtbox
    (fun r hr => hanswer.named r (List.mem_of_mem_filter hr))
    (fun r hr => hanswer.owed r (List.mem_of_mem_filter hr))
    (hanswer.keys.sublist (List.filter_sublist.map _))
    (fun r hr => of_decide_eq_true (List.mem_filter.mp hr).2)
  refine ⟨hqueued, ?_, fun row hrow hsent => ?_, fun x hx => ?_, fun x hx => ?_⟩
  · rw [hsettled, hpending, List.take_append]
    refine h.read.trans (List.Sublist.map _ ?_)
    exact (List.Sublist.refl _).append (List.sublist_append_left _ _)
  · rw [houtbox] at hrow
    rcases List.mem_append.mp hrow with hold | hnew
    · exact h.heard row hold hsent
    · have howed := hanswer.owed row (List.mem_of_mem_filter hnew)
      simp only [OutboxRow.isPending, Bool.and_eq_true, Option.isNone_iff_eq_none] at howed
      rw [howed.1] at hsent
      cases hsent
  · rw [houtbox, List.map_append]
    rw [wrote_written hanswer.keys] at hx
    rcases List.mem_append.mp hx with hold | hnew
    · exact List.mem_append_left _ (h.placed x hold)
    · obtain ⟨r, hr, rfl⟩ := List.mem_map.mp hnew
      have hrow : r ∈ rows := List.mem_of_mem_filter hr
      by_cases htaken : r.key ∈ w.inbox.state.outbox.map (·.key)
      · exact List.mem_append_left _ htaken
      · refine List.mem_append_right _ (List.mem_map.mpr ⟨r, ?_, rfl⟩)
        exact List.mem_filter.mpr ⟨hrow, decide_eq_true htaken⟩
  · rw [wrote_written hanswer.keys] at hx
    rcases List.mem_append.mp hx with hold | hnew
    · exact h.past x hold
    · obtain ⟨r, -, rfl⟩ := List.mem_map.mp hnew
      exact hattempt

end

theorem Orderly.read_next {row : OutboxRow} (h : Orderly w)
    (hhead : w.inbox.state.pendingSends.head? = some row) :
    w.room.Sublist (w.inbox.state.settledSends.map OutboxRow.message ++ [row.message]) := by
  have hread := h.read
  rw [BridgeState.pending_eq_cons hhead, List.map_append] at hread
  simpa using hread

theorem Orderly.message_of_txnId (hinj : Function.Injective Names.digest) {row : OutboxRow}
    (h : Orderly w) (hhead : w.inbox.state.pendingSends.head? = some row) {m : Message}
    (hm : m ∈ w.room) (htxn : m.txnId = row.txnId) : m = row.message := by
  obtain ⟨hrow, -⟩ := BridgeState.mem_of_head hhead
  have hmem := (h.read_next hhead).subset hm
  rcases List.mem_append.mp hmem with hsettled | hnext
  · obtain ⟨r, hr, rfl⟩ := List.mem_map.mp hsettled
    have hr' : r ∈ w.inbox.state.outbox := List.mem_of_mem_filter hr
    have hkey : r.key = row.key :=
      BridgeState.key_of_txnId hinj (h.queued.named r hr') (h.queued.named row hrow) htxn
    rw [h.queued.eq_of_key hr' hrow hkey]
  · exact List.mem_singleton.mp hnext

/-- **Offering the next intent**: whether or not the room takes it, it reads in order. -/
theorem Orderly.deliver (hinj : Function.Injective Names.digest) {row : OutboxRow} (h : Orderly w)
    (hhead : w.inbox.state.pendingSends.head? = some row) :
    row.message ∈ deliverTo w.room row ∧
      Orderly { w with offers := w.offers ++ [row.key], room := deliverTo w.room row } := by
  have hmem : row.message ∈ deliverTo w.room row := by
    unfold deliverTo
    split_ifs with htaken
    · obtain ⟨m, hm, htxn⟩ := List.any_eq_true.mp htaken
      exact h.message_of_txnId hinj hhead hm (beq_iff_eq.mp htxn) ▸ hm
    · simp
  refine ⟨hmem, h.queued, ?_, fun r hr hsent => ?_, h.placed, h.past⟩
  · show (deliverTo w.room row).Sublist _
    rw [BridgeState.pending_eq_cons hhead, List.map_append]
    have hnext := h.read_next hhead
    unfold deliverTo
    split_ifs with htaken
    · simpa using hnext
    · have hfresh : row.message ∉ w.room := fun hm =>
        htaken (List.any_eq_true.mpr ⟨_, hm, by simp [OutboxRow.message]⟩)
      have hsettled : w.room.Sublist (w.inbox.state.settledSends.map OutboxRow.message) := by
        obtain ⟨front, back, hsplit, hfront, hback⟩ := List.sublist_append_iff.mp hnext
        rcases List.sublist_singleton.mp hback with rfl | rfl
        · rw [List.append_nil] at hsplit
          rwa [hsplit]
        · exact absurd (hsplit ▸ by simp) hfresh
      simpa using hsettled.append_right [row.message]
  · have hheard := h.heard r hr hsent
    show r.message ∈ deliverTo w.room row
    unfold deliverTo
    split_ifs
    · exact hheard
    · exact List.mem_append_left _ hheard

/-- **Settling the next intent** keeps the order; it is said to be sent only if the room read it. -/
theorem Orderly.settle (hinj : Function.Injective Names.digest) {row : OutboxRow} (h : Orderly w)
    (hhead : w.inbox.state.pendingSends.head? = some row) (update : OutboxRow → OutboxRow)
    (hmessage : (update row).message = row.message) (hdone : (update row).isPending = false)
    (hsent : (update row).sentEventId.isSome = true → row.message ∈ w.room) :
    Orderly { w with inbox.state := w.inbox.state.settleSend row.txnId update } := by
  have hkey : (update row).key = row.key := congrArg Message.key hmessage
  have htxn : (update row).txnId = row.txnId := congrArg Message.txnId hmessage
  obtain ⟨hqueued, hsettled, hpending⟩ := h.queued.settle hinj hhead update hkey htxn hdone
  have houtbox := BridgeState.settleSend_outbox hinj h.queued hhead update
  have hline : w.inbox.state.outbox =
      w.inbox.state.settledSends ++ row :: w.inbox.state.pendingSends.tail := by
    rw [← BridgeState.pending_eq_cons hhead]
    exact h.queued.line
  refine ⟨hqueued, ?_, fun r hr hs => ?_, fun x hx => ?_, h.past⟩
  · rw [hsettled, hpending]
    refine (h.read_next hhead).trans ?_
    simp [hmessage]
  · have hr' : r ∈ w.inbox.state.settledSends ++ update row :: w.inbox.state.pendingSends.tail :=
      houtbox ▸ hr
    simp only [List.mem_append, List.mem_cons] at hr'
    rcases hr' with hr' | rfl | hr'
    · exact h.heard r (hline ▸ by simp [hr']) hs
    · exact hmessage ▸ hsent hs
    · exact h.heard r (hline ▸ by simp [hr']) hs
  · have hplaced := h.placed x hx
    rw [hline] at hplaced
    show x.key ∈ (w.inbox.state.settleSend row.txnId update).outbox.map (·.key)
    rw [houtbox]
    simpa [hkey] using hplaced

/-! ## What each operation does -/

/-- Nothing is written, offered, read or granted. -/
structure Unmoved (w w' : World) : Prop where
  outbox : w'.inbox.state.outbox = w.inbox.state.outbox
  room : w'.room = w.room
  offers : w'.offers = w.offers
  grants : Bridge.grants w'.log = Bridge.grants w.log
  written : w'.written = w.written

omit [Names] in
theorem Unmoved.grows (h : Unmoved w w') : Grows w w' :=
  ⟨h.outbox ▸ List.prefix_rfl, h.room, h.offers, h.grants, fun _ hx => Or.inl (h.written ▸ hx)⟩

theorem Orderly.same (h : Orderly w)
    (houtbox : w'.inbox.state.outbox = w.inbox.state.outbox) (hroom : w'.room = w.room)
    (hwritten : w'.written = w.written) (hgrants : grants w.log ≤ grants w'.log) : Orderly w' := by
  have hsettled : w'.inbox.state.settledSends = w.inbox.state.settledSends := by
    simp only [BridgeState.settledSends, houtbox]
  have hpending : w'.inbox.state.pendingSends = w.inbox.state.pendingSends := by
    simp only [BridgeState.pendingSends, houtbox]
  refine ⟨⟨?_, ?_, ?_⟩, ?_, ?_, ?_, fun x hx => ?_⟩
  · rw [houtbox]
    exact h.queued.named
  · rw [houtbox]
    exact h.queued.keys
  · rw [houtbox, hsettled, hpending]
    exact h.queued.line
  · rw [hroom, hsettled, hpending]
    exact h.read
  · rw [houtbox, hroom]
    exact h.heard
  · rw [houtbox, hwritten]
    exact h.placed
  · rw [hwritten] at hx
    exact (h.past x hx).trans hgrants

theorem Unmoved.orderly (h : Unmoved w w') (horder : Orderly w) : Orderly w' :=
  horder.same h.outbox h.room h.written (le_of_eq h.grants.symm)

/-- The positions are on disk. -/
def OnDisk (known : OutboxKey → Prop) (w : World) : Prop :=
  ∀ key, known key → ∃ row ∈ w.inbox.state.outbox, row.key = key

/-- The positions are on disk, and owed no more. -/
def Done (known : OutboxKey → Prop) (w : World) : Prop :=
  ∀ key, known key → ∃ row ∈ w.inbox.state.outbox, row.key = key ∧ row.isPending = false

variable {known : OutboxKey → Prop}

omit [Names] in
theorem Done.onDisk (h : Done known w) : OnDisk known w := by
  intro key hkey
  obtain ⟨row, hrow, hk, -⟩ := h key hkey
  exact ⟨row, hrow, hk⟩

omit [Names] in
theorem OnDisk.mono (h : OnDisk known w) (hgrows : w.inbox.state.outbox <+: w'.inbox.state.outbox) :
    OnDisk known w' := by
  intro key hkey
  obtain ⟨row, hrow, hk⟩ := h key hkey
  exact ⟨row, hgrows.subset hrow, hk⟩

omit [Names] in
theorem Done.mono (h : Done known w) (hgrows : w.inbox.state.outbox <+: w'.inbox.state.outbox) :
    Done known w' := by
  intro key hkey
  obtain ⟨row, hrow, hk⟩ := h key hkey
  exact ⟨row, hgrows.subset hrow, hk⟩

omit [Names] in
theorem settleSend_onDisk {txnId : String} {update : OutboxRow → OutboxRow}
    (h : OnDisk known w) (hw : w'.inbox.state = w.inbox.state.settleSend txnId update)
    (hkey : ∀ r, (update r).key = r.key) : OnDisk known w' := by
  intro key hk
  obtain ⟨row, hrow, hrowk⟩ := h key hk
  rw [hw]
  refine ⟨_, List.mem_map_of_mem hrow, ?_⟩
  split_ifs
  · rw [hkey, hrowk]
  · exact hrowk

omit [Names] in
theorem settleSend_done {txnId : String} {update : OutboxRow → OutboxRow}
    (h : Done known w) (hw : w'.inbox.state = w.inbox.state.settleSend txnId update) :
    Done known w' := by
  intro key hk
  obtain ⟨row, hrow, hrowk, hdone⟩ := h key hk
  rw [hw]
  refine ⟨row, List.mem_map.mpr ⟨row, hrow, ?_⟩, hrowk, hdone⟩
  simp [hdone]

theorem answering_rows (workerAgentId : UUID) (roomId : String) (threadRootId : Option String)
    (trigger : String) {lane : String} (hlane : lane ∈ LANES) (observations : List RoomObservation)
    (now : Instant) : Answering trigger lane
      (Outbox.rows workerAgentId roomId threadRootId trigger lane observations now) := by
  refine ⟨fun r hr => ?_, fun r hr => ?_, ?_, fun r hr => ?_⟩
  · obtain ⟨⟨o, i⟩, -, rfl⟩ := List.mem_map.mp hr
    exact ⟨rfl, hlane⟩
  · obtain ⟨⟨o, i⟩, -, rfl⟩ := List.mem_map.mp hr
    rfl
  · have hmap : (Outbox.rows workerAgentId roomId threadRootId trigger lane observations now).map
        (·.key) = (observations.zipIdx.map Prod.snd).map (OutboxKey.mk trigger lane) := by
      rw [Outbox.rows, List.map_map, List.map_map]
      rfl
    rw [hmap, List.zipIdx_map_snd]
    refine (List.nodup_range' ).map fun i j hij => ?_
    exact congrArg OutboxKey.ordinal hij
  · obtain ⟨⟨o, i⟩, -, rfl⟩ := List.mem_map.mp hr
    simp [Outbox.row, inLane]

theorem answering_row (workerAgentId : UUID) (roomId : String) (threadRootId : Option String)
    {key : OutboxKey} (hlane : key.lane ∈ LANES) (observation : RoomObservation) (now : Instant) :
    Answering key.triggerEventId key.lane
      [Outbox.row workerAgentId roomId threadRootId key observation now] := by
  constructor
  · simp [Outbox.row, OutboxRow.Named, hlane]
  · simp [Outbox.row, OutboxRow.isPending]
  · simp
  · simp [Outbox.row, inLane]

omit [Names] in
theorem requireLane_ok (hlane : lane ∈ LANES) : requireLane lane = .ok () := if_pos hlane

theorem enqueueAt_eq (hinj : Function.Injective Names.digest) {s : BridgeState} (h : s.Queued)
    (workerAgentId : UUID) (roomId : String) (threadRootId : Option String) {key : OutboxKey}
    (hlane : key.lane ∈ LANES) (observation : RoomObservation) (now : Instant) :
    (Outbox.enqueueAt workerAgentId roomId threadRootId key observation now s).2 =
      s.enqueueSends [Outbox.row workerAgentId roomId threadRootId key observation now] := by
  have hanswer := answering_row workerAgentId roomId threadRootId hlane observation now
  generalize hrow : Outbox.row workerAgentId roomId threadRootId key observation now = row at hanswer
  have houtbox := BridgeState.enqueueSends_outbox hinj h.named hanswer.named hanswer.keys
  have hfound : ((s.enqueueSends [row]).sendAt row.key).isSome = true := by
    rw [BridgeState.sendAt_isSome, houtbox, List.map_append]
    by_cases htaken : row.key ∈ s.outbox.map (·.key)
    · exact List.mem_append_left _ htaken
    · exact List.mem_append_right _ (by simpa using htaken)
  obtain ⟨at₀, hat⟩ := Option.isSome_iff_exists.mp hfound
  have hstate : (s.enqueueSendAt row).2 = s.enqueueSends [row] := by
    simp only [BridgeState.enqueueSendAt, hat]
    split_ifs <;> rfl
  simp only [Outbox.enqueueAt, requireLane_ok hlane, hrow]
  cases hresult : s.enqueueSendAt row with
  | mk r s' =>
    rw [hresult] at hstate
    cases r <;> exact hstate

theorem narrate_eq (hinj : Function.Injective Names.digest) (h : Orderly w) (sv : RoomSupervisor)
    (now : Instant) (n : Narration) : narrate sv now n w = wrote n.attempt
      [Outbox.row sv.workerAgentId n.roomId n.threadRootId n.key n.observation now] w := by
  unfold narrate wrote
  rw [enqueueAt_eq hinj h.queued sv.workerAgentId n.roomId n.threadRootId
    (show n.key.lane ∈ LANES by simp [Narration.key, LANES])]
  rfl

theorem grows_wrote (hinj : Function.Injective Names.digest) (h : Orderly w)
    (hanswer : Answering trigger RUN_LANE rows) : Grows w (wrote attempt rows w) := by
  refine ⟨?_, rfl, rfl, rfl, fun x hx => ?_⟩
  · rw [wrote_outbox hinj _ h hanswer]
    exact List.prefix_append _ _
  · rw [wrote_written hanswer.keys] at hx
    rcases List.mem_append.mp hx with hold | hnew
    · exact Or.inl hold
    · obtain ⟨r, hr, rfl⟩ := List.mem_map.mp hnew
      have hlane := hanswer.inLane r (List.mem_of_mem_filter hr)
      simp only [inLane, Bool.and_eq_true, beq_iff_eq] at hlane
      exact Or.inr hlane.2

omit [Names] in
theorem kept_of_prefix (h : w.inbox.state.outbox <+: w'.inbox.state.outbox) : Kept w w' := by
  obtain ⟨rows, hrows⟩ := h
  intro key row hrow
  refine ⟨row, ?_, rfl, rfl⟩
  have hfind : w.inbox.state.outbox.find? (fun r => r.key == key) = some row := hrow
  rw [BridgeState.sendAt, Keyed.find, ← hrows, List.find?_append, hfind, Option.some_or]

variable [Protocol] {sv : RoomSupervisor}

/-- The operations that touch neither the outbox nor the grants. -/
def BridgeOp.Calm : BridgeOp → Prop
  | .send _ | .markSent .. | .markRefused _ | .claim _ | .enqueue .. => False
  | _ => True

/-- What the supervisor guarantees of an operation where it performs it: it offers and settles the
oldest owed intent, does anything else only when the known positions are done, and writes the answer
of an attempt that has written nothing but runs. -/
def Duly (known : OutboxKey → Prop) (op : BridgeOp) (w : World) : Prop :=
  match op with
  | .pending => True
  | .send row => w.inbox.state.pendingSends.head? = some row
  | .markSent txnId _ => ∃ row, w.inbox.state.pendingSends.head? = some row ∧ row.txnId = txnId ∧
      row.message ∈ w.room
  | .markRefused txnId => ∃ row, w.inbox.state.pendingSends.head? = some row ∧ row.txnId = txnId
  | .enqueue _ lane observations => Done known w ∧ lane ∈ LANES ∧
      (lane = RUN_LANE → observations.length = 1) ∧
      ∀ x ∈ w.written, x.attempt = grants w.log → x.key.lane = RUN_LANE
  | _ => Done known w

omit [Names] in
theorem Duly.done {op : BridgeOp} (h : Duly known op w) (hop : ¬ op.Draining) : Done known w := by
  cases op <;> first | exact absurd trivial hop | exact h | exact h.1

theorem operate_calm (now : Instant) (answers : (op : BridgeOp) → Except Raised op.Answer)
    (takes : Bool) {op : BridgeOp} (hop : op.Calm) (w : World) :
    Unmoved w (operate sv now answers takes op w).2 := by
  have hacknowledge : ∀ (batch : RoomBatch) (baseline : Bool),
      (w.inbox.acknowledge batch baseline now).2.state.outbox = w.inbox.state.outbox := by
    intro batch baseline
    unfold Inbox.acknowledge BridgeState.commitBatch
    split_ifs <;> rfl
  have hlog : ∀ m : Mark, (∀ key, m ≠ .granted key) → grants (m :: w.log) = grants w.log := by
    intro m hm
    cases m with
    | granted key => exact absurd rfl (hm key)
    | _ => simp [grants]
  cases op with
  | send | markSent | markRefused | claim | enqueue => exact hop.elim
  | sync since =>
    simp only [operate]
    split
    · exact ⟨rfl, rfl, rfl, hlog _ (by simp), rfl⟩
    · exact ⟨rfl, rfl, rfl, hlog _ (by simp), rfl⟩
    · exact ⟨rfl, rfl, rfl, rfl, rfl⟩
  | commit batch => exact ⟨hacknowledge batch false, rfl, rfl, rfl, rfl⟩
  | recordBaseline batch => exact ⟨hacknowledge batch true, rfl, rfl, rfl, rfl⟩
  | settle trigger status =>
    refine ⟨?_, rfl, rfl, hlog _ (by simp), rfl⟩
    show (w.inbox.settle trigger status).2.state.outbox = _
    unfold Inbox.settle
    split_ifs <;> rfl
  | recordAnchor anchor =>
    simp only [operate, BridgeState.recordAnchor]
    split <;> rename_i h
    · split at h
      · split_ifs at h
        cases h
        exact ⟨rfl, rfl, rfl, rfl, rfl⟩
      · cases h
        exact ⟨rfl, rfl, rfl, rfl, rfl⟩
    · exact ⟨rfl, rfl, rfl, rfl, rfl⟩
  | _ => exact ⟨rfl, rfl, rfl, rfl, rfl⟩

theorem operate_claim (sv : RoomSupervisor) (now : Instant)
    (answers : (op : BridgeOp) → Except Raised op.Answer) (takes : Bool) (trigger : Trigger)
    (w : World) :
    (operate sv now answers takes (.claim trigger) w).2.inbox.state.outbox = w.inbox.state.outbox ∧
      (operate sv now answers takes (.claim trigger) w).2.room = w.room ∧
      (operate sv now answers takes (.claim trigger) w).2.offers = w.offers ∧
      (operate sv now answers takes (.claim trigger) w).2.written = w.written ∧
      grants w.log ≤ grants (operate sv now answers takes (.claim trigger) w).2.log ∧
      ((operate sv now answers takes (.claim trigger) w).1 = .ok (w.inbox.claim trigger).1) ∧
      ((w.inbox.claim trigger).1.granted = true →
        grants (operate sv now answers takes (.claim trigger) w).2.log = grants w.log + 1) := by
  rcases Inbox.claim_cases trigger w.inbox with ⟨reason, hclaim, -⟩ | ⟨reason, hclaim, -⟩
  · simp [operate, hclaim]
  · simp [operate, hclaim, Inbox.grant, grants, BridgeState.recordTurn]

theorem enqueue_eq (now : Instant) (answers : (op : BridgeOp) → Except Raised op.Answer)
    (takes : Bool) (trigger : Trigger) {lane : String} (hlane : lane ∈ LANES)
    (observations : List RoomObservation) (w : World) :
    operate sv now answers takes (.enqueue trigger lane observations) w =
      (.ok (), wrote (grants w.log) (Outbox.rows sv.workerAgentId trigger.roomId
        trigger.threadRootId trigger.eventId lane observations now) w) := by
  simp only [operate, Outbox.enqueue, requireLane_ok hlane]
  rfl

section

variable (hinj : Function.Injective Names.digest)

include hinj

/-- **One operation** keeps the order, what is on disk and what is done. -/
theorem Orderly.operate (sv : RoomSupervisor) (h : Orderly w) (now : Instant)
    (answers : (op : BridgeOp) → Except Raised op.Answer) (takes : Bool) {op : BridgeOp}
    (hop : Duly known op w) :
    Orderly (operate sv now answers takes op w).2 ∧
      (∀ k : OutboxKey → Prop, OnDisk k w → OnDisk k (Bridge.operate sv now answers takes op w).2) ∧
      (∀ k : OutboxKey → Prop, Done k w → Done k (Bridge.operate sv now answers takes op w).2) ∧
      w.offers.length ≤ (Bridge.operate sv now answers takes op w).2.offers.length := by
  by_cases hcalm : op.Calm
  · have hunmoved : Unmoved w (Bridge.operate sv now answers takes op w).2 :=
      operate_calm now answers takes hcalm w
    have hgrows := hunmoved.grows.outbox
    exact ⟨hunmoved.orderly h, fun k hk => hk.mono hgrows, fun k hk => hk.mono hgrows,
      by rw [hunmoved.offers]⟩
  cases op with
  | send row =>
    obtain ⟨-, hdelivered⟩ := h.deliver hinj hop
    refine ⟨?_, fun k hk => hk, fun k hk => hk, by simp [Bridge.operate]⟩
    simp only [Bridge.operate]
    split_ifs
    · exact hdelivered
    · exact ⟨h.queued, h.read, h.heard, h.placed, h.past⟩
  | markSent txnId eventId =>
    obtain ⟨row, hhead, rfl, hroom⟩ := hop
    have hsettled := h.settle hinj hhead (fun r => { r with sentEventId := some eventId }) rfl
      (by simp [OutboxRow.isPending]) fun _ => hroom
    exact ⟨hsettled, fun k hk => settleSend_onDisk hk rfl fun _ => rfl,
      fun k hk => settleSend_done hk rfl, le_refl _⟩
  | markRefused txnId =>
    obtain ⟨row, hhead, rfl⟩ := hop
    obtain ⟨-, hpending⟩ := BridgeState.mem_of_head hhead
    have hunsent : row.sentEventId.isSome = false := by
      simp only [OutboxRow.isPending, Bool.and_eq_true, Option.isNone_iff_eq_none] at hpending
      simp [hpending.1]
    have hsettled := h.settle hinj hhead (fun r => { r with refusedAt := some now }) rfl
      (by simp [OutboxRow.isPending]) fun hsent => by
        rw [show ({ row with refusedAt := some now } : OutboxRow).sentEventId = row.sentEventId
          from rfl, hunsent] at hsent
        cases hsent
    exact ⟨hsettled, fun k hk => settleSend_onDisk hk rfl fun _ => rfl,
      fun k hk => settleSend_done hk rfl, le_refl _⟩
  | claim trigger =>
    obtain ⟨houtbox, hroom, hoffers, hwritten, hgrants, -⟩ :=
      operate_claim sv now answers takes trigger w
    have hgrows : w.inbox.state.outbox <+:
        (Bridge.operate sv now answers takes (.claim trigger) w).2.inbox.state.outbox := by
      rw [houtbox]
    exact ⟨h.same houtbox hroom hwritten hgrants, fun k hk => hk.mono hgrows,
      fun k hk => hk.mono hgrows, by rw [hoffers]⟩
  | enqueue trigger lane observations =>
    obtain ⟨-, hlane, -, -⟩ := hop
    have hanswer := answering_rows sv.workerAgentId trigger.roomId trigger.threadRootId
      trigger.eventId hlane observations now
    have hgrows : w.inbox.state.outbox <+: (Bridge.wrote (grants w.log) (Outbox.rows
        sv.workerAgentId trigger.roomId trigger.threadRootId trigger.eventId lane observations now)
        w).inbox.state.outbox := by
      rw [wrote_outbox hinj _ h hanswer]
      exact List.prefix_append _ _
    rw [enqueue_eq now answers takes trigger hlane]
    exact ⟨h.wrote hinj hanswer (le_refl _), fun k hk => hk.mono hgrows, fun k hk => hk.mono hgrows,
      le_refl _⟩
  | _ => exact absurd trivial hcalm

/-- **One operation** keeps each position's message. -/
theorem Orderly.kept (sv : RoomSupervisor) (h : Orderly w) (now : Instant)
    (answers : (op : BridgeOp) → Except Raised op.Answer) (takes : Bool) {op : BridgeOp}
    (hop : Duly known op w) : Kept w (Bridge.operate sv now answers takes op w).2 := by
  have hsettle : ∀ (txnId : String) (update : OutboxRow → OutboxRow),
      ∀ w', w'.inbox.state = w.inbox.state.settleSend txnId update →
      (∀ r, (update r).key = r.key ∧ (update r).txnId = r.txnId ∧ (update r).content = r.content) →
      Kept w w' := by
    intro txnId update w' hw hupdate key row hrow
    have hfind : w'.inbox.state.sendAt key =
        (w.inbox.state.sendAt key).map fun r =>
          if r.txnId = txnId ∧ r.isPending = true then update r else r := by
      rw [hw]
      refine Keyed.find_map fun r _ => ?_
      split_ifs
      · exact (hupdate r).1
      · rfl
    rw [hrow] at hfind
    refine ⟨_, hfind, ?_⟩
    dsimp only
    split_ifs
    · exact (hupdate row).2
    · exact ⟨rfl, rfl⟩
  cases op with
  | markSent txnId eventId => exact hsettle txnId _ _ rfl fun _ => ⟨rfl, rfl, rfl⟩
  | markRefused txnId => exact hsettle txnId _ _ rfl fun _ => ⟨rfl, rfl, rfl⟩
  | send row => exact fun key row hrow => ⟨row, hrow, rfl, rfl⟩
  | enqueue trigger lane observations =>
    rw [enqueue_eq now answers takes trigger hop.2.1]
    refine kept_of_prefix ?_
    rw [wrote_outbox hinj _ h (answering_rows _ _ _ _ hop.2.1 observations now)]
    exact List.prefix_append _ _
  | claim trigger =>
    refine kept_of_prefix ?_
    rw [(operate_claim sv now answers takes trigger w).1]
  | _ => exact kept_of_prefix (operate_calm now answers takes (by trivial) w).grows.outbox

end

end

end Bridge
end RepoMesh
