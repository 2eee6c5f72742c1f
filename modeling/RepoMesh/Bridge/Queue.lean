/-
# The outbox as a queue

Intents are named by their positions, each position is taken once, and the settled ones stand before
the owed ones: new intents join at the end, and the one that is settled next is the oldest owed.
-/
import RepoMesh.Bridge.Outbox

namespace RepoMesh
namespace Bridge

/-- Named as the outbox names its intents. -/
def OutboxRow.Named [Names] (row : OutboxRow) : Prop :=
  row.txnId = observationTxnId row.key ∧ row.key.lane ∈ LANES

namespace BridgeState

/-- Every intent that is owed no more, oldest row first. -/
def settledSends (s : BridgeState) : List OutboxRow := s.outbox.filter fun r => !r.isPending

/-- The outbox is a queue of named intents. -/
structure Queued [Names] (s : BridgeState) : Prop where
  named : ∀ row ∈ s.outbox, row.Named
  keys : (s.outbox.map (·.key)).Nodup
  line : s.outbox = s.settledSends ++ s.pendingSends

variable [Names] {s : BridgeState} {row : OutboxRow}

theorem Queued.eq_of_key {row' : OutboxRow} (h : s.Queued) (hrow : row ∈ s.outbox)
    (hrow' : row' ∈ s.outbox) (hkey : row.key = row'.key) : row = row' :=
  List.inj_on_of_nodup_map h.keys hrow hrow' hkey

theorem mem_of_head (hhead : s.pendingSends.head? = some row) :
    row ∈ s.outbox ∧ row.isPending = true := by
  have hmem : row ∈ s.pendingSends := List.mem_of_head? hhead
  exact List.mem_filter.mp hmem

theorem pending_eq_cons (hhead : s.pendingSends.head? = some row) :
    s.pendingSends = row :: s.pendingSends.tail := (List.cons_head?_tail hhead).symm

theorem sendAt_isSome {key : OutboxKey} :
    (s.sendAt key).isSome = true ↔ key ∈ s.outbox.map (·.key) := by
  cases hfind : s.sendAt key with
  | none =>
    have hnone := Keyed.find_eq_none.mp hfind
    simpa using hnone
  | some r =>
    obtain ⟨hr, hkey⟩ := Keyed.mem_of_find hfind
    simp only [Option.isSome_some, true_iff]
    exact hkey ▸ List.mem_map_of_mem hr

section

variable (hinj : Function.Injective Names.digest)

include hinj

theorem key_of_txnId {row' : OutboxRow} (hrow : row.Named) (hrow' : row'.Named)
    (h : row.txnId = row'.txnId) : row.key = row'.key :=
  observationTxnId_inj hinj hrow.2 hrow'.2 (by rw [← hrow.1, ← hrow'.1, h])

theorem insertSend_eq {outbox : List OutboxRow} (hnamed : ∀ r ∈ outbox, r.Named)
    (hrow : row.Named) : insertSend outbox row = Keyed.insertNew (·.key) outbox row := by
  have htaken : outbox.any (conflicts row) = true ↔ row.key ∈ outbox.map (·.key) := by
    rw [List.any_eq_true, List.mem_map]
    constructor
    · rintro ⟨r, hr, hconflict⟩
      refine ⟨r, hr, ?_⟩
      simp only [conflicts, Bool.or_eq_true, beq_iff_eq] at hconflict
      rcases hconflict with htxn | hkey
      · exact (key_of_txnId hinj hrow (hnamed r hr) htxn).symm
      · exact hkey.symm
    · rintro ⟨r, hr, hkey⟩
      exact ⟨r, hr, by simp [conflicts, hkey]⟩
  unfold insertSend Keyed.insertNew
  by_cases hkey : row.key ∈ outbox.map (·.key)
  · rw [if_pos hkey, if_pos (htaken.mpr hkey)]
  · rw [if_neg hkey, if_neg (fun h => hkey (htaken.mp h))]

/-- **Enqueuing** adds the rows whose positions are free. -/
theorem enqueueSends_outbox {rows : List OutboxRow} (hnamed : ∀ r ∈ s.outbox, r.Named)
    (hrows : ∀ r ∈ rows, r.Named) (hnd : (rows.map (·.key)).Nodup) :
    (s.enqueueSends rows).outbox =
      s.outbox ++ rows.filter fun r => decide (r.key ∉ s.outbox.map (·.key)) := by
  have hfold : ∀ outbox : List OutboxRow, (∀ r ∈ outbox, r.Named) →
      rows.foldl insertSend outbox = rows.foldl (Keyed.insertNew (·.key)) outbox := by
    intro outbox houtbox
    clear hnd
    induction rows generalizing outbox with
    | nil => rfl
    | cons r rows ih =>
      have hr : r.Named := hrows r (by simp)
      rw [List.foldl_cons, List.foldl_cons, insertSend_eq hinj houtbox hr]
      refine ih (fun r' hr' => hrows r' (by simp [hr'])) _ fun r' hr' => ?_
      rcases Keyed.mem_insertNew hr' with hold | rfl
      · exact houtbox r' hold
      · exact hr
  show rows.foldl insertSend s.outbox = _
  rw [hfold s.outbox hnamed, Keyed.foldl_insertNew hnd]

/-- **Settling** the next intent moves it over to the settled ones. -/
theorem settleSend_outbox (h : s.Queued) (hhead : s.pendingSends.head? = some row)
    (update : OutboxRow → OutboxRow) :
    (s.settleSend row.txnId update).outbox =
      s.settledSends ++ update row :: s.pendingSends.tail := by
  obtain ⟨hrow, hpending⟩ := mem_of_head hhead
  have hline : s.outbox = s.settledSends ++ row :: s.pendingSends.tail := by
    rw [← pending_eq_cons hhead]
    exact h.line
  have hkeys := h.keys
  rw [hline, List.map_append, List.map_cons] at hkeys
  show s.outbox.map _ = _
  rw [hline, List.map_append, List.map_cons, if_pos ⟨rfl, hpending⟩]
  have hsettled : ∀ r ∈ s.settledSends,
      (if r.txnId = row.txnId ∧ r.isPending = true then update r else r) = r := by
    intro r hr
    have hdone : r.isPending = false := by simpa using (List.mem_filter.mp hr).2
    simp [hdone]
  have howed : ∀ r ∈ s.pendingSends.tail,
      (if r.txnId = row.txnId ∧ r.isPending = true then update r else r) = r := by
    intro r hr
    refine if_neg fun hsame => ?_
    have hmem : r ∈ s.outbox := by
      rw [hline]
      simp [hr]
    have hkey : r.key = row.key := key_of_txnId hinj (h.named r hmem) (h.named row hrow) hsame.1
    have hfree := (List.nodup_cons.mp (List.nodup_append.mp hkeys).2.1).1
    exact hfree (hkey ▸ List.mem_map_of_mem hr)
  rw [List.map_congr_left hsettled, List.map_congr_left howed, List.map_id', List.map_id']

end

theorem Queued.append {s' : BridgeState} {rows : List OutboxRow} (h : s.Queued)
    (houtbox : s'.outbox = s.outbox ++ rows) (hnamed : ∀ r ∈ rows, r.Named)
    (hpending : ∀ r ∈ rows, r.isPending = true) (hnd : (rows.map (·.key)).Nodup)
    (hfree : ∀ r ∈ rows, r.key ∉ s.outbox.map (·.key)) :
    s'.Queued ∧ s'.settledSends = s.settledSends ∧ s'.pendingSends = s.pendingSends ++ rows := by
  have hsettled : s'.settledSends = s.settledSends := by
    have hnone : rows.filter (fun r => !r.isPending) = [] :=
      List.filter_eq_nil_iff.mpr fun r hr => by simp [hpending r hr]
    rw [settledSends, houtbox, List.filter_append, hnone, List.append_nil, settledSends]
  have howed : s'.pendingSends = s.pendingSends ++ rows := by
    have hall : rows.filter OutboxRow.isPending = rows := List.filter_eq_self.mpr hpending
    rw [pendingSends, houtbox, List.filter_append, hall, pendingSends]
  refine ⟨⟨fun r hr => ?_, ?_, ?_⟩, hsettled, howed⟩
  · rw [houtbox] at hr
    rcases List.mem_append.mp hr with hr | hr
    · exact h.named r hr
    · exact hnamed r hr
  · rw [houtbox, List.map_append, List.nodup_append]
    refine ⟨h.keys, hnd, fun k hk k' hk' => ?_⟩
    obtain ⟨r, hr, rfl⟩ := List.mem_map.mp hk'
    rintro rfl
    exact hfree r hr hk
  · rw [hsettled, howed, houtbox, ← List.append_assoc, ← h.line]

theorem Queued.settle (hinj : Function.Injective Names.digest) (h : s.Queued)
    (hhead : s.pendingSends.head? = some row) (update : OutboxRow → OutboxRow)
    (hkey : (update row).key = row.key) (htxn : (update row).txnId = row.txnId)
    (hdone : (update row).isPending = false) :
    (s.settleSend row.txnId update).Queued ∧
      (s.settleSend row.txnId update).settledSends = s.settledSends ++ [update row] ∧
      (s.settleSend row.txnId update).pendingSends = s.pendingSends.tail := by
  have houtbox := settleSend_outbox hinj h hhead update
  obtain ⟨hrow, -⟩ := mem_of_head hhead
  have hline : s.outbox = s.settledSends ++ row :: s.pendingSends.tail := by
    rw [← pending_eq_cons hhead]
    exact h.line
  have hold : ∀ r ∈ s.settledSends, (!r.isPending) = true := fun r hr => (List.mem_filter.mp hr).2
  have hnew : ∀ r ∈ s.pendingSends.tail, r.isPending = true := fun r hr =>
    (List.mem_filter.mp (List.mem_of_mem_tail hr)).2
  have hsettled : (s.settleSend row.txnId update).settledSends = s.settledSends ++ [update row] := by
    have hnone : s.pendingSends.tail.filter (fun r => !r.isPending) = [] :=
      List.filter_eq_nil_iff.mpr fun r hr => by simp [hnew r hr]
    rw [settledSends, houtbox, List.filter_append, List.filter_cons_of_pos (by simp [hdone]), hnone,
      List.filter_eq_self.mpr hold]
  have howed : (s.settleSend row.txnId update).pendingSends = s.pendingSends.tail := by
    have hnone : s.settledSends.filter OutboxRow.isPending = [] :=
      List.filter_eq_nil_iff.mpr fun r hr => by simpa using hold r hr
    rw [pendingSends, houtbox, List.filter_append, hnone, List.filter_cons_of_neg (by simp [hdone]),
      List.filter_eq_self.mpr hnew, List.nil_append]
  refine ⟨⟨fun r hr => ?_, ?_, ?_⟩, hsettled, howed⟩
  · rw [houtbox] at hr
    simp only [List.mem_append, List.mem_cons] at hr
    rcases hr with hr | rfl | hr
    · exact h.named r (hline ▸ by simp [hr])
    · unfold OutboxRow.Named
      rw [hkey, htxn]
      exact h.named row hrow
    · exact h.named r (hline ▸ by simp [hr])
  · have hkeys := h.keys
    rw [hline] at hkeys
    rw [houtbox]
    simpa [hkey] using hkeys
  · rw [houtbox, hsettled, howed]
    simp

end BridgeState
end Bridge
end RepoMesh
