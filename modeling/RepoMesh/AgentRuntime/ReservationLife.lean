/-
# The life of a reservation

Whatever is interleaved with it, `reserve` leaves one active reservation per task and per worker,
because its row has to fit the unique indexes when it commits. It numbers the row after an earlier
read, and it checks whom an expired reservation is bound to before it looks whether it expired.
-/
import RepoMesh.AgentRuntime.Reservation
import Mathlib.Data.List.Pairwise

namespace RepoMesh
namespace AgentRuntime

open Text
open Async (Prog Threaded Pool)
open Delivery (UUID Instant)

/-! ## Rows side by side -/

/-- Two rows may be in the table together. -/
structure Apart (a b : WorkerExecutionReservationRecord) : Prop where
  id : a.id ≠ b.id
  run : a.runId ≠ b.runId
  active : a.status.isActive = true → b.status.isActive = true →
    a.taskId ≠ b.taskId ∧ a.workerAgentId ≠ b.workerAgentId

instance : Std.Symm Apart where
  symm _ _ h := ⟨h.id.symm, h.run.symm, fun hb ha => ⟨(h.active ha hb).1.symm, (h.active ha hb).2.symm⟩⟩

/-- What a call may make of a row: an inactive one stays inactive. -/
structure RowKept (r r' : WorkerExecutionReservationRecord) : Prop where
  id : r'.id = r.id
  run : r'.runId = r.runId
  task : r'.taskId = r.taskId
  worker : r'.workerAgentId = r.workerAgentId
  attempt : r'.attempt = r.attempt
  active : r'.status.isActive = true → r.status.isActive = true

theorem RowKept.refl (r : WorkerExecutionReservationRecord) : RowKept r r :=
  ⟨rfl, rfl, rfl, rfl, rfl, fun h => h⟩

theorem rowKept_expire (r : WorkerExecutionReservationRecord) (now : Instant) :
    RowKept r (r.expire now) :=
  ⟨rfl, rfl, rfl, rfl, rfl, fun h => by cases h⟩

theorem rowKept_expireIn (expired : ReservationRows.Expiries)
    (r : WorkerExecutionReservationRecord) : RowKept r (ReservationRows.expireIn expired r) := by
  unfold ReservationRows.expireIn
  split
  · exact rowKept_expire r _
  · exact RowKept.refl r

theorem rowKept_settleReservation (runId : UUID) (terminal : DispatchStatus) (now : Instant)
    (r : WorkerExecutionReservationRecord) :
    RowKept r (RunnerGatewayStore.settleReservation runId terminal now r) := by
  unfold RunnerGatewayStore.settleReservation
  split
  · rename_i h
    exact ⟨rfl, rfl, rfl, rfl, rfl, fun _ => h.2⟩
  · exact RowKept.refl r

namespace ReservationRows

/-- One active reservation per task and per worker, and no two rows of one identifier or run. -/
def Exclusive (rows : ReservationRows) : Prop := rows.Pairwise Apart

/-- The attempts of a task increase from row to row. -/
def Numbered (rows : ReservationRows) : Prop :=
  rows.Pairwise fun a b => a.taskId = b.taskId → a.attempt < b.attempt

variable {rows rows' : ReservationRows} {now : Instant}

theorem Exclusive.ids_nodup (h : rows.Exclusive) : (rows.map (·.id)).Nodup :=
  List.pairwise_map.mpr (List.Pairwise.imp (fun hab => hab.id) h)

theorem Exclusive.eq_of_task (h : rows.Exclusive) {a b : WorkerExecutionReservationRecord}
    (ha : a ∈ rows) (hb : b ∈ rows) (haa : a.status.isActive = true)
    (hba : b.status.isActive = true) (hab : a.taskId = b.taskId) : a = b := by
  by_contra hne
  have hapart : Apart a b := List.Pairwise.forall h ha hb hne
  exact (hapart.active haa hba).1 hab

theorem Exclusive.eq_of_worker (h : rows.Exclusive) {a b : WorkerExecutionReservationRecord}
    (ha : a ∈ rows) (hb : b ∈ rows) (haa : a.status.isActive = true)
    (hba : b.status.isActive = true) (hab : a.workerAgentId = b.workerAgentId) : a = b := by
  by_contra hne
  have hapart : Apart a b := List.Pairwise.forall h ha hb hne
  exact (hapart.active haa hba).2 hab

/-! ## Writing rows in place -/

section InPlace

variable {f : WorkerExecutionReservationRecord → WorkerExecutionReservationRecord}
  (hf : ∀ r ∈ rows, RowKept r (f r))

include hf

theorem Exclusive.map (h : rows.Exclusive) : Exclusive (rows.map f) := by
  refine List.pairwise_map.mpr (List.Pairwise.imp_of_mem ?_ h)
  intro a b ha hb hab
  have hka := hf a ha
  have hkb := hf b hb
  refine ⟨?_, ?_, fun haa hba => ?_⟩
  · rw [hka.id, hkb.id]
    exact hab.id
  · rw [hka.run, hkb.run]
    exact hab.run
  · rw [hka.task, hkb.task, hka.worker, hkb.worker]
    exact hab.active (hka.active haa) (hkb.active hba)

theorem Numbered.map (h : rows.Numbered) : Numbered (rows.map f) := by
  refine List.pairwise_map.mpr (List.Pairwise.imp_of_mem ?_ h)
  intro a b ha hb hab
  rw [(hf a ha).task, (hf b hb).task, (hf a ha).attempt, (hf b hb).attempt]
  exact hab

end InPlace

theorem owned_ok {id : UUID} {owner : String} {version : ℕ}
    {r : WorkerExecutionReservationRecord} (h : rows.owned now id owner version = .ok r) :
    Keyed.find (·.id) rows id = some r ∧ r.status.isActive = true ∧
      r.leaseOwner = some owner ∧ r.version = version ∧ r.isExpired now = false := by
  unfold owned at h
  split at h
  · cases h
  · rename_i record hfind
    split_ifs at h with howned hexpired
    obtain rfl := Except.ok.inj h
    simp only [not_or, not_not, Bool.not_eq_false] at howned
    exact ⟨hfind, howned.1, howned.2.1, howned.2.2, by simpa using hexpired⟩

theorem rowKept_writeRow (hnd : (rows.map (·.id)).Nodup) {id : UUID}
    {r : WorkerExecutionReservationRecord} (hfind : Keyed.find (·.id) rows id = some r)
    (hactive : r.status.isActive = true)
    {update : WorkerExecutionReservationRecord → WorkerExecutionReservationRecord}
    (hupdate : r.status.isActive = true → RowKept r (update r)) :
    ∀ r' ∈ rows, RowKept r' (if r'.id = id then update r' else r') := by
  intro r' hr'
  split
  · rename_i hid
    obtain rfl : r = r' :=
      Option.some.inj (hfind.symm.trans ((Keyed.find_eq_some hnd).mpr ⟨hr', hid⟩))
    exact hupdate hactive
  · exact RowKept.refl r'

/-- **One call on one row** writes rows in place. -/
theorem apply_ok (hnd : (rows.map (·.id)).Nodup) {op : ReservationOp}
    (h : rows.apply now op = .ok rows') :
    ∃ f, rows' = rows.map f ∧ ∀ r ∈ rows, RowKept r (f r) := by
  cases op with
  | bindPayload id payload owner version =>
    obtain ⟨r, howned, h⟩ := Fallible.bind_ok h
    obtain ⟨hfind, hactive, -⟩ := owned_ok howned
    exact ⟨_, (Except.ok.inj h).symm, rowKept_writeRow hnd hfind hactive
      fun ha => ⟨rfl, rfl, rfl, rfl, rfl, fun _ => ha⟩⟩
  | renew id owner version leaseSeconds =>
    obtain ⟨-, -, h⟩ := Fallible.bind_ok h
    obtain ⟨r, howned, h⟩ := Fallible.bind_ok h
    obtain ⟨hfind, hactive, -⟩ := owned_ok howned
    exact ⟨_, (Except.ok.inj h).symm, rowKept_writeRow hnd hfind hactive
      fun ha => ⟨rfl, rfl, rfl, rfl, rfl, fun _ => ha⟩⟩
  | failPreparation id error owner version =>
    obtain ⟨r, howned, h⟩ := Fallible.bind_ok h
    obtain ⟨hfind, hactive, -⟩ := owned_ok howned
    exact ⟨_, (Except.ok.inj h).symm, rowKept_writeRow hnd hfind hactive
      fun ha => ⟨rfl, rfl, rfl, rfl, rfl, fun _ => ha⟩⟩
  | reconcileLiveDispatch id leaseSeconds =>
    simp only [apply] at h
    split at h
    · cases h
    · rename_i r hfind
      split at h
      · rename_i hactive
        exact ⟨_, (Except.ok.inj h).symm, rowKept_writeRow hnd hfind hactive
          fun ha => ⟨rfl, rfl, rfl, rfl, rfl, fun _ => ha⟩⟩
      · cases h

theorem mem_writeRow_of_ne {id : UUID}
    {update : WorkerExecutionReservationRecord → WorkerExecutionReservationRecord}
    {r : WorkerExecutionReservationRecord} (hr : r ∈ rows) (hne : r.id ≠ id) :
    r ∈ rows.writeRow id update :=
  List.mem_map.mpr ⟨r, hr, if_neg hne⟩

/-! ## The commit of a new row -/

variable {expired : Expiries} {record : WorkerExecutionReservationRecord}

theorem commit_ok (h : rows.commit expired record = .ok rows') :
    rows' = rows.map (expireIn expired) ++ [record] ∧
      ∀ r ∈ rows, clashes record (expireIn expired r) = false := by
  simp only [commit] at h
  split at h
  · cases h
  · rename_i hclash
    refine ⟨(Except.ok.inj h).symm, fun r hr => ?_⟩
    by_contra hne
    exact hclash (List.any_eq_true.mpr
      ⟨expireIn expired r, List.mem_map.mpr ⟨r, hr, rfl⟩, by simpa using hne⟩)

theorem apart_of_not_clashes {r : WorkerExecutionReservationRecord}
    (h : clashes record r = false) : Apart r record := by
  simp only [clashes, Bool.or_eq_false_iff, Bool.and_eq_false_iff, beq_eq_false_iff_ne] at h
  obtain ⟨⟨hid, hrun⟩, hactive⟩ := h
  refine ⟨hid, hrun, fun hr hrecord => ?_⟩
  rw [hr, hrecord] at hactive
  simpa using hactive

/-- **A commit keeps the indexes.** -/
theorem Exclusive.commit (hrows : rows.Exclusive) (h : rows.commit expired record = .ok rows') :
    rows'.Exclusive := by
  obtain ⟨rfl, hclash⟩ := commit_ok h
  refine List.pairwise_append.mpr ⟨hrows.map fun r _ => rowKept_expireIn expired r, by simp, ?_⟩
  intro a ha b hb
  obtain ⟨r, hr, rfl⟩ := List.mem_map.mp ha
  rw [List.mem_singleton.mp hb]
  exact apart_of_not_clashes (hclash r hr)

theorem lastAttempt_lt {taskId : UUID} {n : ℕ} (hn : 0 < n) :
    rows.lastAttempt taskId < n ↔ ∀ r ∈ rows, r.taskId = taskId → r.attempt < n := by
  induction rows with
  | nil => simpa [lastAttempt] using hn
  | cons r rows ih =>
    have hrest : lastAttempt rows taskId < n ↔ ∀ r ∈ rows, r.taskId = taskId → r.attempt < n := ih
    by_cases hr : r.taskId = taskId
    · have hlast : lastAttempt (r :: rows) taskId = max r.attempt (lastAttempt rows taskId) := by
        simp [lastAttempt, hr]
      rw [hlast, max_lt_iff, hrest, List.forall_mem_cons]
      exact and_congr_left fun _ => ⟨fun h _ => h, fun h => h hr⟩
    · have hlast : lastAttempt (r :: rows) taskId = lastAttempt rows taskId := by
        simp [lastAttempt, hr]
      rw [hlast, hrest, List.forall_mem_cons]
      exact ⟨fun h => ⟨fun hr' => absurd hr' hr, h⟩, fun h => h.2⟩

/-- **Numbering.** A commit keeps the attempts increasing exactly when its row is numbered above
the last attempt the task has by then. -/
theorem numbered_commit_iff (hrows : rows.Numbered) (hpos : 0 < record.attempt)
    (h : rows.commit expired record = .ok rows') :
    rows'.Numbered ↔ rows.lastAttempt record.taskId < record.attempt := by
  obtain ⟨rfl, -⟩ := commit_ok h
  have hkept : ∀ r ∈ rows, RowKept r (expireIn expired r) := fun r _ => rowKept_expireIn expired r
  rw [lastAttempt_lt hpos]
  constructor
  · intro hnumbered r hr hrt
    have hlast := (List.pairwise_append.mp hnumbered).2.2 _ (List.mem_map.mpr ⟨r, hr, rfl⟩) record
      (by simp)
    rw [(hkept r hr).task, (hkept r hr).attempt] at hlast
    exact hlast hrt
  · intro hlast
    refine List.pairwise_append.mpr ⟨hrows.map hkept, by simp, ?_⟩
    intro a ha b hb
    obtain ⟨r, hr, rfl⟩ := List.mem_map.mp ha
    rw [List.mem_singleton.mp hb, (hkept r hr).task, (hkept r hr).attempt]
    exact hlast r hr

end ReservationRows

/-! ## Holders -/

/-- The lease a call has to hold: of which reservation, by whom, and at which version. -/
def ReservationOp.holder? : ReservationOp → Option (UUID × String × ℕ)
  | .bindPayload id _ owner version => some (id, owner, version)
  | .renew id owner version _ => some (id, owner, version)
  | .failPreparation id _ owner version => some (id, owner, version)
  | .reconcileLiveDispatch .. => none

/-- The reservation is active, and its unexpired lease is held by this owner at this version. -/
def HeldBy (rows : ReservationRows) (now : Instant) (id : UUID) (owner : String) (version : ℕ) :
    Prop :=
  ∃ r ∈ rows, r.id = id ∧ r.status.isActive = true ∧ r.leaseOwner = some owner ∧
    r.version = version ∧ ∃ lease, r.leaseExpiresAt = some lease ∧ now < lease

/-- **Only the holder** can change a reservation, and it changes no other. -/
theorem held_of_apply {rows rows' : ReservationRows} {now : Instant} {op : ReservationOp}
    {id : UUID} {owner : String} {version : ℕ} (hop : op.holder? = some (id, owner, version))
    (h : rows.apply now op = .ok rows') :
    HeldBy rows now id owner version ∧ ∀ r ∈ rows, r.id ≠ id → r ∈ rows' := by
  have howned : ∀ {i : UUID} {o : String} {v : ℕ} {r : WorkerExecutionReservationRecord},
      rows.owned now i o v = .ok r → HeldBy rows now i o v := by
    intro i o v r hr
    obtain ⟨hfind, hactive, howner, hversion, hlive⟩ := ReservationRows.owned_ok hr
    obtain ⟨hmem, hid⟩ := Keyed.mem_of_find hfind
    refine ⟨r, hmem, hid, hactive, howner, hversion, ?_⟩
    unfold WorkerExecutionReservationRecord.isExpired at hlive
    cases hlease : r.leaseExpiresAt with
    | none => rw [hlease] at hlive; cases hlive
    | some lease =>
      rw [hlease] at hlive
      exact ⟨lease, rfl, not_le.mp (by simpa using hlive)⟩
  cases op with
  | bindPayload i payload o v =>
    cases hop
    obtain ⟨r, hr, h⟩ := Fallible.bind_ok h
    obtain rfl := Except.ok.inj h
    exact ⟨howned hr, fun r' hr' hne => ReservationRows.mem_writeRow_of_ne hr' hne⟩
  | renew i o v leaseSeconds =>
    cases hop
    obtain ⟨-, -, h⟩ := Fallible.bind_ok h
    obtain ⟨r, hr, h⟩ := Fallible.bind_ok h
    obtain rfl := Except.ok.inj h
    exact ⟨howned hr, fun r' hr' hne => ReservationRows.mem_writeRow_of_ne hr' hne⟩
  | failPreparation i error o v =>
    cases hop
    obtain ⟨r, hr, h⟩ := Fallible.bind_ok h
    obtain rfl := Except.ok.inj h
    exact ⟨howned hr, fun r' hr' hne => ReservationRows.mem_writeRow_of_ne hr' hne⟩
  | reconcileLiveDispatch i leaseSeconds => cases hop

/-! ## Reserving without interruption -/

namespace ReservationRows

variable {rows : ReservationRows} {r : WorkerExecutionReservationRecord}

theorem clashes_eq_false {record : WorkerExecutionReservationRecord} (hid : r.id ≠ record.id)
    (hrun : r.runId ≠ record.runId)
    (hactive : r.status.isActive = true →
      r.taskId ≠ record.taskId ∧ r.workerAgentId ≠ record.workerAgentId) :
    clashes record r = false := by
  simp only [clashes, Bool.or_eq_false_iff, Bool.and_eq_false_iff, beq_eq_false_iff_ne]
  refine ⟨⟨hid, hrun⟩, ?_⟩
  cases ha : r.status.isActive with
  | false => exact .inl (.inl rfl)
  | true => exact .inr (hactive ha)

theorem expireIn_active {expired : Expiries} (h : (expireIn expired r).status.isActive = true) :
    r.status.isActive = true ∧ r.id ∉ expired.map (·.1.id) := by
  refine ⟨(rowKept_expireIn expired r).active h, fun hmem => ?_⟩
  obtain ⟨e, he, hid⟩ := List.mem_map.mp hmem
  unfold expireIn at h
  split at h
  · cases h
  · rename_i hnone
    simpa [hid] using List.find?_eq_none.mp hnone e he

theorem commit_isOk (expired : Expiries) (record : WorkerExecutionReservationRecord)
    (hid : ∀ r ∈ rows, r.id ≠ record.id) (hrun : ∀ r ∈ rows, r.runId ≠ record.runId)
    (hactive : ∀ r ∈ rows, r.status.isActive = true → r.id ∉ expired.map (·.1.id) →
      r.taskId ≠ record.taskId ∧ r.workerAgentId ≠ record.workerAgentId) :
    rows.commit expired record = .ok (rows.map (expireIn expired) ++ [record]) := by
  have hclash : (rows.map (expireIn expired)).any (clashes record) = false := by
    refine List.any_eq_false.mpr fun a ha => ?_
    obtain ⟨r, hr, rfl⟩ := List.mem_map.mp ha
    have hkept := rowKept_expireIn expired r
    rw [clashes_eq_false]
    · simp
    · rw [hkept.id]
      exact hid r hr
    · rw [hkept.run]
      exact hrun r hr
    · intro h
      obtain ⟨ha, hnot⟩ := expireIn_active h
      rw [hkept.task, hkept.worker]
      exact hactive r hr ha hnot
  simp [commit, hclash]

theorem mem_of_activeTask {taskId : UUID} (h : rows.activeTask taskId = some r) :
    r ∈ rows ∧ r.taskId = taskId ∧ r.status.isActive = true := by
  have hmem := List.mem_of_mem_head? h
  rw [List.mem_insertionSort, List.mem_filter] at hmem
  exact ⟨hmem.1, by simpa using hmem.2⟩

theorem activeTask_eq_none {taskId : UUID} (h : rows.activeTask taskId = none) :
    ∀ r ∈ rows, r.status.isActive = true → r.taskId ≠ taskId := by
  intro r hr hactive htask
  rw [activeTask, List.head?_eq_none_iff] at h
  have hmem : r ∈ rows.filter fun r => r.taskId == taskId && r.status.isActive :=
    List.mem_filter.mpr ⟨hr, by simp [htask, hactive]⟩
  rw [← List.mem_insertionSort (fun a b => b.attempt ≤ a.attempt), h] at hmem
  cases hmem

end ReservationRows

/-- The row is bound as the command asks, so that `_assert_binding` and the check of the assignment
attempt pass. -/
structure BoundTo (c : ReserveCommand) (r : WorkerExecutionReservationRecord) : Prop where
  organization : r.organizationId = c.organizationId
  project : r.projectId = c.projectId
  repository : r.repositoryId = c.repositoryId
  worker : r.workerAgentId = c.workerAgentId
  assignment : c.assignmentAttemptId.isSome → r.assignmentAttemptId = c.assignmentAttemptId

theorem boundTo_iff {c : ReserveCommand} {r : WorkerExecutionReservationRecord} :
    BoundTo c r ↔ assertBinding r c = .ok () ∧ assertAssignment r c = .ok () := by
  unfold assertBinding assertAssignment
  constructor
  · rintro ⟨horg, hproject, hrepository, hworker, hassignment⟩
    rw [if_neg (by simp [horg, hproject, hrepository, hworker]),
      if_neg fun h => h.2 (hassignment h.1)]
    exact ⟨rfl, rfl⟩
  · rintro ⟨hbinding, hassignment⟩
    split_ifs at hbinding hassignment with hb ha
    simp only [not_or, not_not] at hb
    exact ⟨hb.1, hb.2.1, hb.2.2.1, hb.2.2.2, fun h => not_not.mp fun hne => ha ⟨h, hne⟩⟩

/-- A call of `reserve` that nothing interrupts adds a new reservation. -/
def ReservesFresh (c : ReserveCommand) (id runId : UUID) (st : RuntimeState) : Prop :=
  ∃ r st', Prog.run RuntimeState.execute (reserve c id runId) st = (.ok (r, true), st') ∧
    r.id = id ∧ r.runId = runId ∧ r.taskId = c.taskId ∧ r.workerAgentId = c.workerAgentId ∧
      r ∈ st'.rows

/-- Nothing is in the way but what may have expired: the arguments are valid, the identifiers are
new, and the active reservations of the task and of the worker are expired. -/
structure ReserveDue (c : ReserveCommand) (id runId : UUID) (st : RuntimeState) : Prop where
  lease : validateLease c.leaseOwner c.leaseSeconds = .ok ()
  id_new : ∀ r ∈ st.rows, r.id ≠ id
  run_new : ∀ r ∈ st.rows, r.runId ≠ runId
  task : ∀ r ∈ st.rows, r.status.isActive = true → r.taskId = c.taskId → r.isExpired st.now = true
  worker : ∀ r ∈ st.rows, r.status.isActive = true → r.workerAgentId = c.workerAgentId →
    r.isExpired st.now = true

section Uninterrupted

variable {c : ReserveCommand} {id runId : UUID} {st : RuntimeState}

theorem run_ask {α : Type} {op : ReservationStatement} {f : ReservationAnswer op → Reserving α}
    {a : ReservationAnswer op} (h : RuntimeState.execute op st = (.ok a, st)) :
    Prog.run RuntimeState.execute (Prog.perform op >>= f) st =
      Prog.run RuntimeState.execute (f a) st :=
  Prog.run_perform_ok RuntimeState.execute h

theorem run_releaseWorker (expired : ReservationRows.Expiries) (hst : st.rows.Exclusive) (hdue : ReserveDue c id runId st) :
    ∃ expired', Prog.run RuntimeState.execute (releaseWorker c expired) st = (.ok expired', st) ∧
      expired ⊆ expired' ∧
      ∀ r ∈ st.rows, r.status.isActive = true → r.workerAgentId = c.workerAgentId →
        r.id ∈ expired'.map (·.1.id) := by
  cases hbusy : st.rows.busy c.workerAgentId (expired.map (·.1.id)) with
  | none =>
    refine ⟨expired, ?_, fun _ h => h, fun r hr ha hw => ?_⟩
    · rw [releaseWorker, run_ask (a := none) (by simp only [RuntimeState.execute, hbusy])]
      rfl
    · have hnone := List.find?_eq_none.mp hbusy r hr
      simpa [ha, hw] using hnone
  | some busy =>
    have hfound := List.find?_some hbusy
    simp only [Bool.and_eq_true, beq_iff_eq] at hfound
    have hmem : busy ∈ st.rows := List.mem_of_find?_eq_some hbusy
    have hexpired : busy.isExpired st.now = true := hdue.worker busy hmem hfound.1.2 hfound.1.1
    refine ⟨expired ++ [(busy, st.now)], ?_, List.subset_append_left _ _, fun r hr ha hw => ?_⟩
    · rw [releaseWorker, run_ask (a := some busy) (by simp only [RuntimeState.execute, hbusy])]
      rw [run_ask (a := st.now) rfl, if_pos hexpired]
      rfl
    · obtain rfl := hst.eq_of_worker hr hmem ha hfound.1.2 (hw.trans hfound.1.1.symm)
      simp

theorem run_addReservation {rows : ReservationRows} {expired : ReservationRows.Expiries}
    (hcommit : st.rows.commit expired
      (c.record id runId (1 + st.rows.lastAttempt c.taskId) st.now) = .ok rows) :
    Prog.run RuntimeState.execute (addReservation c id runId expired) st =
      (.ok (c.record id runId (1 + st.rows.lastAttempt c.taskId) st.now, true),
        st.withRows rows) := by
  have hinsert : RuntimeState.execute (.insert expired
      (c.record id runId (1 + st.rows.lastAttempt c.taskId) st.now)) st =
        (.ok (), st.withRows rows) := by
    simp only [RuntimeState.execute, hcommit]
  rw [addReservation, run_ask (a := st.now) rfl, run_ask (a := st.rows.lastAttempt c.taskId) rfl,
    Prog.run_perform_ok RuntimeState.execute hinsert]
  rfl

theorem run_reserveWorker (expired : ReservationRows.Expiries) (hst : st.rows.Exclusive) (hdue : ReserveDue c id runId st)
    (htask : ∀ r ∈ st.rows, r.status.isActive = true → r.taskId = c.taskId →
      r.id ∈ expired.map (·.1.id)) :
    ∃ r st', Prog.run RuntimeState.execute (reserveWorker c id runId expired) st =
      (.ok (r, true), st') ∧ r.id = id ∧ r.runId = runId ∧ r.taskId = c.taskId ∧
        r.workerAgentId = c.workerAgentId ∧ r ∈ st'.rows := by
  obtain ⟨expired', hrun, hsub, hworker⟩ := run_releaseWorker expired hst hdue
  have hcommit := ReservationRows.commit_isOk expired'
    (c.record id runId (1 + st.rows.lastAttempt c.taskId) st.now)
    hdue.id_new hdue.run_new fun r hr ha hnot =>
      ⟨fun ht => hnot (List.map_subset _ hsub (htask r hr ha ht)),
        fun hw => hnot (hworker r hr ha hw)⟩
  refine ⟨_, _, (Prog.run_bind_ok RuntimeState.execute hrun).trans (run_addReservation hcommit),
    rfl, rfl, rfl, rfl, ?_⟩
  exact List.mem_append_right _ (List.mem_singleton.mpr rfl)

theorem run_reserveTransaction (hst : st.rows.Exclusive) (hdue : ReserveDue c id runId st)
    (hbound : ∀ r ∈ st.rows, r.status.isActive = true → r.taskId = c.taskId → BoundTo c r) :
    ∃ r st', Prog.run RuntimeState.execute (reserveTransaction c id runId) st =
      (.ok (r, true), st') ∧ r.id = id ∧ r.runId = runId ∧ r.taskId = c.taskId ∧
        r.workerAgentId = c.workerAgentId ∧ r ∈ st'.rows := by
  cases hactive : st.rows.activeTask c.taskId with
  | none =>
    have hnone := ReservationRows.activeTask_eq_none hactive
    obtain ⟨r, st', hrun, hr⟩ := run_reserveWorker [] hst hdue
      fun r hr ha ht => absurd ht (hnone r hr ha)
    refine ⟨r, st', ?_, hr⟩
    rw [reserveTransaction, run_ask (a := none)
      (by simp only [RuntimeState.execute, hactive])]
    exact hrun
  | some existing =>
    obtain ⟨hmem, htask, ha⟩ := ReservationRows.mem_of_activeTask hactive
    obtain ⟨hbinding, hassignment⟩ := boundTo_iff.mp (hbound existing hmem ha htask)
    obtain ⟨r, st', hrun, hr⟩ := run_reserveWorker [(existing, st.now)] hst hdue
      fun r hr har hrt => by
        obtain rfl := hst.eq_of_task hr hmem har ha (hrt.trans htask.symm)
        simp
    refine ⟨r, st', ?_, hr⟩
    rw [reserveTransaction, run_ask (a := some existing)
      (by simp only [RuntimeState.execute, hactive])]
    simp only [hbinding, hassignment]
    rw [Prog.run_bind_ok RuntimeState.execute (Prog.run_lift RuntimeState.execute _ _),
      Prog.run_bind_ok RuntimeState.execute (Prog.run_lift RuntimeState.execute _ _),
      run_ask (a := st.now) rfl, if_pos (hdue.task existing hmem ha htask)]
    exact hrun

theorem run_reserveTransaction_of_not_bound (id runId : UUID)
    {existing : WorkerExecutionReservationRecord}
    (hactive : st.rows.activeTask c.taskId = some existing) (hnot : ¬ BoundTo c existing) :
    ∃ message, Prog.run RuntimeState.execute (reserveTransaction c id runId) st =
      (.error (.conflict message), st) := by
  rw [reserveTransaction, run_ask (a := some existing)
    (by simp only [RuntimeState.execute, hactive])]
  simp only []
  rw [boundTo_iff, not_and_or] at hnot
  unfold assertBinding assertAssignment at *
  split_ifs at hnot ⊢ with hb ha
  · exact ⟨_, rfl⟩
  · exact ⟨_, rfl⟩
  · exact ⟨_, rfl⟩
  · simp at hnot

/-- **A due reservation succeeds** exactly when the expired one is bound to the same worker, and
otherwise as the call asks. -/
theorem reservesFresh_iff (hst : st.rows.Exclusive) (hdue : ReserveDue c id runId st) :
    ReservesFresh c id runId st ↔
      ∀ r ∈ st.rows, r.status.isActive = true → r.taskId = c.taskId → BoundTo c r := by
  have hreserve : Prog.run RuntimeState.execute (reserve c id runId) st =
      match Prog.run RuntimeState.execute (reserveTransaction c id runId) st with
      | (.ok a, s') => (.ok a, s')
      | (.error e, s') => Prog.run RuntimeState.execute (afterIntegrityError c e) s' := by
    rw [reserve, hdue.lease, Prog.run_bind_ok RuntimeState.execute
      (Prog.run_lift RuntimeState.execute _ _), Prog.run_tryCatch]
    rcases Prog.run RuntimeState.execute (reserveTransaction c id runId) st with ⟨_ | _, s'⟩ <;> rfl
  constructor
  · rintro ⟨r, st', hrun, -⟩ existing hmem ha htask
    by_contra hnot
    cases hactive : st.rows.activeTask c.taskId with
    | none => exact ReservationRows.activeTask_eq_none hactive existing hmem ha htask
    | some found =>
      obtain ⟨hmem', htask', ha'⟩ := ReservationRows.mem_of_activeTask hactive
      obtain rfl := hst.eq_of_task hmem hmem' ha ha' (htask.trans htask'.symm)
      obtain ⟨message, hconflict⟩ :=
        run_reserveTransaction_of_not_bound id runId hactive hnot
      rw [hreserve, hconflict] at hrun
      cases hrun
  · intro hbound
    obtain ⟨r, st', hrun, hr⟩ := run_reserveTransaction hst hdue hbound
    exact ⟨r, st', by rw [hreserve, hrun], hr⟩

end Uninterrupted

/-! ## The system -/

theorem runnerOp_reservations {op : RunnerOp} {st : RuntimeState}
    (h : RunnerOp.AtClock st.now op) :
    ∃ f, (RunnerOp.run st.gateway op).reservations = st.rows.map f ∧
      ∀ r ∈ st.rows, RowKept r (f r) := by
  have hsame : ∃ f, st.rows = st.rows.map f ∧ ∀ r ∈ st.rows, RowKept r (f r) :=
    ⟨fun r => r, (List.map_id' _).symm, fun r _ => RowKept.refl r⟩
  cases op with
  | enqueue payload now =>
    simp only [RunnerOp.run]
    split
    · rename_i st' henqueue
      have : st'.reservations = st.rows := by
        unfold RunnerGatewayStore.enqueue at henqueue
        dsimp only at henqueue
        split_ifs at henqueue
        split at henqueue
        · split_ifs at henqueue
          rw [← Except.ok.inj henqueue]
        · split at henqueue
          · cases henqueue
          · split_ifs at henqueue
            rw [← Except.ok.inj henqueue]
      rw [this]
      exact hsame
    · exact hsame
  | leaseNext worker leaseSeconds locked now =>
    have : (st.gateway.leaseNext worker leaseSeconds locked now).2.reservations = st.rows := by
      unfold RunnerGatewayStore.leaseNext
      split <;> rfl
    simp only [RunnerOp.run, this]
    exact hsame
  | recordEvent event worker projectionAllowed now =>
    simp only [RunnerOp.run]
    split
    · rename_i result hrecord
      obtain ⟨⟨dispatch, body⟩, -, hrecord⟩ := Fallible.bind_ok hrecord
      dsimp only at hrecord
      split at hrecord
      · obtain rfl := Except.ok.inj hrecord
        show ∃ f, st.gateway.settledReservations _ _ _ _ = st.rows.map f ∧ _
        unfold RunnerGatewayStore.settledReservations
        split
        · split
          · exact ⟨_, rfl, fun r _ => rowKept_settleReservation _ _ _ r⟩
          · exact hsame
        · exact hsame
      · obtain rfl := Except.ok.inj hrecord
        exact hsame
    · exact hsame
  | getActiveDispatchForTask taskId worker => exact hsame
  | reservations rows => exact h.elim

/-- The new row is numbered above the last attempt its task has when it is added. -/
def NumberedLast : ReservationStatement → RuntimeState → Prop
  | .insert _ record, st => st.rows.lastAttempt record.taskId < record.attempt
  | _, _ => True

section Respects

variable (numbered : Prop)

/-- What every state of the system keeps: and, where rows are numbered as they are added, that the
attempts increase. -/
structure RuntimeWF (st : RuntimeState) : Prop where
  exclusive : st.rows.Exclusive
  increasing : numbered → st.rows.Numbered

variable {numbered} {st : RuntimeState}

theorem RuntimeWF.map (h : RuntimeWF numbered st)
    {f : WorkerExecutionReservationRecord → WorkerExecutionReservationRecord}
    (hf : ∀ r ∈ st.rows, RowKept r (f r)) {st' : RuntimeState} (hst' : st'.rows = st.rows.map f) :
    RuntimeWF numbered st' := by
  refine ⟨?_, fun hnumbered => ?_⟩
  · rw [hst']
    exact h.exclusive.map hf
  · rw [hst']
    exact (h.increasing hnumbered).map hf

theorem RuntimeWF.execute (h : RuntimeWF numbered st) {op : ReservationStatement}
    (hop : numbered → NumberedLast op st) : RuntimeWF numbered (RuntimeState.execute op st).2 := by
  cases op with
  | insert expired record =>
    simp only [RuntimeState.execute]
    split
    · rename_i rows hcommit
      refine ⟨h.exclusive.commit hcommit, fun hnumbered => ?_⟩
      have hlast : st.rows.lastAttempt record.taskId < record.attempt := hop hnumbered
      exact (ReservationRows.numbered_commit_iff (h.increasing hnumbered) (by omega)
        hcommit).mpr hlast
    · exact h
  | _ => exact h

theorem RuntimeWF.move (h : RuntimeWF numbered st) {st' : RuntimeState}
    (hmove : RuntimeMove st st') : RuntimeWF numbered st' := by
  cases hmove with
  | tick later hlater => exact ⟨h.exclusive, h.increasing⟩
  | @reservation op rows happly =>
    obtain ⟨f, hrows, hf⟩ := ReservationRows.apply_ok h.exclusive.ids_nodup happly
    exact h.map hf hrows
  | runner hclock =>
    obtain ⟨f, hrows, hf⟩ := runnerOp_reservations hclock
    exact h.map hf hrows

theorem reservationSystem_respects (numbered : Prop) :
    (reservationSystem.restrict fun op st => numbered → NumberedLast op st).Respects
      (fun _ _ => True) (RuntimeWF numbered) (fun _ _ => True) where
  refl := fun _ => trivial
  trans := fun _ _ _ _ _ => trivial
  exec := by
    rintro op st r st' hst - ⟨⟨-, hexec⟩ | ⟨-, rfl⟩, hop⟩
    · obtain rfl := congrArg Prod.snd hexec
      exact ⟨trivial, hst.execute hop⟩
    · exact ⟨trivial, hst⟩
  environment := fun st st' hst hmove => ⟨trivial, hst.move hmove⟩
  starts := fun p st _ _ => Prog.resilient_of_always (fun _ _ => trivial) p st

end Respects

/-- The statements as they are answered while the locks are held. -/
def executeHeld (op : ReservationStatement) (st : RuntimeState) :
    Except ReservationError (ReservationAnswer op) × RuntimeState :=
  if op.LocksHeld st then RuntimeState.execute op st else (.error (.database "lock lost"), st)

theorem executeHeld_allowed (op : ReservationStatement) (st : RuntimeState) :
    reservationSystem.Exec op st (executeHeld op st).1 (executeHeld op st).2 := by
  unfold executeHeld
  split
  · rename_i hheld
    exact .inl ⟨hheld, rfl⟩
  · exact .inr ⟨⟨_, rfl⟩, rfl⟩

/-- A reservation of task 1 for worker 10. -/
def sampleReserve : ReserveCommand :=
  { organizationId := 2
    projectId := 3
    repositoryId := 4
    taskId := 1
    workerAgentId := 10
    leaseOwner := "api"
    leaseSeconds := 60 }

/-- The state the call leaves, two minutes later. -/
def sampleExpired : RuntimeState :=
  { (Prog.advance executeHeld 5 (reserve sampleReserve 100 200, {})).2 with now := 120000000 }

theorem sampleExpired_trace : ∃ steps threads,
    reservationSystem.Trace { now := 0 } steps ⟨sampleExpired, threads⟩ := by
  have hstarted := Threaded.Trace.nil.snoc (T := reservationSystem) (s := { now := 0 })
    (.start ⟨sampleReserve, 100, 200, rfl⟩)
  have htrace := hstarted.advance executeHeld_allowed 5 0 rfl
  exact ⟨_, _, htrace.snoc (.environment (.tick _ 120000000 (by decide)))⟩

end AgentRuntime
end RepoMesh
