/-
# Claims on observations

Processors that claim, complete and fail observations in any interleaving. A call's write is
refused when the row moved since the call read it; nothing ties a call to the claim it was made
under.
-/
import Mathlib.Logic.Function.Basic
import RepoMesh.Foundation.Runs
import RepoMesh.Delivery.Observation

namespace RepoMesh
namespace Delivery

open Fallible Runs Text

/-- Where a processor stands between the steps of `process`. -/
inductive ProcessorPhase where
  | idle
  | claiming (pending : PendingUpdate)
  | working (id : UUID)
  | finishing (id : UUID) (pending : PendingUpdate)

/-- The observation a processor holds a claim on between its calls. -/
def ProcessorPhase.workingOn : ProcessorPhase → Option UUID
  | .working id => some id
  | _ => none

/-- The inbox, its processors, and whose claim of an observation was written last. -/
structure Inbox (P : Type) where
  store : SCMObservationStore := {}
  phase : P → ProcessorPhase := fun _ => .idle
  latest : UUID → Option P := fun _ => none

/-- A step of the system. A service call of a processor is a read and a write. -/
inductive ProcessorOp (P : Type) where
  | record (command : RecordSCMObservationCommand) (now : Instant)
  | readClaim (p : P) (id : UUID) (now : Instant)
  | writeClaim (p : P)
  | readComplete (p : P) (now : Instant)
  | readFail (p : P) (error : String)
  | writeFinish (p : P)
  | crash (p : P)

section Processors

variable {P : Type} [DecidableEq P]

namespace Inbox

/-- A processor goes on to another phase. -/
def move (s : Inbox P) (p : P) (phase : ProcessorPhase) : Inbox P :=
  { s with phase := Function.update s.phase p phase }

/-- A processor that holds a claim has read the row for `complete` or `fail`. A refused call
leaves it holding the claim: `process` goes on to `fail`. -/
def startFinish (s : Inbox P) (p : P)
    (read : SCMObservationStore → UUID → Except Raised PendingUpdate) : Inbox P :=
  match s.phase p with
  | .working id =>
    match read s.store id with
    | .ok pending => s.move p (.finishing id pending)
    | .error _ => s
  | _ => s

/-- One step. -/
def next (policy : ObservationPolicy) (s : Inbox P) : ProcessorOp P → Inbox P
  | .record command now =>
    match SCMObservationService.record s.store command now with
    | .ok result => { s with store := result.2 }
    | .error _ => s
  | .readClaim p id now =>
    match s.phase p, SCMObservationService.readForClaim policy s.store id now with
    | .idle, .ok (some pending) => s.move p (.claiming pending)
    | _, _ => s
  | .writeClaim p =>
    match s.phase p with
    | .claiming pending =>
      match pending.write s.store with
      | .ok store =>
        { s.move p (.working pending.updated.id) with
          store := store
          latest := Function.update s.latest pending.updated.id (some p) }
      | .error _ => s.move p .idle
    | _ => s
  | .readComplete p now =>
    s.startFinish p fun store id => SCMObservationService.readForComplete store id now
  | .readFail p error =>
    s.startFinish p fun store id => SCMObservationService.readForFail store id error
  | .writeFinish p =>
    match s.phase p with
    | .finishing id pending =>
      match pending.write s.store with
      | .ok store => { s.move p .idle with store := store }
      | .error _ => s.move p (.working id)
    | _ => s
  | .crash p => s.move p .idle

/-- The processor calls `complete` or `fail` on an observation that is being processed under
another claim. -/
def Stale (s : Inbox P) : ProcessorOp P → Prop
  | .readComplete p _ | .readFail p _ =>
    ∃ id o, (s.phase p).workingOn = some id ∧ s.store.get id = some o ∧
      o.status = .processing ∧ s.latest id ≠ some p
  | _ => False

/-- The step moves the observation out of `PROCESSING`. -/
def Finishes (policy : ObservationPolicy) (s : Inbox P) (op : ProcessorOp P) (id : UUID) : Prop :=
  ∃ o o', s.store.get id = some o ∧ o.status = .processing ∧
    (s.next policy op).store.get id = some o' ∧ o'.status ≠ .processing

theorem Finishes.of_status {policy : ObservationPolicy} {s : Inbox P} {op : ProcessorOp P}
    {id : UUID} {status : SCMObservationStatus}
    (hbefore : (s.store.get id).map (·.status) = some .processing)
    (hafter : ((s.next policy op).store.get id).map (·.status) = some status)
    (hne : status ≠ .processing) : s.Finishes policy op id := by
  obtain ⟨o, ho, hstatus⟩ := Option.map_eq_some_iff.mp hbefore
  obtain ⟨o', ho', rfl⟩ := Option.map_eq_some_iff.mp hafter
  exact ⟨o, o', ho, hstatus, ho', hne⟩

/-- What the claim of an observation is for: only the processor of the latest claim moves the
observation out of `PROCESSING`, and the write of any other changes nothing. -/
structure ClaimExclusive (policy : ObservationPolicy) (s : Inbox P) (op : ProcessorOp P) :
    Prop where
  finished_by_latest : ∀ id, s.Finishes policy op id →
    ∃ p, op = .writeFinish p ∧ s.latest id = some p
  taken_over_refused : ∀ p id pending, op = .writeFinish p → s.phase p = .finishing id pending →
    s.latest id ≠ some p → (s.next policy op).store = s.store

/-- A pending write of a processor, held against the row it was read from. -/
structure PendingInv (s : Inbox P) (p : P) (id : UUID) (pending : PendingUpdate) : Prop where
  for_id : pending.updated.id = id
  bumps : pending.updated.version = pending.expectedVersion + 1
  current : ∃ o, s.store.get id = some o ∧ pending.expectedVersion ≤ o.version ∧
    (o.version = pending.expectedVersion → s.latest id = some p)

/-- What every reachable inbox keeps while no stale call is made. -/
structure Inv (s : Inbox P) : Prop where
  ids_nodup : (s.store.items.map (·.id)).Nodup
  ids_bound : ∀ o ∈ s.store.items, o.id < s.store.nextId
  claiming : ∀ p pending, s.phase p = .claiming pending →
    pending.updated.version = pending.expectedVersion + 1 ∧
      pending.updated.status = .processing
  finishing : ∀ p id pending, s.phase p = .finishing id pending → s.PendingInv p id pending

end Inbox

/-! ## What the calls do -/

theorem SCMObservationStore.update_ok {st st' : SCMObservationStore} {o : SCMObservation}
    {expected : ℕ} (h : st.update o expected = .ok st') :
    (∃ current, st.get o.id = some current ∧ current.version = expected) ∧
      st' = { st with items := Keyed.write (·.id) st.items o.id fun _ => o } := by
  unfold SCMObservationStore.update at h
  split at h
  · cases h
  · rename_i current hcurrent
    split_ifs at h with hversion
    exact ⟨⟨current, hcurrent, not_not.mp hversion⟩, (Except.ok.inj h).symm⟩

theorem SCMObservationStore.get_of_update {st st' : SCMObservationStore} {o : SCMObservation}
    {expected : ℕ} (h : st.update o expected = .ok st') (id : UUID) :
    st'.get id = if id = o.id then some o else st.get id := by
  obtain ⟨⟨current, hcurrent, -⟩, rfl⟩ := SCMObservationStore.update_ok h
  split_ifs with hid
  · subst hid
    show Keyed.find (·.id) (Keyed.write (·.id) st.items o.id fun _ => o) o.id = some o
    have hfound : Keyed.find (·.id) st.items o.id = some current := hcurrent
    rw [Keyed.find_write_self fun _ _ => rfl, hfound]
    rfl
  · exact Keyed.find_write_of_ne (fun _ _ => rfl) hid

theorem SCMObservationService.record_ok {st st' : SCMObservationStore}
    {c : RecordSCMObservationCommand} {now : Instant} {o : SCMObservation} {created : Bool}
    (h : SCMObservationService.record st c now = .ok ((o, created), st')) :
    (st' = st ∧ created = false ∧ st.getByIdentity (identityOf c) = some o ∧
        validateDuplicate o c = .ok ()) ∨
      (created = true ∧ st.getByIdentity (identityOf c) = none ∧
        SCMObservation.create c st.nextId now = .ok o ∧
        st'.items = st.items ++ [o] ∧ st'.nextId = st.nextId + 1) := by
  unfold SCMObservationService.record at h
  split at h
  · rename_i existing hexisting
    obtain ⟨⟨⟩, hvalid, h⟩ := bind_ok h
    obtain ⟨hpair, rfl⟩ := Prod.mk.inj (Except.ok.inj h)
    obtain ⟨rfl, rfl⟩ := Prod.mk.inj hpair
    exact Or.inl ⟨rfl, rfl, hexisting, hvalid⟩
  · rename_i hnone
    obtain ⟨o', ho', h⟩ := bind_ok h
    obtain ⟨st'', hadd, h⟩ := bind_ok h
    obtain ⟨hpair, rfl⟩ := Prod.mk.inj (Except.ok.inj h)
    obtain ⟨rfl, rfl⟩ := Prod.mk.inj hpair
    unfold SCMObservationStore.add at hadd
    split at hadd
    · cases hadd
    · obtain rfl := Except.ok.inj hadd
      exact Or.inr ⟨rfl, hnone, ho', rfl, rfl⟩

theorem SCMObservation.create_ok {c : RecordSCMObservationCommand} {id : UUID} {now : Instant}
    {o : SCMObservation} (h : SCMObservation.create c id now = .ok o) :
    o.id = id ∧ o.identity = SCMObservationService.identityOf c ∧
      o.payloadHash = normalize c.payloadHash ∧ o.eventType = normalize c.eventType ∧
      o.changeSetId = c.changeSetId ∧ o.repositoryId = c.repositoryId ∧ o.status = .pending := by
  unfold SCMObservation.create at h
  dsimp only at h
  split_ifs at h
  obtain rfl := Except.ok.inj h
  exact ⟨rfl, rfl, rfl, rfl, rfl, rfl, rfl⟩

namespace SCMObservationService

theorem required_ok {st : SCMObservationStore} {id : UUID} {o : SCMObservation}
    (h : required st id = .ok o) : st.get id = some o := by
  unfold required at h
  split at h
  · rename_i found hfound
    rw [hfound, Except.ok.inj h]
  · cases h

theorem readForClaim_some {policy : ObservationPolicy} {st : SCMObservationStore} {id : UUID}
    {now : Instant} {pending : PendingUpdate}
    (h : readForClaim policy st id now = .ok (some pending)) :
    ∃ o, st.get id = some o ∧ o.isClaimable now policy.leaseTimeout policy.maxAttempts = true ∧
      pending = { updated := o.claim now, expectedVersion := o.version } := by
  obtain ⟨o, ho, h⟩ := bind_ok h
  split_ifs at h with hclaimable
  · exact ⟨o, required_ok ho, hclaimable, (Option.some.inj (Except.ok.inj h)).symm⟩
  · cases Except.ok.inj h

/-- What `complete` and `fail` have in common: the row they read is being processed, and they
compute its next version. -/
def FinishRead (st : SCMObservationStore) (id : UUID) (pending : PendingUpdate) : Prop :=
  ∃ o, st.get id = some o ∧ o.status = .processing ∧ pending.updated.id = o.id ∧
    pending.updated.version = o.version + 1 ∧ pending.expectedVersion = o.version

theorem readForComplete_ok {st : SCMObservationStore} {id : UUID} {now : Instant}
    {pending : PendingUpdate} (h : readForComplete st id now = .ok pending) :
    FinishRead st id pending := by
  obtain ⟨o, ho, h⟩ := bind_ok h
  obtain ⟨completed, hcompleted, h⟩ := bind_ok h
  obtain rfl := Except.ok.inj h
  unfold SCMObservation.complete at hcompleted
  split_ifs at hcompleted with hstatus
  obtain rfl := Except.ok.inj hcompleted
  exact ⟨o, required_ok ho, not_not.mp hstatus, rfl, rfl, rfl⟩

theorem readForFail_ok {st : SCMObservationStore} {id : UUID} {error : String}
    {pending : PendingUpdate} (h : readForFail st id error = .ok pending) :
    FinishRead st id pending := by
  obtain ⟨o, ho, h⟩ := bind_ok h
  obtain ⟨failed, hfailed, h⟩ := bind_ok h
  obtain rfl := Except.ok.inj h
  unfold SCMObservation.fail at hfailed
  split_ifs at hfailed with hstatus hblank
  obtain rfl := Except.ok.inj hfailed
  exact ⟨o, required_ok ho, not_not.mp hstatus, rfl, rfl, rfl⟩

end SCMObservationService

/-! ## The invariant -/

namespace Inbox

/-- A row keeps its version and its latest claim, or its version grows. -/
def Grows (s s' : Inbox P) : Prop :=
  ∀ id o, s.store.get id = some o → ∃ o', s'.store.get id = some o' ∧
    (o.version < o'.version ∨ (o' = o ∧ s'.latest id = s.latest id))

omit [DecidableEq P] in
theorem Grows.of_eq {s s' : Inbox P} (hstore : s'.store = s.store) (hlatest : s'.latest = s.latest) :
    s.Grows s' := by
  intro id o ho
  exact ⟨o, by rw [hstore, ho], Or.inr ⟨rfl, by rw [hlatest]⟩⟩

omit [DecidableEq P] in
theorem PendingInv.grows {s s' : Inbox P} {p : P} {id : UUID} {pending : PendingUpdate}
    (h : s.PendingInv p id pending) (hg : s.Grows s') : s'.PendingInv p id pending := by
  obtain ⟨o, ho, hle, hlatest⟩ := h.current
  obtain ⟨o', ho', hgrow⟩ := hg id o ho
  refine ⟨h.for_id, h.bumps, o', ho', ?_⟩
  rcases hgrow with hlt | ⟨rfl, hsame⟩
  · exact ⟨by omega, fun heq => by omega⟩
  · exact ⟨hle, fun heq => by rw [hsame]; exact hlatest heq⟩

omit [DecidableEq P] in
theorem Inv.step {s s' : Inbox P} (hi : s.Inv) (hg : s.Grows s')
    (hnd : (s'.store.items.map (·.id)).Nodup) (hb : ∀ o ∈ s'.store.items, o.id < s'.store.nextId)
    (hclaim : ∀ p pending, s'.phase p = .claiming pending → s.phase p = .claiming pending ∨
      (pending.updated.version = pending.expectedVersion + 1 ∧
        pending.updated.status = .processing))
    (hfin : ∀ p id pending, s'.phase p = .finishing id pending →
      s.phase p = .finishing id pending ∨ s.PendingInv p id pending) : s'.Inv where
  ids_nodup := hnd
  ids_bound := hb
  claiming p pending hp := (hclaim p pending hp).elim (hi.claiming p pending) id
  finishing p id pending hp :=
    ((hfin p id pending hp).elim (hi.finishing p id pending) fun h => h).grows hg

theorem Inv.move {s : Inbox P} (hi : s.Inv) {p : P} {phase : ProcessorPhase}
    (hc : ∀ pending, phase = .claiming pending →
      pending.updated.version = pending.expectedVersion + 1 ∧ pending.updated.status = .processing)
    (hf : ∀ id pending, phase = .finishing id pending → s.PendingInv p id pending) :
    (s.move p phase).Inv := by
  refine hi.step (Grows.of_eq rfl rfl) hi.ids_nodup hi.ids_bound ?_ ?_
  · intro q pending hq
    by_cases hqp : q = p
    · subst hqp
      have hphase : phase = .claiming pending := by simpa [Inbox.move] using hq
      exact Or.inr (hc pending hphase)
    · exact Or.inl (by simpa [Inbox.move, Function.update_of_ne hqp] using hq)
  · intro q id pending hq
    by_cases hqp : q = p
    · subst hqp
      have hphase : phase = .finishing id pending := by simpa [Inbox.move] using hq
      exact Or.inr (hf id pending hphase)
    · exact Or.inl (by simpa [Inbox.move, Function.update_of_ne hqp] using hq)

theorem ids_of_write {st st' : SCMObservationStore} {pending : PendingUpdate}
    (h : pending.write st = .ok st') (hnd : (st.items.map (·.id)).Nodup)
    (hb : ∀ o ∈ st.items, o.id < st.nextId) :
    (st'.items.map (·.id)).Nodup ∧ ∀ o ∈ st'.items, o.id < st'.nextId := by
  obtain ⟨-, rfl⟩ := SCMObservationStore.update_ok h
  have hids : (Keyed.write (·.id) st.items pending.updated.id fun _ => pending.updated).map (·.id) =
      st.items.map (·.id) := Keyed.keys_write fun _ _ => rfl
  refine ⟨hids ▸ hnd, fun o ho => ?_⟩
  have hmem : o.id ∈ st.items.map (·.id) := hids ▸ List.mem_map_of_mem ho
  obtain ⟨x, hx, hxo⟩ := List.mem_map.mp hmem
  exact hxo ▸ hb x hx

omit [DecidableEq P] in
theorem grows_of_write {s s' : Inbox P} {pending : PendingUpdate}
    (h : pending.write s.store = .ok s'.store)
    (hbump : pending.updated.version = pending.expectedVersion + 1)
    (hlatest : ∀ id, id ≠ pending.updated.id → s'.latest id = s.latest id) : s.Grows s' := by
  intro id o ho
  have hget := SCMObservationStore.get_of_update h id
  by_cases hid : id = pending.updated.id
  · rw [if_pos hid] at hget
    obtain ⟨⟨current, hcurrent, hversion⟩, -⟩ := SCMObservationStore.update_ok h
    obtain rfl : o = current := by rw [hid, hcurrent] at ho; exact (Option.some.inj ho).symm
    exact ⟨pending.updated, hget, Or.inl (by omega)⟩
  · rw [if_neg hid] at hget
    exact ⟨o, by rw [hget, ho], Or.inr ⟨rfl, hlatest id hid⟩⟩

omit [DecidableEq P] in
theorem get_of_record {s : Inbox P} {c : RecordSCMObservationCommand} {now : Instant}
    {result : (SCMObservation × Bool) × SCMObservationStore} (hi : s.Inv)
    (h : SCMObservationService.record s.store c now = .ok result) {id : UUID} {x : SCMObservation}
    (hx : s.store.get id = some x) : result.2.get id = some x := by
  obtain ⟨⟨o, created⟩, st'⟩ := result
  rcases SCMObservationService.record_ok h with ⟨rfl, -⟩ | ⟨-, -, hcreate, hitems, -⟩
  · exact hx
  · have hid : o.id = s.store.nextId := (SCMObservation.create_ok hcreate).1
    obtain ⟨hmem, hkey⟩ := Keyed.mem_of_find hx
    have hne : o.id ≠ id := by
      rw [hid, ← hkey]
      exact (Nat.ne_of_lt (hi.ids_bound x hmem)).symm
    rw [SCMObservationStore.get, hitems, Keyed.find_append_of_ne hne]
    exact hx

omit [DecidableEq P] in
theorem ids_of_record {s : Inbox P} {c : RecordSCMObservationCommand} {now : Instant}
    {result : (SCMObservation × Bool) × SCMObservationStore} (hi : s.Inv)
    (h : SCMObservationService.record s.store c now = .ok result) :
    (result.2.items.map (·.id)).Nodup ∧ ∀ o ∈ result.2.items, o.id < result.2.nextId := by
  obtain ⟨⟨o, created⟩, st'⟩ := result
  rcases SCMObservationService.record_ok h with ⟨rfl, -⟩ | ⟨-, -, hcreate, hitems, hnext⟩
  · exact ⟨hi.ids_nodup, hi.ids_bound⟩
  · have hid : o.id = s.store.nextId := (SCMObservation.create_ok hcreate).1
    rw [hitems, hnext]
    refine ⟨Keyed.nodup_append hi.ids_nodup fun x hx => ?_, fun x hx => ?_⟩
    · rw [hid]
      exact Nat.ne_of_lt (hi.ids_bound x hx)
    · rcases List.mem_append.mp hx with hx | hx
      · exact Nat.lt_succ_of_lt (hi.ids_bound x hx)
      · rw [List.mem_singleton.mp hx, hid]
        exact Nat.lt_succ_self _

theorem Inv.startFinish {s : Inbox P} (hi : s.Inv) {p : P}
    {read : SCMObservationStore → UUID → Except Raised PendingUpdate}
    (hread : ∀ st id pending, read st id = .ok pending →
      SCMObservationService.FinishRead st id pending)
    (hstale : ¬ ∃ id o, (s.phase p).workingOn = some id ∧ s.store.get id = some o ∧
      o.status = .processing ∧ s.latest id ≠ some p) : (s.startFinish p read).Inv := by
  unfold Inbox.startFinish
  split
  · rename_i id hphase
    split
    · rename_i pending hpending
      obtain ⟨o, ho, hstatus, hid, hbump, hexpected⟩ := hread _ _ _ hpending
      refine hi.move (by simp) fun id' pending' heq => ?_
      obtain ⟨rfl, rfl⟩ : id = id' ∧ pending = pending' := by simpa using heq
      refine ⟨hid.trans (Keyed.mem_of_find ho).2, by omega, o, ho, by omega, fun _ => ?_⟩
      by_contra hother
      exact hstale ⟨id, o, by rw [hphase]; rfl, ho, hstatus, hother⟩
    · exact hi
  · exact hi

/-- **One step keeps the invariant unless it is a stale call.** -/
theorem inv_next {policy : ObservationPolicy} {s : Inbox P} {op : ProcessorOp P} (hi : s.Inv)
    (hstale : ¬ s.Stale op) : (s.next policy op).Inv := by
  cases op with
  | record command now =>
    simp only [next]
    split
    · rename_i result h
      obtain ⟨hnd, hb⟩ := ids_of_record hi h
      have hg : s.Grows { s with store := result.2 } := fun id o ho =>
        ⟨o, get_of_record hi h ho, Or.inr ⟨rfl, rfl⟩⟩
      exact hi.step hg hnd hb (fun _ _ h => Or.inl h) fun _ _ _ h => Or.inl h
    · exact hi
  | readClaim p id now =>
    simp only [next]
    split
    · rename_i pending _ hread
      obtain ⟨o, -, -, hpending⟩ := SCMObservationService.readForClaim_some hread
      refine hi.move (fun pending' heq => ?_) (by simp)
      obtain rfl : pending = pending' := by simpa using heq
      rw [hpending]
      exact ⟨rfl, rfl⟩
    · exact hi
  | writeClaim p =>
    simp only [next]
    split
    · rename_i pending hphase
      split
      · rename_i store hwrite
        obtain ⟨hbump, -⟩ := hi.claiming p pending hphase
        obtain ⟨hnd, hb⟩ := ids_of_write hwrite hi.ids_nodup hi.ids_bound
        have hmove : (s.move p (.working pending.updated.id)).Inv := hi.move (by simp) (by simp)
        refine hmove.step (grows_of_write hwrite hbump fun id hid => ?_) hnd hb
          (fun _ _ h => Or.inl h) fun _ _ _ h => Or.inl h
        exact Function.update_of_ne hid _ _
      · exact hi.move (by simp) (by simp)
    · exact hi
  | readComplete p now =>
    exact hi.startFinish (fun _ _ _ => SCMObservationService.readForComplete_ok) hstale
  | readFail p error =>
    exact hi.startFinish (fun _ _ _ => SCMObservationService.readForFail_ok) hstale
  | writeFinish p =>
    simp only [next]
    split
    · rename_i id pending hphase
      split
      · rename_i store hwrite
        obtain ⟨hnd, hb⟩ := ids_of_write hwrite hi.ids_nodup hi.ids_bound
        have hbump := (hi.finishing p id pending hphase).bumps
        have hmove : (s.move p .idle).Inv := hi.move (by simp) (by simp)
        exact hmove.step (grows_of_write hwrite hbump fun _ _ => rfl) hnd hb
          (fun _ _ h => Or.inl h) fun _ _ _ h => Or.inl h
      · exact hi.move (by simp) (by simp)
    · exact hi
  | crash p => exact hi.move (by simp) (by simp)

/-! ## Who finishes -/

theorem startFinish_store (s : Inbox P) (p : P)
    (read : SCMObservationStore → UUID → Except Raised PendingUpdate) :
    (s.startFinish p read).store = s.store := by
  unfold Inbox.startFinish
  split
  · split <;> rfl
  · rfl

omit [DecidableEq P] in
theorem Inv.latest_of_write {s : Inbox P} (hi : s.Inv) {p : P} {id : UUID}
    {pending : PendingUpdate} (hphase : s.phase p = .finishing id pending)
    {store : SCMObservationStore} (hwrite : pending.write s.store = .ok store) :
    s.latest id = some p := by
  obtain ⟨o, ho, -, hlatest⟩ := (hi.finishing p id pending hphase).current
  obtain ⟨⟨current, hcurrent, hversion⟩, -⟩ := SCMObservationStore.update_ok hwrite
  rw [(hi.finishing p id pending hphase).for_id, ho] at hcurrent
  obtain rfl := Option.some.inj hcurrent
  exact hlatest hversion

theorem Inv.finishes {policy : ObservationPolicy} {s : Inbox P} (hi : s.Inv) {op : ProcessorOp P}
    {id : UUID} (hf : s.Finishes policy op id) :
    ∃ p pending store, op = .writeFinish p ∧ s.phase p = .finishing id pending ∧
      pending.write s.store = .ok store := by
  obtain ⟨o, o', ho, hstatus, ho', hstatus'⟩ := hf
  have hmoved : (s.next policy op).store.get id ≠ some o := fun h => by
    obtain rfl := Option.some.inj (h.symm.trans ho')
    exact hstatus' hstatus
  cases op with
  | record command now =>
    simp only [next] at hmoved
    split at hmoved
    · rename_i result h
      exact absurd (get_of_record hi h ho) hmoved
    · exact absurd ho hmoved
  | readClaim p id' now =>
    simp only [next] at hmoved
    split at hmoved <;> exact absurd ho hmoved
  | writeClaim p =>
    simp only [next] at hmoved ho'
    split at hmoved
    · rename_i pending hphase
      split at hmoved
      · rename_i store hwrite
        simp only [hphase, hwrite] at ho'
        have hget := SCMObservationStore.get_of_update hwrite id
        split_ifs at hget with hid
        · obtain rfl := Option.some.inj (hget.symm.trans ho')
          exact absurd (hi.claiming p pending hphase).2 hstatus'
        · exact absurd (hget.trans ho) hmoved
      · exact absurd ho hmoved
    · exact absurd ho hmoved
  | readComplete p now =>
    rw [next, startFinish_store] at hmoved
    exact absurd ho hmoved
  | readFail p error =>
    rw [next, startFinish_store] at hmoved
    exact absurd ho hmoved
  | writeFinish p =>
    simp only [next] at hmoved
    split at hmoved
    · rename_i id' pending hphase
      split at hmoved
      · rename_i store hwrite
        have hget := SCMObservationStore.get_of_update hwrite id
        split_ifs at hget with hid
        · have hid' : id = id' := hid.trans (hi.finishing p id' pending hphase).for_id
          exact ⟨p, pending, store, rfl, hid' ▸ hphase, hwrite⟩
        · exact absurd (hget.trans ho) hmoved
      · exact absurd ho hmoved
    · exact absurd ho hmoved
  | crash p => exact absurd ho hmoved

/-- **What the invariant gives.** A step finishes under the latest claim, and the write of a
processor that was taken over is refused. -/
theorem Inv.exclusive {policy : ObservationPolicy} {s : Inbox P} (hi : s.Inv)
    (op : ProcessorOp P) : s.ClaimExclusive policy op where
  finished_by_latest id hf := by
    obtain ⟨p, pending, store, hop, hphase, hwrite⟩ := hi.finishes hf
    exact ⟨p, hop, hi.latest_of_write hphase hwrite⟩
  taken_over_refused p id pending hop hphase hother := by
    subst hop
    simp only [next, hphase]
    split
    · rename_i store hwrite
      exact absurd (hi.latest_of_write hphase hwrite) hother
    · rfl

omit [DecidableEq P] in
theorem inv_empty : ({} : Inbox P).Inv :=
  ⟨List.nodup_nil, by simp, by simp, by simp⟩

end Inbox

open Inbox

end Processors

/-! ## A processor that outlives its claim -/

/-- Five minutes, five attempts. -/
def samplePolicy : ObservationPolicy :=
  { leaseTimeout := 300 * 1000000, maxAttempts := 5, positive := by decide }

/-- A pull-request event. -/
def sampleObservation : RecordSCMObservationCommand :=
  { provider := "github"
    source := .webhook
    externalId := "delivery-1"
    eventType := "pull_request"
    payload := .obj []
    payloadHash := "44136fa355b3678a1146ad16f7e8649e94fb4fc21fe77e8310c060f61caaff8a"
    observedAt := 0 }

/-- Processor 1 claims the observation; processor 2 takes it over when the claim is five minutes
old. -/
def takeOver : List (ProcessorOp ℕ) :=
  [.record sampleObservation 0, .readClaim 1 0 0, .writeClaim 1,
    .readClaim 2 0 (300 * 1000000), .writeClaim 2]

/-- Processor 2 completes what it took over. -/
def currentFinish : List (ProcessorOp ℕ) :=
  takeOver ++ [.readComplete 2 (301 * 1000000), .writeFinish 2]

/-- Processor 2 holds the latest claim and works on it. -/
def takenOver : {inbox : Inbox ℕ // inbox = takeOver.foldl (Inbox.next samplePolicy) {} ∧
    (inbox.phase 2).workingOn = some 0 ∧ inbox.latest 0 = some 2} :=
  ⟨takeOver.foldl (Inbox.next samplePolicy) {}, rfl, by decide +kernel⟩

/-- Processor 1 completes it instead. -/
def staleFinish : List (ProcessorOp ℕ) :=
  takeOver ++ [.readComplete 1 (301 * 1000000), .writeFinish 1]

/-- The observation before the last call, when the latest claim is still that of processor 2, and after
it. -/
def staleFinished : {run : Inbox ℕ × Inbox ℕ //
    run = ((staleFinish.take 6).foldl (Inbox.next samplePolicy) {},
      staleFinish.foldl (Inbox.next samplePolicy) {}) ∧
    run.1.latest 0 = some 2 ∧ (run.1.store.get 0).map (·.status) = some .processing ∧
    (run.2.store.get 0).map (·.status) = some .processed ∧
    run.2.store.items.map (·.status) = [.processed]} :=
  ⟨((staleFinish.take 6).foldl (Inbox.next samplePolicy) {},
    staleFinish.foldl (Inbox.next samplePolicy) {}), rfl, by decide +kernel⟩

end Delivery
end RepoMesh
