/-
# Rollbacks: all or nothing

A write of a rollback request that does not land leaves the decisions before it in place and no plan
behind them, so a request that raises is all-or-nothing exactly when what keeps a later write from
landing leaves the plan there or takes the decisions away. Once a request succeeded undisturbed, its
repeat adds nothing.
-/
import RepoMesh.Delivery.RollbackRequests

namespace RepoMesh
namespace Delivery

open Async (Prog)
open Orchestration (AgentRole AgentPrincipalStatus)
open Text

/-! ## The writes of a request -/

/-- The operation is a write as the request makes it. -/
def SoundWrite (op : RollbackOp) : Prop := ∃ write, op = .write write ∧ write.Sound

theorem sound_rollbackDecision {reason : String} (hreason : isBlank (strip reason) = false)
    (changeSetId actorId : UUID) (candidate : RepositoryDelivery) :
    RollbackWrite.Sound
      (.recordGovernanceDecision (rollbackDecision changeSetId actorId reason candidate)) :=
  ⟨isFullSha_normalize (isFullSha_normalize candidate.shas_full.1), hreason⟩

theorem only_recordDecisions {reason : String} (hreason : isBlank (strip reason) = false)
    (actorId : UUID) (candidates : List RepositoryDelivery) (cs : ChangeSet) (wrote : Bool) :
    Prog.Only SoundWrite (recordDecisions actorId reason candidates cs wrote) := by
  induction candidates generalizing cs wrote with
  | nil => exact Prog.only_done _
  | cons candidate rest ih =>
    rw [recordDecisions]
    split_ifs
    · exact ih cs wrote
    · refine Prog.only_bind ((Prog.only_perform _).mpr ⟨_, rfl, ?_⟩) fun cs => ih cs true
      exact sound_rollbackDecision hreason cs.id actorId candidate

theorem passes_recordDecisions (actorId : UUID) (reason : String)
    (candidates : List RepositoryDelivery) (cs : ChangeSet) (wrote : Bool) :
    Prog.Passes (recordDecisions actorId reason candidates cs wrote) := by
  induction candidates generalizing cs wrote with
  | nil => exact Prog.passes_pure _
  | cons candidate rest ih =>
    rw [recordDecisions]
    split_ifs
    · exact ih cs wrote
    · exact (Prog.passes_perform _).bind fun cs => ih cs true

/-- The writes of a request that is no replay. -/
def rollbackWrites (actorId : UUID) (reason : String) (candidates : List RepositoryDelivery)
    (cs : ChangeSet) : RollbackCall ChangeSet :=
  recordDecisions actorId reason candidates cs false >>= fun decided =>
    planRollback false reason decided.1

theorem only_rollbackWrites {reason : String} (hreason : isBlank (strip reason) = false)
    (actorId : UUID) (candidates : List RepositoryDelivery) (cs : ChangeSet) :
    Prog.Only SoundWrite (rollbackWrites actorId reason candidates cs) :=
  Prog.only_bind (only_recordDecisions hreason actorId candidates cs false) fun _ =>
    (Prog.only_perform _).mpr ⟨_, rfl, trivial⟩

theorem passes_rollbackWrites (actorId : UUID) (reason : String)
    (candidates : List RepositoryDelivery) (cs : ChangeSet) :
    Prog.Passes (rollbackWrites actorId reason candidates cs) :=
  (passes_recordDecisions actorId reason candidates cs false).bind fun _ => Prog.passes_perform _

section

variable {fingerprint : PrepareChangeSetCommand → String} {w w' : RollbackWorld}
  {changeSetId actorId : UUID} {reason : String} {candidates : List RepositoryDelivery}
  {cs : ChangeSet}

/-- **Writes that raise are all or nothing** exactly when what is in the way of one does no harm. -/
theorem settled_iff_harmless {α : Type} {p : RollbackCall α} (hpasses : p.Passes)
    (honly : p.Only SoundWrite) (hw : w.store.WellFormed) :
    (∀ e w', p.run (rollbackStep fingerprint) w = (.error e, w') → Settled changeSetId reason w') ↔
      ∀ event ∈ p.events (rollbackStep fingerprint) w,
        Harmless fingerprint changeSetId reason event := by
  have hwell := (Prog.run_invariant (rollbackStep fingerprint)
    (I := fun t : RollbackWorld => t.store.WellFormed)
    (fun op t ht => (kept_rollbackStep ht op).1) p hw).1
  constructor
  · rintro h ⟨op, t⟩ hevent
    obtain ⟨write, hop, hsound⟩ := honly.events _ _ hevent
    obtain rfl : op = .write write := hop
    by_cases hclear : Clear fingerprint t write
    · exact Or.inl hclear
    · obtain ⟨e, hfails⟩ := perform_of_not_clear (hwell _ hevent) hsound hclear
      obtain ⟨e', hrun⟩ := hpasses.run_error_iff.mpr ⟨_, hevent, e, hfails⟩
      exact Or.inr (h e' _ hrun)
  · intro h e w' hrun
    obtain ⟨⟨op, t⟩, hevent, e', hfails⟩ := hpasses.run_error_iff.mp ⟨e, hrun⟩
    obtain ⟨write, hop, hsound⟩ := honly.events _ _ hevent
    obtain rfl : op = .write write := hop
    have hfails : t.perform fingerprint write = (.error e', w') := hfails
    have hclear : ¬ Clear fingerprint t write := by
      intro hclear
      obtain ⟨cs, updated, hlands⟩ := (clear_iff (hwell _ hevent) hsound).mp hclear
      rw [hlands.performed] at hfails
      cases hfails
    obtain ⟨e'', hleft⟩ := perform_of_not_clear (hwell _ hevent) hsound hclear
    rw [hleft] at hfails
    obtain rfl : t.leave (t.foundStore fingerprint write) = w' := congrArg Prod.snd hfails
    exact (h _ hevent).resolve_left hclear

theorem id_of_recordDecisions (hw : w.store.WellFormed) {wrote wrote' : Bool} {cs' : ChangeSet}
    (h : (recordDecisions actorId reason candidates cs wrote).run (rollbackStep fingerprint) w =
      (.ok (cs', wrote'), w')) : cs'.id = cs.id := by
  induction candidates generalizing cs wrote w with
  | nil =>
    obtain ⟨rfl, -⟩ := Prod.mk.inj (Except.ok.inj (congrArg Prod.fst h))
    rfl
  | cons candidate rest ih =>
    rw [recordDecisions] at h
    split_ifs at h
    · exact ih hw h
    · obtain ⟨updated, t, hwrite, hrest⟩ := Prog.exists_of_run_bind _ h
      have hwrite : w.perform fingerprint (.recordGovernanceDecision
          (rollbackDecision cs.id actorId reason candidate)) = (.ok updated, t) := hwrite
      rcases perform_cases hw _ with ⟨e, hfails⟩ | ⟨read, updated', hlands⟩
      · rw [hwrite] at hfails
        cases hfails
      · rw [hlands.performed] at hwrite
        obtain ⟨hupdated, rfl⟩ := Prod.mk.inj hwrite
        obtain rfl := Except.ok.inj hupdated
        have hid : updated'.id = cs.id :=
          hlands.id_eq.trans (ChangeSetStore.mem_of_get hlands.read).2
        exact (ih (hlands.wellFormed hw) hrest).trans hid

/-- **Writes that succeed leave the plan.** -/
theorem planned_of_rollbackWrites (hw : w.store.WellFormed) (hstrip : strip reason = reason)
    {planned : ChangeSet}
    (h : (rollbackWrites actorId reason candidates cs).run (rollbackStep fingerprint) w =
      (.ok planned, w')) : RollbackPlanned w'.store cs.id reason := by
  obtain ⟨⟨decided, wrote⟩, t, hdecided, hplan⟩ := Prog.exists_of_run_bind _ h
  have ht : t.store.WellFormed := by
    have hwell := (Prog.run_invariant (rollbackStep fingerprint)
      (I := fun t : RollbackWorld => t.store.WellFormed)
      (fun op t ht => (kept_rollbackStep ht op).1)
      (recordDecisions actorId reason candidates cs false) hw).2
    rw [hdecided] at hwell
    exact hwell
  have hid : decided.id = cs.id := id_of_recordDecisions hw hdecided
  have hplan : t.perform fingerprint (.planRecovery (rollbackPlan decided.id reason)) =
      (.ok planned, w') := hplan
  rcases perform_cases ht _ with ⟨e, hfails⟩ | ⟨read, updated, hlands⟩
  · rw [hplan] at hfails
    cases hfails
  · rw [hlands.performed] at hplan
    obtain ⟨-, rfl⟩ := Prod.mk.inj hplan
    have hupdated := Except.ok.inj hlands.computed
    refine ⟨updated, ?_,
      read.recoveryPlan (rollbackPlan decided.id reason) (t.readStore fingerprint).nextId, ?_, rfl,
      hstrip⟩
    · show ((t.foundStore fingerprint _).write updated).get cs.id = some updated
      rw [hlands.get, ← hid]
      exact if_pos rfl
    · rw [← hupdated]
      exact List.mem_append_right _ (List.mem_singleton_self _)

theorem run_planned {α : Type} (p : RollbackCall α) (hw : w.store.WellFormed)
    (hplanned : RollbackPlanned w.store changeSetId reason) :
    (∀ event ∈ p.events (rollbackStep fingerprint) w,
      Harmless fingerprint changeSetId reason event) ∧
      Settled changeSetId reason (p.run (rollbackStep fingerprint) w).2 := by
  obtain ⟨hevents, hend⟩ := Prog.run_invariant (rollbackStep fingerprint)
    (I := fun t : RollbackWorld =>
      t.store.WellFormed ∧ RollbackPlanned t.store changeSetId reason)
    (fun op t ht => by
      obtain ⟨hwell, hkept⟩ := @kept_rollbackStep fingerprint t ht.1 op
      exact ⟨hwell, ht.2.kept hkept⟩) p ⟨hw, hplanned⟩
  refine ⟨?_, fun _ => hend.2⟩
  rintro ⟨op, t⟩ hevent
  obtain ⟨ht, hplanned⟩ := hevents _ hevent
  cases op with
  | write write => exact Or.inr fun _ => hplanned.kept (storeKept_foundStore ht)
  | getByIdempotencyKey key => exact trivial
  | append event => exact trivial

theorem rollBack_of_new {deliveryId : UUID} {idempotencyKey : String}
    (hnew : cs.replaying reason = false) :
    rollBack deliveryId idempotencyKey reason actorId cs =
      rollbackWrites actorId reason cs.byMergeOrder cs >>=
        reportRollback deliveryId idempotencyKey reason actorId cs.byMergeOrder false := by
  rw [rollbackWrites, Prog.bind_assoc, rollBack, hnew]
  rfl

/-- **An accepted request** is all or nothing exactly when what is in the way of its writes does no
harm. -/
theorem settled_rollBack_iff {deliveryId : UUID} {idempotencyKey : String}
    (hw : w.store.WellFormed) (hget : w.store.get cs.id = some cs) (hstrip : strip reason = reason)
    (hreason : isBlank (strip reason) = false) :
    (∀ e w', (rollBack deliveryId idempotencyKey reason actorId cs).run
        (rollbackStep fingerprint) w = (.error e, w') → Settled cs.id reason w') ↔
      ∀ event ∈ (rollBack deliveryId idempotencyKey reason actorId cs).events
        (rollbackStep fingerprint) w, Harmless fingerprint cs.id reason event := by
  cases hreplaying : cs.replaying reason with
  | true =>
    -- The plan is there from the start.
    have hplanned : RollbackPlanned w.store cs.id reason := by
      obtain ⟨plan, hlast, hplan⟩ := (Option.any_eq_true _ _).mp hreplaying
      rw [Bool.and_eq_true, decide_eq_true_eq, beq_iff_eq] at hplan
      exact ⟨cs, hget, plan, List.mem_of_getLast? hlast, hplan⟩
    obtain ⟨hevents, hend⟩ := @run_planned fingerprint w cs.id reason _
      (rollBack deliveryId idempotencyKey reason actorId cs) hw hplanned
    refine iff_of_true (fun e w' hrun => ?_) hevents
    rw [hrun] at hend
    exact hend
  | false =>
    rw [rollBack_of_new hreplaying, Prog.events_bind]
    have hwrites := @settled_iff_harmless fingerprint w cs.id reason _ _
      (passes_rollbackWrites actorId reason cs.byMergeOrder cs)
      (only_rollbackWrites hreason actorId cs.byMergeOrder cs) hw
    cases hrun : (rollbackWrites actorId reason cs.byMergeOrder cs).run
        (rollbackStep fingerprint) w with
    | mk result w₁ =>
    cases result with
    | error e =>
      rw [Prog.run_bind_error _ hrun, List.append_nil, ← hwrites]
      constructor
      · intro h e' w' hrun'
        rw [hrun] at hrun'
        obtain ⟨-, rfl⟩ := Prod.mk.inj hrun'
        exact h e w₁ rfl
      · intro h e' w' hrun'
        obtain ⟨-, rfl⟩ := Prod.mk.inj hrun'
        exact h e w₁ hrun
    | ok planned =>
      have hw₁ : w₁.store.WellFormed := by
        have hwell := (Prog.run_invariant (rollbackStep fingerprint)
          (I := fun t : RollbackWorld => t.store.WellFormed)
          (fun op t ht => (kept_rollbackStep ht op).1)
          (rollbackWrites actorId reason cs.byMergeOrder cs) hw).2
        rw [hrun] at hwell
        exact hwell
      obtain ⟨hevents, hend⟩ := @run_planned fingerprint w₁ cs.id reason _
        (reportRollback deliveryId idempotencyKey reason actorId cs.byMergeOrder false planned)
        hw₁ (planned_of_rollbackWrites hw hstrip hrun)
      rw [Prog.run_bind_ok _ hrun]
      refine iff_of_true (fun e w' hrun' => ?_) fun event hevent => ?_
      · rw [hrun'] at hend
        exact hend
      · rcases List.mem_append.mp hevent with hevent | hevent
        · exact hwrites.mp (fun e w' hrun' => by rw [hrun] at hrun'; cases hrun') event hevent
        · exact hevents event hevent

/-- The ChangeSet of a delivery. -/
def changeSetOf (st : ChangeSetStore) (deliveryId : UUID) : Option ChangeSet :=
  (st.getByIdempotencyKey (deliveryChangeSetKey deliveryId)).map Prod.fst

theorem get_of_changeSetOf {st : ChangeSetStore} {deliveryId : UUID}
    (h : changeSetOf st deliveryId = some cs) : st.get cs.id = some cs := by
  obtain ⟨⟨found, print⟩, hfound, rfl⟩ := Option.map_eq_some_iff.mp h
  obtain ⟨entry, -, hrest⟩ := Option.bind_eq_some_iff.mp hfound
  obtain ⟨cs', hget, hpair⟩ := Option.bind_eq_some_iff.mp hrest
  obtain ⟨rfl, -⟩ := Prod.mk.inj (Option.some.inj hpair)
  exact (ChangeSetStore.mem_of_get hget).2 ▸ hget

theorem acceptRollback_ok {directory : UUID → Option RollbackActor} {deliveryId : UUID}
    {command : RequestChangeSetRollbackCommand} {found : Option ChangeSet} {actor : RollbackActor}
    (h : acceptRollback directory deliveryId command reason found = .ok (cs, actor)) :
    found = some cs ∧ cs.id = command.changeSetId ∧
      authorizedActor directory command cs = .ok actor := by
  unfold acceptRollback at h
  split at h
  · cases h
  · split_ifs at h with hid hrunning
    · obtain ⟨actor', -, h⟩ := Fallible.bind_ok h
      cases h
    · obtain ⟨actor', hactor, h⟩ := Fallible.bind_ok h
      obtain ⟨rfl, rfl⟩ := Prod.mk.inj (Except.ok.inj h)
      exact ⟨rfl, not_not.mp hid, hactor⟩

theorem request_run {directory : UUID → Option RollbackActor} {deliveryId : UUID}
    {command : RequestChangeSetRollbackCommand} {idempotencyKey : String}
    (hkey : isBlank idempotencyKey = false) (hreason : strip command.reason ≠ "") :
    requestIn fingerprint directory deliveryId command idempotencyKey w =
      (requestFor directory deliveryId command idempotencyKey (strip command.reason)
        (changeSetOf w.store deliveryId)).run (rollbackStep fingerprint) w ∧
    (request directory deliveryId command idempotencyKey).events (rollbackStep fingerprint) w =
      (.getByIdempotencyKey (deliveryChangeSetKey deliveryId), w) ::
        (requestFor directory deliveryId command idempotencyKey (strip command.reason)
          (changeSetOf w.store deliveryId)).events (rollbackStep fingerprint) w := by
  have hnot : ¬ isBlank idempotencyKey = true := by simp [hkey]
  rw [requestIn, request, if_neg hnot, if_neg hreason]
  exact ⟨rfl, rfl⟩

/-- **A request** is all or nothing exactly when what is in the way of its writes does no harm. -/
theorem settled_request_iff (directory : UUID → Option RollbackActor) (deliveryId : UUID)
    (command : RequestChangeSetRollbackCommand) (idempotencyKey : String)
    (hw : w.store.WellFormed) (hlanded : w.landed = []) :
    (∀ e w', requestIn fingerprint directory deliveryId command idempotencyKey w = (.error e, w') →
        Settled command.changeSetId (strip command.reason) w') ↔
      ∀ event ∈ (request directory deliveryId command idempotencyKey).events
        (rollbackStep fingerprint) w,
        Harmless fingerprint command.changeSetId (strip command.reason) event := by
  have hnothing : Settled command.changeSetId (strip command.reason) w := by
    rintro ⟨cs, c, decision, -, hmem, -⟩
    rw [hlanded] at hmem
    cases hmem
  by_cases hkey : isBlank idempotencyKey = true
  · rw [requestIn, request, if_pos hkey]
    refine iff_of_true (fun e w' h => ?_) fun event hevent => absurd hevent List.not_mem_nil
    obtain ⟨-, rfl⟩ := Prod.mk.inj h
    exact hnothing
  by_cases hblank : strip command.reason = ""
  · rw [requestIn, request, if_neg hkey, if_pos hblank]
    refine iff_of_true (fun e w' h => ?_) fun event hevent => absurd hevent List.not_mem_nil
    obtain ⟨-, rfl⟩ := Prod.mk.inj h
    exact hnothing
  obtain ⟨hrun, hevents⟩ := @request_run fingerprint w directory deliveryId command idempotencyKey
    (by simpa using hkey) hblank
  have hread : Harmless fingerprint command.changeSetId (strip command.reason)
      (.getByIdempotencyKey (deliveryChangeSetKey deliveryId), w) := trivial
  rw [hrun, hevents, List.forall_mem_cons, and_iff_right hread, requestFor]
  cases haccept : acceptRollback directory deliveryId command (strip command.reason)
      (changeSetOf w.store deliveryId) with
  | error e =>
    refine iff_of_true (fun e' w' h => ?_) fun event hevent => absurd hevent List.not_mem_nil
    obtain ⟨-, rfl⟩ := Prod.mk.inj h
    exact hnothing
  | ok pair =>
    obtain ⟨cs, actor⟩ := pair
    obtain ⟨hfound, hid, -⟩ := acceptRollback_ok haccept
    rw [← hid]
    refine settled_rollBack_iff hw (get_of_changeSetOf hfound) (strip_strip _) ?_
    rw [isBlank, strip_strip, strip_strip]
    simpa using hblank

end

/-! ## Repeats -/

/-- The ChangeSet holds the whole rollback: its last plan is the one of the rollback, and so is the
latest decision for each candidate's head. -/
def RollbackRecorded (st : ChangeSetStore) (deliveryId actorId : UUID) (reason : String) : Prop :=
  ∃ cs, changeSetOf st deliveryId = some cs ∧ cs.replaying reason = true ∧
    ∀ candidate ∈ cs.repositories, cs.recorded actorId reason candidate = true

/-- The request added no decision, no plan and no audit event. -/
def AddsNothing (w w' : RollbackWorld) : Prop := w'.landed = w.landed ∧ w'.events = w.events

section

variable {fingerprint : PrepareChangeSetCommand → String} {w w' : RollbackWorld}
  {deliveryId actorId : UUID} {reason : String} {candidates : List RepositoryDelivery}
  {cs : ChangeSet} {wrote : Bool}

theorem landed_run {α : Type} (p : RollbackCall α) (hw : w.store.WellFormed) :
    w.landed.length ≤ (p.run (rollbackStep fingerprint) w).2.landed.length := by
  refine (Prog.run_invariant (rollbackStep fingerprint)
    (I := fun t : RollbackWorld => t.store.WellFormed ∧ w.landed.length ≤ t.landed.length)
    (fun op t ht => ⟨(kept_rollbackStep ht.1 op).1, ?_⟩) p ⟨hw, le_rfl⟩).2.2
  cases op with
  | getByIdempotencyKey key => exact ht.2
  | write write =>
    show w.landed.length ≤ (t.perform fingerprint write).2.landed.length
    rcases @perform_cases fingerprint t ht.1 write with ⟨e, h⟩ | ⟨read, updated, h⟩
    · rw [h]
      exact ht.2
    · have hlength : (t.landed ++ [write]).length = t.landed.length + 1 := by simp
      rw [h.performed]
      show w.landed.length ≤ (t.landed ++ [write]).length
      omega
  | append event =>
    have hlanded : (t.audit fingerprint event).2.landed = t.landed := by
      rw [RollbackWorld.audit]
      split_ifs <;> rfl
    show w.landed.length ≤ (t.audit fingerprint event).2.landed.length
    rw [hlanded]
    exact ht.2

theorem lands_of_perform {write : RollbackWrite} {updated : ChangeSet}
    (hw : w.store.WellFormed) (h : w.perform fingerprint write = (.ok updated, w')) :
    ∃ read, Lands fingerprint w write read updated ∧
      w' = { w.leave ((w.foundStore fingerprint write).write updated) with
        landed := w.landed ++ [write] } := by
  rcases @perform_cases fingerprint w hw write with ⟨e, hfails⟩ | ⟨read, updated', hlands⟩
  · rw [h] at hfails
    cases hfails
  · have hperformed := hlands.performed
    rw [h] at hperformed
    obtain ⟨hupdated, rfl⟩ := Prod.mk.inj hperformed
    obtain rfl := Except.ok.inj hupdated
    exact ⟨read, hlands, rfl⟩

theorem recordDecisions_of_recorded
    (h : ∀ candidate ∈ candidates, cs.recorded actorId reason candidate = true) :
    recordDecisions actorId reason candidates cs wrote = pure (cs, wrote) := by
  induction candidates with
  | nil => rfl
  | cons candidate rest ih =>
    rw [recordDecisions, if_pos (h candidate List.mem_cons_self)]
    exact ih fun c hc => h c (List.mem_cons_of_mem _ hc)

theorem recorded_of_landed (hw : w.store.WellFormed) {decided : ChangeSet × Bool}
    (h : (recordDecisions actorId reason candidates cs wrote).run (rollbackStep fingerprint) w =
      (.ok decided, w')) (hlanded : w'.landed.length = w.landed.length) :
    ∀ candidate ∈ candidates, cs.recorded actorId reason candidate = true := by
  induction candidates with
  | nil => exact fun _ hc => absurd hc List.not_mem_nil
  | cons candidate rest ih =>
    rw [recordDecisions] at h
    split_ifs at h with hrecorded
    · exact List.forall_mem_cons.mpr ⟨hrecorded, ih h⟩
    · -- Here a decision lands.
      exfalso
      obtain ⟨updated, t, hwrite, hrest⟩ := Prog.exists_of_run_bind _ h
      obtain ⟨read, hlands, ht⟩ := lands_of_perform hw hwrite
      have hwell : t.store.WellFormed := by
        rw [ht]
        exact hlands.wellFormed hw
      have hmore := @landed_run fingerprint t _
        (recordDecisions actorId reason rest updated true) hwell
      have hone : t.landed.length = w.landed.length + 1 := by simp [ht]
      rw [hrest] at hmore
      have hmore : t.landed.length ≤ w'.landed.length := hmore
      omega

theorem rollBack_of_recorded {idempotencyKey : String} (hreplaying : cs.replaying reason = true)
    (hrecorded : ∀ candidate ∈ cs.repositories, cs.recorded actorId reason candidate = true) :
    ∃ plan, rollBack deliveryId idempotencyKey reason actorId cs =
      pure (rollbackView deliveryId cs.byMergeOrder true cs plan) := by
  obtain ⟨plan, hlast, -⟩ := (Option.any_eq_true _ _).mp hreplaying
  have hnothing : recordDecisions actorId reason cs.byMergeOrder cs false = pure (cs, false) :=
    recordDecisions_of_recorded fun candidate hcandidate =>
      hrecorded candidate ((List.perm_insertionSort _ _).mem_iff.mp hcandidate)
  refine ⟨plan, ?_⟩
  rw [rollBack, hnothing, hreplaying]
  show reportRollback deliveryId idempotencyKey reason actorId cs.byMergeOrder true cs = _
  rw [reportRollback, hlast]
  rfl

/-- **An accepted repeat** adds nothing exactly when the ChangeSet holds the whole rollback. -/
theorem addsNothing_rollBack_iff {idempotencyKey : String} (hw : w.store.WellFormed)
    {view : ChangeSetRollbackView}
    (h : (rollBack deliveryId idempotencyKey reason actorId cs).run (rollbackStep fingerprint) w =
      (.ok view, w')) :
    AddsNothing w w' ↔ cs.replaying reason = true ∧
      ∀ candidate ∈ cs.repositories, cs.recorded actorId reason candidate = true := by
  have hmem (candidate : RepositoryDelivery) :
      candidate ∈ cs.byMergeOrder ↔ candidate ∈ cs.repositories :=
    (List.perm_insertionSort _ _).mem_iff
  constructor
  · rintro ⟨hlanded, -⟩
    obtain ⟨⟨decided, wrote⟩, t, hdecided, hrest⟩ := Prog.exists_of_run_bind _ h
    obtain ⟨planned, t', hplanned, hreport⟩ := Prog.exists_of_run_bind _ hrest
    have hwell : t.store.WellFormed ∧ t'.store.WellFormed := by
      have hinvariant {α : Type} (p : RollbackCall α) {t : RollbackWorld}
          (ht : t.store.WellFormed) : (p.run (rollbackStep fingerprint) t).2.store.WellFormed :=
        (Prog.run_invariant (rollbackStep fingerprint)
          (I := fun t : RollbackWorld => t.store.WellFormed)
          (fun op t ht => (kept_rollbackStep ht op).1) p ht).2
      have ht := hinvariant (recordDecisions actorId reason cs.byMergeOrder cs false) hw
      rw [hdecided] at ht
      have ht' := hinvariant (planRollback (cs.replaying reason) reason decided) ht
      rw [hplanned] at ht'
      exact ⟨ht, ht'⟩
    have hfirst := @landed_run fingerprint w _
      (recordDecisions actorId reason cs.byMergeOrder cs false) hw
    have hsecond := @landed_run fingerprint t _
      (planRollback (cs.replaying reason) reason decided) hwell.1
    have hthird := @landed_run fingerprint t' _ (reportRollback deliveryId idempotencyKey reason
      actorId cs.byMergeOrder (cs.replaying reason && !wrote) planned) hwell.2
    rw [hdecided] at hfirst
    rw [hplanned] at hsecond
    rw [hreport] at hthird
    have hfirst : w.landed.length ≤ t.landed.length := hfirst
    have hsecond : t.landed.length ≤ t'.landed.length := hsecond
    have hthird : t'.landed.length ≤ w'.landed.length := hthird
    have hend : w'.landed.length = w.landed.length := by rw [hlanded]
    refine ⟨?_, fun candidate hcandidate => ?_⟩
    · cases hreplaying : cs.replaying reason with
      | true => rfl
      | false =>
        rw [hreplaying] at hplanned
        have hplanned : t.perform fingerprint (.planRecovery (rollbackPlan decided.id reason)) =
            (.ok planned, t') := hplanned
        obtain ⟨read, -, ht'⟩ := lands_of_perform hwell.1 hplanned
        have hone : t'.landed.length = t.landed.length + 1 := by simp [ht']
        omega
    · exact recorded_of_landed hw hdecided (by omega) candidate ((hmem candidate).mpr hcandidate)
  · rintro ⟨hreplaying, hrecorded⟩
    obtain ⟨plan, hpure⟩ := @rollBack_of_recorded deliveryId actorId reason cs idempotencyKey
      hreplaying hrecorded
    rw [hpure] at h
    obtain ⟨-, rfl⟩ := Prod.mk.inj h
    exact ⟨rfl, rfl⟩

end

/-! ## Undisturbed requests -/

theorem latestDecision_recordGovernance {cs cs' : ChangeSet} {decision : GovernanceDecision}
    (h : cs.recordGovernance decision = .ok cs') (repositoryId : UUID) (headSha : String) :
    cs'.latestDecision repositoryId headSha =
      if decision.repositoryId = repositoryId ∧ decision.headSha = headSha then some decision
      else cs.latestDecision repositoryId headSha := by
  have hdecisions : cs'.governanceDecisions =
      (cs.governanceDecisions.filter fun item => !(item.repositoryId == decision.repositoryId &&
        item.headSha == decision.headSha)) ++ [decision] := by
    unfold ChangeSet.recordGovernance at h
    split at h
    · cases h
    · split_ifs at h
      rw [← Except.ok.inj h]
  rw [ChangeSet.latestDecision, hdecisions, List.reverse_append, List.reverse_singleton,
    List.singleton_append, List.find?_cons, ← List.filter_reverse, List.find?_filter]
  by_cases hsame : decision.repositoryId = repositoryId ∧ decision.headSha = headSha
  · rw [if_pos hsame, hsame.1, hsame.2]
    simp
  · rw [if_neg hsame]
    have hother : (decision.repositoryId == repositoryId && decision.headSha == headSha) = false := by
      simpa using hsame
    rw [hother, ChangeSet.latestDecision]
    refine congrArg (fun p => List.find? p cs.governanceDecisions.reverse) ?_
    funext item
    by_cases hitem : item.repositoryId = repositoryId ∧ item.headSha = headSha
    · have hkept : ¬ (repositoryId = decision.repositoryId ∧ headSha = decision.headSha) :=
        fun heq => hsame ⟨heq.1.symm, heq.2.symm⟩
      simp [hitem.1, hitem.2, not_and_or.mp hkept]
    · have hnot : (item.repositoryId == repositoryId && item.headSha == headSha) = false := by
        simpa using hitem
      simp [hnot]

theorem normalize_commitSha (candidate : RepositoryDelivery) :
    normalize (normalize candidate.commitSha) = normalize candidate.commitSha := by
  refine normalize_eq_self ?_
  have hfull := candidate.shas_full.1
  rw [isFullSha, Bool.and_eq_true] at hfull
  exact List.all_eq_true.mp hfull.2

section

variable {fingerprint : PrepareChangeSetCommand → String} {w w' : RollbackWorld}
  {deliveryId actorId : UUID} {reason : String} {candidates : List RepositoryDelivery}
  {cs : ChangeSet} {wrote : Bool}

/-- Nobody will disturb, and the ChangeSet of the delivery is the one last seen. -/
structure Undisturbed (deliveryId : UUID) (w : RollbackWorld) (cs : ChangeSet) : Prop where
  quiet : w.upcoming = []
  wellFormed : w.store.WellFormed
  stored : changeSetOf w.store deliveryId = some cs

theorem Undisturbed.write (h : Undisturbed deliveryId w cs) {write : RollbackWrite}
    {updated : ChangeSet} (hid : write.call.changeSetId = cs.id)
    (hperform : w.perform fingerprint write = (.ok updated, w')) :
    Undisturbed deliveryId w' updated ∧ ∃ nextId, write.updated nextId cs = .ok updated := by
  obtain ⟨read, hlands, rfl⟩ := lands_of_perform h.wellFormed hperform
  have hinterruption : w.interruption = {} := by rw [RollbackWorld.interruption, h.quiet]; rfl
  have hread : w.readStore fingerprint = w.store := by
    rw [RollbackWorld.readStore, hinterruption]
    rfl
  obtain ⟨⟨found, print⟩, hfound, rfl⟩ := Option.map_eq_some_iff.mp h.stored
  obtain ⟨entry, hentry, hrest⟩ := Option.bind_eq_some_iff.mp hfound
  obtain ⟨stored, hget, hpair⟩ := Option.bind_eq_some_iff.mp hrest
  obtain ⟨rfl, rfl⟩ := Prod.mk.inj (Option.some.inj hpair)
  have hname : stored.id = entry.2.1 := (ChangeSetStore.mem_of_get hget).2
  have hsame : read = stored := by
    have hstored := hlands.read
    rw [hread, hid, hname, hget] at hstored
    exact (Option.some.inj hstored).symm
  subst hsame
  refine ⟨⟨?_, hlands.wellFormed h.wellFormed, ?_⟩, _, hlands.computed⟩
  · show w.upcoming.tail = []
    rw [h.quiet]
    rfl
  · have hkeys : ((w.foundStore fingerprint write).write updated).keys = w.store.keys := by
      show (w.foundStore fingerprint write).keys = w.store.keys
      rw [RollbackWorld.foundStore, hread, hinterruption]
      rfl
    have hwritten : ((w.foundStore fingerprint write).write updated).get entry.2.1 =
        some updated := by
      rw [hlands.get, hid, hname]
      exact if_pos rfl
    show (((w.foundStore fingerprint write).write updated).getByIdempotencyKey
      (deliveryChangeSetKey deliveryId)).map Prod.fst = some updated
    rw [ChangeSetStore.getByIdempotencyKey, hkeys, hentry]
    show ((((w.foundStore fingerprint write).write updated).get entry.2.1).bind fun cs =>
      some (cs, entry.2.2)).map Prod.fst = some updated
    rw [hwritten]
    rfl

/-- What the decisions of a rollback leave of the ChangeSet. -/
structure Decided (actorId : UUID) (reason : String) (cs cs' : ChangeSet) : Prop where
  id_eq : cs'.id = cs.id
  organizationId_eq : cs'.organizationId = cs.organizationId
  repositories_eq : cs'.repositories = cs.repositories
  plans_eq : cs'.recoveryPlans = cs.recoveryPlans
  kept : ∀ candidate, cs.recorded actorId reason candidate = true →
    cs'.recorded actorId reason candidate = true

theorem Decided.trans {a b c : ChangeSet} (hab : Decided actorId reason a b)
    (hbc : Decided actorId reason b c) : Decided actorId reason a c where
  id_eq := hbc.id_eq.trans hab.id_eq
  organizationId_eq := hbc.organizationId_eq.trans hab.organizationId_eq
  repositories_eq := hbc.repositories_eq.trans hab.repositories_eq
  plans_eq := hbc.plans_eq.trans hab.plans_eq
  kept candidate h := hbc.kept candidate (hab.kept candidate h)

theorem decided_of_updated {nextId : UUID} {cs' : ChangeSet} {candidate : RepositoryDelivery}
    (hstrip : strip reason = reason)
    (h : RollbackWrite.updated nextId cs (.recordGovernanceDecision
      (rollbackDecision cs.id actorId reason candidate)) = .ok cs') :
    Decided actorId reason cs cs' ∧ cs'.recorded actorId reason candidate = true := by
  obtain ⟨decision, hdecision, h⟩ := Fallible.bind_ok h
  obtain ⟨hrepository, hhead, hkind, hactor, hreason⟩ :
      decision.repositoryId = candidate.repositoryId ∧
        decision.headSha = normalize candidate.commitSha ∧
        decision.decision = .rollbackRequired ∧ decision.decidedByAgentId = actorId ∧
        decision.reason = reason := by
    unfold GovernanceDecision.create at hdecision
    split_ifs at hdecision
    rw [← Except.ok.inj hdecision]
    exact ⟨rfl, normalize_commitSha candidate, rfl, rfl, hstrip⟩
  have hrollback : (decide (decision.decision = .rollbackRequired) &&
      decision.decidedByAgentId == actorId && decision.reason == reason) = true := by
    simp [hkind, hactor, hreason]
  have hlatest := latestDecision_recordGovernance h
  have hrecorded (other : RepositoryDelivery) (hother : cs.recorded actorId reason other = true ∨
      (decision.repositoryId = other.repositoryId ∧
        decision.headSha = normalize other.commitSha)) :
      cs'.recorded actorId reason other = true := by
    rw [ChangeSet.recorded, hlatest]
    split_ifs with hsame
    · exact hrollback
    · exact hother.resolve_right hsame
  obtain ⟨hrepositories, -, hid, hplans, -⟩ := ChangeSet.recordGovernance_ok h
  have horganization : cs'.organizationId = cs.organizationId := by
    unfold ChangeSet.recordGovernance at h
    split at h
    · cases h
    · split_ifs at h
      rw [← Except.ok.inj h]
  exact ⟨⟨hid, horganization, hrepositories, hplans, fun other hother => hrecorded other (.inl hother)⟩,
    hrecorded candidate (.inr ⟨hrepository, hhead⟩)⟩

/-- **The loop** records every decision. -/
theorem decided_of_run (hstrip : strip reason = reason) (h : Undisturbed deliveryId w cs)
    {decided : ChangeSet} {wrote' : Bool}
    (hrun : (recordDecisions actorId reason candidates cs wrote).run (rollbackStep fingerprint) w =
      (.ok (decided, wrote'), w')) :
    Undisturbed deliveryId w' decided ∧ Decided actorId reason cs decided ∧
      ∀ candidate ∈ candidates, decided.recorded actorId reason candidate = true := by
  induction candidates generalizing cs wrote w with
  | nil =>
    obtain ⟨hpair, rfl⟩ := Prod.mk.inj hrun
    obtain ⟨rfl, -⟩ := Prod.mk.inj (Except.ok.inj hpair)
    exact ⟨h, ⟨rfl, rfl, rfl, rfl, fun _ hc => hc⟩, fun _ hc => absurd hc List.not_mem_nil⟩
  | cons candidate rest ih =>
    rw [recordDecisions] at hrun
    split_ifs at hrun with hrecorded
    · obtain ⟨hend, hdecided, hall⟩ := ih h hrun
      exact ⟨hend, hdecided, List.forall_mem_cons.mpr ⟨hdecided.kept _ hrecorded, hall⟩⟩
    · obtain ⟨updated, t, hwrite, hrest⟩ := Prog.exists_of_run_bind _ hrun
      obtain ⟨ht, nextId, hupdated⟩ := h.write rfl hwrite
      obtain ⟨hfirst, hcandidate⟩ := decided_of_updated hstrip hupdated
      obtain ⟨hend, hdecided, hall⟩ := ih ht hrest
      exact ⟨hend, hfirst.trans hdecided,
        List.forall_mem_cons.mpr ⟨hdecided.kept _ hcandidate, hall⟩⟩

/-- **An undisturbed request** that succeeds leaves the whole rollback. -/
theorem recorded_of_undisturbed {idempotencyKey : String} (hstrip : strip reason = reason)
    (h : Undisturbed deliveryId w cs) {view : ChangeSetRollbackView}
    (hrun : (rollBack deliveryId idempotencyKey reason actorId cs).run
      (rollbackStep fingerprint) w = (.ok view, w')) :
    ∃ planned, Undisturbed deliveryId w' planned ∧ planned.id = cs.id ∧
      planned.organizationId = cs.organizationId ∧ planned.replaying reason = true ∧
      ∀ candidate ∈ planned.repositories, planned.recorded actorId reason candidate = true := by
  obtain ⟨⟨decided, wrote⟩, t, hdecided, hrest⟩ := Prog.exists_of_run_bind _ hrun
  obtain ⟨planned, t', hplanned, hreport⟩ := Prog.exists_of_run_bind _ hrest
  obtain ⟨ht, hloop, hall⟩ := decided_of_run hstrip h hdecided
  have hall (candidate : RepositoryDelivery) (hcandidate : candidate ∈ decided.repositories) :
      decided.recorded actorId reason candidate = true := by
    refine hall candidate ((List.perm_insertionSort _ _).mem_iff.mpr ?_)
    rw [← hloop.repositories_eq]
    exact hcandidate
  have hleft : Undisturbed deliveryId t' planned ∧ planned.id = cs.id ∧
      planned.organizationId = cs.organizationId ∧ planned.replaying reason = true ∧
      ∀ candidate ∈ planned.repositories, planned.recorded actorId reason candidate = true := by
    cases hreplaying : cs.replaying reason with
    | true =>
      rw [hreplaying] at hplanned
      obtain ⟨hsame, rfl⟩ := Prod.mk.inj hplanned
      obtain rfl := Except.ok.inj hsame
      refine ⟨ht, hloop.id_eq, hloop.organizationId_eq, ?_, hall⟩
      rw [ChangeSet.replaying, hloop.plans_eq]
      exact hreplaying
    | false =>
      rw [hreplaying] at hplanned
      obtain ⟨ht', nextId, hupdated⟩ := ht.write rfl hplanned
      have hupdated := Except.ok.inj hupdated
      subst hupdated
      refine ⟨ht', hloop.id_eq, hloop.organizationId_eq, ?_, hall⟩
      rw [ChangeSet.replaying, ChangeSet.addRecovery, List.getLast?_concat]
      show (true && strip reason == reason) = true
      rw [hstrip]
      simp
  -- The audit event changes no ChangeSet.
  obtain ⟨hend, hrest⟩ := hleft
  refine ⟨planned, ?_, hrest⟩
  rw [reportRollback] at hreport
  split at hreport
  · cases congrArg Prod.fst hreport
  · split_ifs at hreport
    · obtain ⟨-, rfl⟩ := Prod.mk.inj hreport
      exact hend
    · obtain ⟨⟨⟩, t'', haudit, hpure⟩ := Prog.exists_of_run_bind _ hreport
      obtain ⟨-, rfl⟩ := Prod.mk.inj hpure
      have hinterruption : t'.interruption = {} := by
        rw [RollbackWorld.interruption, hend.quiet]
        rfl
      have hread : t'.readStore fingerprint = t'.store := by
        rw [RollbackWorld.readStore, hinterruption]
        rfl
      have haudit : t'.audit fingerprint _ = (.ok (), t'') := haudit
      rw [RollbackWorld.audit, hinterruption, hread] at haudit
      obtain ⟨-, rfl⟩ := Prod.mk.inj haudit
      refine ⟨?_, hend.wellFormed, hend.stored⟩
      show t'.upcoming.tail = []
      rw [hend.quiet]
      rfl

theorem requestIn_ok {directory : UUID → Option RollbackActor}
    {command : RequestChangeSetRollbackCommand} {idempotencyKey : String}
    {view : ChangeSetRollbackView}
    (h : requestIn fingerprint directory deliveryId command idempotencyKey w = (.ok view, w')) :
    isBlank idempotencyKey = false ∧ strip command.reason ≠ "" ∧ ∃ cs actor,
      acceptRollback directory deliveryId command (strip command.reason)
        (changeSetOf w.store deliveryId) = .ok (cs, actor) ∧
      (rollBack deliveryId idempotencyKey (strip command.reason) actor.id cs).run
        (rollbackStep fingerprint) w = (.ok view, w') := by
  by_cases hkey : isBlank idempotencyKey = true
  · rw [requestIn, request, if_pos hkey] at h
    cases congrArg Prod.fst h
  by_cases hblank : strip command.reason = ""
  · rw [requestIn, request, if_neg hkey, if_pos hblank] at h
    cases congrArg Prod.fst h
  have hkey : isBlank idempotencyKey = false := by simpa using hkey
  rw [(request_run hkey hblank).1, requestFor] at h
  cases haccept : acceptRollback directory deliveryId command (strip command.reason)
      (changeSetOf w.store deliveryId) with
  | error e =>
    rw [haccept] at h
    cases congrArg Prod.fst h
  | ok pair =>
    rw [haccept] at h
    exact ⟨hkey, hblank, pair.1, pair.2, rfl, h⟩

end

/-- A world in which the service ran before, and in which others are going to work. -/
def rollbackWorld (fingerprint : PrepareChangeSetCommand → String) (setup : List DeliveryOp)
    (events : List RollbackEvent) (upcoming : List Interruption) : RollbackWorld where
  store := others fingerprint {} setup
  events := events
  upcoming := upcoming

/-- The same world for a request to come. -/
def RollbackWorld.again (w : RollbackWorld) (upcoming : List Interruption) : RollbackWorld :=
  { w with upcoming := upcoming, landed := [] }

/-- The delivery 5 has published one candidate. -/
def publishedSetup : List DeliveryOp := [.prepare samplePrepare (deliveryChangeSetKey 5)]

/-- Everyone is a leader of the organization. -/
def rollbackLeaders (id : UUID) : Option RollbackActor :=
  some { id := id, organizationId := 1, role := .organizationLeader, status := .active }

/-- The request to roll it back. -/
def sampleRollback : RequestChangeSetRollbackCommand where
  changeSetId := 0
  reason := "bad release"
  requestedByAgentId := 9

/-- The request answered in a world that others disturb. -/
def sampleRequest (upcoming : List Interruption) :
    Except RollbackRaised ChangeSetRollbackView × RollbackWorld :=
  requestIn (fun _ => "") rollbackLeaders 5 sampleRollback "key"
    (rollbackWorld (fun _ => "") publishedSetup [] upcoming)

/-- Undisturbed, it succeeds. -/
def undisturbedOutcome : {outcome : Except RollbackRaised ChangeSetRollbackView × RollbackWorld //
    outcome.1.isOk = true} :=
  ⟨sampleRequest [], by decide +kernel⟩

/-- The pull request is observed between the read and the compare-and-set of the recovery plan. -/
def pullRequestObserved : List Interruption :=
  [{}, { between := [.change (.observePullRequest
    ⟨0, 10, 1, "url", "aaaaaaaaaaaaaaaaaaaaaaaaaaaaaaaaaaaaaaaa"⟩)] }]

/-- What is left when the compare-and-set of the plan is refused: the decision, and no plan. -/
def disturbedOutcome : {outcome : Except RollbackRaised ChangeSetRollbackView × RollbackWorld //
    outcome.1 = .error (.delivery (.deliveryConflict "ChangeSet version changed")) ∧
      outcome.2.landed =
        [.recordGovernanceDecision (rollbackDecision 0 9 "bad release" sampleCandidate)] ∧
      (outcome.2.store.get 0).map (fun cs => cs.recoveryPlans) = some [] ∧
      (outcome.2.store.get 0).map (fun cs => cs.governanceDecisions.map Except.ok) =
        some [GovernanceDecision.create (rollbackDecision 0 9 "bad release" sampleCandidate)]} :=
  ⟨sampleRequest pullRequestObserved, by decide +kernel⟩

end Delivery
end RepoMesh
