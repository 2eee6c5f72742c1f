/-
# Rollbacks in progress

When an incomplete recovery plan keeps its ChangeSet in front of the recovery saga and keeps the
merge gate shut. Every mutator writes the status from its own facts, and the gate looks at the
last plan only; the calls that lose a rollback are named here.
-/
import RepoMesh.Delivery.WellFormed

namespace RepoMesh
namespace Delivery

open Text Fallible

namespace ChangeSet

/-- Some recovery plan has an action that is neither `SUCCEEDED` nor `SKIPPED`. -/
def recovering (cs : ChangeSet) : Bool := cs.recoveryPlans.any RecoveryPlan.incomplete

/-- The statuses the saga works on. -/
def inRecovery (cs : ChangeSet) : Bool :=
  cs.status = .compensating ∨ cs.status = .manualIntervention

/-- The invariant of a rollback: while any plan is incomplete, the status says so and the last
plan, the one the gate and the saga look at, is incomplete as well. -/
def RollbackHeld (cs : ChangeSet) : Prop :=
  cs.recovering = true →
    cs.inRecovery = true ∧ ∃ p, cs.recoveryPlans.getLast? = some p ∧ p.incomplete = true

/-- The call changes the candidates of the ChangeSet: a mutator accepts and changes one, or an
append brings new ones. -/
def ChangesCandidates (cs : ChangeSet) (op : ChangeSetOp) : Prop :=
  (∃ r c d d', op.candidateOp? = some (r, c) ∧ cs.UpstreamsMerged r c ∧
    cs.candidate? r = some d ∧ c.apply d = .ok d' ∧ d' ≠ d) ∨
  (∃ c key ds, op = .appendCandidates c key ∧ isBlank key = false ∧
    cs.freshCandidates c.candidates ≠ [] ∧
    cs.appendedRepositories (cs.freshCandidates c.candidates) = .ok ds ∧
    (repositoryIds ds).Nodup)

/-- The call completes one recovery plan while another one is incomplete. -/
def CompletesBesideAnother (cs : ChangeSet) (op : ChangeSetOp) : Prop :=
  ∃ c p p' q, op = .recordRecoveryAction c ∧ p ∈ cs.recoveryPlans ∧ p.id = c.recoveryPlanId ∧
    p.recordAction c.actionId c.status c.detail = .ok p' ∧ p'.incomplete = false ∧
    q ∈ cs.recoveryPlans ∧ q.id ≠ c.recoveryPlanId ∧ q.incomplete = true

/-- The calls that lose a rollback in progress. -/
def LosesRollback (cs : ChangeSet) (op : ChangeSetOp) : Prop :=
  cs.recovering = true ∧ (cs.ChangesCandidates op ∨ cs.CompletesBesideAnother op)

end ChangeSet

/-! ## Recovery plans -/

theorem recoveryStatus_of_incomplete {p : RecoveryPlan} (h : p.incomplete = true) :
    ChangeSet.recoveryStatus p = .compensating ∨
      ChangeSet.recoveryStatus p = .manualIntervention := by
  obtain ⟨a, ha, hdone⟩ := List.any_eq_true.mp h
  have hnot : ¬ p.actions.all (fun a => a.status.isDone) = true := by
    intro hall
    have hd := List.all_eq_true.mp hall a ha
    rw [hd] at hdone
    cases hdone
  unfold ChangeSet.recoveryStatus
  split_ifs with hf
  · exact Or.inr rfl
  · exact Or.inl rfl

theorem recoveryStatus_of_complete {p : RecoveryPlan} (h : p.incomplete = false) :
    ChangeSet.recoveryStatus p = .compensated := by
  have hdone : ∀ a ∈ p.actions, a.status.isDone = true := by
    intro a ha
    have hnot := List.any_eq_false.mp h a ha
    simpa using hnot
  have hfailed : ¬ p.actions.any (fun a => a.status = .failed) = true := by
    intro hany
    obtain ⟨a, ha, hs⟩ := List.any_eq_true.mp hany
    have hd := hdone a ha
    rw [of_decide_eq_true hs] at hd
    cases hd
  rw [ChangeSet.recoveryStatus, if_neg hfailed, if_pos (List.all_eq_true.mpr hdone)]

theorem record_of_done {a a' : RecoveryAction} {status : RecoveryActionStatus} {detail : String}
    (hdone : a.status.isDone = true) (h : a.record status detail = .ok a') : a' = a := by
  rw [RecoveryAction.record, if_pos hdone] at h
  split_ifs at h
  exact (Except.ok.inj h).symm

theorem recordAction_complete {p p' : RecoveryPlan} {actionId : UUID}
    {status : RecoveryActionStatus} {detail : String} (hp : p.incomplete = false)
    (h : p.recordAction actionId status detail = .ok p') : p'.incomplete = false := by
  unfold RecoveryPlan.recordAction at h
  split_ifs at h
  obtain ⟨actions, hmap, h⟩ := bind_ok h
  obtain rfl := Except.ok.inj h
  refine List.any_eq_false.mpr fun a' ha' => ?_
  obtain ⟨a, ha, hstep⟩ := forall₂_exists_left (mapM_ok hmap) ha'
  have hnot := List.any_eq_false.mp hp a ha
  have hdone : a.status.isDone = true := by simpa using hnot
  split_ifs at hstep
  · rw [record_of_done hdone hstep, hdone]
    simp
  · rw [← Except.ok.inj hstep]
    exact hnot

theorem recoveryPlan_incomplete (cs : ChangeSet) (c : PlanRecoveryCommand) (id : UUID) :
    (cs.recoveryPlan c id).incomplete = true := by
  have hpending : ∀ a ∈ cs.recoveryActions c (id + 1), a.status = .pending := by
    intro a ha
    unfold ChangeSet.recoveryActions at ha
    split_ifs at ha
    all_goals
      first
      | (rw [List.mem_singleton.mp ha])
      | (obtain ⟨i, hi, rfl⟩ := List.mem_mapIdx.mp ha; rfl)
  have hne : cs.recoveryActions c (id + 1) ≠ [] := by
    unfold ChangeSet.recoveryActions
    split_ifs <;> simp [List.mapIdx_eq_nil_iff]
  obtain ⟨a, ha⟩ := List.exists_mem_of_ne_nil _ hne
  exact List.any_eq_true.mpr ⟨a, ha, by rw [hpending a ha]; rfl⟩

/-! ## One call on one ChangeSet -/

theorem deliveryStatus_not_inRecovery (ds : List RepositoryDelivery) :
    deliveryStatus ds ≠ .compensating ∧ deliveryStatus ds ≠ .manualIntervention := by
  unfold deliveryStatus
  split_ifs <;> decide

theorem ChangeSetStep.changesCandidates {nextId : UUID} {cs cs' : ChangeSet} {op : ChangeSetOp}
    (hv : op.validate = .ok ()) (h : ChangeSetStep nextId cs cs' op) :
    cs.ChangesCandidates op ∨
      (cs'.repositories = cs.repositories ∧ ∃ c, op = .recordGovernanceDecision c ∧
        cs'.status = cs.status ∧ cs'.recoveryPlans = cs.recoveryPlans) ∨
      (∃ c, op = .planRecovery c ∧ cs' = cs.addRecovery (cs.recoveryPlan c nextId)) ∨
      (∃ c, op = .recordRecoveryAction c ∧
        cs.recordRecoveryAction c.recoveryPlanId c.actionId c.status c.detail = .ok cs') := by
  cases h with
  | @candidate _ r c ds call upstream step changed written =>
    refine Or.inl (Or.inl ?_)
    obtain ⟨d, hd, d', hstep, hne⟩ := forall₂_exists_ne step changed
    by_cases hr : d.repositoryId = r
    · exact ⟨r, c, d, d', call, upstream, ChangeSet.candidate?_eq_some.mpr ⟨hd, hr⟩,
        hstep.of_eq hr, hne⟩
    · exact absurd (hstep.of_ne hr) hne
  | @append c key ds fresh created written =>
    refine Or.inl (Or.inr ⟨c, key, ds, rfl, ?_, fresh, created, ?_⟩)
    · rw [ChangeSetOp.validate] at hv
      split_ifs at hv with hblank
      exact Bool.eq_false_iff.mpr hblank
    · have hnd := cs'.ids_nodup
      rw [(ChangeSet.appendRepositories_ok written).1, repositoryIds, List.map_append] at hnd
      exact (List.nodup_append.mp hnd).2.1
  | governance created written =>
    obtain ⟨hrepos, hstatus, -, hplans, -⟩ := ChangeSet.recordGovernance_ok written
    exact Or.inr (Or.inl ⟨hrepos, _, rfl, hstatus, hplans⟩)
  | revision written =>
    obtain ⟨⟨d, d', hd, hrev⟩, -⟩ := ChangeSet.recordCandidateRevision_ok written
    refine Or.inl (Or.inl ⟨_, _, d, d', rfl, trivial, hd, hrev, ?_⟩)
    intro heq
    exact (RepositoryDelivery.revise_ok hrev).2.2.1 (by rw [heq])
  | recovery written => exact Or.inr (Or.inr (Or.inl ⟨_, rfl, written⟩))
  | recoveryAction written => exact Or.inr (Or.inr (Or.inr ⟨_, rfl, written⟩))

theorem ChangeSetStep.of_changesCandidates {nextId : UUID} {cs cs' : ChangeSet} {op : ChangeSetOp}
    (hc : cs.ChangesCandidates op) (h : ChangeSetStep nextId cs cs' op) :
    cs'.recoveryPlans = cs.recoveryPlans ∧ cs'.inRecovery = false := by
  have hstatus : ∀ {ds : List RepositoryDelivery}, cs'.status = deliveryStatus ds →
      cs'.inRecovery = false := by
    intro ds hs
    simp [ChangeSet.inRecovery, hs, (deliveryStatus_not_inRecovery ds).1,
      (deliveryStatus_not_inRecovery ds).2]
  have hno : op.candidateOp? = none → (∀ c key, op ≠ .appendCandidates c key) → False := by
    rintro hnone happ
    rcases hc with ⟨r, c, d, d', hcall, -⟩ | ⟨c, key, ds, rfl, -⟩
    · rw [hnone] at hcall
      cases hcall
    · exact happ c key rfl
  cases h with
  | candidate call upstream step changed written =>
    obtain ⟨-, hs, -, hplans, -⟩ := ChangeSet.withRepositories_ok written
    exact ⟨hplans, hstatus hs⟩
  | append fresh created written =>
    obtain ⟨-, hs, -, hplans, -⟩ := ChangeSet.appendRepositories_ok written
    exact ⟨hplans, hstatus hs⟩
  | revision written =>
    obtain ⟨-, -, hs, -, hplans, -⟩ := ChangeSet.recordCandidateRevision_ok written
    exact ⟨hplans, by simp [ChangeSet.inRecovery, hs]⟩
  | governance created written => exact (hno rfl fun _ _ heq => by cases heq).elim
  | recovery written => exact (hno rfl fun _ _ heq => by cases heq).elim
  | recoveryAction written => exact (hno rfl fun _ _ heq => by cases heq).elim

theorem getLast?_of_recordAction {ps ps' : List RecoveryPlan} {planId actionId : UUID}
    {status : RecoveryActionStatus} {detail : String}
    (h : List.Forall₂ (fun p p' => (if p.id = planId then p.recordAction actionId status detail
      else .ok p) = .ok p') ps ps') {p : RecoveryPlan} (hp : ps.getLast? = some p) :
    ∃ p', ps'.getLast? = some p' ∧
      (if p.id = planId then p.recordAction actionId status detail else .ok p) = .ok p' := by
  induction h with
  | nil => cases hp
  | @cons a b as bs hab hrest ih =>
    cases hrest with
    | nil =>
      obtain rfl : a = p := by simpa using hp
      exact ⟨b, by simp, hab⟩
    | cons hab' hrest' =>
      rw [List.getLast?_cons_cons] at hp ⊢
      exact ih hp

theorem rollbackHeld_recordRecoveryAction {cs cs' : ChangeSet} {c : RecordRecoveryActionCommand}
    (hids : (cs.recoveryPlans.map (·.id)).Nodup) (hheld : cs.RollbackHeld)
    (hkeep : ¬ cs.LosesRollback (.recordRecoveryAction c))
    (h : cs.recordRecoveryAction c.recoveryPlanId c.actionId c.status c.detail = .ok cs') :
    cs'.RollbackHeld := by
  obtain ⟨hplans, ⟨active, hactive, hid, hstatus⟩, -⟩ := ChangeSet.recordRecoveryAction_ok h
  obtain ⟨p, hp, hstep⟩ := forall₂_exists_left hplans hactive
  have hpid : p.id = c.recoveryPlanId := by
    by_cases heq : p.id = c.recoveryPlanId
    · exact heq
    · rw [if_neg heq] at hstep
      rw [Except.ok.inj hstep, hid]
  rw [if_pos hpid] at hstep
  intro hrec
  obtain ⟨q', hq', hqinc⟩ := List.any_eq_true.mp hrec
  obtain ⟨q, hq, hqstep⟩ := forall₂_exists_left hplans hq'
  have hqold : q.incomplete = true := by
    by_cases hqid : q.id = c.recoveryPlanId
    · rw [if_pos hqid] at hqstep
      by_contra hcomplete
      rw [recordAction_complete (Bool.eq_false_iff.mpr hcomplete) hqstep] at hqinc
      cases hqinc
    · rw [if_neg hqid] at hqstep
      rw [Except.ok.inj hqstep]
      exact hqinc
  have hrecold : cs.recovering = true := List.any_eq_true.mpr ⟨q, hq, hqold⟩
  obtain ⟨-, last, hlast, hlastinc⟩ := hheld hrecold
  -- the plan recorded into is still incomplete, otherwise `q` is another one
  have hactinc : active.incomplete = true := by
    by_contra hcomplete
    have hcomplete := Bool.eq_false_iff.mpr hcomplete
    refine hkeep ⟨hrecold, Or.inr ⟨c, p, active, q, rfl, hp, hpid, hstep, hcomplete, hq, ?_,
      hqold⟩⟩
    intro hqid
    have hqp : q = p := List.inj_on_of_nodup_map hids hq hp (hqid.trans hpid.symm)
    rw [if_pos hqid, hqp, hstep] at hqstep
    rw [← Except.ok.inj hqstep, hcomplete] at hqinc
    cases hqinc
  refine ⟨?_, ?_⟩
  · rw [ChangeSet.inRecovery, hstatus, decide_eq_true_eq]
    exact recoveryStatus_of_incomplete hactinc
  · obtain ⟨last', hlast', hlstep⟩ := getLast?_of_recordAction hplans hlast
    refine ⟨last', hlast', ?_⟩
    by_cases hlid : last.id = c.recoveryPlanId
    · have hlp : last = p := List.inj_on_of_nodup_map hids (List.mem_of_getLast? hlast) hp
        (hlid.trans hpid.symm)
      rw [if_pos hlid, hlp, hstep] at hlstep
      rw [← Except.ok.inj hlstep]
      exact hactinc
    · rw [if_neg hlid] at hlstep
      rw [← Except.ok.inj hlstep]
      exact hlastinc

/-- **A held rollback survives every call that does not lose it.** -/
theorem ChangeSetStep.rollbackHeld {nextId : UUID} {cs cs' : ChangeSet} {op : ChangeSetOp}
    (hw : cs.WellFormed nextId) (hv : op.validate = .ok ()) (hheld : cs.RollbackHeld)
    (hkeep : ¬ cs.LosesRollback op) (h : ChangeSetStep nextId cs cs' op) : cs'.RollbackHeld := by
  rcases h.changesCandidates hv with hchange | ⟨-, c, -, hstatus, hplans⟩ | ⟨c, -, rfl⟩ |
    ⟨c, rfl, hrecord⟩
  · obtain ⟨hplans, -⟩ := h.of_changesCandidates hchange
    intro hrec
    rw [ChangeSet.recovering, hplans] at hrec
    exact absurd ⟨hrec, Or.inl hchange⟩ hkeep
  · rw [ChangeSet.RollbackHeld, ChangeSet.recovering, ChangeSet.inRecovery, hstatus, hplans]
    exact hheld
  · intro _
    refine ⟨rfl, _, ?_, recoveryPlan_incomplete cs c nextId⟩
    exact List.getLast?_concat
  · exact rollbackHeld_recordRecoveryAction hw.plan_ids hheld hkeep hrecord

/-! ## Calls that lose a rollback -/

theorem appendRepositories_of_fresh {cs : ChangeSet} {candidates : List RepositoryCandidateInput}
    {ds : List RepositoryDelivery}
    (hds : cs.appendedRepositories (cs.freshCandidates candidates) = .ok ds)
    (hnd : (repositoryIds ds).Nodup) : ∃ cs', cs.appendRepositories ds = .ok cs' := by
  have hids := repositoryIds_of_created (ChangeSet.appendedRepositories_ok hds).1
  have hnew : ∀ r ∈ repositoryIds ds, r ∉ repositoryIds cs.repositories := by
    intro r hr
    rw [hids] at hr
    obtain ⟨item, hitem, rfl⟩ := List.mem_map.mp hr
    simpa using (List.mem_filter.mp hitem).2
  have hknown : ¬ ds.any (fun d => (repositoryIds cs.repositories).contains d.repositoryId) = true := by
    intro hany
    obtain ⟨d, hd, hc⟩ := List.any_eq_true.mp hany
    exact hnew _ (List.mem_map.mpr ⟨d, hd, rfl⟩) (List.contains_iff_mem.mp hc)
  have hne : cs.repositories ++ ds ≠ [] := by simp [cs.nonempty]
  have hnd' : (repositoryIds (cs.repositories ++ ds)).Nodup := by
    rw [repositoryIds, List.map_append, List.nodup_append]
    exact ⟨cs.ids_nodup, hnd, fun a ha b hb hab => hnew b hb (hab ▸ ha)⟩
  rw [ChangeSet.appendRepositories, if_neg hknown, ChangeSet.withRepositories, dif_pos hne,
    dif_pos hnd']
  exact ⟨_, rfl⟩

theorem ChangeSet.ChangesCandidates.accepted (nextId : UUID) {cs : ChangeSet} {op : ChangeSetOp}
    (h : cs.ChangesCandidates op) :
    op.validate = .ok () ∧ ∃ cs', op.apply nextId cs = .ok (some cs') := by
  rcases h with ⟨r, c, d, d', hcall, hup, hd, hc, hne⟩ | ⟨c, key, ds, rfl, hkey, hfresh, hds, hnd⟩
  · obtain ⟨hv, cs', happly, -⟩ := ChangeSetOp.apply_of_candidateOp hcall hup hd hc hne
    exact ⟨hv, cs', happly⟩
  · obtain ⟨cs', hcs'⟩ := appendRepositories_of_fresh hds hnd
    refine ⟨by simp [ChangeSetOp.validate, hkey], cs', ?_⟩
    simp only [ChangeSetOp.apply, ChangeSet.appendCandidates, if_neg hfresh, hds, ok_bind, hcs']

theorem ChangeSet.CompletesBesideAnother.compensated {cs cs' : ChangeSet} {op : ChangeSetOp}
    {nextId : UUID} (hids : (cs.recoveryPlans.map (·.id)).Nodup)
    (hcomp : cs.CompletesBesideAnother op) (h : op.apply nextId cs = .ok (some cs')) :
    cs'.recovering = true ∧ cs'.inRecovery = false := by
  obtain ⟨c, p, p', q, rfl, hp, hpid, hstep, hcomplete, hq, hqid, hqinc⟩ := hcomp
  obtain ⟨cs'', hrecord, h⟩ := bind_ok h
  obtain rfl := Option.some.inj (Except.ok.inj h)
  obtain ⟨hplans, ⟨active, hactive, haid, hstatus⟩, -⟩ := ChangeSet.recordRecoveryAction_ok hrecord
  have hids' := ChangeSet.planIds_of_recordAction hplans
  constructor
  · obtain ⟨q', hq', hqstep⟩ := forall₂_exists_right hplans hq
    rw [if_neg hqid] at hqstep
    exact List.any_eq_true.mpr ⟨q', hq', by rw [← Except.ok.inj hqstep]; exact hqinc⟩
  · obtain ⟨p'', hp'', hpstep⟩ := forall₂_exists_right hplans hp
    rw [if_pos hpid, hstep] at hpstep
    have hactive' : active = p' := by
      refine List.inj_on_of_nodup_map (hids' ▸ hids) hactive (Except.ok.inj hpstep ▸ hp'') ?_
      rw [haid, ChangeSet.recordAction_id hstep, hpid]
    rw [ChangeSet.inRecovery, hstatus, hactive', recoveryStatus_of_complete hcomplete]
    decide

theorem recordRecoveryAction_of_plan {cs : ChangeSet} {planId actionId : UUID}
    {status : RecoveryActionStatus} {detail : String} {p p' : RecoveryPlan}
    (hids : (cs.recoveryPlans.map (·.id)).Nodup) (hp : p ∈ cs.recoveryPlans) (hpid : p.id = planId)
    (h : p.recordAction actionId status detail = .ok p') :
    ∃ cs', cs.recordRecoveryAction planId actionId status detail = .ok cs' := by
  have hany : cs.recoveryPlans.any (fun p => p.id == planId) = true :=
    List.any_eq_true.mpr ⟨p, hp, by simpa using hpid⟩
  obtain ⟨plans, hplans⟩ : ∃ plans, (cs.recoveryPlans.mapM fun p =>
      if p.id = planId then p.recordAction actionId status detail else .ok p) = .ok plans := by
    refine exists_mapM_ok fun x hx => ?_
    by_cases hxid : x.id = planId
    · have hxp : x = p := List.inj_on_of_nodup_map hids hx hp (hxid.trans hpid.symm)
      exact ⟨p', by rw [if_pos hxid, hxp, h]⟩
    · exact ⟨x, if_neg hxid⟩
  obtain ⟨p'', hp'', hstep⟩ := forall₂_exists_right (mapM_ok hplans) hp
  rw [if_pos hpid] at hstep
  have hp''id : p''.id = planId := (ChangeSet.recordAction_id hstep).trans hpid
  obtain ⟨active, hactive⟩ := Option.isSome_iff_exists.mp
    (List.find?_isSome.mpr ⟨p'', hp'', by simpa using hp''id⟩ :
      (plans.find? fun p => p.id == planId).isSome)
  rw [ChangeSet.recordRecoveryAction, if_pos hany, hplans, ok_bind]
  simp only [hactive]
  exact ⟨_, rfl⟩

/-! ## The store -/

/-- A rollback in progress is in front of the saga, and the gate denies its ChangeSet. -/
def RollbackGuarded (ports : MergeGatePorts) (st : ChangeSetStore) : Prop :=
  ∀ cs ∈ st.items, cs.recovering = true → cs.inRecovery = true ∧ cs ∈ st.listActive ∧
    ∀ d ∈ cs.repositories, gateDenies ports st cs.id d.repositoryId = true

/-- A service call that loses a rollback. -/
def LosesRollbackCall (st : ChangeSetStore) : DeliveryOp → Prop
  | .prepare _ _ => False
  | .change op => ∃ cs, st.get op.changeSetId = some cs ∧ cs.LosesRollback op

theorem gateDenies_of_recovery {ports : MergeGatePorts} {st : ChangeSetStore} {cs : ChangeSet}
    {p : RecoveryPlan} (hget : st.get cs.id = some cs) (hcl : cs.DependenciesClosed)
    (hlast : cs.recoveryPlans.getLast? = some p) (hp : p.incomplete = true)
    {d : RepositoryDelivery} (hd : d ∈ cs.repositories) :
    gateDenies ports st cs.id d.repositoryId = true := by
  have hcand : cs.repository d.repositoryId = .ok d :=
    ChangeSet.repository_ok.mpr (ChangeSet.candidate?_eq_some.mpr ⟨hd, rfl⟩)
  obtain ⟨unmet, hunmet⟩ := ChangeSet.unmetUpstreams_total hcl hd
  have hreason : cs.recoveryReasons ≠ [] := by
    simp [ChangeSet.recoveryReasons, hlast, hp]
  simp only [gateDenies, DeliveryService.evaluateMergeGate, DeliveryService.required, hget,
    ok_bind, ChangeSet.mergeGate, hcand, ChangeSet.upstreamReasons, hunmet]
  simp [pure, Except.pure, hreason]

/-- **A held rollback is guarded**: the saga sees it and the gate denies it. -/
theorem rollbackGuarded_of_held {ports : MergeGatePorts} {st : ChangeSetStore}
    (hw : st.WellFormed) (h : ∀ cs ∈ st.items, cs.RollbackHeld) : RollbackGuarded ports st := by
  intro cs hcs hrec
  obtain ⟨hstatus, p, hlast, hp⟩ := h cs hcs hrec
  refine ⟨hstatus, ?_, fun d hd => ?_⟩
  · refine List.mem_filter.mpr ⟨hcs, ?_⟩
    rw [ChangeSet.inRecovery, decide_eq_true_eq] at hstatus
    rcases hstatus with hs | hs <;> rw [hs] <;> decide
  · exact gateDenies_of_recovery ((ChangeSetStore.get_eq_some hw.ids_nodup).mpr ⟨hcs, rfl⟩)
      (hw.each cs hcs).closed hlast hp hd

theorem rollbackHeld_attempt (fingerprint : PrepareChangeSetCommand → String)
    {st : ChangeSetStore} (hw : st.WellFormed) (hheld : ∀ cs ∈ st.items, cs.RollbackHeld)
    {op : DeliveryOp} (hkeep : ¬ LosesRollbackCall st op) :
    ∀ cs ∈ (Runs.attempt (DeliveryService.apply fingerprint) st op).items, cs.RollbackHeld := by
  refine Runs.attempt_cases (P := fun st : ChangeSetStore => ∀ cs ∈ st.items, cs.RollbackHeld) hheld
    fun st' h => ?_
  rcases DeliveryService.apply_cases h with rfl | ⟨c, key, cs, -, hcs, hitems, -⟩ |
    ⟨o, cs, cs', rfl, hv, hget, happly, rfl⟩
  · exact hheld
  · intro c' hc'
    rw [hitems] at hc'
    rcases List.mem_append.mp hc' with hc' | hc'
    · exact hheld c' hc'
    · rw [List.mem_singleton.mp hc']
      intro hrec
      rw [ChangeSet.recovering, (DeliveryService.preparedChangeSet_ok hcs).2.2.2.1] at hrec
      cases hrec
  · intro c hc
    have hmem := (ChangeSetStore.mem_of_get hget).1
    rcases ChangeSetStore.mem_write hc with rfl | ⟨hc, -⟩
    · exact (ChangeSetOp.apply_some happly).rollbackHeld (hw.each cs hmem) hv (hheld cs hmem)
        fun hlose => hkeep ⟨cs, hget, hlose⟩
    · exact hheld c hc

theorem not_rollbackGuarded_of_loses (fingerprint : PrepareChangeSetCommand → String)
    (ports : MergeGatePorts) {st : ChangeSetStore} (hw : st.WellFormed) {op : DeliveryOp}
    (hlose : LosesRollbackCall st op) :
    ¬ RollbackGuarded ports (Runs.attempt (DeliveryService.apply fingerprint) st op) := by
  cases op with
  | prepare c key => exact hlose.elim
  | change o =>
    obtain ⟨cs, hget, hrec, hcause⟩ := hlose
    have hmem := (ChangeSetStore.mem_of_get hget).1
    have hwcs := hw.each cs hmem
    obtain ⟨hv, cs', happly, hrec', hstatus'⟩ : o.validate = .ok () ∧ ∃ cs',
        o.apply st.nextId cs = .ok (some cs') ∧ cs'.recovering = true ∧
          cs'.inRecovery = false := by
      rcases hcause with hchange | hcomplete
      · obtain ⟨hv, cs', happly⟩ := hchange.accepted st.nextId
        obtain ⟨hplans, hstatus⟩ := (ChangeSetOp.apply_some happly).of_changesCandidates hchange
        exact ⟨hv, cs', happly, by rw [ChangeSet.recovering, hplans]; exact hrec, hstatus⟩
      · obtain ⟨c, p, p', q, rfl, hp, hpid, hstep, hdone, hq⟩ := hcomplete
        obtain ⟨cs', hcs'⟩ := recordRecoveryAction_of_plan hwcs.plan_ids hp hpid hstep
        have happly : (ChangeSetOp.recordRecoveryAction c).apply st.nextId cs = .ok (some cs') := by
          rw [ChangeSetOp.apply, hcs', ok_bind]
        obtain ⟨hrec', hstatus'⟩ := ChangeSet.CompletesBesideAnother.compensated hwcs.plan_ids
          ⟨c, p, p', q, rfl, hp, hpid, hstep, hdone, hq⟩ happly
        exact ⟨rfl, cs', happly, hrec', hstatus'⟩
    have hid : cs'.id = cs.id := (hwcs.step (ChangeSetOp.apply_some happly)).2
    rw [Runs.attempt_ok (DeliveryService.apply_of_written hv hget happly hid)]
    intro hguard
    have hmem' : cs' ∈ (DeliveryService.written st o cs cs').items :=
      List.mem_map.mpr ⟨cs, hmem, if_pos hid.symm⟩
    rw [(hguard cs' hmem' hrec').1] at hstatus'
    cases hstatus'

/-- **A rollback in progress is kept exactly when no call loses it.** Along every run of the
delivery service, each ChangeSet with an incomplete recovery plan stays in front of the saga and
is denied by the gate for all its repositories, iff no call changes the candidates of such a
ChangeSet or completes one of its plans while another one is incomplete. -/
theorem rollback_guarded_iff (fingerprint : PrepareChangeSetCommand → String)
    (ports : MergeGatePorts) (ops : List DeliveryOp) :
    (∀ st ∈ Runs.states (Runs.attempt (DeliveryService.apply fingerprint)) {} ops,
      RollbackGuarded ports st) ↔
    ∀ p ∈ Runs.steps (Runs.attempt (DeliveryService.apply fingerprint)) {} ops,
      ¬ LosesRollbackCall p.1 p.2 := by
  have hW : ∀ (st : ChangeSetStore) (op : DeliveryOp), st.WellFormed →
      (Runs.attempt (DeliveryService.apply fingerprint) st op).WellFormed :=
    fun st op hw => DeliveryService.wellFormed_step hw op
  have hQ : ∀ st : ChangeSetStore, st.WellFormed → (∀ cs ∈ st.items, cs.RollbackHeld) →
      RollbackGuarded ports st := fun _ hw h => rollbackGuarded_of_held hw h
  have keep : ∀ (st : ChangeSetStore) (op : DeliveryOp), st.WellFormed →
      (∀ cs ∈ st.items, cs.RollbackHeld) → ¬ LosesRollbackCall st op →
      ∀ cs ∈ (Runs.attempt (DeliveryService.apply fingerprint) st op).items, cs.RollbackHeld :=
    fun _ _ hw hheld hkeep => rollbackHeld_attempt fingerprint hw hheld hkeep
  have lose : ∀ (st : ChangeSetStore) (op : DeliveryOp), st.WellFormed →
      (∀ cs ∈ st.items, cs.RollbackHeld) → ¬ ¬ LosesRollbackCall st op →
      ¬ RollbackGuarded ports (Runs.attempt (DeliveryService.apply fingerprint) st op) :=
    fun _ _ hw _ hlose => not_rollbackGuarded_of_loses fingerprint ports hw (not_not.mp hlose)
  exact Runs.states_forall_iff hW hQ keep lose ChangeSetStore.wellFormed_empty (by simp) ops

/-- A ChangeSet with one open pull request, rolled back by its operator; then the pull request's
CI reports. -/
def lateCiRollbackRun : List DeliveryOp :=
  [.prepare samplePrepare "key",
    .change (.observePullRequest ⟨0, 10, 1, "url", "aaaaaaaaaaaaaaaaaaaaaaaaaaaaaaaaaaaaaaaa"⟩),
    .change (.planRecovery ⟨0, .operatorRequested, "roll back", none, none, none⟩),
    .change (.observeCi ⟨0, 10, true, "run", "", ""⟩)]

/-- A rollback in progress can be lost: one CI result writes `DELIVERING` over `COMPENSATING`
while the recovery plan has not started. -/
theorem late_ci_loses_rollback :
    ¬ ∀ ops : List DeliveryOp,
      ∀ st ∈ Runs.states (Runs.attempt (DeliveryService.apply fun _ => "")) {} ops,
        RollbackGuarded {} st := by
  intro h
  have hguard := h lateCiRollbackRun _ (Runs.foldl_mem_states _ _)
  have hlost : (lateCiRollbackRun.foldl (Runs.attempt (DeliveryService.apply fun _ => ""))
      {}).items.any (fun cs => cs.recovering && !cs.inRecovery) = true := by decide
  obtain ⟨cs, hcs, hrec⟩ := List.any_eq_true.mp hlost
  rw [Bool.and_eq_true, Bool.not_eq_true'] at hrec
  rw [(hguard cs hcs hrec.1).1] at hrec
  cases hrec.2

end Delivery
end RepoMesh
