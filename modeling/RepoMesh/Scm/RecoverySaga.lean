/-
# The recovery Saga

`RecoverySagaExecutor`: each round takes the first action of the newest plan that is not done,
claims it, has the handler run it and records what came of it. Any number of executors run side by
side, interrupted at every `await`, beside any other call of the delivery service.
-/
import RepoMesh.Foundation.Threads
import RepoMesh.Delivery.RecoveryPlans

namespace RepoMesh
namespace Scm

open Text Fallible Delivery
open Async (Prog Threaded Pool)

/-- What a round may raise. -/
inductive SagaRaised where
  | delivery (error : Raised)
  | recoveryWaiting (message : String)
  | revertConflict (message : String)
  | other (typeName message : String)
  deriving DecidableEq

/-- `f"{type(error).__name__}: {error}"`. -/
def SagaRaised.text : SagaRaised → String
  | delivery (.deliveryDenied m) => "DeliveryDenied: " ++ m
  | delivery (.deliveryConflict m) => "DeliveryConflict: " ++ m
  | delivery (.deliveryNotFound m) => "DeliveryNotFound: " ++ m
  | delivery (.valueError m) => "ValueError: " ++ m
  | recoveryWaiting m => "RecoveryWaiting: " ++ m
  | revertConflict m => "RevertConflict: " ++ m
  | other typeName m => typeName ++ ": " ++ m

/-- `RecoveryExecutionContext`. -/
structure RecoveryExecutionContext where
  changeSet : ChangeSet
  action : RecoveryAction
  deriving DecidableEq

/-- What the executor awaits. -/
inductive SagaOp where
  | listActive
  | get (changeSetId : UUID)
  | update (changeSet : ChangeSet) (expectedVersion : ℕ)
  | execute (context : RecoveryExecutionContext)
  | createForConflict (context : RecoveryExecutionContext) (error : String)
  deriving DecidableEq

/-- What it is answered. -/
abbrev SagaAnswer : SagaOp → Type
  | .listActive => List ChangeSet
  | .get _ => ChangeSet
  | .update .. => Unit
  | .execute _ => String
  | .createForConflict .. => UUID

/-- A call of the executor. -/
abbrev SagaCall := Prog SagaAnswer SagaRaised

namespace RecoverySagaExecutor

/-- `DeliveryService.record_recovery_action`: its read and its write are two awaits. -/
def recordRecoveryAction (c : RecordRecoveryActionCommand) : SagaCall ChangeSet := do
  let changeSet ← Prog.perform (SagaOp.get c.changeSetId)
  let updated ← Prog.lift ((changeSet.recordRecoveryAction c.recoveryPlanId c.actionId c.status
    c.detail).mapError .delivery)
  Prog.perform (SagaOp.update updated changeSet.version)
  pure updated

/-- The first action that is neither `SUCCEEDED` nor `SKIPPED`, in the order of the sequences. -/
def nextAction (plan : RecoveryPlan) : Option RecoveryAction :=
  (plan.actions.insertionSort fun a b => a.sequence ≤ b.sequence).find? fun a => !a.status.isDone

/-- A `PENDING` action is recorded as `RUNNING`, and read again with its ChangeSet. -/
def claim (changeSet : ChangeSet) (planId : UUID) (action : RecoveryAction) :
    SagaCall RecoveryExecutionContext :=
  if action.status = .pending then do
    let changeSet ← recordRecoveryAction
      { changeSetId := changeSet.id
        recoveryPlanId := planId
        actionId := action.id
        status := .running
        detail := "Recovery action claimed by Saga executor." }
    match changeSet.recoveryPlans.find? fun p => p.id == planId with
    | none => throw (.other "RuntimeError" "coroutine raised StopIteration")
    | some plan =>
      match plan.actions.find? fun a => a.id == action.id with
      | none => throw (.other "RuntimeError" "coroutine raised StopIteration")
      | some action => pure ⟨changeSet, action⟩
  else pure ⟨changeSet, action⟩

/-- What the handler's outcome is recorded as. `conflictTasks` is whether the gateway for conflict
tasks is wired. -/
def conclude (conflictTasks : Bool) (planId : UUID) (context : RecoveryExecutionContext) :
    Except SagaRaised String → SagaCall ChangeSet := fun outcome =>
  let record (status : RecoveryActionStatus) (detail : String) : SagaCall ChangeSet :=
    recordRecoveryAction
      { changeSetId := context.changeSet.id
        recoveryPlanId := planId
        actionId := context.action.id
        status := status
        detail := detail }
  match outcome with
  | .ok detail => record .succeeded detail
  | .error (.recoveryWaiting m) => record .pending ("Waiting: " ++ m)
  | .error (.revertConflict m) =>
    if conflictTasks then do
      let taskId ← Prog.perform (SagaOp.createForConflict context m)
      record .waitingWorker ("Revert conflict assigned to Worker task " ++ uuidStr taskId ++ ".")
    else record .failed m
  | .error e => record .failed e.text

/-- `_execute`. -/
def execute (conflictTasks : Bool) (changeSet : ChangeSet) (planId : UUID)
    (action : RecoveryAction) : SagaCall ChangeSet := do
  let context ← claim changeSet planId action
  .await (.execute context) (conclude conflictTasks planId context)

/-- The body of `run_once` for one ChangeSet. -/
def scan (conflictTasks : Bool) (changeSet : ChangeSet) : SagaCall Unit :=
  match changeSet.recoveryPlans.getLast? with
  | none => pure ()
  | some plan =>
    match nextAction plan with
    | none => pure ()
    | some action =>
      if action.status = .waitingWorker ∨ action.status = .failed then pure ()
      else do
        let _ ← execute conflictTasks changeSet plan.id action
        pure ()

/-- `run_once`. -/
def runOnce (conflictTasks : Bool) : SagaCall (List Unit) := do
  let active ← Prog.perform SagaOp.listActive
  Prog.each (scan conflictTasks) active

end RecoverySagaExecutor

/-! ## The system -/

/-- How an operation answers. A handler answers as it likes, and any operation may raise. -/
inductive SagaExec : (op : SagaOp) → ChangeSetStore → Except SagaRaised (SagaAnswer op) →
    ChangeSetStore → Prop
  | listActive (st) : SagaExec .listActive st (.ok st.listActive) st
  | get {st id cs} (found : st.get id = some cs) : SagaExec (.get id) st (.ok cs) st
  | update {st cs version st'} (written : st.update cs version = .ok st') :
      SagaExec (.update cs version) st (.ok ()) st'
  | execute (st context detail) : SagaExec (.execute context) st (.ok detail) st
  | createForConflict (st context error taskId) :
      SagaExec (.createForConflict context error) st (.ok taskId) st
  | raises (op st e) : SagaExec op st (.error e) st

/-- Executors beside any calls of the delivery service: recoveries planned, actions recorded by
hand or by Workers, candidates observed. -/
def sagaSystem (fingerprint : PrepareChangeSetCommand → String) :
    Threaded SagaAnswer SagaRaised (List Unit) ChangeSetStore where
  Exec := SagaExec
  Starts := fun p => ∃ conflictTasks, p = RecoverySagaExecutor.runOnce conflictTasks
  Environment := fun st st' => ∃ op, st' = Runs.attempt (DeliveryService.apply fingerprint) st op

/-! ## The turn of an action -/

/-- The plan lists the action, and every action before it is done. -/
structure Turn (cs : ChangeSet) (p : RecoveryPlan) (a : RecoveryAction) : Prop where
  plan : p ∈ cs.recoveryPlans
  action : a ∈ p.actions
  before : ∀ b ∈ p.actions, b.sequence < a.sequence → b.status.isDone = true

theorem turn_of_nextAction {cs : ChangeSet} {p : RecoveryPlan} {a : RecoveryAction}
    (hp : p ∈ cs.recoveryPlans) (ha : RecoverySagaExecutor.nextAction p = some a) :
    Turn cs p a := by
  have hmem : a ∈ p.actions := (List.mem_insertionSort _).mp (List.mem_of_find?_eq_some ha)
  refine ⟨hp, hmem, fun b hb hlt => ?_⟩
  obtain ⟨-, before, after, hsplit, hdone⟩ := List.find?_eq_some_iff_append.mp ha
  have hsorted : (before ++ a :: after).Pairwise fun x y => x.sequence ≤ y.sequence := by
    rw [← hsplit]
    exact List.pairwise_insertionSort _ _
  have hb' : b ∈ before ++ a :: after := by
    rw [← hsplit]
    exact (List.mem_insertionSort _).mpr hb
  rcases List.mem_append.mp hb' with hbefore | hrest
  · simpa using hdone b hbefore
  · have hle : a.sequence ≤ b.sequence := by
      rcases List.mem_cons.mp hrest with rfl | hafter
      · exact le_refl _
      · exact List.rel_of_pairwise_cons (List.pairwise_append.mp hsorted).2.1 hafter
    omega

theorem Turn.kept {cs cs' : ChangeSet} {p : RecoveryPlan} {a : RecoveryAction} (h : Turn cs p a)
    (hkept : RecoveryKept cs cs') :
    ∃ q b, PlanKept p q ∧ ActionKept a b ∧ Turn cs' q b := by
  obtain ⟨q, hq, hpq⟩ := hkept.2 p h.plan
  obtain ⟨b, hb, hab⟩ := forall₂_exists_right hpq.2 h.action
  refine ⟨q, b, hpq, hab, hq, hb, fun y hy hlt => ?_⟩
  obtain ⟨x, hx, hxy⟩ := forall₂_exists_left hpq.2 hy
  rw [hab.sequence_eq, hxy.sequence_eq] at hlt
  have hdone : x.status.isDone = true := h.before x hx hlt
  rw [hxy.done_eq hdone]
  exact hdone

/-- What an executor asks: to write what recording makes of a ChangeSet it saw, and to run an
action whose turn it is. -/
def SagaAsks : SagaOp → ChangeSetStore → Prop
  | .update updated version, st => ∃ (c : RecordRecoveryActionCommand) (cs : ChangeSet), Seen RecoveryKept st cs ∧
      cs.id = c.changeSetId ∧ cs.version = version ∧
      cs.recordRecoveryAction c.recoveryPlanId c.actionId c.status c.detail = .ok updated
  | .execute context, st => ∃ p cs q b, Turn context.changeSet p context.action ∧
      st.get context.changeSet.id = some cs ∧ PlanKept p q ∧ ActionKept context.action b ∧
      Turn cs q b
  | .listActive, _ => True
  | .get _, _ => True
  | .createForConflict .., _ => True

/-! ## Rely and guarantee -/

theorem attempt_of_sagaUpdate (fingerprint : PrepareChangeSetCommand → String)
    {st st' : ChangeSetStore} {updated : ChangeSet} {version : ℕ}
    (hasks : SagaAsks (.update updated version) st) (h : st.update updated version = .ok st') :
    ∃ op, st' = Runs.attempt (DeliveryService.apply fingerprint) st op := by
  obtain ⟨c, cs, hseen, hid, rfl, hrecord⟩ := hasks
  have hsame : updated.id = cs.id := (ChangeSet.recordRecoveryAction_ok hrecord).2.2.2.1
  have happly : (ChangeSetOp.recordRecoveryAction c).apply 0 cs = .ok (some updated) := by
    rw [ChangeSetOp.apply, hrecord]
    rfl
  have hdraws : (ChangeSetOp.recordRecoveryAction c).DrawsNothing := fun _ => by simp
  exact ⟨_, (Runs.attempt_ok (attempt_of_update keeps_recoveryKept fingerprint hdraws rfl hid hseen
    hsame happly h)).symm⟩

/-- The relation and the invariant of the executors. -/
abbrev SagaResilient {α : Type} (p : SagaCall α) (st : ChangeSetStore) : Prop :=
  Prog.Resilient (StoreKept RecoveryKept) RecoveryWF SagaExec SagaAsks p st

/-- What is known of what such a call returns. -/
abbrev SagaEnds {α : Type} (p : SagaCall α) (Q : α → ChangeSetStore → Prop)
    (st : ChangeSetStore) : Prop :=
  Prog.Ends (StoreKept RecoveryKept) RecoveryWF SagaExec SagaAsks p Q st

theorem sagaEnds_record (c : RecordRecoveryActionCommand) (st : ChangeSetStore) :
    SagaEnds (RecoverySagaExecutor.recordRecoveryAction c)
      (fun updated s' => updated.id = c.changeSetId ∧ s'.get updated.id = some updated ∧
        StoreKept RecoveryKept st s' ∧ RecoveryWF s') st := by
  refine Prog.ends_perform_bind fun s₁ hR₁ _ => ⟨trivial, fun cs s₂ hexec hR₂ _ => ?_⟩
  cases hexec with
  | get found =>
    have hcs : cs.id = c.changeSetId := (ChangeSetStore.mem_of_get found).2
    refine Prog.ends_lift_bind fun updated hupdated => ?_
    obtain ⟨updated, hrecord, rfl⟩ := mapError_ok hupdated
    have hid : updated.id = cs.id := (ChangeSet.recordRecoveryAction_ok hrecord).2.2.2.1
    refine Prog.ends_perform_bind fun s₃ hR₃ _ =>
      ⟨⟨c, cs, (seen_of_get keeps_recoveryKept found).kept keeps_recoveryKept hR₃, hcs, rfl, hrecord⟩, fun _ s₄ hexec hR₄ hInv₄ => ?_⟩
    cases hexec with
    | update written =>
      refine Prog.ends_pure
        ⟨hid.trans hcs, ?_, ((hR₁.trans keeps_recoveryKept hR₂).trans keeps_recoveryKept hR₃).trans keeps_recoveryKept hR₄, hInv₄⟩
      rw [ChangeSetStore.update] at written
      split at written
      · cases written
      · rename_i current hget
        split_ifs at written
        rw [← Except.ok.inj written]
        exact ChangeSetStore.get_write_self hget

theorem sagaResilient_record (c : RecordRecoveryActionCommand) (st : ChangeSetStore) :
    SagaResilient (RecoverySagaExecutor.recordRecoveryAction c) st :=
  (sagaEnds_record c st).resilient

theorem sagaResilient_conclude (conflictTasks : Bool) (planId : UUID)
    (context : RecoveryExecutionContext) (outcome : Except SagaRaised String)
    (st : ChangeSetStore) :
    SagaResilient (RecoverySagaExecutor.conclude conflictTasks planId context outcome) st := by
  cases outcome with
  | ok detail => exact sagaResilient_record _ st
  | error e =>
    cases e with
    | recoveryWaiting m => exact sagaResilient_record _ st
    | revertConflict m =>
      simp only [RecoverySagaExecutor.conclude]
      split_ifs
      · exact Prog.Resilient.perform_bind fun s₁ _ _ =>
          ⟨trivial, fun taskId s₂ _ _ _ => sagaResilient_record _ s₂⟩
      · exact sagaResilient_record _ st
    | delivery e => exact sagaResilient_record _ st
    | other typeName m => exact sagaResilient_record _ st

theorem find_plan {cs : ChangeSet} {planId : UUID} {p q : RecoveryPlan}
    (hnodup : (cs.recoveryPlans.map (·.id)).Nodup)
    (hp : cs.recoveryPlans.find? (fun p => p.id == planId) = some p) (hq : q ∈ cs.recoveryPlans)
    (hid : q.id = planId) : p = q := by
  have hp' : p.id = planId := by simpa using List.find?_some hp
  exact List.inj_on_of_nodup_map hnodup (List.mem_of_find?_eq_some hp) hq (hp'.trans hid.symm)

/-- **The claim.** What is claimed has its turn, and it is a turn of the stored ChangeSet. -/
theorem sagaEnds_claim {cs : ChangeSet} {p : RecoveryPlan} {a : RecoveryAction}
    {st : ChangeSetStore} (hseen : Seen RecoveryKept st cs) (hturn : Turn cs p a) :
    SagaEnds (RecoverySagaExecutor.claim cs p.id a)
      (fun context s' => Seen RecoveryKept s' context.changeSet ∧
        ∃ q, Turn context.changeSet q context.action) st := by
  unfold RecoverySagaExecutor.claim
  split_ifs with hpending
  · refine Prog.Ends.bind (sagaEnds_record _ st) fun updated s' hended => ?_
    obtain ⟨hid, hget, hR, hInv⟩ := hended
    obtain ⟨current, hcurrent, hkept⟩ := hseen.kept keeps_recoveryKept hR
    obtain rfl : updated = current :=
      Option.some.inj (hget.symm.trans ((congrArg s'.get hid).trans hcurrent))
    obtain ⟨q, b, hpq, hab, hturn'⟩ := hturn.kept hkept
    have hmem := (ChangeSetStore.mem_of_get hget).1
    split
    · exact Prog.ends_throw _ _ _
    · rename_i plan hplan
      obtain rfl : plan = q :=
        find_plan (hInv.store.each updated hmem).plan_ids hplan hturn'.plan hpq.1
      split
      · exact Prog.ends_throw _ _ _
      · rename_i action haction
        have hsame : action = b := by
          refine List.inj_on_of_nodup_map (hInv.named updated hmem plan hturn'.plan)
            (List.mem_of_find?_eq_some haction) hturn'.action ?_
          have hfound : action.id = a.id := by simpa using List.find?_some haction
          exact hfound.trans hab.id_eq.symm
        exact Prog.ends_pure ⟨seen_of_get keeps_recoveryKept hget, plan, hsame ▸ hturn'⟩
  · exact Prog.ends_pure ⟨hseen, p, hturn⟩

/-- **A round over one ChangeSet is resilient.** -/
theorem sagaResilient_scan (conflictTasks : Bool) {cs : ChangeSet} {st : ChangeSetStore}
    (hseen : Seen RecoveryKept st cs) : SagaResilient (RecoverySagaExecutor.scan conflictTasks cs) st := by
  unfold RecoverySagaExecutor.scan
  split
  · trivial
  · rename_i plan hplan
    split
    · trivial
    · rename_i action haction
      split_ifs
      · trivial
      have hturn : Turn cs plan action :=
        turn_of_nextAction (List.mem_of_getLast? hplan) haction
      have hexecute : SagaResilient
          (RecoverySagaExecutor.execute conflictTasks cs plan.id action) st := by
        refine Prog.Resilient.bind (sagaEnds_claim hseen hturn) fun context s' hclaimed => ?_
        obtain ⟨hseen', q, hturn'⟩ := hclaimed
        intro s₁ hR₁ hInv₁
        obtain ⟨current, hget, hkept⟩ := hseen'.kept keeps_recoveryKept hR₁
        obtain ⟨q', b, hqq', hb, hturn''⟩ := hturn'.kept hkept
        refine ⟨⟨q, current, q', b, hturn', hget, hqq', hb, hturn''⟩, fun r s₂ _ _ _ => ?_⟩
        exact sagaResilient_conclude conflictTasks plan.id context r s₂
      exact Prog.Resilient.bind hexecute.ends fun _ _ _ => trivial

/-- **The executors respect the plans.** -/
theorem sagaSystem_respects (fingerprint : PrepareChangeSetCommand → String) :
    (sagaSystem fingerprint).Respects (StoreKept RecoveryKept) RecoveryWF SagaAsks where
  refl := StoreKept.refl keeps_recoveryKept
  trans := fun _ _ _ => StoreKept.trans keeps_recoveryKept
  exec := by
    intro op st r st' hInv hasks hexec
    cases hexec with
    | update written =>
      obtain ⟨call, rfl⟩ := attempt_of_sagaUpdate fingerprint hasks written
      exact ⟨storeKept_attempt keeps_recoveryKept fingerprint hInv.store call,
        recoveryWF_attempt fingerprint hInv call⟩
    | _ => exact ⟨StoreKept.refl keeps_recoveryKept _, hInv⟩
  environment := by
    rintro st st' hInv ⟨op, rfl⟩
    exact ⟨storeKept_attempt keeps_recoveryKept fingerprint hInv.store op,
      recoveryWF_attempt fingerprint hInv op⟩
  starts := by
    rintro p st ⟨conflictTasks, rfl⟩ hInv
    refine Prog.Resilient.perform_bind fun s₁ _ hInv₁ => ⟨trivial, fun active s₂ hexec _ _ => ?_⟩
    cases hexec with
    | listActive =>
      refine Prog.Resilient.each (StoreKept.refl keeps_recoveryKept)
        (fun _ _ _ => StoreKept.trans keeps_recoveryKept) ?_
      intro cs hcs s' hR
      have hget : s₁.get cs.id = some cs :=
        (ChangeSetStore.get_eq_some hInv₁.store.ids_nodup).mpr ⟨List.mem_of_mem_filter hcs, rfl⟩
      exact sagaResilient_scan conflictTasks ((seen_of_get keeps_recoveryKept hget).kept keeps_recoveryKept hR)

/-! ## Rollback order -/

/-- The handler is invoked in order: the action it is invoked for belongs to a plan that is stored,
and every action of the stored plan with a smaller sequence is `SUCCEEDED` or `SKIPPED`. -/
def InvokedInOrder (context : RecoveryExecutionContext) (st : ChangeSetStore) : Prop :=
  ∃ p ∈ context.changeSet.recoveryPlans, context.action ∈ p.actions ∧
    ∃ cs, st.get context.changeSet.id = some cs ∧
      ∃ q ∈ cs.recoveryPlans, q.id = p.id ∧ (∃ b ∈ q.actions, b.id = context.action.id) ∧
        ∀ b ∈ q.actions, b.sequence < context.action.sequence → b.status.isDone = true

/-- Every action that is done in `a` stands unchanged in its plan in `b`. -/
def DoneKept (a b : ChangeSetStore) : Prop :=
  ∀ id cs, a.get id = some cs → ∀ p ∈ cs.recoveryPlans, ∀ x ∈ p.actions,
    x.status.isDone = true → ∃ cs', b.get id = some cs' ∧
      ∃ q ∈ cs'.recoveryPlans, q.id = p.id ∧ x ∈ q.actions

theorem doneKept_of_recoveryKept {a b : ChangeSetStore} (h : StoreKept RecoveryKept a b) :
    DoneKept a b := by
  intro id cs hget p hp x hx hdone
  obtain ⟨cs', hget', hkept⟩ := h id cs hget
  obtain ⟨q, hq, hpq⟩ := hkept.2 p hp
  obtain ⟨y, hy, hxy⟩ := forall₂_exists_right hpq.2 hx
  exact ⟨cs', hget', q, hq, hpq.1, hxy.done_eq hdone ▸ hy⟩

theorem invokedInOrder_of_asks {context : RecoveryExecutionContext} {st : ChangeSetStore}
    (h : SagaAsks (.execute context) st) : InvokedInOrder context st := by
  obtain ⟨p, cs, q, b, hturn, hget, hpq, hb, hturn'⟩ := h
  refine ⟨p, hturn.plan, hturn.action, cs, hget, q, hturn'.plan, hpq.1,
    ⟨b, hturn'.action, hb.id_eq⟩, fun y hy hlt => ?_⟩
  exact hturn'.before y hy (hb.sequence_eq ▸ hlt)

end Scm
end RepoMesh
