/-
# One failing rollback and the others

A round of `RecoverySagaExecutor` against its ports: the delivery service, the handler and the
creator of conflict tasks, each of which may raise at every call. Only the handler's call is in a
`try`; an exception of any other call leaves the round, and the ChangeSets behind it wait.
-/
import RepoMesh.Foundation.Ended
import RepoMesh.Scm.RecoverySaga

namespace RepoMesh
namespace Scm

open Text Fallible Delivery
open Async (Prog)

/-! ## The round and its ports -/

/-- A call of a round to one of its ports. -/
inductive SagaPort where
  | listActive
  | recordRecoveryAction (command : RecordRecoveryActionCommand)
  | execute (context : RecoveryExecutionContext)
  | createForConflict (context : RecoveryExecutionContext) (error : String)

/-- What it is answered. -/
abbrev SagaPortAnswer : SagaPort → Type
  | .listActive => List ChangeSet
  | .recordRecoveryAction _ => ChangeSet
  | .execute _ => String
  | .createForConflict .. => UUID

/-- A round, or a part of it. -/
abbrev SagaRound := Prog SagaPortAnswer SagaRaised

namespace SagaRound

/-- The plan and the action of those ids, in a ChangeSet that has been returned. -/
def located (planId actionId : UUID) (changeSet : ChangeSet) : SagaRound RecoveryExecutionContext :=
  match changeSet.recoveryPlans.find? fun p => p.id == planId with
  | none => throw (.other "RuntimeError" "coroutine raised StopIteration")
  | some plan =>
    match plan.actions.find? fun a => a.id == actionId with
    | none => throw (.other "RuntimeError" "coroutine raised StopIteration")
    | some action => pure ⟨changeSet, action⟩

/-- A `PENDING` action is recorded as `RUNNING`, and read from the ChangeSet that is returned. -/
def claim (changeSet : ChangeSet) (planId : UUID) (action : RecoveryAction) :
    SagaRound RecoveryExecutionContext :=
  if action.status = .pending then do
    let changeSet ← Prog.perform (SagaPort.recordRecoveryAction
      { changeSetId := changeSet.id
        recoveryPlanId := planId
        actionId := action.id
        status := .running
        detail := "Recovery action claimed by Saga executor." })
    located planId action.id changeSet
  else pure ⟨changeSet, action⟩

/-- What comes after the handler. -/
def conclude (conflictTasks : Bool) (planId : UUID) (context : RecoveryExecutionContext) :
    Except SagaRaised String → SagaRound ChangeSet := fun outcome =>
  let record (status : RecoveryActionStatus) (detail : String) : SagaRound ChangeSet :=
    Prog.perform (SagaPort.recordRecoveryAction
      { changeSetId := context.changeSet.id
        recoveryPlanId := planId
        actionId := context.action.id
        status := status
        detail := detail })
  match outcome with
  | .ok detail => record .succeeded detail
  | .error (.recoveryWaiting m) => record .pending ("Waiting: " ++ m)
  | .error (.revertConflict m) =>
    if conflictTasks then do
      let taskId ← Prog.perform (SagaPort.createForConflict context m)
      record .waitingWorker ("Revert conflict assigned to Worker task " ++ uuidStr taskId ++ ".")
    else record .failed m
  | .error e => record .failed e.text

/-- `_execute`. -/
def execute (conflictTasks : Bool) (changeSet : ChangeSet) (planId : UUID)
    (action : RecoveryAction) : SagaRound ChangeSet := do
  let context ← claim changeSet planId action
  .await (.execute context) (conclude conflictTasks planId context)

/-- The next action of the newest plan, with the plan's id, when it is one that a round runs. -/
def runnable? (changeSet : ChangeSet) : Option (UUID × RecoveryAction) :=
  match changeSet.recoveryPlans.getLast? with
  | none => none
  | some plan =>
    match RecoverySagaExecutor.nextAction plan with
    | none => none
    | some action =>
      if action.status = .waitingWorker ∨ action.status = .failed then none
      else some (plan.id, action)

/-- The body of `run_once` for one ChangeSet. -/
def scan (conflictTasks : Bool) (changeSet : ChangeSet) : SagaRound Unit :=
  match runnable? changeSet with
  | none => pure ()
  | some (planId, action) => do
    let _ ← execute conflictTasks changeSet planId action
    pure ()

/-- `run_once`. -/
def runOnce (conflictTasks : Bool) : SagaRound (List Unit) := do
  let active ← Prog.perform SagaPort.listActive
  Prog.each (scan conflictTasks) active

/-! ## The service behind the port -/

/-- The port's calls as the delivery service carries them out. -/
def service : (op : SagaPort) → SagaCall (SagaPortAnswer op)
  | .listActive => Prog.perform SagaOp.listActive
  | .recordRecoveryAction c => RecoverySagaExecutor.recordRecoveryAction c
  | .execute context => Prog.perform (SagaOp.execute context)
  | .createForConflict context error => Prog.perform (SagaOp.createForConflict context error)

theorem expand_claim (cs : ChangeSet) (planId : UUID) (action : RecoveryAction) :
    (claim cs planId action).expand service = RecoverySagaExecutor.claim cs planId action := by
  unfold claim RecoverySagaExecutor.claim
  split_ifs
  · rw [Prog.expand_bind, Prog.expand_perform]
    refine congrArg (RecoverySagaExecutor.recordRecoveryAction _ >>= ·) (funext fun cs' => ?_)
    unfold located
    cases cs'.recoveryPlans.find? fun p => p.id == planId with
    | none => rfl
    | some plan =>
      dsimp only
      cases plan.actions.find? fun a => a.id == action.id with
      | none => rfl
      | some found => rfl
  · rfl

theorem expand_conclude (conflictTasks : Bool) (planId : UUID)
    (context : RecoveryExecutionContext) (outcome : Except SagaRaised String) :
    (conclude conflictTasks planId context outcome).expand service =
      RecoverySagaExecutor.conclude conflictTasks planId context outcome := by
  cases outcome with
  | ok detail => exact Prog.expand_perform service _
  | error e =>
    cases e with
    | recoveryWaiting m => exact Prog.expand_perform service _
    | delivery e => exact Prog.expand_perform service _
    | other typeName m => exact Prog.expand_perform service _
    | revertConflict m =>
      unfold conclude RecoverySagaExecutor.conclude
      cases conflictTasks with
      | false => exact Prog.expand_perform service _
      | true =>
        show ((Prog.perform (SagaPort.createForConflict context m) : SagaRound UUID) >>=
          fun taskId => _).expand service = _
        rw [Prog.expand_bind, Prog.expand_perform]
        refine congrArg (Prog.perform (SagaOp.createForConflict context m) >>= ·)
          (funext fun taskId => ?_)
        exact Prog.expand_perform service _

/-- **One round, two grains.** The round over the service's calls is the round over the reads and
the writes of its store. -/
theorem expand_runOnce (conflictTasks : Bool) :
    (runOnce conflictTasks).expand service = RecoverySagaExecutor.runOnce conflictTasks := by
  have hexecute : ∀ cs planId action, (execute conflictTasks cs planId action).expand service =
      RecoverySagaExecutor.execute conflictTasks cs planId action := by
    intro cs planId action
    unfold execute RecoverySagaExecutor.execute
    rw [Prog.expand_bind, expand_claim]
    refine congrArg (RecoverySagaExecutor.claim cs planId action >>= ·) (funext fun context => ?_)
    exact congrArg (Prog.await _) (funext fun r => expand_conclude conflictTasks planId context r)
  have hscan : ∀ cs, (scan conflictTasks cs).expand service =
      RecoverySagaExecutor.scan conflictTasks cs := by
    intro cs
    cases hplan : cs.recoveryPlans.getLast? with
    | none =>
      have hrun : runnable? cs = none := by simp only [runnable?, hplan]
      simp only [scan, hrun, RecoverySagaExecutor.scan, hplan]
      rfl
    | some plan =>
      cases haction : RecoverySagaExecutor.nextAction plan with
      | none =>
        have hrun : runnable? cs = none := by simp only [runnable?, hplan, haction]
        simp only [scan, hrun, RecoverySagaExecutor.scan, hplan, haction]
        rfl
      | some action =>
        by_cases hparked : action.status = .waitingWorker ∨ action.status = .failed
        · have hrun : runnable? cs = none := by
            simp only [runnable?, hplan, haction, if_pos hparked]
          simp only [scan, hrun, RecoverySagaExecutor.scan, hplan, haction, if_pos hparked]
          rfl
        · have hrun : runnable? cs = some (plan.id, action) := by
            simp only [runnable?, hplan, haction, if_neg hparked]
          simp only [scan, hrun, RecoverySagaExecutor.scan, hplan, haction, if_neg hparked]
          rw [Prog.expand_bind, hexecute]
          rfl
  unfold runOnce RecoverySagaExecutor.runOnce
  rw [Prog.expand_bind, Prog.expand_perform]
  refine congrArg (Prog.perform SagaOp.listActive >>= ·) (funext fun active => ?_)
  rw [Prog.expand_each]
  exact congrArg (Prog.each · active) (funext hscan)

/-- How the ports answer: any call may raise, ChangeSets are listed once, and the service returns
the ChangeSet it recorded to, with its plan and its action. -/
def MayAnswer : (op : SagaPort) → Unit → Except SagaRaised (SagaPortAnswer op) → Unit → Prop
  | .listActive, _, .ok active, _ => (active.map (·.id)).Nodup
  | .recordRecoveryAction c, _, .ok updated, _ => updated.id = c.changeSetId ∧
      ∃ p a, updated.recoveryPlans.find? (fun p => p.id == c.recoveryPlanId) = some p ∧
        p.actions.find? (fun a => a.id == c.actionId) = some a
  | .execute _, _, _, _ => True
  | .createForConflict .., _, _, _ => True
  | .listActive, _, .error _, _ => True
  | .recordRecoveryAction _, _, .error _, _ => True

theorem found_recorded {cs cs' : ChangeSet} {c : RecordRecoveryActionCommand}
    (h : cs.recordRecoveryAction c.recoveryPlanId c.actionId c.status c.detail = .ok cs') :
    ∃ p a, cs'.recoveryPlans.find? (fun p => p.id == c.recoveryPlanId) = some p ∧
      p.actions.find? (fun a => a.id == c.actionId) = some a := by
  obtain ⟨hplans, ⟨active, hactive, hid, -⟩, -⟩ := ChangeSet.recordRecoveryAction_ok h
  have hsome : (cs'.recoveryPlans.find? fun p => p.id == c.recoveryPlanId).isSome := by
    rw [List.find?_isSome]
    exact ⟨active, hactive, by simpa using hid⟩
  obtain ⟨p, hp⟩ := Option.isSome_iff_exists.mp hsome
  have hpid : p.id = c.recoveryPlanId := by simpa using List.find?_some hp
  obtain ⟨q, -, hstep⟩ := forall₂_exists_left hplans (List.mem_of_find?_eq_some hp)
  have hqid : q.id = c.recoveryPlanId := by
    by_contra hne
    rw [if_neg hne] at hstep
    exact hne (Except.ok.inj hstep ▸ hpid)
  rw [if_pos hqid] at hstep
  have hany : q.actions.any (fun a => a.id == c.actionId) = true := by
    by_contra hnone
    rw [RecoveryPlan.recordAction, if_neg hnone] at hstep
    cases hstep
  obtain ⟨a, ha, haid⟩ := List.any_eq_true.mp hany
  obtain ⟨b, hb, hkept⟩ := forall₂_exists_right (planKept_of_recordAction hstep).2 ha
  have hfound : (p.actions.find? fun a => a.id == c.actionId).isSome := by
    rw [List.find?_isSome]
    have hbid : b.id = c.actionId := hkept.id_eq.trans (by simpa using haid)
    exact ⟨b, hb, by simpa using hbid⟩
  obtain ⟨x, hx⟩ := Option.isSome_iff_exists.mp hfound
  exact ⟨p, x, hp, hx⟩

theorem mayAnswer_service (op : SagaPort)
    (l : List (Prog.Answered SagaAnswer SagaRaised ChangeSetStore))
    (r : Except SagaRaised (SagaPortAnswer op))
    (h : Prog.Ran (fun op s a s' => SagaExec op s a s' ∧ RecoveryWF s) (service op) l r) :
    MayAnswer op () r () := by
  cases op with
  | execute context => cases r <;> trivial
  | createForConflict context error => cases r <;> trivial
  | listActive =>
    cases r with
    | error e => trivial
    | ok active =>
      cases h with
      | await answered rest =>
        obtain ⟨hexec, hst⟩ := answered
        cases rest with
        | done =>
          cases hexec with
          | listActive => exact hst.store.ids_nodup.sublist ((List.filter_sublist).map _)
  | recordRecoveryAction c =>
    cases r with
    | error e => trivial
    | ok updated =>
      rcases Prog.Ran.of_bind h with ⟨cs, l₁, l₂, -, hget, hrest⟩ | ⟨e, -, hr⟩
      · have hid : cs.id = c.changeSetId := by
          cases hget with
          | await answered rest =>
            cases rest with
            | done =>
              cases answered.1 with
              | get found => exact (ChangeSetStore.mem_of_get found).2
        rcases Prog.Ran.of_bind hrest with ⟨written, l₃, l₄, -, hlift, hupdate⟩ | ⟨e, -, hr⟩
        · have hlift' : (cs.recordRecoveryAction c.recoveryPlanId c.actionId c.status
              c.detail).mapError SagaRaised.delivery = .ok written := by
            generalize hmap : (cs.recordRecoveryAction c.recoveryPlanId c.actionId c.status
              c.detail).mapError SagaRaised.delivery = outcome at hlift
            cases hlift with
            | done => rfl
          obtain ⟨written, hrecord, rfl⟩ := mapError_ok hlift'
          rcases Prog.Ran.of_bind hupdate with ⟨_, l₅, l₆, -, -, hpure⟩ | ⟨e, -, hr⟩
          · cases hpure with
            | done =>
              exact ⟨(ChangeSet.recordRecoveryAction_ok hrecord).2.2.2.1.trans hid,
                found_recorded hrecord⟩
          · cases hr
        · cases hr
      · cases hr

/-! ## Who is attempted -/

/-- A run of a round, or of a part of it, with what it asked and what it was answered. -/
abbrev RoundLog := List (Prog.Answered SagaPortAnswer SagaRaised Unit)

/-- The call begins an action of a ChangeSet: it claims the action, or has the handler run it. -/
def Begins (changeSet : ChangeSet) (planId : UUID) (action : RecoveryAction) : SagaPort → Prop
  | .recordRecoveryAction c => c.changeSetId = changeSet.id ∧ c.recoveryPlanId = planId ∧
      c.actionId = action.id ∧ c.status = .running
  | .execute context => context = ⟨changeSet, action⟩
  | .listActive => False
  | .createForConflict .. => False

/-- The round has attempted the action. -/
def Attempted (log : RoundLog) (changeSet : ChangeSet) (planId : UUID) (action : RecoveryAction) :
    Prop :=
  ∃ m ∈ log, Begins changeSet planId action m.op

/-- The calls that are in no `try`. -/
def OutsideTry : SagaPort → Prop
  | .recordRecoveryAction _ => True
  | .createForConflict .. => True
  | .listActive => True
  | .execute _ => False

/-- The call is about this ChangeSet. -/
def About (id : UUID) : SagaPort → Prop
  | .recordRecoveryAction c => c.changeSetId = id
  | .execute context => context.changeSet.id = id
  | .createForConflict context _ => context.changeSet.id = id
  | .listActive => False

/-- A call about this ChangeSet, in no `try`, has raised. -/
def Escaped (log : RoundLog) (id : UUID) : Prop :=
  ∃ m ∈ log, About id m.op ∧ OutsideTry m.op ∧ ∃ e, m.answer = .error e

theorem raisesAt_conclude (conflictTasks : Bool) (planId : UUID)
    (context : RecoveryExecutionContext) (outcome : Except SagaRaised String) :
    Prog.RaisesAt OutsideTry (conclude conflictTasks planId context outcome) := by
  cases outcome with
  | ok detail => exact Prog.raisesAt_perform trivial
  | error e =>
    cases e with
    | recoveryWaiting m => exact Prog.raisesAt_perform trivial
    | delivery e => exact Prog.raisesAt_perform trivial
    | other typeName m => exact Prog.raisesAt_perform trivial
    | revertConflict m =>
      cases conflictTasks with
      | false => exact Prog.raisesAt_perform trivial
      | true => exact (Prog.raisesAt_perform trivial).bind fun taskId => Prog.raisesAt_perform trivial

theorem only_conclude (conflictTasks : Bool) (planId : UUID)
    (context : RecoveryExecutionContext) (outcome : Except SagaRaised String) :
    Prog.Only (About context.changeSet.id) (conclude conflictTasks planId context outcome) := by
  have hrecord : ∀ status detail, Prog.Only (About context.changeSet.id)
      (Prog.perform (SagaPort.recordRecoveryAction
        { changeSetId := context.changeSet.id
          recoveryPlanId := planId
          actionId := context.action.id
          status := status
          detail := detail }) : SagaRound ChangeSet) :=
    fun status detail => (Prog.only_perform _).mpr rfl
  cases outcome with
  | ok detail => exact hrecord _ _
  | error e =>
    cases e with
    | recoveryWaiting m => exact hrecord _ _
    | delivery e => exact hrecord _ _
    | other typeName m => exact hrecord _ _
    | revertConflict m =>
      cases conflictTasks with
      | false => exact hrecord _ _
      | true =>
        exact Prog.only_bind ((Prog.only_perform _).mpr rfl) fun taskId => hrecord _ _

variable {conflictTasks : Bool} {cs : ChangeSet} {planId : UUID} {action : RecoveryAction}
  {log : RoundLog}

theorem ran_handled {context : RecoveryExecutionContext} {r : Except SagaRaised ChangeSet}
    (h : Prog.Ran MayAnswer
      (.await (.execute context) (conclude conflictTasks planId context)) log r) :
    (∃ m ∈ log, m.op = .execute context) ∧ (∀ m ∈ log, About context.changeSet.id m.op) ∧
      ((∃ e, r = .error e) ↔ Escaped log context.changeSet.id) := by
  cases h with
  | @await _ _ s s' outcome log _ answered rest =>
    have honly := rest.only (only_conclude conflictTasks planId context outcome)
    refine ⟨⟨_, List.mem_cons_self, rfl⟩, fun m hm => ?_, ?_⟩
    · rcases List.mem_cons.mp hm with rfl | hm
      · rfl
      · exact honly m hm
    · rw [rest.raised_iff (raisesAt_conclude conflictTasks planId context outcome)]
      constructor
      · rintro ⟨m, hm, hout, he⟩
        exact ⟨m, List.mem_cons_of_mem _ hm, honly m hm, hout, he⟩
      · rintro ⟨m, hm, -, hout, he⟩
        rcases List.mem_cons.mp hm with rfl | hm
        · exact hout.elim
        · exact ⟨m, hm, hout, he⟩

/-- **One ChangeSet of a round.** Its runnable action is attempted, the calls are about it alone,
and an exception leaves the round exactly when a call outside the `try` raised. -/
theorem ran_execute {r : Except SagaRaised ChangeSet}
    (h : Prog.Ran MayAnswer (execute conflictTasks cs planId action) log r) :
    Attempted log cs planId action ∧ (∀ m ∈ log, About cs.id m.op) ∧
      ((∃ e, r = .error e) ↔ Escaped log cs.id) := by
  by_cases hpending : action.status = .pending
  · rw [execute, claim, if_pos hpending] at h
    cases h with
    | @await _ _ s s' a log _ answered rest =>
      refine ⟨⟨_, List.mem_cons_self, rfl, rfl, rfl, rfl⟩, ?_⟩
      cases a with
      | error e =>
        cases rest with
        | done =>
          refine ⟨fun m hm => ?_, fun _ => ⟨_, List.mem_cons_self, rfl, trivial, e, rfl⟩, fun _ => ⟨e, rfl⟩⟩
          rw [List.mem_singleton.mp hm]
          rfl
      | ok updated =>
        obtain ⟨hid, plan, found, hplan, hfound⟩ := answered
        have hlocated : located planId action.id updated = pure ⟨updated, found⟩ := by
          simp only [located, hplan, hfound]
        have hrest : Prog.Ran MayAnswer (located planId action.id updated >>= fun context =>
            .await (.execute context) (conclude conflictTasks planId context)) log r := rest
        rw [hlocated] at hrest
        obtain ⟨-, habout, hraised⟩ := ran_handled hrest
        rw [show updated.id = cs.id from hid] at habout hraised
        refine ⟨fun m hm => ?_, hraised.trans ?_⟩
        · rcases List.mem_cons.mp hm with rfl | hm
          · rfl
          · exact habout m hm
        · constructor
          · rintro ⟨m, hm, hescaped⟩
            exact ⟨m, List.mem_cons_of_mem _ hm, hescaped⟩
          · rintro ⟨m, hm, habout', hout, e, he⟩
            rcases List.mem_cons.mp hm with rfl | hm
            · cases he
            · exact ⟨m, hm, habout', hout, e, he⟩
  · rw [execute, claim, if_neg hpending] at h
    obtain ⟨⟨m, hm, hop⟩, habout, hraised⟩ := ran_handled h
    refine ⟨⟨m, hm, ?_⟩, habout, hraised⟩
    rw [hop]
    rfl

theorem ran_scan_none (hrun : runnable? cs = none) {r : Except SagaRaised Unit}
    (h : Prog.Ran MayAnswer (scan conflictTasks cs) log r) : log = [] ∧ r = .ok () := by
  simp only [scan, hrun] at h
  cases h with
  | done => exact ⟨rfl, rfl⟩

theorem ran_scan_some (hrun : runnable? cs = some (planId, action)) {r : Except SagaRaised Unit}
    (h : Prog.Ran MayAnswer (scan conflictTasks cs) log r) :
    Attempted log cs planId action ∧ (∀ m ∈ log, About cs.id m.op) ∧
      ((∃ e, r = .error e) ↔ Escaped log cs.id) := by
  simp only [scan, hrun] at h
  rcases Prog.Ran.of_bind h with ⟨cs', l₁, l₂, rfl, hexecute, hpure⟩ | ⟨e, hexecute, rfl⟩
  · cases hpure with
    | done =>
      rw [List.append_nil]
      obtain ⟨hattempted, habout, hraised⟩ := ran_execute hexecute
      refine ⟨hattempted, habout, ?_⟩
      rw [← hraised]
      constructor
      · rintro ⟨e, he⟩
        cases he
      · rintro ⟨e, he⟩
        cases he
  · obtain ⟨hattempted, habout, hraised⟩ := ran_execute hexecute
    refine ⟨hattempted, habout, ?_⟩
    rw [← hraised]
    exact ⟨fun _ => ⟨e, rfl⟩, fun _ => ⟨e, rfl⟩⟩

/-- Every ChangeSet with a runnable action is attempted. -/
def AllAttempted (log : RoundLog) (active : List ChangeSet) : Prop :=
  ∀ cs ∈ active, ∀ planId action, runnable? cs = some (planId, action) →
    Attempted log cs planId action

/-- No call outside the `try` raises for a ChangeSet that has a runnable one behind it. -/
def NoneEscapedAhead (log : RoundLog) (active : List ChangeSet) : Prop :=
  ∀ before cs after, active = before ++ cs :: after → Escaped log cs.id →
    ∀ behind ∈ after, runnable? behind = none

theorem about_of_ran_each {active : List ChangeSet} {r : Except SagaRaised (List Unit)}
    (h : Prog.Ran MayAnswer (Prog.each (scan conflictTasks) active) log r) :
    ∀ m ∈ log, ∃ cs ∈ active, About cs.id m.op := by
  have hscan : ∀ {cs : ChangeSet} {log : RoundLog} {r : Except SagaRaised Unit},
      Prog.Ran MayAnswer (scan conflictTasks cs) log r → ∀ m ∈ log, About cs.id m.op := by
    intro cs log r h
    cases hrun : runnable? cs with
    | none =>
      rw [(ran_scan_none hrun h).1]
      exact fun m hm => absurd hm List.not_mem_nil
    | some found => exact (ran_scan_some hrun h).2.1
  induction active generalizing log r with
  | nil =>
    cases h with
    | done => exact fun m hm => absurd hm List.not_mem_nil
  | cons cs rest ih =>
    intro m hm
    rcases Prog.Ran.of_bind h with ⟨_, l₁, l₂, rfl, hfirst, hrest⟩ | ⟨e, hfirst, -⟩
    · rcases List.mem_append.mp hm with hm | hm
      · exact ⟨cs, List.mem_cons_self, hscan hfirst m hm⟩
      · rcases Prog.Ran.of_bind hrest with ⟨_, l₃, l₄, rfl, hmany, hpure⟩ | ⟨e, hmany, -⟩
        · cases hpure with
          | done =>
            rw [List.append_nil] at hm
            obtain ⟨other, hother, habout⟩ := ih hmany m hm
            exact ⟨other, List.mem_cons_of_mem _ hother, habout⟩
        · obtain ⟨other, hother, habout⟩ := ih hmany m hm
          exact ⟨other, List.mem_cons_of_mem _ hother, habout⟩
    · exact ⟨cs, List.mem_cons_self, hscan hfirst m hm⟩

theorem About.unique {id id' : UUID} {op : SagaPort} (h : About id op) (h' : About id' op) :
    id = id' := by
  cases op with
  | listActive => exact h.elim
  | recordRecoveryAction c => exact h.symm.trans h'
  | execute context => exact h.symm.trans h'
  | createForConflict context error => exact h.symm.trans h'

theorem Begins.about {op : SagaPort} (h : Begins cs planId action op) : About cs.id op := by
  cases op with
  | listActive => exact h.elim
  | recordRecoveryAction c => exact h.1
  | execute context =>
    obtain rfl : context = ⟨cs, action⟩ := h
    rfl
  | createForConflict context error => exact h.elim

theorem attempted_append {log rest : RoundLog} (hlog : ∀ m ∈ log, ¬ About cs.id m.op) :
    Attempted (log ++ rest) cs planId action ↔ Attempted rest cs planId action := by
  constructor
  · rintro ⟨m, hm, hbegins⟩
    rcases List.mem_append.mp hm with hm | hm
    · exact absurd hbegins.about (hlog m hm)
    · exact ⟨m, hm, hbegins⟩
  · rintro ⟨m, hm, hbegins⟩
    exact ⟨m, List.mem_append_right _ hm, hbegins⟩

theorem escaped_append {log rest : RoundLog} {id : UUID} (hlog : ∀ m ∈ log, ¬ About id m.op) :
    Escaped (log ++ rest) id ↔ Escaped rest id := by
  constructor
  · rintro ⟨m, hm, habout, hescaped⟩
    rcases List.mem_append.mp hm with hm | hm
    · exact absurd habout (hlog m hm)
    · exact ⟨m, hm, habout, hescaped⟩
  · rintro ⟨m, hm, hescaped⟩
    exact ⟨m, List.mem_append_right _ hm, hescaped⟩

theorem ran_scan_ok (h : Prog.Ran MayAnswer (scan conflictTasks cs) log (.ok ())) :
    (∀ m ∈ log, About cs.id m.op) ∧ ¬ Escaped log cs.id ∧
      ∀ planId action, runnable? cs = some (planId, action) → Attempted log cs planId action := by
  cases hrun : runnable? cs with
  | none =>
    obtain ⟨rfl, -⟩ := ran_scan_none hrun h
    exact ⟨fun m hm => absurd hm List.not_mem_nil, fun ⟨m, hm, _⟩ => absurd hm List.not_mem_nil,
      nofun⟩
  | some found =>
    obtain ⟨hattempted, habout, hraised⟩ := ran_scan_some hrun h
    refine ⟨habout, fun hescaped => ?_, ?_⟩
    · obtain ⟨e, he⟩ := hraised.mpr hescaped
      cases he
    · intro planId action heq
      obtain rfl := Option.some.inj heq
      exact hattempted

theorem id_ne_of_mem {cs other : ChangeSet} {rest : List ChangeSet}
    (hnodup : ((cs :: rest).map (·.id)).Nodup) (hother : other ∈ rest) : cs.id ≠ other.id :=
  fun heq => (List.nodup_cons.mp hnodup).1 (List.mem_map.mpr ⟨other, hother, heq.symm⟩)

theorem allAttempted_cons {rest : List ChangeSet} {log log' : RoundLog}
    (hnodup : ((cs :: rest).map (·.id)).Nodup) (hlog : ∀ m ∈ log, About cs.id m.op)
    (hattempted : ∀ planId action, runnable? cs = some (planId, action) →
      Attempted log cs planId action) :
    AllAttempted (log ++ log') (cs :: rest) ↔ AllAttempted log' rest := by
  have hother : ∀ other ∈ rest, ∀ m ∈ log, ¬ About other.id m.op :=
    fun other hother m hm habout => id_ne_of_mem hnodup hother ((hlog m hm).unique habout)
  constructor
  · intro hall other hmem planId action hrun
    exact (attempted_append (hother other hmem)).mp
      (hall other (List.mem_cons_of_mem _ hmem) planId action hrun)
  · intro hall other hmem planId action hrun
    rcases List.mem_cons.mp hmem with rfl | hmem
    · obtain ⟨m, hm, hbegins⟩ := hattempted planId action hrun
      exact ⟨m, List.mem_append_left _ hm, hbegins⟩
    · exact (attempted_append (hother other hmem)).mpr (hall other hmem planId action hrun)

theorem noneEscapedAhead_cons {rest : List ChangeSet} {log log' : RoundLog}
    (hnodup : ((cs :: rest).map (·.id)).Nodup) (hlog : ∀ m ∈ log, About cs.id m.op)
    (hlog' : ∀ m ∈ log', ∃ other ∈ rest, About other.id m.op) (hescaped : ¬ Escaped log cs.id) :
    NoneEscapedAhead (log ++ log') (cs :: rest) ↔ NoneEscapedAhead log' rest := by
  have hother : ∀ other ∈ rest, ∀ m ∈ log, ¬ About other.id m.op :=
    fun other hother m hm habout => id_ne_of_mem hnodup hother ((hlog m hm).unique habout)
  constructor
  · intro hnone before first after hsplit hesc
    refine hnone (cs :: before) first after (by rw [hsplit]; rfl) ?_
    exact (escaped_append (hother first (by rw [hsplit]; simp))).mpr hesc
  · intro hnone before first after hsplit hesc
    cases before with
    | nil =>
      obtain ⟨rfl, rfl⟩ := List.cons.inj hsplit
      obtain ⟨m, hm, habout, hm'⟩ := hesc
      rcases List.mem_append.mp hm with hm | hm
      · exact absurd ⟨m, hm, habout, hm'⟩ hescaped
      · obtain ⟨other, hmem, habout'⟩ := hlog' m hm
        exact absurd (habout.unique habout') (id_ne_of_mem hnodup hmem)
    | cons head before =>
      obtain ⟨rfl, rfl⟩ := List.cons.inj hsplit
      exact hnone before first after rfl ((escaped_append (hother first (by simp))).mp hesc)

/-- **A scan of many.** All are attempted exactly when nothing escapes ahead of one. -/
theorem ran_each_iff {conflictTasks : Bool} {active : List ChangeSet} {log : RoundLog}
    {r : Except SagaRaised (List Unit)} (hnodup : (active.map (·.id)).Nodup)
    (h : Prog.Ran MayAnswer (Prog.each (scan conflictTasks) active) log r) :
    AllAttempted log active ↔ NoneEscapedAhead log active := by
  induction active generalizing log r with
  | nil =>
    refine ⟨fun _ before cs after hsplit => ?_, fun _ cs hcs => absurd hcs List.not_mem_nil⟩
    cases before <;> cases hsplit
  | cons cs rest ih =>
    rcases Prog.Ran.of_bind h with ⟨_, l₁, l₂, rfl, hfirst, hrest⟩ | ⟨e, hfirst, -⟩
    · obtain ⟨habout, hescaped, hattempted⟩ := ran_scan_ok hfirst
      obtain ⟨r', hmany⟩ : ∃ r', Prog.Ran MayAnswer (Prog.each (scan conflictTasks) rest) l₂ r' := by
        rcases Prog.Ran.of_bind hrest with ⟨_, l₃, l₄, rfl, hmany, hpure⟩ | ⟨e, hmany, -⟩
        · cases hpure with
          | done =>
            rw [List.append_nil]
            exact ⟨_, hmany⟩
        · exact ⟨_, hmany⟩
      rw [allAttempted_cons hnodup habout hattempted,
        noneEscapedAhead_cons hnodup habout (about_of_ran_each hmany) hescaped]
      exact ih (List.nodup_cons.mp hnodup).2 hmany
    · cases hrun : runnable? cs with
      | none => cases (ran_scan_none hrun hfirst).2
      | some found =>
        obtain ⟨hattempted, habout, hraised⟩ := ran_scan_some hrun hfirst
        constructor
        · intro hall before first after hsplit _ behind hbehind
          have hmem : behind ∈ rest := by
            cases before with
            | nil =>
              obtain ⟨-, rfl⟩ := List.cons.inj hsplit
              exact hbehind
            | cons head before =>
              obtain ⟨-, rfl⟩ := List.cons.inj hsplit
              simp [hbehind]
          cases hbehindRun : runnable? behind with
          | none => rfl
          | some next =>
            obtain ⟨m, hm, hbegins⟩ :=
              hall behind (List.mem_cons_of_mem _ hmem) next.1 next.2 hbehindRun
            exact absurd ((habout m hm).unique hbegins.about) (id_ne_of_mem hnodup hmem)
        · intro hnone other hmem planId action hother
          rcases List.mem_cons.mp hmem with rfl | hmem
          · rw [hrun] at hother
            obtain rfl := Option.some.inj hother
            exact hattempted
          · rw [hnone [] cs rest rfl (hraised.mp ⟨e, rfl⟩) other hmem] at hother
            cases hother

/-- **One round.** Whatever the ports answer, a round attempts the next runnable action of every
active ChangeSet that has one exactly when no call outside the handler's `try` raises for a
ChangeSet that has a runnable one behind it. -/
theorem all_attempted_iff {conflictTasks : Bool} {active : List ChangeSet} {log : RoundLog}
    {r : Except SagaRaised (List Unit)}
    (h : Prog.Ran MayAnswer (runOnce conflictTasks) (⟨.listActive, (), .ok active, ()⟩ :: log) r) :
    AllAttempted log active ↔ NoneEscapedAhead log active := by
  cases h with
  | await answered rest => exact ran_each_iff answered rest

/-- An action that reverts a repository. -/
def revertAction (status : RecoveryActionStatus) : RecoveryAction :=
  { id := 11
    sequence := 1
    kind := .createRevertPullRequest
    repositoryId := some 10
    runId := none
    detail := "revert the merged head"
    status := status }

/-- A ChangeSet that is being rolled back. -/
def revertingChangeSet (id : UUID) (status : RecoveryActionStatus) : ChangeSet :=
  { id := id
    organizationId := 1
    projectId := 2
    createdByAgentId := 3
    title := "rolled back delivery"
    validationSnapshotId := none
    repositories := [sampleCandidate]
    status := .compensating
    recoveryPlans :=
      [{ id := 10
         trigger := .partialMerge
         reason := "partial merge"
         actions := [revertAction status] }]
    titled := by decide
    nonempty := List.cons_ne_nil sampleCandidate []
    ids_nodup := List.nodup_singleton sampleCandidate.repositoryId }

/-- What no Worker of the repository can resolve. -/
def noWorker : SagaRaised := .other "ValueError" "repository has no Worker to resolve a revert conflict"

/-- The first of two rollbacks conflicts, and its conflict task cannot be created. -/
def conflictLog : RoundLog :=
  [⟨.execute ⟨revertingChangeSet 100 .running, revertAction .running⟩, (),
      .error (.revertConflict "conflict"), ()⟩,
    ⟨.createForConflict ⟨revertingChangeSet 100 .running, revertAction .running⟩ "conflict", (),
      .error noWorker, ()⟩]

theorem ran_conflict : Prog.Ran MayAnswer (runOnce true)
    (⟨.listActive, (), .ok [revertingChangeSet 100 .running, revertingChangeSet 101 .pending], ()⟩ ::
      conflictLog) (.error noWorker) := by
  have hnodup : ([revertingChangeSet 100 .running, revertingChangeSet 101 .pending].map
      (·.id)).Nodup := by decide
  exact .await hnodup (.await trivial (.await trivial (.done _)))

/-- In that round nothing is attempted for the second rollback, and an exception escapes ahead of
it. -/
theorem all_attempted_iff_conflict :
    AllAttempted conflictLog [revertingChangeSet 100 .running, revertingChangeSet 101 .pending] ↔
      NoneEscapedAhead conflictLog
        [revertingChangeSet 100 .running, revertingChangeSet 101 .pending] :=
  all_attempted_iff ran_conflict

/-- Every round attempts the next runnable action of every active ChangeSet that has one. -/
def Isolates : Prop :=
  ∀ (conflictTasks : Bool) (active : List ChangeSet) (log : RoundLog)
    (r : Except SagaRaised (List Unit)),
    Prog.Ran MayAnswer (runOnce conflictTasks) (⟨.listActive, (), .ok active, ()⟩ :: log) r →
      AllAttempted log active

/-- **A conflict nobody takes stops the others.** -/
theorem conflict_stops_others : ¬ Isolates := by
  intro h
  have hall := h true _ _ _ ran_conflict
  have hpending : runnable? (revertingChangeSet 101 .pending) = some (10, revertAction .pending) :=
    rfl
  obtain ⟨m, hm, hbegins⟩ := hall (revertingChangeSet 101 .pending) (by simp) 10 _ hpending
  have habout := hbegins.about
  rcases List.mem_cons.mp hm with rfl | hm
  · cases habout
  · rw [List.mem_singleton.mp hm] at habout
    cases habout

end SagaRound
end Scm
end RepoMesh
