/-
# Task finality

Two paths write a task row. Task orchestration and the gateway write what a transition of `Task`
made of a row they read, by compare-and-set on its version; the assignment store assigns the row it
locked again, whatever its status is. The first path respects a final status, the second does so
exactly when it finds none.
-/
import RepoMesh.Orchestration.ReviewRounds
import RepoMesh.Runner.TaskWrites

namespace RepoMesh
namespace Runner

open Async
open Orchestration
open Delivery (UUID)

/-! ## The rows and their transitions -/

/-- The statuses a task leaves no more. A succeeded task is among them unless an operator may send
tasks back to work. -/
def Settled (again : Bool) (t : Task) : Prop :=
  t.status = .cancelled ∨ t.status = .superseded ∨ (again = false ∧ t.status = .succeeded)

instance (again : Bool) (t : Task) : Decidable (Settled again t) := by
  unfold Settled
  infer_instance

/-- What a transition of `Task` makes of a row. -/
inductive Transition (again : Bool) (t : Task) : Task → Prop
  | started (ready : t.status = .assigned ∨ t.status = .blocked) :
      Transition again t (t.moved .inProgress none)
  | reported {status : TaskStatus} (unfinished : t.status.isFinal = false)
      (reports : status = .blocked ∨ status = .succeeded ∨ status = .failed)
      (summary : String) : Transition again t (t.moved status (some summary))
  | superseded (unfinished : t.status.isFinal = false) (summary : String) :
      Transition again t (t.moved .superseded (some summary))
  | redone (permitted : again = true) (redoable : t.status.isRedoable = true) :
      Transition again t (t.moved .assigned none)

variable {again : Bool} {t t' : Task}

theorem Transition.id_eq (h : Transition again t t') : t'.id = t.id := by
  cases h <;> rfl

theorem Transition.version_eq (h : Transition again t t') : t'.version = t.version + 1 := by
  cases h <;> rfl

theorem not_settled_of_not_final (h : t.status.isFinal = false) : ¬ Settled again t := by
  rintro (hs | hs | ⟨-, hs⟩) <;> rw [hs] at h <;> cases h

theorem Transition.not_settled (h : Transition again t t') : ¬ Settled again t := by
  cases h with
  | started ready =>
    refine not_settled_of_not_final ?_
    rcases ready with hs | hs <;> rw [hs] <;> rfl
  | reported unfinished => exact not_settled_of_not_final unfinished
  | superseded unfinished => exact not_settled_of_not_final unfinished
  | redone permitted redoable =>
    rintro (hs | hs | ⟨hagain, -⟩)
    · rw [hs] at redoable
      cases redoable
    · rw [hs] at redoable
      cases redoable
    · cases hagain.symm.trans permitted

/-- What becomes of a row over a run: a later one has a larger version, and a settled one stays. -/
def Final (again : Bool) (t t' : Task) : Prop :=
  (t' = t ∨ t.version < t'.version) ∧ (Settled again t → t' = t)

theorem Final.refl (t : Task) : Final again t t := ⟨.inl rfl, fun _ => rfl⟩

theorem Final.trans {a b c : Task} (hab : Final again a b) (hbc : Final again b c) :
    Final again a c := by
  have hversion := Versioned.keeps_version Task.version
  refine ⟨hversion.trans a b c hab.1 hbc.1, fun hsettled => ?_⟩
  obtain rfl := hab.2 hsettled
  exact hbc.2 hsettled

/-- A row that was read earlier, and what became of it: versions only grow. -/
abbrev Later : RunnerWorld → RunnerWorld → Prop :=
  Versioned.Kept RunnerWorld.getTask fun t t' => t' = t ∨ t.version < t'.version

/-- The row was read. -/
abbrev WasRead (st : RunnerWorld) (t : Task) : Prop :=
  Versioned.Seen RunnerWorld.getTask (fun t t' => t' = t ∨ t.version < t'.version) st t.id t

theorem later_trans (a b c : RunnerWorld) (hab : Later a b) (hbc : Later b c) : Later a c :=
  hab.trans (Versioned.keeps_version Task.version) hbc

theorem later_refl (st : RunnerWorld) : Later st st :=
  Versioned.Kept.refl (Versioned.keeps_version Task.version) st

theorem WasRead.later {st st' : RunnerWorld} (h : WasRead st t) (hst : Later st st') :
    WasRead st' t :=
  h.kept (Versioned.keeps_version Task.version) hst

/-! ## What the calls write -/

/-- A compare-and-set writes a transition of a row that was read, at the version it had then. -/
def TaskAsks (again : Bool) : RunnerCallOp → RunnerWorld → Prop
  | .task (.updateTask task version), st =>
    ∃ read, WasRead st read ∧ version = read.version ∧ Transition again read task
  | _, _ => True

/-- The calls this is about are correct whatever happens to the rows in between. -/
abbrev Safe (again : Bool) {α : Type} (p : RunnerCall α) (st : RunnerWorld) : Prop :=
  Prog.Resilient Later (fun _ => True) RunnerExec (TaskAsks again) p st

/-- The same of a call of task orchestration. -/
abbrev CallSafe (again : Bool) {α : Type} (p : Call α) (st : RunnerWorld) : Prop :=
  Prog.Resilient Later (fun _ => True) (fun op => RunnerExec (.task op))
    (fun op => TaskAsks again (.task op)) p st

theorem CallSafe.ofCall {α : Type} {p : Call α} {st : RunnerWorld} (h : CallSafe again p st) :
    Safe again (RunnerCall.ofCall p) st := by
  unfold RunnerCall.ofCall
  exact Prog.wp_expand Prog.interfered_mono (fun _ _ _ hop => hop) h

theorem taskAsks_of_kind {op : Op} (h : op.kind ≠ .updateTask) (st : RunnerWorld) :
    TaskAsks again (.task op) st := by
  cases op with
  | updateTask task version => exact absurd rfl h
  | _ => trivial

theorem callSafe_within {α : Type} {kinds : List OpKind} {p : Call α} (h : Within kinds p)
    (hkinds : OpKind.updateTask ∉ kinds) (st : RunnerWorld) : CallSafe again p st :=
  Prog.Only.resilient h (fun _ st hop => taskAsks_of_kind (fun hk => hkinds (hk ▸ hop)) st) st

theorem callSafe_asks {α : Type} {p : Call α} (h : Asks p) (st : RunnerWorld) :
    CallSafe again p st := by
  have hwithin : Within [.ask] p := h.within (by decide)
  exact callSafe_within hwithin (by decide) st

theorem wasRead_of_getTask {taskId : UUID} {st st' : RunnerWorld} {task : Task}
    (h : RunnerExec (.task (.getTask taskId)) st (.ok (some task)) st') : WasRead st' task := by
  obtain ⟨hget, rfl⟩ := getTask_answered h
  have hid : task.id = taskId := (World.getTask_eq_some hget).2
  exact Versioned.seen_of_get (Versioned.keeps_version Task.version) (hid ▸ hget)

theorem ends_requiredTask (taskId : UUID) (st : RunnerWorld) :
    Prog.Ends Later (fun _ => True) (fun op => RunnerExec (.task op))
      (fun op => TaskAsks again (.task op)) (requiredTask taskId)
      (fun task st' => WasRead st' task) st := by
  refine Prog.ends_perform_bind fun st₁ _ _ => ⟨trivial, fun found st₂ hexec _ _ => ?_⟩
  cases found with
  | none => exact Prog.ends_throw _ _ st₂
  | some task => exact Prog.ends_pure (wasRead_of_getTask hexec)

theorem callSafe_updateTask {α : Type} {read task : Task} {f : Unit → Call α} {st : RunnerWorld}
    (hread : WasRead st read) (htask : Transition again read task)
    (hf : ∀ st', CallSafe again (f ()) st') :
    CallSafe again (Call.updateTask task read.version >>= f) st :=
  Prog.Resilient.perform_bind fun _ hR _ =>
    ⟨⟨read, hread.later hR, rfl, htask⟩, fun _ st₂ _ _ _ => hf st₂⟩

section Calls

variable [Codecs]

theorem callSafe_assign (command : AssignTaskCommand) (key : String) (origin : TaskOrigin)
    (deliver : Bool) (st : RunnerWorld) : CallSafe again (assign command key origin deliver) st :=
  callSafe_within (within_assign command key origin deliver) (by decide) st

omit [Codecs] in
theorem callSafe_start (taskId agentId : UUID) (st : RunnerWorld) :
    CallSafe again (start taskId agentId) st := by
  refine Prog.Resilient.bind (ends_requiredTask taskId st) fun task st₁ hread => ?_
  split
  · trivial
  refine Prog.Resilient.perform_bind fun st₂ hR _ => ⟨trivial, fun gate st₃ _ hR' _ => ?_⟩
  split
  · trivial
  refine Prog.Resilient.lift_bind fun updated hstart => ?_
  obtain ⟨hready, rfl⟩ := Task.start_ok hstart
  have hread' := (hread.later hR).later hR'
  exact callSafe_updateTask hread' (.started hready) fun _ => trivial

theorem callSafe_recordReport {task : Task} (command : ReportTaskCommand) {st : RunnerWorld}
    (hread : WasRead st task) : CallSafe again (recordReport task command) st := by
  unfold recordReport
  split
  · trivial
  split
  · trivial
  refine Prog.Resilient.lift_bind fun updated hreport => ?_
  obtain ⟨hfinal, hstatus, rfl⟩ := Task.report_ok hreport
  split
  · trivial
  · exact callSafe_updateTask hread (.reported hfinal hstatus _) fun _ => trivial

theorem callSafe_report (command : ReportTaskCommand) (key : String) (st : RunnerWorld) :
    CallSafe again (report command key) st := by
  have hreporter : CallSafe again (requiredAgent command.reporterAgentId) st :=
    callSafe_asks (asks_requiredAgent _) st
  refine Prog.Resilient.bind hreporter.ends fun reporter st₁ _ => ?_
  refine Prog.Resilient.bind (ends_requiredTask command.taskId st₁) fun task st₂ hread => ?_
  split
  · trivial
  refine Prog.Resilient.bind (callSafe_recordReport command hread).ends fun updated st₃ _ => ?_
  have hfollow : Asks (followReport reporter task updated command key) :=
    (asksPorts_followReport _ _ _ _ _).asks
  exact Prog.Resilient.bind (callSafe_asks hfollow st₃).ends fun _ _ _ => trivial

theorem callSafe_redispatch (taskId : UUID) (attempt : String) {redo : Bool}
    (hredo : redo = true → again = true) (st : RunnerWorld) :
    CallSafe again (redispatch taskId attempt redo) st := by
  refine Prog.Resilient.bind (ends_requiredTask taskId st) fun found st₁ hread => ?_
  have hreopen : CallSafe again (reopenForRedispatch found redo) st₁ := by
    unfold reopenForRedispatch
    split
    · trivial
    split
    · trivial
    rename_i hagain
    refine Prog.Resilient.lift_bind fun reopened hreopened => ?_
    obtain ⟨hredoable, rfl⟩ := Task.redo_ok hreopened
    have hpermitted : again = true := hredo (by simpa using hagain)
    exact callSafe_updateTask hread (.redone hpermitted hredoable) fun _ => trivial
  refine Prog.Resilient.bind hreopen.ends fun task st₂ _ => ?_
  refine Prog.Resilient.perform_bind fun st₃ _ _ => ⟨trivial, fun key st₄ _ _ _ => ?_⟩
  cases key with
  | none => trivial
  | some key =>
    have hdeliver : CallSafe again (deliverTo task key (some attempt)) st₄ :=
      callSafe_asks (asks_deliverTo _ _ _) st₄
    exact Prog.Resilient.bind hdeliver.ends fun _ _ _ => trivial

omit [Codecs] in
theorem callSafe_supersede (command : SupersedeTaskCommand) (key : String) (st : RunnerWorld) :
    CallSafe again (supersede command key) st := by
  unfold supersede
  split
  · trivial
  refine Prog.Resilient.bind (ends_requiredTask command.taskId st) fun task st₁ hread => ?_
  dsimp only
  generalize (if Text.strip command.reason = "" then "SUPERSEDED"
    else "SUPERSEDED: " ++ Text.strip command.reason) = words
  split
  · trivial
  refine Prog.Resilient.lift_bind fun updated hsupersede => ?_
  obtain ⟨hfinal, rfl⟩ := Task.supersede_ok hsupersede
  exact callSafe_updateTask hread (.superseded hfinal _) fun _ => trivial

end Calls

/-! ## The gateway and the coordinator -/

/-- The operations that are no compare-and-set on a task. -/
def NoUpdate : RunnerCallOp → Prop
  | .task (.updateTask ..) => False
  | _ => True

theorem safe_of_noUpdate {α : Type} {p : RunnerCall α} (h : p.Only NoUpdate) (st : RunnerWorld) :
    Safe again p st := by
  refine Prog.Only.resilient h (fun op st hop => ?_) st
  cases op with
  | task op => exact taskAsks_of_kind (fun hkind => by cases op <;> first | exact hop | cases hkind) st
  | _ => trivial

theorem noUpdate_of_quiet {op : RunnerCallOp} (h : ¬ WritesTask op) : NoUpdate op := by
  cases op with
  | task op => cases op <;> first | exact h trivial | trivial
  | _ => trivial

theorem Quiet.noUpdate {α : Type} {p : RunnerCall α} (h : Quiet p) : p.Only NoUpdate :=
  Prog.Only.mono h fun _ hop => noUpdate_of_quiet hop

theorem Quiet.safe {α : Type} {p : RunnerCall α} (h : Quiet p) (st : RunnerWorld) :
    Safe again p st :=
  safe_of_noUpdate h.noUpdate st

section Gateway

variable [RunnerCodecs]

theorem safe_writeBack (document : EventDocument) (status : TaskStatus) (st : RunnerWorld) :
    Safe again (writeBack document status) st := by
  refine Prog.Resilient.perform_bind fun st₁ _ _ => ⟨trivial, fun dispatch st₂ _ _ _ => ?_⟩
  cases dispatch with
  | none => trivial
  | some dispatch =>
    refine Prog.Resilient.perform_bind fun st₃ _ _ => ⟨trivial, fun found st₄ hexec _ _ => ?_⟩
    cases found with
    | none => trivial
    | some task =>
      have hread := wasRead_of_getTask hexec
      dsimp only
      split
      · trivial
      split
      · exact Quiet.safe (quiet_advanceIfTerminal _ _) st₄
      refine Prog.Resilient.lift_bind fun updated hreport => ?_
      obtain ⟨hfinal, hstatus, rfl⟩ := Task.report_ok hreport
      refine Prog.Resilient.perform_bind fun st₅ hR _ => ⟨?_, fun _ st₆ _ _ _ => ?_⟩
      · exact ⟨task, hread.later hR, rfl, .reported hfinal hstatus _⟩
      · exact Quiet.safe (quiet_advanceIfTerminal _ _) st₆

theorem safe_receiveEvent (document : EventDocument) (worker : Option UUID) (st : RunnerWorld) :
    Safe again (receiveEvent document worker) st := by
  refine Prog.Resilient.perform_bind fun st₁ _ _ => ⟨trivial, fun dispatch st₂ _ _ _ => ?_⟩
  have hallows : Safe again (assignmentAllows dispatch) st₂ :=
    Quiet.safe (quiet_assignmentAllows dispatch) st₂
  refine Prog.Resilient.bind hallows.ends fun allowed st₃ _ => ?_
  refine Prog.Resilient.perform_bind fun st₄ _ _ => ⟨trivial, fun inserted st₅ _ _ _ => ?_⟩
  split
  · trivial
  · rename_i status _
    refine Prog.Resilient.perform_bind fun st₆ _ _ => ⟨trivial, fun projects st₇ _ _ _ => ?_⟩
    split
    · refine Prog.Resilient.bind (safe_writeBack document status st₇).ends fun _ st₈ _ => ?_
      have hcomplete : Safe again (completeAssignment document dispatch) st₈ :=
        Quiet.safe (quiet_completeAssignment document dispatch) st₈
      refine Prog.Resilient.bind hcomplete.ends fun _ st₉ _ => ?_
      have hrecover : Safe again (recoverRun document) st₉ :=
        Quiet.safe (quiet_recoverRun document) st₉
      exact Prog.Resilient.bind hrecover.ends fun _ _ _ => trivial
    · trivial

end Gateway

theorem noUpdate_decideFor (n : ℤ) (operation : WorkerRecoveryOperation) (task : Task)
    (assignment : TaskAssignmentAttempt) :
    (decideFor (portCoordinator n) operation task assignment).Only NoUpdate := by
  unfold decideFor
  split
  · exact Prog.only_done _
  refine Prog.only_bind ((Prog.only_perform _).mpr trivial) fun healthy => ?_
  dsimp only
  split
  · exact (quiet_escalated _ _ _).noUpdate
  split
  · unfold resumeSame
    split
    · exact (quiet_escalated _ _ _).noUpdate
    refine Prog.only_bind ((Prog.only_perform _).mpr trivial) fun _ => ?_
    exact Prog.only_bind ((Prog.only_perform _).mpr trivial) fun _ => Prog.only_done _
  · unfold reassignElsewhere
    split
    · exact (quiet_escalated _ _ _).noUpdate
    refine Prog.only_bind (quiet_chooseReplacement _ _).noUpdate ?_
    rintro (reason | workerId)
    · exact (quiet_escalated _ _ _).noUpdate
    refine Prog.only_bind ((Prog.only_perform _).mpr trivial) fun _ => ?_
    exact Prog.only_bind ((Prog.only_perform _).mpr trivial) fun _ => Prog.only_done _

theorem noUpdate_decide (n : ℤ) (operation : WorkerRecoveryOperation) :
    (Runner.decide (portCoordinator n) operation).Only NoUpdate := by
  refine Prog.only_bind ((Prog.only_perform _).mpr trivial) ?_
  rintro (_ | task)
  · refine Prog.only_bind ((Prog.only_perform _).mpr trivial) fun _ => ?_
    exact (quiet_escalated _ _ _).noUpdate
  · refine Prog.only_bind (quiet_activeOrInitial _).noUpdate fun assignment => ?_
    exact noUpdate_decideFor _ _ _ _

/-! ## One step -/

/-- The writes of the assignment store. -/
def Recovers : RunnerCallOp → Prop
  | .reassign _ | .reopenSameAssignment .. => True
  | _ => False

/-- What one step makes of a row: nothing, or one version more, by a transition or by a write of the
assignment store. -/
def RowMove (again : Bool) (op : Option RunnerCallOp) (t t' : Task) : Prop :=
  t' = t ∨ (t'.version = t.version + 1 ∧
    (Transition again t t' ∨ ∃ o, op = some o ∧ Recovers o ∧ TaskEffect o t t'))

/-- A write of the assignment store finds no settled row. -/
def RecoversUnfinished (again : Bool) : RunnerCallOp → RunnerWorld → Prop
  | .reassign c, st => ∀ t, st.getTask c.taskId = some t → ¬ Settled again t
  | .reopenSameAssignment taskId .., st => ∀ t, st.getTask taskId = some t → ¬ Settled again t
  | _, _ => True

theorem Transition.rewritten_eq (h : Transition again t t') : World.rewritten t' t = t' := by
  cases h <;> simp [World.rewritten, Task.moved]

/-- **One operation**, performed as the calls perform it. -/
theorem rowMove_of_exec {op : RunnerCallOp} {st st' : RunnerWorld}
    {r : Except Raised (RunnerAnswer op)} (hasks : TaskAsks again op st)
    (h : RunnerExec op st r st') (id : UUID) (t : Task) (ht : st.getTask id = some t) :
    ∃ t', st'.getTask id = some t' ∧ RowMove again (some op) t t' := by
  obtain ⟨t', ht', hrow | ⟨-, heffect⟩⟩ := rows_of_exec h id t ht
  · exact ⟨t', ht', .inl hrow⟩
  refine ⟨t', ht', .inr ?_⟩
  cases heffect with
  | @updated task t same =>
    obtain ⟨read, hread, hversion, htransition⟩ := hasks
    have hid : read.id = id :=
      (htransition.id_eq.symm.trans same).trans (World.getTask_eq_some ht).2
    have hcurrent : t = read :=
      hread.current (Versioned.keeps_version Task.version) (hid ▸ ht) hversion
    rw [← hcurrent] at htransition
    rw [htransition.rewritten_eq]
    exact ⟨htransition.version_eq, .inl htransition⟩
  | reassigned same version hassigner =>
    exact ⟨rfl, .inr ⟨_, rfl, trivial, .reassigned same version hassigner⟩⟩
  | reopened => exact ⟨rfl, .inr ⟨_, rfl, trivial, .reopened⟩⟩

theorem RowMove.later {op : Option RunnerCallOp} (h : RowMove again op t t') :
    t' = t ∨ t.version < t'.version := by
  rcases h with h | ⟨hversion, -⟩
  · exact .inl h
  · exact .inr (by omega)

theorem RowMove.final {op : RunnerCallOp} {st : RunnerWorld} {id : UUID}
    (ht : st.getTask id = some t) (h : RowMove again (some op) t t')
    (hunfinished : RecoversUnfinished again op st) : Final again t t' := by
  refine ⟨h.later, fun hsettled => ?_⟩
  rcases h with h | ⟨-, htransition | ⟨o, ho, hrecovers, heffect⟩⟩
  · exact h
  · exact absurd hsettled htransition.not_settled
  · cases ho
    have hid : t.id = id := (World.getTask_eq_some ht).2
    cases heffect with
    | updated same => exact hrecovers.elim
    | reassigned same version hassigner =>
      exact absurd hsettled (hunfinished t (by rw [← same, hid]; exact ht))
    | reopened => exact absurd hsettled (hunfinished t (by rw [hid]; exact ht))

/-- **A recovery write** keeps the settled rows exactly when it finds none. -/
theorem recovers_final_iff {op : RunnerCallOp} {st st' : RunnerWorld} {a : RunnerAnswer op}
    (hop : Recovers op) (h : RunnerExec op st (.ok a) st') :
    Versioned.Kept RunnerWorld.getTask (Final again) st st' ↔ RecoversUnfinished again op st := by
  have hasks : TaskAsks again op st := by
    cases op with
    | task op => exact hop.elim
    | _ => trivial
  constructor
  · intro hkept
    have hwritten : ∀ id t, st.getTask id = some t →
        (∃ t', st'.getTask id = some t' ∧ t'.version = t.version + 1) → ¬ Settled again t := by
      rintro id t ht ⟨t', ht', hversion⟩ hsettled
      obtain ⟨t'', ht'', -, hfinal⟩ := hkept id t ht
      obtain rfl := Option.some.inj (ht''.symm.trans ht')
      rw [hfinal hsettled] at hversion
      omega
    cases op with
    | reassign c => exact fun t ht => hwritten _ t ht (reassign_writes h ht)
    | reopenSameAssignment taskId version generation =>
      exact fun t ht => hwritten _ t ht (reopenSameAssignment_writes h ht)
    | _ => exact hop.elim
  · intro hunfinished id t ht
    obtain ⟨t', ht', hmove⟩ := rowMove_of_exec hasks h id t ht
    exact ⟨t', ht', hmove.final ht hunfinished⟩

/-! ## The system -/

/-- A call whose result is dropped. -/
def dropped {α : Type} (p : RunnerCall α) : RunnerCall Unit := p >>= fun _ => pure ()

theorem Safe.dropped {α : Type} {p : RunnerCall α} {st : RunnerWorld} (h : Safe again p st) :
    Safe again (dropped p) st :=
  Prog.Resilient.bind h.ends fun _ _ _ => trivial

theorem WritesOnce.dropped {α : Type} {p : RunnerCall α} (h : WritesOnce p) :
    WritesOnce (dropped p) :=
  Prog.AtMostOnce.bind_right h fun _ => Prog.only_done _

-- From here on the rules above are used; unfolding would evaluate the call itself.
attribute [irreducible] dropped

section System

variable [RunnerCodecs]

/-- The calls that write task rows. Unless `again`, no operator sends a task back to work. -/
inductive Started (again : Bool) : RunnerCall Unit → Prop
  | assign (command : AssignTaskCommand) (key : String) (origin : TaskOrigin) (deliver : Bool) :
      Started again (dropped (.ofCall (assign command key origin deliver)))
  | start (taskId agentId : UUID) : Started again (dropped (.ofCall (start taskId agentId)))
  | report (command : ReportTaskCommand) (key : String) :
      Started again (dropped (.ofCall (report command key)))
  | redispatch (taskId : UUID) (attempt : String) (redo : Bool) (hredo : redo = true → again = true) :
      Started again (dropped (.ofCall (redispatch taskId attempt redo)))
  | supersede (command : SupersedeTaskCommand) (key : String) :
      Started again (dropped (.ofCall (supersede command key)))
  | receiveEvent (document : EventDocument) (worker : Option UUID) :
      Started again (dropped (receiveEvent document worker))
  | reassign (command : ReassignCommand) : Started again (dropped (.reassign command))
  | reopenSameAssignment (taskId : UUID) (version : ℕ) (generation : ℤ) :
      Started again (dropped (.reopenSameAssignment taskId version generation))
  | decide (n : ℤ) (operation : WorkerRecoveryOperation) :
      Started again (dropped (Runner.decide (portCoordinator n) operation))

/-- Any number of these calls, interrupted at every await; what else happens leaves the task
rows. -/
def taskSystem (again : Bool) : Threaded RunnerAnswer Raised Unit RunnerWorld where
  Exec := RunnerExec
  Starts := Started again
  Environment st st' := st'.world.tasks = st.world.tasks

theorem safe_started {p : RunnerCall Unit} (h : Started again p) (st : RunnerWorld) :
    Safe again p st := by
  cases h with
  | assign command key origin deliver =>
    exact Safe.dropped (CallSafe.ofCall (callSafe_assign command key origin deliver st))
  | start taskId agentId => exact Safe.dropped (CallSafe.ofCall (callSafe_start taskId agentId st))
  | report command key => exact Safe.dropped (CallSafe.ofCall (callSafe_report command key st))
  | redispatch taskId attempt redo hredo =>
    exact Safe.dropped (CallSafe.ofCall (callSafe_redispatch taskId attempt hredo st))
  | supersede command key => exact Safe.dropped (CallSafe.ofCall (callSafe_supersede command key st))
  | receiveEvent document worker => exact Safe.dropped (safe_receiveEvent document worker st)
  | reassign command =>
    have honly : (RunnerCall.reassign command).Only NoUpdate := (Prog.only_perform _).mpr trivial
    exact Safe.dropped (safe_of_noUpdate honly st)
  | reopenSameAssignment taskId version generation =>
    have honly : (RunnerCall.reopenSameAssignment taskId version generation).Only NoUpdate :=
      (Prog.only_perform _).mpr trivial
    exact Safe.dropped (safe_of_noUpdate honly st)
  | decide n operation => exact Safe.dropped (safe_of_noUpdate (noUpdate_decide n operation) st)

theorem writesOnce_started {p : RunnerCall Unit} (h : Started again p) : WritesOnce p := by
  cases h with
  | assign command key origin deliver =>
    exact WritesOnce.dropped (RunnerCall.atMostOnce_ofCall (writesOnce_assign ..))
  | start taskId agentId =>
    exact WritesOnce.dropped (RunnerCall.atMostOnce_ofCall (writesOnce_start ..))
  | report command key =>
    exact WritesOnce.dropped (RunnerCall.atMostOnce_ofCall (writesOnce_report ..))
  | redispatch taskId attempt redo hredo =>
    exact WritesOnce.dropped (RunnerCall.atMostOnce_ofCall (writesOnce_redispatch ..))
  | supersede command key =>
    exact WritesOnce.dropped (RunnerCall.atMostOnce_ofCall (writesOnce_supersede ..))
  | receiveEvent document worker => exact WritesOnce.dropped (writesOnce_receiveEvent document worker)
  | reassign command => exact WritesOnce.dropped (Prog.atMostOnce_perform _)
  | reopenSameAssignment taskId version generation =>
    exact WritesOnce.dropped (Prog.atMostOnce_perform _)
  | decide n operation => exact WritesOnce.dropped (writesOnce_decide n operation)

theorem taskSystem_respects : (taskSystem again).Respects Later (fun _ => True) (TaskAsks again) where
  refl := later_refl
  trans := later_trans
  exec := by
    intro op st r st' _ hasks hexec
    refine ⟨fun id t ht => ?_, trivial⟩
    obtain ⟨t', ht', hmove⟩ := rowMove_of_exec hasks hexec id t ht
    exact ⟨t', ht', hmove.later⟩
  environment := by
    intro st st' _ hmoves
    exact ⟨fun id t ht => ⟨t, (getTask_congr hmoves id).trans ht, .inl rfl⟩, trivial⟩
  starts := fun p st hstarts _ => safe_started hstarts st

variable {start : RunnerWorld} {steps : List (Option RunnerCallOp × RunnerWorld)}
  {pool : Pool RunnerAnswer Raised Unit RunnerWorld}

theorem rowMoves (h : (taskSystem again).Trace start steps pool) :
    ∀ e ∈ moves steps pool.state, ∀ id t, e.2.1.getTask id = some t →
      ∃ t', e.2.2.getTask id = some t' ∧ RowMove again e.1 t t' := by
  refine h.moves (G := fun op st st' => ∀ id t, st.getTask id = some t →
    ∃ t', st'.getTask id = some t' ∧ RowMove again op t t') taskSystem_respects ?_ ?_ ?_ trivial
  · exact fun op st r st' _ hasks hexec => rowMove_of_exec hasks hexec
  · exact fun st id t ht => ⟨t, ht, .inl rfl⟩
  · exact fun st st' _ hmoves id t ht => ⟨t, (getTask_congr hmoves id).trans ht, .inl rfl⟩

end System

/-! ## A superseded task that is assigned again -/

/-- Codecs for results in prose. -/
@[reducible] def proseRunnerCodecs : RunnerCodecs := { proseCodecs with evidenceText := fun _ => "done" }

/-- Ports whose callbacks succeed, with every worker healthy. -/
def quietPort : (op : RunnerCallOp) → Except Raised (RunnerAnswer op)
  | .healthy _ => .ok true
  | .recentFailures _ => .ok 0
  | .resume _ | .startReplacement .. | .escalate .. | .onTerminal _ => .ok ()
  | _ => .error (.runtimeError "not a port")

/-- The stores with these ports. -/
def quietExec (op : RunnerCallOp) (st : RunnerWorld) :
    Except Raised (RunnerAnswer op) × RunnerWorld :=
  (perform op st).getD (quietPort op, st)

theorem quietExec_allowed (op : RunnerCallOp) (st : RunnerWorld) :
    RunnerExec op st (quietExec op st).1 (quietExec op st).2 := by
  unfold quietExec
  cases hperform : perform op st with
  | none => exact .port _ hperform
  | some answer => exact .store hperform

/-- A task in progress in its first attempt. -/
def sampleWorld : RunnerWorld :=
  { world := { tasks := [leaderTask], ports := leaderPorts, nextId := 9 }
    attempts := [
      { id := 50
        organizationId := 1
        projectId := 2
        repositoryId := 10
        taskId := 0
        workerAgentId := 2
        generation := 1
        reason := .initial
        assignedBy := .agent
        assignedById := some 1
        previousAttemptId := none
        createdAt := 0 }] }

/-- The recovery of its interrupted execution. -/
def sampleRecovery : WorkerRecoveryOperation :=
  { id := 60
    executionId := 70
    taskId := 0
    assignmentAttemptId := some 50
    assignmentGeneration := some 1
    failedWorkerId := 2
    reason := "interrupted"
    nativeSessionId := some "session"
    createdAt := 0 }

/-- The task is withdrawn. -/
def sampleSupersede : RunnerCall Unit :=
  dropped (.ofCall (supersede { taskId := 0, reason := "withdrawn" } "withdraw"))

/-- What that leaves. -/
def sampleSuperseded : RunnerWorld :=
  (Prog.advance quietExec 2 (sampleSupersede, sampleWorld)).2

/-- Then its execution is recovered. -/
def sampleDecide : RunnerCall Unit := dropped (Runner.decide (portCoordinator 2) sampleRecovery)

/-- What that leaves. -/
def sampleReopened : RunnerWorld :=
  (Prog.advance quietExec 5 (sampleDecide, sampleSuperseded)).2

theorem sample_statuses :
    (sampleSuperseded.getTask 0).map (·.status) = some .superseded ∧
      (sampleReopened.getTask 0).map (·.status) = some .assigned := by
  decide +kernel

end Runner
end RepoMesh
