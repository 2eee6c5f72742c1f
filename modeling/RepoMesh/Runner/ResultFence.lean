/-
# Whose result settles a task

A terminal event of a run is written back to the task of the run. The task may have been opened again
since the run was dispatched: by an operator's redo, by a reassignment, or because its execution is
resumed. The stores do not record when, so the system here keeps a log beside them, and marks the
operations of each `receive_event` with its event.
-/
import RepoMesh.AgentRuntime.DispatchLife
import RepoMesh.Runner.TaskFinality

namespace RepoMesh
namespace Runner

open Async
open AgentRuntime (RuntimeState RuntimeMove RunnerGatewayStore)
open AgentRuntime.RunnerGatewayStore (TasksKept)
open Orchestration
open Delivery (UUID)

/-! ## The log -/

/-- What the log records. -/
inductive FenceEntry where
  | dispatched (runId : UUID)
  | reopened (taskId : UUID)
  deriving DecidableEq

/-- The rows, and the log, the newest entry first. -/
structure FencedWorld where
  rows : RunnerWorld
  log : List FenceEntry

/-- The task was not opened again after the run was dispatched. A run that is not in the log was
dispatched before it begins. -/
def DispatchedSince (log : List FenceEntry) (runId taskId : UUID) : Prop :=
  .reopened taskId ∉ log.takeWhile fun e => e ≠ .dispatched runId

instance (log : List FenceEntry) (runId taskId : UUID) :
    Decidable (DispatchedSince log runId taskId) := by
  unfold DispatchedSince
  infer_instance

theorem DispatchedSince.append {log new : List FenceEntry} {runId taskId : UUID}
    (h : DispatchedSince log runId taskId) (hnew : .reopened taskId ∉ new) :
    DispatchedSince (new ++ log) runId taskId := by
  intro hmem
  rw [List.takeWhile_append] at hmem
  split at hmem
  · rcases List.mem_append.mp hmem with hmem | hmem
    · exact hnew hmem
    · exact h hmem
  · exact hnew (List.takeWhile_subset _ hmem)

/-! ## The system -/

/-- An operation of a runner call, with the event its caller is receiving, if it is. -/
abbrev MarkedOp := Option EventDocument × RunnerCallOp

/-- What an answered operation enters in the log. An update without an event is a redo. -/
def entries : MarkedOp → List FenceEntry
  | (none, .task (.updateTask task _)) => [.reopened task.id]
  | (_, .reassign command) => [.reopened command.taskId]
  | (_, .reopenSameAssignment taskId ..) => [.reopened taskId]
  | _ => []

/-- Operations are executed on the rows; an answered one is entered in the log. -/
def FencedExec (op : MarkedOp) (a : FencedWorld) (r : Except Raised (RunnerAnswer op.2))
    (b : FencedWorld) : Prop :=
  RunnerExec op.2 a.rows r b.rows ∧
    b.log = (match r with
      | .ok _ => entries op
      | .error _ => []) ++ a.log

/-- The runs dispatched in one step. -/
def newRuns (a b : RuntimeState) : List FenceEntry :=
  (b.gateway.dispatches.filter fun d => (a.gateway.getDispatch d.runId).isNone).map
    fun d => .dispatched d.runId

/-- What happens beside the calls: the runtime moves, and with it runs are dispatched; recovery
operations are made, claimed and finished. -/
inductive FencedMove : FencedWorld → FencedWorld → Prop
  | runtime {a : FencedWorld} {runtime : RuntimeState} (moves : RuntimeMove a.rows.runtime runtime) :
      FencedMove a ⟨{ a.rows with runtime := runtime }, newRuns a.rows.runtime runtime ++ a.log⟩
  | recoveries (a : FencedWorld) (recoveries : Recoveries) :
      FencedMove a ⟨{ a.rows with recoveries := recoveries }, a.log⟩

section System

variable [RunnerCodecs]

/-- The calls that receive events, open tasks again or number their assignments. -/
inductive Settles : Prog (fun op : MarkedOp => RunnerAnswer op.2) Raised Unit → Prop
  | receiveEvent (document : EventDocument) (worker : Option UUID) :
      Settles (Prog.marked (some document) (dropped (receiveEvent document worker)))
  | redispatch (taskId : UUID) (attempt : String) (redo : Bool) :
      Settles (Prog.marked none (dropped (.ofCall (redispatch taskId attempt redo))))
  | reassign (command : ReassignCommand) :
      Settles (Prog.marked none (dropped (.reassign command)))
  | reopenSameAssignment (taskId : UUID) (version : ℕ) (generation : ℤ) :
      Settles (Prog.marked none (dropped (.reopenSameAssignment taskId version generation)))
  | ensureInitial (taskId : UUID) : Settles (Prog.marked none (dropped (.ensureInitial taskId)))
  | decide (n : ℤ) (operation : WorkerRecoveryOperation) :
      Settles (Prog.marked none (dropped (Runner.decide (portCoordinator n) operation)))

/-- Any number of these calls, interrupted at every await. -/
def fencedSystem : Threaded (fun op : MarkedOp => RunnerAnswer op.2) Raised Unit FencedWorld where
  Exec := FencedExec
  Starts := Settles
  Environment := FencedMove

end System

/-! ## What a step may do -/

/-- What happens to the rows and the log: versions grow, and they do where a task is opened again;
what a run was dispatched for stays. -/
structure Fences (a b : FencedWorld) : Prop where
  rows : ∃ new, b.log = new ++ a.log ∧ ∀ id t, a.rows.getTask id = some t →
    ∃ t', b.rows.getTask id = some t' ∧ (t' = t ∨ t.version < t'.version) ∧
      (.reopened id ∈ new → t.version < t'.version)
  runs : TasksKept a.rows.runtime.gateway b.rows.runtime.gateway

theorem Fences.refl (a : FencedWorld) : Fences a a where
  rows := ⟨[], rfl, fun _ t ht => ⟨t, ht, .inl rfl, fun h => (by cases h)⟩⟩
  runs := TasksKept.refl _

theorem Fences.trans {a b c : FencedWorld} (hab : Fences a b) (hbc : Fences b c) : Fences a c where
  rows := by
    obtain ⟨new, hlog, hrows⟩ := hab.rows
    obtain ⟨new', hlog', hrows'⟩ := hbc.rows
    refine ⟨new' ++ new, by rw [hlog', hlog, List.append_assoc], fun id t ht => ?_⟩
    obtain ⟨t', ht', hversion, hreopened⟩ := hrows id t ht
    obtain ⟨t'', ht'', hversion', hreopened'⟩ := hrows' id t' ht'
    have hlater := Versioned.keeps_version Task.version
    refine ⟨t'', ht'', hlater.trans t t' t'' hversion hversion', fun hmem => ?_⟩
    rcases List.mem_append.mp hmem with hmem | hmem
    · have hgrows := hreopened' hmem
      rcases hversion with rfl | hversion
      · exact hgrows
      · omega
    · have hgrows := hreopened hmem
      rcases hversion' with rfl | hversion'
      · exact hgrows
      · omega
  runs := hab.runs.trans hbc.runs

/-- The row was read, when the run was not outdated for it. -/
def ReadSince (runId : UUID) (a : FencedWorld) (t : Task) : Prop :=
  ∃ a₀, Fences a₀ a ∧ a₀.rows.getTask t.id = some t ∧ DispatchedSince a₀.log runId t.id

theorem ReadSince.fences {runId : UUID} {a b : FencedWorld} {t : Task} (h : ReadSince runId a t)
    (hab : Fences a b) : ReadSince runId b t := by
  obtain ⟨a₀, hfences, hget, hsince⟩ := h
  exact ⟨a₀, hfences.trans hab, hget, hsince⟩

/-- **Compare-and-set.** While the version of the row that was read is current, the run is not
outdated. -/
theorem ReadSince.current {runId : UUID} {a : FencedWorld} {t current : Task}
    (h : ReadSince runId a t) (hget : a.rows.getTask t.id = some current)
    (hversion : current.version = t.version) : DispatchedSince a.log runId t.id := by
  obtain ⟨a₀, hfences, hread, hsince⟩ := h
  obtain ⟨new, hlog, hrows⟩ := hfences.rows
  obtain ⟨t', ht', -, hreopened⟩ := hrows _ t hread
  obtain rfl := Option.some.inj (hget.symm.trans ht')
  rw [hlog]
  refine hsince.append fun hmem => ?_
  have hgrows := hreopened hmem
  omega

/-- What a compare-and-set on a task writes: a redo assigns the task again, and a result is of a run
that is not outdated where the write is accepted. -/
def FenceAsks : MarkedOp → FencedWorld → Prop
  | (none, .task (.updateTask task version)), _ =>
    task.version = version + 1 ∧ task.status = .assigned ∧ task.resultSummary = none
  | (some document, .task (.updateTask task version)), a =>
    task.version = version + 1 ∧
      ∀ t, a.rows.getTask task.id = some t → t.version = version →
        DispatchedSince a.log document.event.runId task.id
  | _, _ => True

/-! ## One step -/

theorem tasksKept_of_exec {op : RunnerCallOp} {st st' : RunnerWorld}
    {r : Except Raised (RunnerAnswer op)} (h : RunnerExec op st r st') :
    TasksKept st.runtime.gateway st'.runtime.gateway := by
  cases h with
  | raises => exact TasksKept.refl _
  | port => exact TasksKept.refl _
  | store answered =>
    cases op with
    | recordEvent event worker allowed =>
      simp only [perform] at answered
      split at answered
      · rename_i inserted gateway hrecord
        cases answered
        exact AgentRuntime.RunnerGatewayStore.tasksKept_recordEvent hrecord
      · cases answered
        exact TasksKept.refl _
    | ensureRecoveryForRun runId reason session =>
      cases answered
      refine AgentRuntime.RunnerGatewayStore.tasksKept_of_eq ?_
      unfold ensureRecovery
      split <;> rfl
    | completeCurrent taskId attemptId generation =>
      simp only [perform] at answered
      split at answered <;> cases answered <;> exact TasksKept.refl _
    | ensureInitial taskId =>
      simp only [perform] at answered
      split at answered <;> cases answered <;> exact TasksKept.refl _
    | reassign command =>
      simp only [perform] at answered
      split at answered <;> cases answered <;> exact TasksKept.refl _
    | reopenSameAssignment taskId version generation =>
      simp only [perform] at answered
      split at answered <;> cases answered <;> exact TasksKept.refl _
    | healthy worker => cases answered
    | recentFailures worker => cases answered
    | resume operation => cases answered
    | startReplacement taskId worker => cases answered
    | escalate operation reason => cases answered
    | onTerminal taskId => cases answered
    | _ => cases answered; exact TasksKept.refl _

theorem FenceAsks.version {mark : Option EventDocument} {task : Task} {version : ℕ}
    {a : FencedWorld} (h : FenceAsks (mark, .task (.updateTask task version)) a) :
    task.version = version + 1 := by
  cases mark with
  | none => exact h.1
  | some document => exact h.1

theorem reopened_writes {op : MarkedOp} {a b : FencedWorld} {answer : RunnerAnswer op.2}
    (hasks : FenceAsks op a) (h : RunnerExec op.2 a.rows (.ok answer) b.rows) {id : UUID}
    (hid : .reopened id ∈ entries op) {t : Task} (ht : a.rows.getTask id = some t) :
    ∃ t', b.rows.getTask id = some t' ∧ t'.version = t.version + 1 := by
  obtain ⟨mark, op⟩ := op
  cases op with
  | task op =>
    cases op with
    | updateTask task version =>
      cases mark with
      | some document => cases hid
      | none =>
        obtain rfl := FenceEntry.reopened.inj (List.mem_singleton.mp hid)
        obtain ⟨current, hcurrent, hversion, hwritten⟩ := updateTask_writes h
        obtain rfl := Option.some.inj (hcurrent.symm.trans ht)
        refine ⟨_, hwritten, ?_⟩
        rw [World.rewritten, if_pos (World.getTask_eq_some hcurrent).2, hversion]
        exact hasks.version
    | _ => cases mark <;> cases hid
  | reassign command =>
    have hmem : .reopened id ∈ [FenceEntry.reopened command.taskId] := by
      cases mark <;> exact hid
    obtain rfl := FenceEntry.reopened.inj (List.mem_singleton.mp hmem)
    exact reassign_writes h ht
  | reopenSameAssignment taskId version generation =>
    have hmem : .reopened id ∈ [FenceEntry.reopened taskId] := by
      cases mark <;> exact hid
    obtain rfl := FenceEntry.reopened.inj (List.mem_singleton.mp hmem)
    exact reopenSameAssignment_writes h ht
  | _ => cases mark <;> cases hid

theorem version_of_effect {op : MarkedOp} {a : FencedWorld} (hasks : FenceAsks op a) {t t' : Task}
    (h : TaskEffect op.2 t t') : t.version < t'.version := by
  obtain ⟨mark, op⟩ := op
  cases h with
  | @updated task t same =>
    have hversion : task.version = t.version + 1 := hasks.version
    rw [World.rewritten, if_pos same.symm]
    show t.version < task.version
    omega
  | reassigned same version hassigner => exact Nat.lt_succ_self _
  | reopened => exact Nat.lt_succ_self _

/-- **One operation.** -/
theorem fences_of_exec {op : MarkedOp} {a b : FencedWorld} {r : Except Raised (RunnerAnswer op.2)}
    (hasks : FenceAsks op a) (h : FencedExec op a r b) : Fences a b where
  rows := by
    obtain ⟨hexec, hlog⟩ := h
    refine ⟨_, hlog, fun id t ht => ?_⟩
    obtain ⟨t', ht', hrow⟩ := rows_of_exec hexec id t ht
    refine ⟨t', ht', ?_, fun hmem => ?_⟩
    · rcases hrow with hsame | ⟨-, heffect⟩
      · exact .inl hsame
      · exact .inr (version_of_effect hasks heffect)
    · cases r with
      | error e => cases hmem
      | ok answer =>
        obtain ⟨t'', ht'', hversion⟩ := reopened_writes hasks hexec hmem ht
        obtain rfl := Option.some.inj (ht''.symm.trans ht')
        omega
  runs := tasksKept_of_exec h.1

theorem fences_of_move {a b : FencedWorld} (h : FencedMove a b) : Fences a b := by
  cases h with
  | @runtime runtime hmoves =>
    refine ⟨⟨_, rfl, fun id t ht => ⟨t, ht, .inl rfl, fun hmem => ?_⟩⟩, ?_⟩
    · obtain ⟨d, -, hd⟩ := List.mem_map.mp hmem
      cases hd
    · cases hmoves with
      | tick later h => exact TasksKept.refl _
      | reservation h => exact AgentRuntime.RunnerGatewayStore.tasksKept_of_eq rfl
      | runner h => exact AgentRuntime.RunnerGatewayStore.tasksKept_run _ _
  | recoveries recoveries =>
    exact ⟨⟨[], rfl, fun id t ht => ⟨t, ht, .inl rfl, fun hmem => (by cases hmem)⟩⟩,
      TasksKept.refl _⟩

/-! ## The calls -/

/-- What refuses the result of an outdated run: the task is assigned to another worker than the run's
when it is read, it is final, or its status is the one of the event. -/
def OutdatedRefused : MarkedOp → FencedWorld → Prop
  | (some document, .task (.getTask taskId)), a =>
    ¬ DispatchedSince a.log document.event.runId taskId →
      ∀ t d, a.rows.getTask taskId = some t →
        a.rows.runtime.gateway.getDispatch document.event.runId = some d →
          t.assigneeAgentId ≠ d.task.workerAgentId ∨ t.status.isFinal = true ∨
            document.terminalStatus? = some t.status
  | _, _ => True

/-- The call is correct under its mark, whatever happens in between. -/
abbrev Fenced (mark : Option EventDocument) {α : Type} (p : RunnerCall α) (a : FencedWorld) : Prop :=
  Prog.Resilient Fences (fun _ => True)
    (fun op a r b => FencedExec (mark, op) a r b ∧ OutdatedRefused (mark, op) a)
    (fun op => FenceAsks (mark, op)) p a

/-- The same of an unmarked call of task orchestration. -/
abbrev CallFenced {α : Type} (p : Call α) (a : FencedWorld) : Prop :=
  Prog.Resilient Fences (fun _ => True)
    (fun op a r b => FencedExec (none, .task op) a r b ∧ OutdatedRefused (none, .task op) a)
    (fun op => FenceAsks (none, .task op)) p a

theorem CallFenced.ofCall {α : Type} {p : Call α} {a : FencedWorld} (h : CallFenced p a) :
    Fenced none (RunnerCall.ofCall p) a := by
  unfold RunnerCall.ofCall
  exact Prog.wp_expand Prog.interfered_mono (fun _ _ _ hop => hop) h

theorem Fenced.dropped {mark : Option EventDocument} {α : Type} {p : RunnerCall α} {a : FencedWorld}
    (h : Fenced mark p a) : Fenced mark (dropped p) a := by
  unfold Runner.dropped
  exact Prog.Resilient.bind h.ends fun _ _ _ => trivial

theorem fenced_of_noUpdate {mark : Option EventDocument} {α : Type} {p : RunnerCall α}
    (h : p.Only NoUpdate) (a : FencedWorld) : Fenced mark p a := by
  refine Prog.Only.resilient h (fun op a hop => ?_) a
  cases op with
  | task op => cases op <;> first | exact hop.elim | cases mark <;> trivial
  | _ => cases mark <;> trivial

theorem Quiet.fenced {mark : Option EventDocument} {α : Type} {p : RunnerCall α} (h : Quiet p)
    (a : FencedWorld) : Fenced mark p a :=
  fenced_of_noUpdate h.noUpdate a

theorem callFenced_asks {α : Type} {p : Call α} (h : Asks p) (a : FencedWorld) : CallFenced p a := by
  refine Prog.Only.resilient h (fun op a hop => ?_) a
  cases op <;> trivial

theorem getDispatch_answered {runId : UUID} {st st' : RunnerWorld}
    {d : Option AgentRuntime.RunnerDispatchRecord}
    (h : RunnerExec (.getDispatch runId) st (.ok d) st') :
    st.runtime.gateway.getDispatch runId = d ∧ st' = st := by
  cases h with
  | port r isPort => cases isPort
  | store answered =>
    have hpair := Option.some.inj answered
    exact ⟨Except.ok.inj (congrArg Prod.fst hpair), (congrArg Prod.snd hpair).symm⟩

section Calls

variable [RunnerCodecs]

theorem callFenced_redispatch (taskId : UUID) (attempt : String) (redo : Bool) (a : FencedWorld) :
    CallFenced (redispatch taskId attempt redo) a := by
  refine Prog.Resilient.bind (callFenced_asks (asks_requiredTask taskId) a).ends fun found b _ => ?_
  have hreopen : CallFenced (reopenForRedispatch found redo) b := by
    unfold reopenForRedispatch
    split
    · trivial
    split
    · trivial
    refine Prog.Resilient.lift_bind fun reopened hreopened => ?_
    obtain ⟨-, rfl⟩ := Task.redo_ok hreopened
    exact Prog.Resilient.perform_bind fun _ _ _ => ⟨⟨rfl, rfl, rfl⟩, fun _ _ _ _ _ => trivial⟩
  refine Prog.Resilient.bind hreopen.ends fun task b' _ => ?_
  refine Prog.Resilient.perform_bind fun _ _ _ => ⟨trivial, fun key b'' _ _ _ => ?_⟩
  cases key with
  | none => trivial
  | some key =>
    have hdeliver : CallFenced (deliverTo task key (some attempt)) b'' :=
      callFenced_asks (asks_deliverTo _ _ _) b''
    exact Prog.Resilient.bind hdeliver.ends fun _ _ _ => trivial

/-- **The write-back.** What is read after a refusal is not written. -/
theorem fenced_writeBack {document : EventDocument} {status : TaskStatus}
    (hstatus : document.terminalStatus? = some status) (a : FencedWorld) :
    Fenced (some document) (writeBack document status) a := by
  refine Prog.Resilient.perform_bind fun a₁ _ _ => ⟨trivial, fun dispatch a₂ hexec _ _ => ?_⟩
  obtain ⟨hdispatch, hsame⟩ := getDispatch_answered hexec.1.1
  rw [← hsame] at hdispatch
  cases dispatch with
  | none => trivial
  | some dispatch =>
    refine Prog.Resilient.perform_bind fun a₃ hR _ => ⟨trivial, fun found a₄ hread hR' _ => ?_⟩
    obtain ⟨hget, -⟩ := getTask_answered hread.1.1
    cases found with
    | none => trivial
    | some task =>
      dsimp only
      split
      · trivial
      rename_i hassignee
      split
      · exact Quiet.fenced (quiet_advanceIfTerminal _ _) a₄
      rename_i hother
      refine Prog.Resilient.lift_bind fun updated hreport => ?_
      obtain ⟨hfinal, -, rfl⟩ := Task.report_ok hreport
      have hid : task.id = dispatch.task.taskId := (World.getTask_eq_some hget).2
      have hsince : DispatchedSince a₃.log document.event.runId task.id := by
        by_contra hnot
        obtain ⟨d, hd, hdtask⟩ := hR.runs _ _ hdispatch
        rw [hid] at hnot
        rcases hread.2 hnot task d hget hd with hrefused | hrefused | hrefused
        · rw [hdtask] at hrefused
          exact hassignee hrefused
        · rw [hfinal] at hrefused
          cases hrefused
        · exact hother (Option.some.inj (hrefused.symm.trans hstatus))
      have hreadSince : ReadSince document.event.runId a₄ task :=
        ⟨a₃, hR', hid ▸ hget, hsince⟩
      refine Prog.Resilient.perform_bind fun a₅ hR'' _ => ⟨⟨rfl, ?_⟩, fun _ a₆ _ _ _ => ?_⟩
      · exact fun t ht hversion => (hreadSince.fences hR'').current ht hversion
      · exact Quiet.fenced (quiet_advanceIfTerminal _ _) a₆

theorem fenced_receiveEvent (document : EventDocument) (worker : Option UUID) (a : FencedWorld) :
    Fenced (some document) (receiveEvent document worker) a := by
  refine Prog.Resilient.perform_bind fun a₁ _ _ => ⟨trivial, fun dispatch a₂ _ _ _ => ?_⟩
  have hallows : Fenced (some document) (assignmentAllows dispatch) a₂ :=
    Quiet.fenced (quiet_assignmentAllows dispatch) a₂
  refine Prog.Resilient.bind hallows.ends fun allowed a₃ _ => ?_
  refine Prog.Resilient.perform_bind fun a₄ _ _ => ⟨trivial, fun inserted a₅ _ _ _ => ?_⟩
  split
  · trivial
  · rename_i status hstatus
    refine Prog.Resilient.perform_bind fun a₆ _ _ => ⟨trivial, fun projects a₇ _ _ _ => ?_⟩
    split
    · refine Prog.Resilient.bind (fenced_writeBack hstatus a₇).ends fun _ a₈ _ => ?_
      have hcomplete : Fenced (some document) (completeAssignment document dispatch) a₈ :=
        Quiet.fenced (quiet_completeAssignment document dispatch) a₈
      refine Prog.Resilient.bind hcomplete.ends fun _ a₉ _ => ?_
      have hrecover : Fenced (some document) (recoverRun document) a₉ :=
        Quiet.fenced (quiet_recoverRun document) a₉
      exact Prog.Resilient.bind hrecover.ends fun _ _ _ => trivial
    · trivial

theorem fenced_settles {p : Prog (fun op : MarkedOp => RunnerAnswer op.2) Raised Unit}
    (h : Settles p) (a : FencedWorld) :
    Prog.Resilient Fences (fun _ => True) (fencedSystem.restrict OutdatedRefused).Exec FenceAsks
      p a := by
  cases h with
  | receiveEvent document worker =>
    have hfenced : Fenced (some document) (dropped (receiveEvent document worker)) a :=
      Fenced.dropped (fenced_receiveEvent document worker a)
    exact Prog.resilient_marked hfenced
  | redispatch taskId attempt redo =>
    have hfenced : Fenced none (dropped (.ofCall (redispatch taskId attempt redo))) a :=
      Fenced.dropped (CallFenced.ofCall (callFenced_redispatch taskId attempt redo a))
    exact Prog.resilient_marked hfenced
  | reassign command =>
    have honly : (RunnerCall.reassign command).Only NoUpdate := (Prog.only_perform _).mpr trivial
    have hfenced : Fenced none (dropped (.reassign command)) a :=
      Fenced.dropped (fenced_of_noUpdate honly a)
    exact Prog.resilient_marked hfenced
  | reopenSameAssignment taskId version generation =>
    have honly : (RunnerCall.reopenSameAssignment taskId version generation).Only NoUpdate :=
      (Prog.only_perform _).mpr trivial
    have hfenced : Fenced none (dropped (.reopenSameAssignment taskId version generation)) a :=
      Fenced.dropped (fenced_of_noUpdate honly a)
    exact Prog.resilient_marked hfenced
  | ensureInitial taskId =>
    have honly : (RunnerCall.ensureInitial taskId).Only NoUpdate := (Prog.only_perform _).mpr trivial
    have hfenced : Fenced none (dropped (.ensureInitial taskId)) a :=
      Fenced.dropped (fenced_of_noUpdate honly a)
    exact Prog.resilient_marked hfenced
  | decide n operation =>
    have hfenced : Fenced none (dropped (Runner.decide (portCoordinator n) operation)) a :=
      Fenced.dropped (fenced_of_noUpdate (noUpdate_decide n operation) a)
    exact Prog.resilient_marked hfenced

theorem fencedSystem_respects :
    (fencedSystem.restrict OutdatedRefused).Respects Fences (fun _ => True) FenceAsks where
  refl := Fences.refl
  trans := fun _ _ _ => Fences.trans
  exec := fun _ _ _ _ _ hasks hexec => ⟨fences_of_exec hasks hexec.1, trivial⟩
  environment := fun _ _ _ hmoves => ⟨fences_of_move hmoves, trivial⟩
  starts := fun _ a hsettles _ => fenced_settles hsettles a

end Calls

/-! ## Whole runs -/

/-- What a step makes of a task row: it stays, it is opened again, or it gets the result of a run that
was dispatched since it was last opened again. -/
def SettledBy (op : Option MarkedOp) (a b : FencedWorld) (id : UUID) (t t' : Task) : Prop :=
  t' = t ∨ (t'.status = .assigned ∧ t'.resultSummary = none ∧ b.log = .reopened id :: a.log) ∨
    ∃ document o, op = some (some document, o) ∧
      DispatchedSince a.log document.event.runId id

/-- **One operation** settles a row by a run that is not outdated. -/
theorem settledBy_of_exec {op : MarkedOp} {a b : FencedWorld} {r : Except Raised (RunnerAnswer op.2)}
    (hasks : FenceAsks op a) (h : FencedExec op a r b) (id : UUID) (t : Task)
    (ht : a.rows.getTask id = some t) :
    ∃ t', b.rows.getTask id = some t' ∧ SettledBy (some op) a b id t t' := by
  obtain ⟨hexec, hlog⟩ := h
  obtain ⟨t', ht', hsame | ⟨⟨answer, rfl⟩, heffect⟩⟩ := rows_of_exec hexec id t ht
  · exact ⟨t', ht', .inl hsame⟩
  refine ⟨t', ht', ?_⟩
  have hid : t.id = id := (World.getTask_eq_some ht).2
  obtain ⟨mark, op⟩ := op
  cases heffect with
  | @updated task t same =>
    rw [World.rewritten, if_pos same.symm]
    cases mark with
    | none =>
      obtain ⟨-, hstatus, hresult⟩ := hasks
      refine .inr (.inl ⟨hstatus, hresult, ?_⟩)
      rw [← hid, ← same]
      exact hlog
    | some document =>
      refine .inr (.inr ⟨document, _, rfl, ?_⟩)
      have hget : a.rows.getTask task.id = some t := by rw [same, hid]; exact ht
      rw [← hid, ← same]
      exact hasks.2 t hget rfl
  | @reassigned command t same version hassigner =>
    refine .inr (.inl ⟨rfl, rfl, ?_⟩)
    rw [← hid, same]
    cases mark <;> exact hlog
  | reopened =>
    refine .inr (.inl ⟨rfl, rfl, ?_⟩)
    rw [← hid]
    cases mark <;> exact hlog

/-- The stores and quiet ports, with the log. -/
def fencedExec (op : MarkedOp) (a : FencedWorld) :
    Except Raised (RunnerAnswer op.2) × FencedWorld :=
  ((quietExec op.2 a.rows).1, ⟨(quietExec op.2 a.rows).2,
    (match (quietExec op.2 a.rows).1 with
      | .ok _ => entries op
      | .error _ => []) ++ a.log⟩)

theorem fencedExec_allowed [RunnerCodecs] (op : MarkedOp) (a : FencedWorld) :
    fencedSystem.Exec op a (fencedExec op a).1 (fencedExec op a).2 :=
  ⟨quietExec_allowed op.2 a.rows, rfl⟩

/-- The run of the task in its first attempt. -/
def sampleRun : AgentRuntime.RunnerDispatchRecord :=
  { task :=
      { runId := 7
        organizationId := 1
        projectId := 2
        repositoryId := 10
        taskId := 0
        workerAgentId := 2
        attempt := 1
        assignmentAttemptId := some 50
        assignmentGeneration := some 1 }
    status := .accepted
    taskPayload := { idempotencyKey := "run", document := "", task := none }
    idempotencyKey := "run"
    createdAt := 0 }

/-- It is under way when the log begins. -/
def sampleFenced : FencedWorld :=
  { rows := { sampleWorld with runtime := { gateway := { dispatches := [sampleRun] } } }
    log := [] }

/-- Its last event. -/
def sampleCompleted : EventDocument :=
  { event :=
      { eventId := 80
        runId := 7
        binding := AgentRuntime.RunnerGatewayStore.expectedBinding sampleRun
        body := some { sequence := 1, eventType := "runner.completed", occurredAt := 0 } }
    payload := .obj []
    nativeSessionId := none }

section Sample

variable [RunnerCodecs]

/-- The event is received. -/
def sampleReceive : Prog (fun op : MarkedOp => RunnerAnswer op.2) Raised Unit :=
  Prog.marked (some sampleCompleted) (dropped (receiveEvent sampleCompleted (some 2)))

/-- An operator sends the task back to work. -/
def sampleRedo : Prog (fun op : MarkedOp => RunnerAnswer op.2) Raised Unit :=
  Prog.marked none (dropped (.ofCall (redispatch 0 "again" true)))

/-- The state after the event, after the redo, and after the event is received again. -/
def sampleSettled : FencedWorld := (Prog.advance fencedExec 9 (sampleReceive, sampleFenced)).2

def sampleRedone : FencedWorld := (Prog.advance fencedExec 2 (sampleRedo, sampleSettled)).2

def sampleReplayed : FencedWorld := (Prog.advance fencedExec 7 (sampleReceive, sampleRedone)).2

end Sample

/-- The task is settled, opened again and settled again. -/
def settledAgain :
    letI := proseRunnerCodecs
    {run : FencedWorld × FencedWorld × FencedWorld // run = (sampleSettled, sampleRedone, sampleReplayed) ∧
      (run.1.rows.getTask 0).map (·.status) = some .succeeded ∧
      (run.2.1.rows.getTask 0).map (·.status) = some .assigned ∧ run.2.1.log = [.reopened 0] ∧
      (run.2.2.rows.getTask 0).map (·.status) = some .succeeded ∧ run.2.2.log = [.reopened 0]} :=
  letI := proseRunnerCodecs
  ⟨(sampleSettled, sampleRedone, sampleReplayed), rfl, by decide +kernel⟩

theorem outdatedRefused_of_log {op : MarkedOp} {a : FencedWorld} (h : a.log = []) :
    OutdatedRefused op a := by
  obtain ⟨mark, op⟩ := op
  cases mark with
  | none => trivial
  | some document =>
    cases op with
    | task op =>
      cases op with
      | getTask taskId =>
        intro hnot
        exact absurd (by rw [h]; exact List.not_mem_nil) hnot
      | _ => trivial
    | _ => trivial

end Runner
end RepoMesh
