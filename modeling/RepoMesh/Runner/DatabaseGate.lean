/-
# The database gate on both ways of finishing a task

`TaskOrchestrator.report` looks at the database gate before it writes a success;
`RunnerControlGateway.receive_event` writes a completed run's result without it.
-/
import RepoMesh.Runner.ResultFence
import RepoMesh.Runner.WriteBack

namespace RepoMesh
namespace Runner

open Text
open Async
open Orchestration
open Orchestration.World
open Delivery (UUID)

/-- A way of finishing a task. -/
inductive Finish where
  | report (command : ReportTaskCommand) (idempotencyKey : String)
  | event (document : EventDocument) (workerAgentId : Option UUID)

/-- `updated = task.report(SUCCEEDED, summary)`, and whether the gate blocks it. -/
def gateBlocks [Codecs] (task : Task) (text : String) : Bool :=
  (task.moved .succeeded (some text)).evaluateDatabaseAutomation.blocks

section

variable [PythonCodecs]

/-- The world a call leaves. -/
def Finish.after (port : (op : RunnerCallOp) → Except Raised (RunnerAnswer op)) (st : RunnerWorld) :
    Finish → RunnerWorld
  | .report command key => { st with world := ((Orchestration.report command key).run exec st.world).2 }
  | .event document worker => ((receiveEvent document worker).run (answeredExec port) st).2

/-- `assignments.allows_projection` for the dispatch of an event. -/
def projects (document : EventDocument) (st : RunnerWorld) : Bool :=
  match st.runtime.gateway.getDispatch document.event.runId with
  | none => true
  | some dispatch =>
    match dispatch.task.assignmentAttemptId, dispatch.task.assignmentGeneration with
    | none, _ => true
    | some _, none => false
    | some attempt, some generation =>
      st.attempts.allowsProjection dispatch.task.taskId attempt generation

/-- The world once the event is recorded. -/
def recorded (document : EventDocument) (worker : Option UUID) (st : RunnerWorld) :
    Option RunnerWorld :=
  match st.runtime.gateway.recordEvent document.event worker (projects document st) st.now with
  | .ok (_, gateway) => some { st with runtime := { st.runtime with gateway := gateway } }
  | .error _ => none

/-- A success of the task under this evidence passes every check but the database gate: a report
names its assignee and says something; a completed run is recorded, may still be projected, and is
bound to the task. -/
def Finish.Admitted (st : RunnerWorld) (task : Task) (text : String) : Finish → Prop
  | .report command _ =>
    command.status = .succeeded ∧ command.taskId = task.id ∧
      (∃ reporter, ((requiredAgent command.reporterAgentId).run exec st.world).1 = .ok reporter) ∧
      task.assigneeAgentId = command.reporterAgentId ∧ isBlank command.summary = false ∧
      text = strip command.summary
  | .event document worker =>
    document.eventType = "runner.completed" ∧ ∃ st' dispatch, recorded document worker st = some st' ∧
      lastAccepted st'.runtime.gateway.events document.event.runId = true ∧
      BoundTo document st' dispatch task ∧
      text = strip (RunnerCodecs.evidenceText (evidenceOf document dispatch))

/-- The call applies the gate: a task that was not final is succeeded afterwards exactly when its
success was admitted and the gate does not block it. -/
def GateApplied (port : (op : RunnerCallOp) → Except Raised (RunnerAnswer op)) (st : RunnerWorld)
    (finish : Finish) : Prop :=
  ∀ task, st.getTask task.id = some task → task.status.isFinal = false →
    (((finish.after port st).getTask task.id).map (·.status) = some .succeeded ↔
      ∃ text, finish.Admitted st task text ∧ gateBlocks task text = false)

end

/-! ## Reports -/

section

variable [Codecs]

/-- A row that a report writes as succeeded has passed the gate. -/
def Gated (op : Op) : Prop :=
  match op with
  | .updateTask updated _ =>
    updated.status = .succeeded → updated.evaluateDatabaseAutomation.blocks = false
  | _ => True

theorem run_recordReport {w : World} {task : Task} (htask : w.getTask task.id = some task)
    (hfinal : task.status.isFinal = false) {command : ReportTaskCommand}
    (hstatus : command.status = .succeeded) :
    (recordReport task command).run exec w =
      if isBlank command.summary then
        (.error (.valueError "task report summary is required"), w)
      else if gateBlocks task (strip command.summary) then
        (.error (.taskBlocked ("database automation blocked success: " ++ join ", "
          (task.moved .succeeded (some (strip command.summary))).evaluateDatabaseAutomation.reasons)),
          w)
      else
        (.ok (task.moved .succeeded (some (strip command.summary))),
          w.writeTask (task.moved .succeeded (some (strip command.summary)))) := by
  have hunsettled : task.status ≠ .succeeded ∧ task.status ≠ .failed := by
    constructor <;> intro h <;> rw [h] at hfinal <;> cases hfinal
  have hsame : ¬ (task.status = command.status ∧
      task.resultSummary = some (strip command.summary)) := by
    rintro ⟨h, -⟩
    exact hunsettled.1 (h.trans hstatus)
  have hsettled : ¬ (task.status = .succeeded ∨ task.status = .failed) := by
    rintro (h | h)
    · exact hunsettled.1 h
    · exact hunsettled.2 h
  unfold recordReport
  rw [if_neg hsame, if_neg hsettled]
  cases hblank : isBlank command.summary with
  | true =>
    have hreport : task.report command.status command.summary =
        .error (.valueError "task report summary is required") := by
      rw [Task.report, if_neg (by simp [hfinal]), hstatus, if_pos (Or.inr (Or.inl rfl)),
        if_pos hblank]
    rw [hreport]
    rfl
  | false =>
    have hreport : task.report command.status command.summary =
        .ok (task.moved .succeeded (some (strip command.summary))) := by
      rw [Task.report, if_neg (by simp [hfinal]), hstatus, if_pos (Or.inr (Or.inl rfl)),
        if_neg (by simp [hblank])]
    rw [hreport]
    show (if command.status = .succeeded ∧ gateBlocks task (strip command.summary) = true then
      _ else _ : Call Task).run exec w = _
    cases hblocks : gateBlocks task (strip command.summary) with
    | true =>
      rw [if_pos ⟨hstatus, rfl⟩]
      rfl
    | false =>
      have hcurrent := updateTask_current htask
        (Task.moved_id task .succeeded (some (strip command.summary)))
      have hupdate : exec (.updateTask (task.moved .succeeded (some (strip command.summary)))
          task.version) w = (.ok (),
            w.writeTask (task.moved .succeeded (some (strip command.summary)))) := by
        simp only [exec, hcurrent, written_ok]
      rw [if_neg (by simp)]
      rw [Prog.run_perform_ok _ hupdate]
      rfl

theorem run_report (w : World) (command : ReportTaskCommand) (key : String) :
    ((Orchestration.report command key).run exec w).2 =
      match ((requiredAgent command.reporterAgentId).run exec w).1, w.getTask command.taskId with
      | .ok _, some task =>
        if task.assigneeAgentId = command.reporterAgentId then
          ((recordReport task command).run exec w).2
        else w
      | _, _ => w := by
  have hagent := (asks_requiredAgent command.reporterAgentId).run_snd w
  unfold Orchestration.report
  cases hreporter : (requiredAgent command.reporterAgentId).run exec w with
  | mk answer w' =>
    rw [hreporter] at hagent
    obtain rfl : w' = w := hagent
    cases answer with
    | error e => rw [Prog.run_bind_error _ hreporter]
    | ok reporter =>
      rw [Prog.run_bind_ok _ hreporter]
      cases htask : w'.getTask command.taskId with
      | none =>
        have hask : exec (.getTask command.taskId) w' = (.ok none, w') := by
          simp only [exec, answered, htask]
        unfold requiredTask
        rw [Prog.bind_assoc, Prog.run_perform_ok exec hask]
        rfl
      | some task =>
        rw [Prog.run_bind_ok _ (run_requiredTask htask)]
        by_cases hworker : task.assigneeAgentId = command.reporterAgentId
        · rw [if_neg (by simpa using hworker)]
          simp only [hworker, if_true]
          rw [Prog.run_bind]
          cases hrecord : (recordReport task command).run exec w' with
          | mk answer w'' =>
            cases answer with
            | error e => rfl
            | ok updated =>
              have hfollow := (asksPorts_followReport reporter task updated command key).asks
              exact Asks.run_snd (Prog.only_bind hfollow fun _ => Prog.only_done _) w''
        · rw [if_pos hworker]
          simp only [hworker, if_false]
          rfl

theorem recordReport_writes (w : World) (task : Task) (command : ReportTaskCommand) :
    ((recordReport task command).run exec w).2 = w ∨
      ∃ r, ((recordReport task command).run exec w).2 = w.writeTask (task.moved command.status r) := by
  unfold recordReport
  split
  · exact Or.inl rfl
  split
  · exact Or.inl rfl
  cases hreport : task.report command.status command.summary with
  | error e => exact Or.inl rfl
  | ok updated =>
    obtain ⟨-, -, hupdated⟩ := Task.report_ok hreport
    show ((if command.status = .succeeded ∧ updated.evaluateDatabaseAutomation.blocks = true then
        _ else _ : Call Task).run exec w).2 = w ∨ ∃ r, ((if command.status = .succeeded ∧
          updated.evaluateDatabaseAutomation.blocks = true then _ else _ : Call Task).run exec w).2 = _
    split
    · exact Or.inl rfl
    · rw [Prog.run_bind, Prog.run_perform]
      simp only [exec]
      cases hwrite : w.updateTask updated task.version with
      | error e => exact Or.inl rfl
      | ok w' =>
        obtain ⟨-, -, -, rfl⟩ := updateTask_ok hwrite
        exact Or.inr ⟨_, by rw [hupdated]; rfl⟩

end

section

variable [PythonCodecs] (port : (op : RunnerCallOp) → Except Raised (RunnerAnswer op))
  {st : RunnerWorld}

omit [PythonCodecs] in
theorem not_succeeded {task : Task} (hfinal : task.status.isFinal = false) :
    (some task).map (·.status) ≠ some TaskStatus.succeeded := by
  intro h
  have hstatus : task.status = .succeeded := Option.some.inj h
  rw [hstatus] at hfinal
  cases hfinal

/-- **Reports apply the gate.** -/
theorem gateApplied_report (command : ReportTaskCommand) (key : String) :
    GateApplied port st (.report command key) := by
  intro task htask hfinal
  have hw : st.world.getTask task.id = some task := htask
  show ((((Orchestration.report command key).run exec st.world).2.getTask task.id).map (·.status) =
    some .succeeded) ↔ _
  -- Nothing is written to the row, and the success is not admitted.
  have hkept : ∀ w : World, w.getTask task.id = some task →
      (¬ ∃ text, Finish.Admitted st task text (.report command key) ∧
        gateBlocks task text = false) →
      ((w.getTask task.id).map (·.status) = some .succeeded ↔
        ∃ text, Finish.Admitted st task text (.report command key) ∧
          gateBlocks task text = false) := by
    intro w hrow hrefused
    rw [hrow]
    exact iff_of_false (not_succeeded hfinal) hrefused
  by_cases hcommand : command.taskId = task.id ∧ command.status = .succeeded
  · obtain ⟨hid, hstatus⟩ := hcommand
    rw [run_report, hid, hw]
    cases hreporter : ((requiredAgent command.reporterAgentId).run exec st.world).1 with
    | error e =>
      refine hkept _ hw ?_
      rintro ⟨text, ⟨-, -, ⟨reporter, hok⟩, -⟩, -⟩
      rw [hreporter] at hok
      cases hok
    | ok reporter =>
      dsimp only
      by_cases hworker : task.assigneeAgentId = command.reporterAgentId
      · rw [if_pos hworker, run_recordReport hw hfinal hstatus]
        by_cases hblank : isBlank command.summary = true
        · rw [if_pos hblank]
          refine hkept _ hw ?_
          rintro ⟨text, ⟨-, -, -, -, hnonblank, -⟩, -⟩
          rw [hblank] at hnonblank
          cases hnonblank
        · rw [if_neg hblank]
          by_cases hblocks : gateBlocks task (strip command.summary) = true
          · rw [if_pos hblocks]
            refine hkept _ hw ?_
            rintro ⟨text, ⟨-, -, -, -, -, rfl⟩, hopen⟩
            rw [hblocks] at hopen
            cases hopen
          · rw [if_neg hblocks]
            dsimp only
            rw [getTask_written hw]
            refine iff_of_true rfl ⟨_, ⟨hstatus, hid, ⟨reporter, hreporter⟩, hworker, ?_, rfl⟩, ?_⟩
            · simpa using hblank
            · simpa using hblocks
      · rw [if_neg hworker]
        refine hkept _ hw ?_
        rintro ⟨text, ⟨-, -, -, hsame, -⟩, -⟩
        exact hworker hsame
  · have hrefused : ¬ ∃ text, Finish.Admitted st task text (.report command key) ∧
        gateBlocks task text = false := by
      rintro ⟨text, ⟨hstatus, hid, -⟩, -⟩
      exact hcommand ⟨hid, hstatus⟩
    rw [run_report]
    split
    · rename_i other _ hother
      split
      · rcases recordReport_writes st.world other command with hsame | ⟨r, hwritten⟩
        · rw [hsame]
          exact hkept _ hw hrefused
        · rw [hwritten, getTask_writeTask, hw]
          have hotherId : other.id = command.taskId := (getTask_eq_some hother).2
          refine iff_of_false ?_ hrefused
          rw [Option.map_some, rewritten, Task.moved_id]
          split
          · rename_i hsame
            intro hsucceeded
            exact hcommand ⟨hotherId.symm.trans hsame.symm, Option.some.inj hsucceeded⟩
          · exact not_succeeded hfinal
      · exact hkept _ hw hrefused
    · exact hkept _ hw hrefused

/-! ## Events -/

omit [PythonCodecs] in
theorem getTask_quiet {α : Type} {p : RunnerCall α} (hp : Quiet p) (st : RunnerWorld) (id : UUID) :
    (p.run (answeredExec port) st).2.getTask id = st.getTask id := by
  refine hp.run_rel (R := fun a b : RunnerWorld => b.getTask id = a.getTask id) (fun _ => rfl)
    (fun _ _ _ hab hbc => hbc.trans hab) (fun op a hop => ?_) st
  have hallowed : RunnerExec op a (answeredExec port op a).1 (answeredExec port op a).2 := by
    unfold answeredExec
    cases hperform : perform op a with
    | none => exact .port _ hperform
    | some answer => exact .store hperform
  exact getTask_congr (tasks_of_exec hallowed (Or.inl hop)) id

omit [PythonCodecs] in
theorem exec_recordEvent (document : EventDocument) (worker : Option UUID) (st : RunnerWorld) :
    match recorded document worker st with
    | some st' => (∀ id, st'.getTask id = st.getTask id) ∧ ∃ inserted, answeredExec port
        (.recordEvent document.event worker (projects document st)) st = (.ok inserted, st')
    | none => ∃ e, answeredExec port
        (.recordEvent document.event worker (projects document st)) st = (.error e, st) := by
  unfold recorded
  cases hrecord : st.runtime.gateway.recordEvent document.event worker (projects document st)
      st.now with
  | error e => exact ⟨_, answeredExec_store port (by rw [perform, hrecord])⟩
  | ok answer =>
    exact ⟨fun id => rfl, _, answeredExec_store port (by rw [perform, hrecord])⟩

/-- **What an event leaves on a row** is what writing its result back leaves. -/
theorem run_receiveEvent (document : EventDocument) (worker : Option UUID) (id : UUID) :
    ((receiveEvent document worker).run (answeredExec port) st).2.getTask id =
      match recorded document worker st, document.terminalStatus? with
      | some st', some status =>
        if lastAccepted st'.runtime.gateway.events document.event.runId then
          ((writeBack document status).run (answeredExec port) st').2.getTask id
        else st.getTask id
      | _, _ => st.getTask id := by
  have hdispatch : answeredExec port (.getDispatch document.event.runId) st =
      (.ok (st.runtime.gateway.getDispatch document.event.runId), st) :=
    answeredExec_store port rfl
  have hallows : (assignmentAllows (st.runtime.gateway.getDispatch document.event.runId)).run
      (answeredExec port) st = (.ok (projects document st), st) := by
    unfold assignmentAllows projects
    cases st.runtime.gateway.getDispatch document.event.runId with
    | none => rfl
    | some dispatch =>
      dsimp only
      cases dispatch.task.assignmentAttemptId with
      | none => rfl
      | some attempt =>
        cases dispatch.task.assignmentGeneration with
        | none => rfl
        | some generation => rfl
  have hrecord := exec_recordEvent port document worker st
  unfold receiveEvent
  rw [Prog.run_perform_ok _ hdispatch, Prog.run_bind_ok _ hallows]
  cases hrecorded : recorded document worker st with
  | none =>
    rw [hrecorded] at hrecord
    obtain ⟨e, hraises⟩ := hrecord
    rw [Prog.run_perform_error _ hraises]
  | some st' =>
    rw [hrecorded] at hrecord
    obtain ⟨hsame, inserted, hstores⟩ := hrecord
    rw [Prog.run_perform_ok _ hstores]
    cases document.terminalStatus? with
    | none => exact hsame id
    | some status =>
      have hprojection : answeredExec port (.projectionAllowed document.event.runId) st' =
          (.ok (lastAccepted st'.runtime.gateway.events document.event.runId), st') :=
        answeredExec_store port rfl
      dsimp only
      rw [Prog.run_perform_ok _ hprojection]
      cases lastAccepted st'.runtime.gateway.events document.event.runId with
      | false => exact hsame id
      | true =>
        rw [if_pos rfl, if_pos rfl, Prog.run_bind]
        cases hwrite : (writeBack document status).run (answeredExec port) st' with
        | mk answer st'' =>
          cases answer with
          | error e => rfl
          | ok _ =>
            refine getTask_quiet port ?_ st'' id
            refine Prog.only_bind (quiet_completeAssignment document _) fun _ => ?_
            exact Prog.only_bind (quiet_recoverRun document) fun _ => Prog.only_done _

theorem run_writeBack_unbound (document : EventDocument) (status : TaskStatus) (st : RunnerWorld)
    (hunbound : ∀ dispatch task, ¬ BoundTo document st dispatch task) :
    ((writeBack document status).run (answeredExec port) st).2 = st := by
  have hdispatch : answeredExec port (.getDispatch document.event.runId) st =
      (.ok (st.runtime.gateway.getDispatch document.event.runId), st) :=
    answeredExec_store port rfl
  unfold writeBack
  rw [Prog.run_perform_ok _ hdispatch]
  cases hfound : st.runtime.gateway.getDispatch document.event.runId with
  | none => rfl
  | some dispatch =>
    have htask : answeredExec port (.task (.getTask dispatch.task.taskId)) st =
        (.ok (st.getTask dispatch.task.taskId), st) := answeredExec_store port rfl
    dsimp only
    rw [Prog.run_perform_ok _ htask]
    cases hrow : st.getTask dispatch.task.taskId with
    | none => rfl
    | some task =>
      have hworker : task.assigneeAgentId ≠ dispatch.task.workerAgentId := fun hworker =>
        hunbound dispatch task ⟨hfound, hrow, hworker⟩
      dsimp only
      rw [if_pos hworker]
      rfl

omit [PythonCodecs] in
theorem terminalStatus_succeeded_iff (document : EventDocument) :
    document.terminalStatus? = some .succeeded ↔ document.eventType = "runner.completed" := by
  unfold EventDocument.terminalStatus?
  constructor
  · intro h
    split_ifs at h with hcompleted
    · exact hcompleted
    all_goals cases h
  · intro h
    rw [if_pos h]

omit [PythonCodecs] in
theorem terminalStatus_reported {document : EventDocument} {status : TaskStatus}
    (h : document.terminalStatus? = some status) :
    status = .blocked ∨ status = .succeeded ∨ status = .failed := by
  unfold EventDocument.terminalStatus? at h
  split_ifs at h
  · exact Or.inr (Or.inl (Option.some.inj h).symm)
  · exact Or.inr (Or.inr (Option.some.inj h).symm)
  · exact Or.inr (Or.inr (Option.some.inj h).symm)
  · exact Or.inl (Option.some.inj h).symm

/-- **Events do not look at the gate**: a task that was not final is succeeded afterwards exactly
when a success was admitted. -/
theorem event_succeeds_iff (document : EventDocument) (worker : Option UUID) {task : Task}
    (htask : st.getTask task.id = some task) (hfinal : task.status.isFinal = false) :
    (((Finish.after port st (.event document worker)).getTask task.id).map (·.status) =
        some .succeeded) ↔
      ∃ text, Finish.Admitted st task text (.event document worker) := by
  show ((((receiveEvent document worker).run (answeredExec port) st).2.getTask task.id).map
    (·.status) = some .succeeded) ↔ _
  rw [run_receiveEvent]
  have hrecord := exec_recordEvent port document worker st
  cases hrecorded : recorded document worker st with
  | none =>
    dsimp only
    rw [htask]
    refine iff_of_false (not_succeeded hfinal) ?_
    rintro ⟨text, -, st', dispatch, hsome, -⟩
    rw [hrecorded] at hsome
    cases hsome
  | some st' =>
    rw [hrecorded] at hrecord
    obtain ⟨hsame, -⟩ := hrecord
    have hrow : st'.getTask task.id = some task := (hsame task.id).trans htask
    cases hterminal : document.terminalStatus? with
    | none =>
      dsimp only
      rw [htask]
      refine iff_of_false (not_succeeded hfinal) ?_
      rintro ⟨text, hcompleted, -⟩
      rw [(terminalStatus_succeeded_iff document).mpr hcompleted] at hterminal
      cases hterminal
    | some status =>
      dsimp only
      cases haccepted : lastAccepted st'.runtime.gateway.events document.event.runId with
      | false =>
        rw [if_neg (by simp), htask]
        refine iff_of_false (not_succeeded hfinal) ?_
        rintro ⟨text, -, st'', dispatch, hsome, hlast, -⟩
        obtain rfl := Option.some.inj (hrecorded.symm.trans hsome)
        rw [haccepted] at hlast
        cases hlast
      | true =>
        rw [if_pos rfl]
        by_cases hbound : ∃ dispatch row, BoundTo document st' dispatch row
        · obtain ⟨dispatch, row, hbound⟩ := hbound
          have hadmitted : (∃ text, Finish.Admitted st task text (.event document worker)) ↔
              status = .succeeded ∧ row = task := by
            constructor
            · rintro ⟨text, hcompleted, st'', dispatch', hsome, -, hbound', -⟩
              rw [(terminalStatus_succeeded_iff document).mpr hcompleted] at hterminal
              obtain rfl := Option.some.inj (hrecorded.symm.trans hsome)
              obtain rfl := Option.some.inj (hbound.dispatch_found.symm.trans hbound'.dispatch_found)
              exact ⟨(Option.some.inj hterminal).symm,
                Option.some.inj (hbound.task_found.symm.trans hbound'.task_found)⟩
            · rintro ⟨rfl, rfl⟩
              exact ⟨_, (terminalStatus_succeeded_iff document).mp hterminal, st', dispatch,
                hrecorded, haccepted, hbound, rfl⟩
          rw [hadmitted]
          by_cases hid : row.id = task.id
          · obtain rfl : row = task := by
              have hself := hbound.task_self
              rw [hid, hrow] at hself
              exact (Option.some.inj hself).symm
            rw [getTask_writeBack port (terminalStatus_reported hterminal) hbound hfinal]
            by_cases hstatus : row.status = status
            · rw [if_pos hstatus]
              refine iff_of_false (not_succeeded hfinal) ?_
              rintro ⟨rfl, -⟩
              rw [hstatus] at hfinal
              cases hfinal
            · rw [if_neg hstatus]
              simp
          · refine iff_of_false ?_ fun h => hid (congrArg Task.id h.2)
            rcases run_writeBack_writes port hbound with hsame | ⟨r, hwritten⟩
            · rw [hsame, hrow]
              exact not_succeeded hfinal
            · rw [hwritten]
              show ((st'.world.writeTask (row.moved status r)).getTask task.id).map (·.status) ≠ _
              rw [getTask_writeTask, show st'.world.getTask task.id = some task from hrow,
                Option.map_some, rewritten, Task.moved_id, if_neg fun h => hid h.symm]
              exact not_succeeded hfinal
        · have hunbound : ∀ dispatch row, ¬ BoundTo document st' dispatch row := fun d r h =>
            hbound ⟨d, r, h⟩
          rw [run_writeBack_unbound port document status st' hunbound, hrow]
          refine iff_of_false (not_succeeded hfinal) ?_
          rintro ⟨text, -, st'', dispatch, hsome, -, hbound, -⟩
          obtain rfl := Option.some.inj (hrecorded.symm.trans hsome)
          exact hunbound dispatch task hbound

theorem Finish.Admitted.text_eq {finish : Finish} {task : Task} {text text' : String}
    (h : finish.Admitted st task text) (h' : finish.Admitted st task text') : text = text' := by
  cases finish with
  | report command key =>
    obtain ⟨-, -, -, -, -, rfl⟩ := h
    obtain ⟨-, -, -, -, -, rfl⟩ := h'
    rfl
  | event document worker =>
    obtain ⟨-, st', dispatch, hrecorded, -, hbound, rfl⟩ := h
    obtain ⟨-, st'', dispatch', hrecorded', -, hbound', rfl⟩ := h'
    obtain rfl := Option.some.inj (hrecorded.symm.trans hrecorded')
    obtain rfl := Option.some.inj (hbound.dispatch_found.symm.trans hbound'.dispatch_found)
    rfl

/-- **The gate is applied** by every report, and by an event exactly when the gate does not block a
success the event is admitted with. -/
theorem gate_applied_iff (st : RunnerWorld) (finish : Finish) :
    GateApplied port st finish ↔
      ∀ document worker, finish = .event document worker → ∀ task text,
        st.getTask task.id = some task → task.status.isFinal = false →
          finish.Admitted st task text → gateBlocks task text = false := by
  cases finish with
  | report command key =>
    refine iff_of_true (gateApplied_report port command key) ?_
    rintro document worker ⟨⟩
  | event document worker =>
    constructor
    · rintro happlied _ _ ⟨⟩ task text htask hfinal hadmitted
      have hsucceeds := (event_succeeds_iff port document worker htask hfinal).mpr ⟨text, hadmitted⟩
      obtain ⟨text', hadmitted', hopen⟩ := (happlied task htask hfinal).mp hsucceeds
      rwa [hadmitted.text_eq hadmitted']
    · intro hopen task htask hfinal
      rw [event_succeeds_iff port document worker htask hfinal]
      constructor
      · rintro ⟨text, hadmitted⟩
        exact ⟨text, hadmitted, hopen document worker rfl task text htask hfinal hadmitted⟩
      · rintro ⟨text, hadmitted, -⟩
        exact ⟨text, hadmitted⟩

theorem databaseChange_evidenceOf (document : EventDocument)
    (dispatch : AgentRuntime.RunnerDispatchRecord) (task : Task)
    (hplain : Json.Plain (evidenceOf document dispatch)) :
    (task.moved .succeeded (some (strip
      (RunnerCodecs.evidenceText (evidenceOf document dispatch))))).evidence.bind
        (·.databaseChange) = none := by
  have hread : parseEvidence (some (strip
      (RunnerCodecs.evidenceText (evidenceOf document dispatch)))) =
      some (evidenceOfDocument (Json.sorted (evidenceOf document dispatch))) :=
    parseEvidence_evidenceText hplain rfl
  have hnull : (Json.sorted (evidenceOf document dispatch)).get "databaseChange" = .null := by
    rw [Json.get_sorted hplain]
    rfl
  show (parseEvidence (some (strip
    (RunnerCodecs.evidenceText (evidenceOf document dispatch))))).bind (·.databaseChange) = none
  rw [hread, Option.bind_some, evidenceOfDocument, hnull]
  rfl

/-- **A required database change is never met by an event**: the gate blocks whatever the gateway
writes. -/
theorem gateBlocks_evidenceOf (document : EventDocument)
    (dispatch : AgentRuntime.RunnerDispatchRecord) (task : Task)
    (hplain : Json.Plain (evidenceOf document dispatch))
    (hrequired : task.databaseChange.required = true) :
    gateBlocks task (strip (RunnerCodecs.evidenceText (evidenceOf document dispatch))) = true := by
  have hnone := databaseChange_evidenceOf document dispatch task hplain
  have hrequirement : (task.moved .succeeded (some (strip
      (RunnerCodecs.evidenceText (evidenceOf document dispatch))))).databaseChange =
      task.databaseChange := rfl
  have hdeclared := task.databaseChange.declared_of_required hrequired
  rw [gateBlocks, Task.evaluateDatabaseAutomation, hrequirement, hdeclared, hrequired]
  simp only [hnone]
  rfl

end

/-! ## A migration that was never validated -/

/-- The task requires a migration. -/
def sampleMigrationTask : Task :=
  { leaderTask with
    databaseChange :=
      { declared := true
        required := true
        migrationRequired := true
        requiredChecks := ["migrate"] } }

/-- It is in progress, and its run is under way. -/
def sampleMigrationWorld : RunnerWorld :=
  { sampleWorld with
    world := { sampleWorld.world with tasks := [sampleMigrationTask] }
    runtime := { gateway := { dispatches := [sampleRun] } } }

/-- The completed run is recorded. -/
def sampleMigrationRecorded : RunnerWorld :=
  (recorded sampleCompleted (some 2) sampleMigrationWorld).getD sampleMigrationWorld

/-- Its dispatch afterwards. -/
def sampleCompletedRun : AgentRuntime.RunnerDispatchRecord :=
  { sampleRun with status := .completed, completedAt := some 0 }

theorem sample_admitted :
    letI := pythonCodecs
    Finish.Admitted sampleMigrationWorld sampleMigrationTask
      (strip (RunnerCodecs.evidenceText (evidenceOf sampleCompleted sampleCompletedRun)))
      (.event sampleCompleted (some 2)) := by
  have hrecorded : recorded sampleCompleted (some 2) sampleMigrationWorld =
      some sampleMigrationRecorded := by
    have hsome : (recorded sampleCompleted (some 2) sampleMigrationWorld).isSome = true := by
      decide +kernel
    obtain ⟨st', hst'⟩ := Option.isSome_iff_exists.mp hsome
    rw [sampleMigrationRecorded, hst']
    rfl
  have hlast : lastAccepted sampleMigrationRecorded.runtime.gateway.events 7 = true := by
    decide +kernel
  have hbound : BoundTo sampleCompleted sampleMigrationRecorded sampleCompletedRun
      sampleMigrationTask :=
    { dispatch_found := by decide +kernel
      task_found := by decide +kernel
      worker := by decide }
  exact ⟨rfl, _, _, hrecorded, hlast, hbound, rfl⟩

/-- A run without a database report completes a task that requires a migration. -/
theorem unvalidated_migration_succeeds :
    letI := pythonCodecs
    ¬ ∀ (port : (op : RunnerCallOp) → Except Raised (RunnerAnswer op)) (st : RunnerWorld)
      (finish : Finish), GateApplied port st finish := by
  intro h
  have hevidence : @evidenceOf pythonCodecs.toRunnerCodecs sampleCompleted sampleCompletedRun =
      .obj
        [("summary", .str "runner.completed"), ("changedFiles", .arr []), ("testResults", .arr []),
          ("testCommand", .null), ("artifacts", .arr []), ("blockers", .arr []),
          ("commitSha", .null), ("runId", .str (Delivery.uuidStr 7)), ("workspacePath", .null),
          ("baseSha", .null)] := rfl
  have hplain : Json.Plain (@evidenceOf pythonCodecs.toRunnerCodecs sampleCompleted
      sampleCompletedRun) := by
    rw [hevidence]
    refine .obj (by simp) fun f hf => ?_
    simp only [List.mem_cons, List.not_mem_nil, or_false] at hf
    rcases hf with rfl | rfl | rfl | rfl | rfl | rfl | rfl | rfl | rfl | rfl <;>
      first | exact .str _ | exact .null | exact .arr (by simp)
  have hsucceeds := (@event_succeeds_iff pythonCodecs quietPort sampleMigrationWorld sampleCompleted
    (some 2) sampleMigrationTask (by decide +kernel) rfl).mpr ⟨_, sample_admitted⟩
  obtain ⟨text, hadmitted, hopen⟩ := (h quietPort sampleMigrationWorld
    (.event sampleCompleted (some 2)) sampleMigrationTask (by decide +kernel) rfl).mp hsucceeds
  have htext := @Finish.Admitted.text_eq pythonCodecs _ _ _ _ _ sample_admitted hadmitted
  have hblocks := @gateBlocks_evidenceOf pythonCodecs sampleCompleted sampleCompletedRun
    sampleMigrationTask hplain rfl
  rw [htext, hopen] at hblocks
  cases hblocks

end Runner
end RepoMesh
