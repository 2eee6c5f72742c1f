/-
# Writing a result back

What `_write_back` leaves on the task row, run without interruption on stores with any ports.
-/
import RepoMesh.Runner.EvidenceText
import RepoMesh.Runner.TaskRows

namespace RepoMesh
namespace Runner

open Async
open Orchestration
open Orchestration.World
open Delivery (UUID)

/-- The stores, with ports that answer as they like. -/
def answeredExec (port : (op : RunnerCallOp) → Except Raised (RunnerAnswer op)) (op : RunnerCallOp)
    (st : RunnerWorld) : Except Raised (RunnerAnswer op) × RunnerWorld :=
  (perform op st).getD (port op, st)

variable (port : (op : RunnerCallOp) → Except Raised (RunnerAnswer op))

theorem answeredExec_port {op : RunnerCallOp} {st : RunnerWorld} (h : perform op st = none) :
    answeredExec port op st = (port op, st) := by
  rw [answeredExec, h]
  rfl

theorem answeredExec_store {op : RunnerCallOp} {st : RunnerWorld}
    {answer : Except Raised (RunnerAnswer op) × RunnerWorld} (h : perform op st = some answer) :
    answeredExec port op st = answer := by
  rw [answeredExec, h]
  rfl

theorem run_advanceIfTerminal (taskId : UUID) (status : TaskStatus) (st : RunnerWorld) :
    (advanceIfTerminal taskId status).run (answeredExec port) st = (.ok (), st) := by
  unfold advanceIfTerminal advanceExecutionPlan
  split
  · rw [Prog.run_tryCatch, Prog.run_perform, answeredExec_port port rfl]
    cases port (.onTerminal taskId) <;> rfl
  · rfl

theorem updateTask_current {w : World} {task updated : Task} (htask : w.getTask task.id = some task)
    (hid : updated.id = task.id) :
    w.updateTask updated task.version = .ok (w.writeTask updated) := by
  unfold World.updateTask
  rw [hid, htask]
  simp

theorem getTask_written {w : World} {task : Task} (htask : w.getTask task.id = some task)
    (status : TaskStatus) (resultSummary : Option String) :
    (w.writeTask (task.moved status resultSummary)).getTask task.id =
      some (task.moved status resultSummary) := by
  rw [getTask_writeTask, htask, Option.map_some, rewritten, Task.moved_id, if_pos rfl]
  rfl

section

variable [RunnerCodecs] {document : EventDocument} {status : TaskStatus} {st : RunnerWorld}
  {dispatch : AgentRuntime.RunnerDispatchRecord} {task : Task}

/-- The rows a result is written back to: the dispatch of its run, and the task of its dispatch,
still assigned to the worker of the run. -/
structure BoundTo (document : EventDocument) (st : RunnerWorld)
    (dispatch : AgentRuntime.RunnerDispatchRecord) (task : Task) : Prop where
  dispatch_found : st.runtime.gateway.getDispatch document.event.runId = some dispatch
  task_found : st.getTask dispatch.task.taskId = some task
  worker : task.assigneeAgentId = dispatch.task.workerAgentId

omit [RunnerCodecs] in
theorem BoundTo.task_self (hbound : BoundTo document st dispatch task) :
    st.getTask task.id = some task := by
  have hid : task.id = dispatch.task.taskId := (getTask_eq_some hbound.task_found).2
  rw [hid]
  exact hbound.task_found

theorem run_writeBack (hbound : BoundTo document st dispatch task) :
    (writeBack document status).run (answeredExec port) st =
      (if task.status = status then advanceIfTerminal task.id status
        else do
          let updated ← Prog.lift
            (task.report status (RunnerCodecs.evidenceText (evidenceOf document dispatch)))
          RunnerCall.updateTask updated task.version
          advanceIfTerminal task.id status).run (answeredExec port) st := by
  have hdispatch : answeredExec port (.getDispatch document.event.runId) st =
      (.ok (some dispatch), st) :=
    answeredExec_store port (by rw [perform, hbound.dispatch_found])
  have htask : answeredExec port (.task (.getTask dispatch.task.taskId)) st =
      (.ok (some task), st) := by
    refine answeredExec_store port ?_
    rw [perform]
    simp only [exec, answered]
    rw [show st.world.getTask dispatch.task.taskId = some task from hbound.task_found]
  unfold writeBack
  rw [Prog.run_perform_ok _ hdispatch]
  simp only
  rw [Prog.run_perform_ok _ htask]
  simp only [hbound.worker, ne_eq, not_true, if_false]

theorem run_writeBack_settled (hbound : BoundTo document st dispatch task)
    (hstatus : task.status = status) :
    (writeBack document status).run (answeredExec port) st = (.ok (), st) := by
  rw [run_writeBack port hbound, if_pos hstatus, run_advanceIfTerminal]

/-- **A result is written** to a task that is not final. -/
theorem run_writeBack_written (hbound : BoundTo document st dispatch task)
    (hstatus : task.status ≠ status) {updated : Task}
    (hreport : task.report status (RunnerCodecs.evidenceText (evidenceOf document dispatch)) =
      .ok updated) :
    (writeBack document status).run (answeredExec port) st =
      (.ok (), { st with world := st.world.writeTask updated }) := by
  obtain ⟨-, -, hupdated⟩ := Task.report_ok hreport
  have hcurrent := updateTask_current hbound.task_self
    (show updated.id = task.id by rw [hupdated, Task.moved_id])
  have hupdate : answeredExec port (.task (.updateTask updated task.version)) st =
      (.ok (), { st with world := st.world.writeTask updated }) := by
    refine answeredExec_store port ?_
    rw [perform]
    simp only [exec, hcurrent, written_ok]
  rw [run_writeBack port hbound, if_neg hstatus, hreport]
  show (RunnerCall.updateTask updated task.version >>= fun _ =>
    advanceIfTerminal task.id status).run (answeredExec port) st = _
  rw [Prog.run_perform_ok _ hupdate, run_advanceIfTerminal]

theorem run_writeBack_writes (hbound : BoundTo document st dispatch task) :
    ((writeBack document status).run (answeredExec port) st).2 = st ∨
      ∃ r, ((writeBack document status).run (answeredExec port) st).2 =
        { st with world := st.world.writeTask (task.moved status r) } := by
  by_cases hstatus : task.status = status
  · rw [run_writeBack_settled port hbound hstatus]
    exact Or.inl rfl
  · cases hreport : task.report status
      (RunnerCodecs.evidenceText (evidenceOf document dispatch)) with
    | error e =>
      rw [run_writeBack port hbound, if_neg hstatus, hreport]
      exact Or.inl rfl
    | ok updated =>
      obtain ⟨-, -, hupdated⟩ := Task.report_ok hreport
      rw [run_writeBack_written port hbound hstatus hreport, hupdated]
      exact Or.inr ⟨_, rfl⟩

end

theorem getTask_writeBack [PythonCodecs]
    {document : EventDocument}
    {status : TaskStatus} (hreported : status = .blocked ∨ status = .succeeded ∨ status = .failed)
    {st : RunnerWorld} {dispatch : AgentRuntime.RunnerDispatchRecord} {row : Task}
    (hbound : BoundTo document st dispatch row) (hfinal : row.status.isFinal = false) :
    ((writeBack document status).run (answeredExec port) st).2.getTask row.id =
      some (if row.status = status then row else row.moved status
        (some (Text.strip (RunnerCodecs.evidenceText (evidenceOf document dispatch))))) := by
  by_cases hstatus : row.status = status
  · rw [run_writeBack_settled port hbound hstatus, if_pos hstatus]
    exact hbound.task_self
  · have hreport : row.report status (RunnerCodecs.evidenceText (evidenceOf document dispatch)) =
        .ok (row.moved status
          (some (Text.strip (RunnerCodecs.evidenceText (evidenceOf document dispatch))))) := by
      have hblank : Text.isBlank (RunnerCodecs.evidenceText (evidenceOf document dispatch)) = false :=
        isBlank_evidenceText _
      rw [Task.report, if_neg (by simp [hfinal]), if_pos hreported, if_neg (by simp [hblank])]
    rw [run_writeBack_written port hbound hstatus hreport, if_neg hstatus]
    exact getTask_written hbound.task_self status _

end Runner
end RepoMesh
