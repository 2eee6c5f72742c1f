/-
# How often a call writes a task row

Every call writes at most one task row: whatever it is answered, no write follows one that was
accepted.
-/
import RepoMesh.Runner.TaskRows

namespace RepoMesh
namespace Runner

open Async
open Orchestration
open Delivery (UUID)

/-- A call that writes no task row. -/
abbrev Quiet {α : Type} (p : RunnerCall α) : Prop := p.Only fun op => ¬ WritesTask op

/-- A call that writes at most one. -/
abbrev WritesOnce {α : Type} (p : RunnerCall α) : Prop := p.AtMostOnce WritesTask

theorem quiet_perform {op : RunnerCallOp} (h : ¬ WritesTask op) :
    Quiet (Prog.perform op : RunnerCall (RunnerAnswer op)) :=
  (Prog.only_perform op).mpr h

theorem quiet_assignmentAllows (dispatch : Option AgentRuntime.RunnerDispatchRecord) :
    Quiet (assignmentAllows dispatch) := by
  unfold assignmentAllows
  split
  · exact Prog.only_done _
  split
  · exact Prog.only_done _
  · exact Prog.only_done _
  · exact quiet_perform (fun h => h)

theorem quiet_completeAssignment (document : EventDocument)
    (dispatch : Option AgentRuntime.RunnerDispatchRecord) :
    Quiet (completeAssignment document dispatch) := by
  unfold completeAssignment
  split
  · exact Prog.only_done _
  split
  · split
    · exact quiet_perform (fun h => h)
    · exact Prog.only_done _
  · exact Prog.only_done _

theorem quiet_recoverRun (document : EventDocument) : Quiet (recoverRun document) := by
  unfold recoverRun
  split
  · exact quiet_perform (fun h => h)
  · exact Prog.only_done _

theorem quiet_advanceIfTerminal (taskId : UUID) (status : TaskStatus) :
    Quiet (advanceIfTerminal taskId status) := by
  unfold advanceIfTerminal
  split
  · exact Prog.only_tryCatch (quiet_perform (fun h => h)) fun _ => Prog.only_done _
  · exact Prog.only_done _

/-- The operations a recovery consults others with before it acts. -/
def Consults : RunnerCallOp → Prop
  | .task op => op.isRead = true
  | .activeAttempt _ | .healthy _ | .workerBusy _ | .recentFailures _ | .escalate .. => True
  | _ => False

theorem not_writesTask_of_consults {op : RunnerCallOp} (h : Consults op) : ¬ WritesTask op := by
  cases op with
  | task op => cases op <;> first | exact fun hw => hw | cases h
  | _ => first | exact fun hw => hw | exact h.elim

theorem only_candidateWorker (workerId : UUID) : (candidateWorker workerId).Only Consults := by
  refine Prog.only_bind ((Prog.only_perform _).mpr rfl) ?_
  rintro (_ | principal)
  · exact Prog.only_done _
  dsimp only
  split
  · exact Prog.only_done _
  refine Prog.only_bind ((Prog.only_perform _).mpr trivial) fun healthy => ?_
  split
  · exact Prog.only_done _
  refine Prog.only_bind ((Prog.only_perform _).mpr trivial) fun busy => ?_
  split
  · exact Prog.only_done _
  · exact Prog.only_bind ((Prog.only_perform _).mpr trivial) fun _ => Prog.only_done _

theorem only_chooseReplacement (operation : WorkerRecoveryOperation) (task : Task) :
    (chooseReplacement operation task).Only Consults := by
  refine Prog.only_bind ((Prog.only_perform _).mpr rfl) ?_
  rintro (_ | topology)
  · exact Prog.only_done _
  dsimp only
  split
  · exact Prog.only_done _
  · refine Prog.only_bind (Prog.only_each fun worker _ => only_candidateWorker worker) fun _ => ?_
    split <;> exact Prog.only_done _

theorem only_escalated (n : ℤ) (operation : WorkerRecoveryOperation) (reason : String) :
    (escalated (portCoordinator n) operation reason).Only Consults :=
  Prog.only_bind ((Prog.only_perform _).mpr trivial) fun _ => Prog.only_done _

theorem quiet_chooseReplacement (operation : WorkerRecoveryOperation) (task : Task) :
    Quiet (chooseReplacement operation task) :=
  Prog.Only.mono (only_chooseReplacement operation task) fun _ => not_writesTask_of_consults

theorem quiet_escalated (n : ℤ) (operation : WorkerRecoveryOperation) (reason : String) :
    Quiet (escalated (portCoordinator n) operation reason) :=
  Prog.Only.mono (only_escalated n operation reason) fun _ => not_writesTask_of_consults

theorem quiet_activeOrInitial (taskId : UUID) : Quiet (activeOrInitial taskId) := by
  refine Prog.only_bind (quiet_perform (fun h => h)) ?_
  rintro (_ | assignment)
  · exact quiet_perform (fun h => h)
  · exact Prog.only_done _

/-! ## Task orchestration -/

/-- A call of task orchestration that writes no task row, and one that writes at most one. -/
abbrev CallQuiet {α : Type} (p : Call α) : Prop := p.Only fun op => ¬ WritesTask (.task op)

abbrev CallWritesOnce {α : Type} (p : Call α) : Prop := p.AtMostOnce fun op => WritesTask (.task op)

theorem callQuiet_asks {α : Type} {p : Call α} (h : Asks p) : CallQuiet p := by
  refine Prog.Only.mono h fun op hop hwrites => ?_
  cases op <;> first | exact hwrites | cases hop

section Calls

variable [Codecs]

theorem writesOnce_assign (command : AssignTaskCommand) (key : String) (origin : TaskOrigin)
    (deliver : Bool) : CallWritesOnce (assign command key origin deliver) := by
  unfold assign
  split
  · exact Prog.atMostOnce_done _
  refine Prog.AtMostOnce.bind_left ((Prog.only_perform _).mpr fun h => h) ?_
  rintro (_ | ⟨task, fingerprint⟩)
  · refine Prog.AtMostOnce.bind_left (callQuiet_asks (asks_checkAdmission command)) ?_
    rintro ⟨assigner, assignee⟩
    refine Prog.AtMostOnce.bind_left ((Prog.only_perform _).mpr fun h => h) fun id => ?_
    refine Prog.AtMostOnce.bind_left (Prog.only_lift _) fun task => ?_
    refine Prog.AtMostOnce.bind_right (Prog.atMostOnce_perform _) fun _ => ?_
    split
    · exact Prog.only_bind (callQuiet_asks (asks_deliverTo _ _ _)) fun _ => Prog.only_done _
    · exact Prog.only_done _
  · dsimp only
    unfold assignReplay
    split
    · exact Prog.atMostOnce_done _
    split
    · exact Prog.AtMostOnce.bind_left (callQuiet_asks (asks_deliverTo _ _ _)) fun _ => Prog.atMostOnce_done _
    · exact Prog.atMostOnce_done _

omit [Codecs] in
theorem writesOnce_start (taskId agentId : UUID) : CallWritesOnce (start taskId agentId) := by
  refine Prog.AtMostOnce.bind_left (callQuiet_asks (asks_requiredTask _)) fun task => ?_
  split
  · exact Prog.atMostOnce_done _
  refine Prog.AtMostOnce.bind_left ((Prog.only_perform _).mpr fun h => h) fun gate => ?_
  split
  · exact Prog.atMostOnce_done _
  refine Prog.AtMostOnce.bind_left (Prog.only_lift _) fun updated => ?_
  exact Prog.AtMostOnce.bind_right (Prog.atMostOnce_perform _) fun _ => Prog.only_done _

theorem writesOnce_report (command : ReportTaskCommand) (key : String) :
    CallWritesOnce (report command key) := by
  refine Prog.AtMostOnce.bind_left (callQuiet_asks (asks_requiredAgent _)) fun reporter => ?_
  refine Prog.AtMostOnce.bind_left (callQuiet_asks (asks_requiredTask _)) fun task => ?_
  split
  · exact Prog.atMostOnce_done _
  have hrecord : CallWritesOnce (recordReport task command) := by
    unfold recordReport
    split
    · exact Prog.atMostOnce_done _
    split
    · exact Prog.atMostOnce_done _
    refine Prog.AtMostOnce.bind_left (Prog.only_lift _) fun updated => ?_
    split
    · exact Prog.atMostOnce_done _
    · exact Prog.AtMostOnce.bind_right (Prog.atMostOnce_perform _) fun _ => Prog.only_done _
  refine Prog.AtMostOnce.bind_right hrecord fun updated => ?_
  have hfollow := (asksPorts_followReport reporter task updated command key).asks
  exact Prog.only_bind (callQuiet_asks hfollow) fun _ => Prog.only_done _

theorem writesOnce_redispatch (taskId : UUID) (attempt : String) (redo : Bool) :
    CallWritesOnce (redispatch taskId attempt redo) := by
  refine Prog.AtMostOnce.bind_left (callQuiet_asks (asks_requiredTask _)) fun found => ?_
  have hreopen : CallWritesOnce (reopenForRedispatch found redo) := by
    unfold reopenForRedispatch
    split
    · exact Prog.atMostOnce_done _
    split
    · exact Prog.atMostOnce_done _
    refine Prog.AtMostOnce.bind_left (Prog.only_lift _) fun reopened => ?_
    exact Prog.AtMostOnce.bind_right (Prog.atMostOnce_perform _) fun _ => Prog.only_done _
  refine Prog.AtMostOnce.bind_right hreopen fun task => ?_
  refine Prog.only_bind ((Prog.only_perform _).mpr fun h => h) ?_
  rintro (_ | key)
  · exact Prog.only_done _
  · exact Prog.only_bind (callQuiet_asks (asks_deliverTo _ _ _)) fun _ => Prog.only_done _

omit [Codecs] in
theorem writesOnce_supersede (command : SupersedeTaskCommand) (key : String) :
    CallWritesOnce (supersede command key) := by
  unfold supersede
  split
  · exact Prog.atMostOnce_done _
  refine Prog.AtMostOnce.bind_left (callQuiet_asks (asks_requiredTask _)) fun task => ?_
  dsimp only
  generalize (if Text.strip command.reason = "" then "SUPERSEDED"
    else "SUPERSEDED: " ++ Text.strip command.reason) = words
  split
  · exact Prog.atMostOnce_done _
  refine Prog.AtMostOnce.bind_left (Prog.only_lift _) fun updated => ?_
  exact Prog.AtMostOnce.bind_right (Prog.atMostOnce_perform _) fun _ => Prog.only_done _

end Calls

/-! ## The gateway and the coordinator -/

section Gateway

variable [RunnerCodecs]

theorem writesOnce_writeBack (document : EventDocument) (status : TaskStatus) :
    WritesOnce (writeBack document status) := by
  refine Prog.AtMostOnce.bind_left (quiet_perform fun h => h) ?_
  rintro (_ | dispatch)
  · exact Prog.atMostOnce_done _
  refine Prog.AtMostOnce.bind_left (quiet_perform fun h => h) ?_
  rintro (_ | task)
  · exact Prog.atMostOnce_done _
  dsimp only
  split
  · exact Prog.atMostOnce_done _
  split
  · exact Prog.Only.atMostOnce (quiet_advanceIfTerminal _ _)
  refine Prog.AtMostOnce.bind_left (Prog.only_lift _) fun updated => ?_
  exact Prog.AtMostOnce.bind_right (Prog.atMostOnce_perform _) fun _ =>
    quiet_advanceIfTerminal _ _

theorem writesOnce_receiveEvent (document : EventDocument) (worker : Option UUID) :
    WritesOnce (receiveEvent document worker) := by
  refine Prog.AtMostOnce.bind_left (quiet_perform fun h => h) fun dispatch => ?_
  refine Prog.AtMostOnce.bind_left (quiet_assignmentAllows dispatch) fun allowed => ?_
  refine Prog.AtMostOnce.bind_left (quiet_perform fun h => h) fun inserted => ?_
  split
  · exact Prog.atMostOnce_done _
  · refine Prog.AtMostOnce.bind_left (quiet_perform fun h => h) fun projects => ?_
    split
    · refine Prog.AtMostOnce.bind_right (writesOnce_writeBack document _) fun _ => ?_
      refine Prog.only_bind (quiet_completeAssignment document dispatch) fun _ => ?_
      exact Prog.only_bind (quiet_recoverRun document) fun _ => Prog.only_done _
    · exact Prog.atMostOnce_done _

end Gateway

theorem writesOnce_decideFor (n : ℤ) (operation : WorkerRecoveryOperation) (task : Task)
    (assignment : TaskAssignmentAttempt) :
    WritesOnce (decideFor (portCoordinator n) operation task assignment) := by
  unfold decideFor
  split
  · exact Prog.atMostOnce_done _
  refine Prog.AtMostOnce.bind_left (quiet_perform fun h => h) fun healthy => ?_
  dsimp only
  split
  · exact Prog.Only.atMostOnce (quiet_escalated _ _ _)
  split
  · unfold resumeSame
    split
    · exact Prog.Only.atMostOnce (quiet_escalated _ _ _)
    refine Prog.AtMostOnce.bind_right (Prog.atMostOnce_perform _) fun _ => ?_
    exact Prog.only_bind (quiet_perform fun h => h) fun _ => Prog.only_done _
  · unfold reassignElsewhere
    split
    · exact Prog.Only.atMostOnce (quiet_escalated _ _ _)
    refine Prog.AtMostOnce.bind_left (quiet_chooseReplacement _ _) ?_
    rintro (reason | workerId)
    · exact Prog.Only.atMostOnce (quiet_escalated _ _ _)
    refine Prog.AtMostOnce.bind_right (Prog.atMostOnce_perform _) fun _ => ?_
    exact Prog.only_bind (quiet_perform fun h => h) fun _ => Prog.only_done _

theorem writesOnce_decide (n : ℤ) (operation : WorkerRecoveryOperation) :
    WritesOnce (Runner.decide (portCoordinator n) operation) := by
  refine Prog.AtMostOnce.bind_left (quiet_perform fun h => h) ?_
  rintro (_ | task)
  · refine Prog.AtMostOnce.bind_left (quiet_perform fun h => h) fun _ => ?_
    exact Prog.Only.atMostOnce (quiet_escalated _ _ _)
  · refine Prog.AtMostOnce.bind_left (quiet_activeOrInitial _) fun assignment => ?_
    exact writesOnce_decideFor _ _ _ _

end Runner
end RepoMesh
