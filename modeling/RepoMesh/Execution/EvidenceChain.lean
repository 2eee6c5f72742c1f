/-
# Evidence from the executor to the task

What the executor answers is published by the Runner, written back by the gateway and parsed by the
task. The result is compared with what the task's view has in the end.
-/
import RepoMesh.Execution.Engine
import RepoMesh.Runner.ResultFence
import RepoMesh.Runner.WriteBack

namespace RepoMesh
namespace Execution

open Text
open Orchestration
open Runner (RunnerWorld EventDocument RunnerCallOp RunnerAnswer RunnerCodecs PythonCodecs
  answeredExec writeBack evidenceOf BoundTo)
open Delivery (UUID uuidStr Instant)

/-! ## On the wire -/

/-- The binding fields of an event. -/
def bindingOf (ids : AgentRuntime.RunnerTask) : List (String × String) :=
  [("organizationId", uuidStr ids.organizationId), ("projectId", uuidStr ids.projectId),
    ("taskId", uuidStr ids.taskId), ("runId", uuidStr ids.runId), ("attempt", toString ids.attempt),
    ("assignmentAttemptId", (ids.assignmentAttemptId.map uuidStr).getD "None"),
    ("assignmentGeneration", (ids.assignmentGeneration.map toString).getD "None"),
    ("executionId", (ids.executionId.map uuidStr).getD "None"),
    ("executionVersion", (ids.executionVersion.map toString).getD "None")]

/-- `to_wire`, as the gateway gets it. -/
def RunnerEvent.toWire (uuid5 : String → UUID) (occurredAt : Instant) (event : RunnerEvent) :
    EventDocument :=
  { event :=
      { eventId := uuid5 event.eventName
        runId := event.task.runId
        binding := bindingOf event.task.ids
        body := some
          { sequence := event.sequence, eventType := event.eventType.value, occurredAt } }
    payload := event.payload
    nativeSessionId := event.nativeSessionId }

/-- The task a dispatch was made for was assigned this workspace, or none. -/
def Assigns [Codecs] (dispatch : AgentRuntime.RunnerDispatchRecord)
    (workspace : Option WorkspaceAssignment) : Prop :=
  ∃ document, Codecs.jsonLoads dispatch.taskPayload.document = some document ∧
    document.get "workspace" = (workspace.map WorkspaceAssignment.toWire).getD .null

/-! ## What survives -/

/-- The view has what the result and the dispatch say. -/
structure CarriesResult [Codecs] (result : RunnerExecutionResult)
    (dispatch : AgentRuntime.RunnerDispatchRecord) (workspace : Option WorkspaceAssignment)
    (view : TaskEvidenceView) : Prop where
  commitSha : view.commitSha = result.commitSha
  changedFiles : view.changedFiles = result.changedFiles
  testCommand : view.testCommand = result.testCommand
  testResults : view.testResults.map (fun entry => (entry.command, entry.exitCode)) =
    result.testResults.map fun entry => (entry.command, entry.exitCode)
  artifactCount : view.artifactCount = result.artifacts.length
  databaseChange : view.databaseChange =
    result.databaseChange.bind fun fields => parseDatabaseChange (.obj fields)
  runId : view.runId = some dispatch.runId
  workspacePath : view.workspacePath = workspace.map (·.path)
  baseSha : view.baseSha = workspace.map (·.baseSha)

/-- The view has the text of what was raised, as far as it was published. -/
def CarriesError (error : Failure) (view : TaskEvidenceView) : Prop :=
  ∃ summary, view.summaryText = some summary ∧
    containsText summary (truncate 500 error.message) = true

/-- The evidence on a task has what the executor answered. -/
def EvidenceKept [Codecs] (outcome : Except Failure RunnerExecutionResult)
    (dispatch : AgentRuntime.RunnerDispatchRecord) (workspace : Option WorkspaceAssignment)
    (task : Task) : Prop :=
  ∃ view, task.evidence = some view ∧
    match outcome with
    | .ok result => CarriesResult result dispatch workspace view
    | .error error => CarriesError error view

/-- The answers that lose nothing on their way: a result without a database report whose test
commands have no blanks at their ends, or an exception whose text is in the name of the event. -/
def LosesNothing : Except Failure RunnerExecutionResult → Prop
  | .ok result =>
    result.databaseChange = none ∧ ∀ entry ∈ result.testResults, strip entry.command = entry.command
  | .error error => containsText "runner.failed" (truncate 500 error.message) = true

/-- The task status a result stands for. -/
def taskStatusOf : RunnerResultStatus → TaskStatus
  | .succeeded => .succeeded
  | .failed | .interrupted => .failed
  | .inputRequired => .blocked

/-- The status the answer leaves on its task. -/
def statusOf : Except Failure RunnerExecutionResult → TaskStatus
  | .ok result => taskStatusOf result.status
  | .error _ => .failed

theorem terminalStatus_finalEvent (uuid5 : String → UUID) (occurredAt : Instant) (task : RunnerTask)
    (outcome : Except Failure RunnerExecutionResult) :
    ((finalEvent task outcome).toWire uuid5 occurredAt).terminalStatus? = some (statusOf outcome) := by
  cases outcome with
  | error error => rfl
  | ok result =>
    obtain ⟨status, summary⟩ := result
    cases status <;> rfl

theorem terminalStatus_acceptedEvent (uuid5 : String → UUID) (occurredAt : Instant)
    (task : RunnerTask) :
    ((acceptedEvent task).toWire uuid5 occurredAt).terminalStatus? = none := rfl

/-! ## The evidence that is written -/

theorem plain_optionalText (text : Option String) : Json.Plain (optionalText text) := by
  cases text with
  | none => exact .null
  | some text => exact .str text

theorem sorted_optionalText (text : Option String) :
    Json.sorted (optionalText text) = optionalText text := by
  cases text <;> rfl

theorem plain_texts (texts : List String) : Json.Plain (.arr (texts.map .str)) := by
  refine .arr fun item hitem => ?_
  obtain ⟨text, -, rfl⟩ := List.mem_map.mp hitem
  exact .str text

theorem sorted_texts (texts : List String) :
    Json.sorted (.arr (texts.map .str)) = .arr (texts.map .str) := by
  rw [Json.sorted_arr, List.map_map]
  rfl

/-- The wire form of a test result. -/
def testResultWire (entry : TestCommandResult) : Json :=
  .obj [("command", .str entry.command), ("exitCode", .int entry.exitCode)]

theorem plain_testResultWire (entry : TestCommandResult) : Json.Plain (testResultWire entry) := by
  refine .obj (by simp) fun f hf => ?_
  rcases List.mem_cons.mp hf with rfl | hf
  · exact .str _
  · rw [List.mem_singleton.mp hf]
    exact .int _

theorem plain_artifact (artifact : ArtifactRef) : Json.Plain artifact.toWire := by
  refine .obj (by simp) fun f hf => ?_
  simp only [List.mem_cons, List.not_mem_nil, or_false] at hf
  rcases hf with rfl | rfl | rfl <;> exact .str _

theorem workspaceOf_get [RunnerCodecs] {dispatch : AgentRuntime.RunnerDispatchRecord}
    {workspace : Option WorkspaceAssignment} (hassigns : Assigns dispatch workspace) :
    (Runner.workspaceOf dispatch).get "path" = optionalText (workspace.map (·.path)) ∧
      (Runner.workspaceOf dispatch).get "baseSha" = optionalText (workspace.map (·.baseSha)) := by
  obtain ⟨document, hread, hworkspace⟩ := hassigns
  rw [Runner.workspaceOf, hread, Option.getD_some, hworkspace]
  cases workspace <;> exact ⟨rfl, rfl⟩

/-- The document of a result with these texts. -/
def writtenDocument (summary : String) (result : RunnerExecutionResult) (runId : UUID)
    (workspace : Option WorkspaceAssignment) : Json :=
  .obj
    [("summary", .str summary),
      ("changedFiles", .arr (result.changedFiles.map .str)),
      ("testResults", .arr (result.testResults.map testResultWire)),
      ("testCommand", optionalText result.testCommand),
      ("artifacts", .arr (result.artifacts.map ArtifactRef.toWire)),
      ("blockers", .arr []),
      ("commitSha", optionalText result.commitSha),
      ("runId", .str (uuidStr runId)),
      ("workspacePath", optionalText (workspace.map (·.path))),
      ("baseSha", optionalText (workspace.map (·.baseSha)))]

/-- What an exception is written as: a result with nothing in it. -/
def noResult : RunnerExecutionResult := { status := .failed, summary := "" }

theorem evidenceOf_finalEvent [RunnerCodecs] (uuid5 : String → UUID) (occurredAt : Instant)
    (task : RunnerTask) {dispatch : AgentRuntime.RunnerDispatchRecord}
    {workspace : Option WorkspaceAssignment} (hassigns : Assigns dispatch workspace)
    (outcome : Except Failure RunnerExecutionResult) :
    evidenceOf ((finalEvent task outcome).toWire uuid5 occurredAt) dispatch =
      match outcome with
      | .ok result => writtenDocument (Runner.summaryOf (resultPayload result)
          (finalEventType result.status).value) result dispatch.runId workspace
      | .error _ => writtenDocument "runner.failed" noResult dispatch.runId workspace := by
  obtain ⟨hpath, hbase⟩ := workspaceOf_get hassigns
  rw [evidenceOf, hpath, hbase]
  cases outcome <;> rfl

theorem plain_writtenDocument (summary : String) (result : RunnerExecutionResult) (runId : UUID)
    (workspace : Option WorkspaceAssignment) :
    Json.Plain (writtenDocument summary result runId workspace) := by
  have hresults : Json.Plain (.arr (result.testResults.map testResultWire)) := by
    refine .arr fun item hitem => ?_
    obtain ⟨entry, -, rfl⟩ := List.mem_map.mp hitem
    exact plain_testResultWire entry
  have hartifacts : Json.Plain (.arr (result.artifacts.map ArtifactRef.toWire)) := by
    refine .arr fun item hitem => ?_
    obtain ⟨artifact, -, rfl⟩ := List.mem_map.mp hitem
    exact plain_artifact artifact
  refine .obj (by simp) fun f hf => ?_
  simp only [List.mem_cons, List.not_mem_nil, or_false] at hf
  rcases hf with rfl | rfl | rfl | rfl | rfl | rfl | rfl | rfl | rfl | rfl
  · exact .str summary
  · exact plain_texts _
  · exact hresults
  · exact plain_optionalText _
  · exact hartifacts
  · exact .arr (by simp)
  · exact plain_optionalText _
  · exact .str _
  · exact plain_optionalText _
  · exact plain_optionalText _

/-! ## The evidence that is read -/

theorem parseTestResults_wire [Codecs] (entries : List TestCommandResult) :
    parseTestResults (Json.sorted (.arr (entries.map testResultWire))) =
      entries.map fun entry =>
        { command := strip entry.command, exitCode := entry.exitCode, summary := "" } := by
  have hentry : ∀ entry : TestCommandResult,
      parseTestResult (Json.sorted (testResultWire entry)) =
        some { command := strip entry.command, exitCode := entry.exitCode, summary := "" } := by
    intro entry
    have hget := Json.get_sorted (plain_testResultWire entry)
    have hcommand : (Json.sorted (testResultWire entry)).get "command" = .str entry.command :=
      hget "command"
    have hexit : (Json.sorted (testResultWire entry)).get "exitCode" = .int entry.exitCode :=
      hget "exitCode"
    have hnull : ∀ key, key = "stderr" ∨ key = "stdout" ∨ key = "summary" →
        (Json.sorted (testResultWire entry)).get key = .null := by
      rintro key (rfl | rfl | rfl) <;> exact hget _
    have hne : entry.command ≠ "" := by
      intro hempty
      have hblank := entry.command_nonblank
      rw [hempty] at hblank
      exact absurd hblank (by decide)
    have hstrip : strip entry.command ≠ "" := by
      intro hempty
      have hblank := entry.command_nonblank
      rw [isBlank, hempty] at hblank
      exact absurd hblank (by decide)
    rw [parseTestResult, Json.isObj_sorted, hcommand, hexit, hnull _ (Or.inl rfl),
      hnull _ (Or.inr (Or.inl rfl)), hnull _ (Or.inr (Or.inr rfl))]
    simp [testResultWire, Json.isObj, Json.or, Json.truthy, Json.int?, Json.isBool, pyStr, hne,
      hstrip]
  rw [Json.sorted_arr, parseTestResults, List.map_map, List.filterMap_map]
  rw [← List.filterMap_eq_map]
  congr 1
  funext entry
  exact hentry entry

theorem textIfTruthy_optionalText [Codecs] {text : Option String}
    (hne : ∀ s ∈ text, isBlank s = false) : textIfTruthy (optionalText text) = text := by
  cases text with
  | none => rfl
  | some s =>
    have hs : s ≠ "" := by
      rintro rfl
      exact absurd (hne "" rfl) (by decide)
    simp [textIfTruthy, optionalText, Json.truthy, hs, pyStr]

/-- **What is read of a result** that was written: all but the database report, with the blanks at
the ends of the test commands gone. -/
theorem evidenceOfDocument_written [PythonCodecs] (summary : String)
    (result : RunnerExecutionResult) {runId : UUID} (hrun : runId < 2 ^ 128)
    (workspace : Option WorkspaceAssignment) :
    evidenceOfDocument (Json.sorted (writtenDocument summary result runId workspace)) =
      { commitSha := result.commitSha
        runId := some runId
        changedFiles := result.changedFiles
        baseSha := workspace.map (·.baseSha)
        workspacePath := workspace.map (·.path)
        summaryText := some summary
        blockers := []
        testCommand := result.testCommand
        testResults := result.testResults.map fun entry =>
          { command := strip entry.command, exitCode := entry.exitCode, summary := "" }
        artifactCount := result.artifacts.length
        databaseChange := none } := by
  have hget := Json.get_sorted (plain_writtenDocument summary result runId workspace)
  have huuid : uuidStr runId ≠ "" := by
    intro hempty
    have hlist := congrArg String.toList hempty
    rw [uuidStr, String.toList_ofList] at hlist
    simp at hlist
  have hrunId : (if (Json.str (uuidStr runId)).truthy then
      Codecs.uuidOfText (pyStr (.str (uuidStr runId))) else none) = some runId := by
    rw [if_pos (by simpa [Json.truthy] using huuid)]
    exact PythonCodecs.uuidOfText_uuidStr runId hrun
  have hfiles : (result.changedFiles.map Json.str).map pyStr = result.changedFiles := by
    rw [List.map_map]
    exact List.map_id _
  have htestCommand : (optionalText result.testCommand).str? = result.testCommand := by
    cases result.testCommand <;> rfl
  have hartifacts : ((result.artifacts.map ArtifactRef.toWire).map Json.sorted).length =
      result.artifacts.length := by
    rw [List.length_map, List.length_map]
  have hbase : textIfTruthy (optionalText (workspace.map (·.baseSha))) =
      workspace.map (·.baseSha) := textIfTruthy_optionalText fun s hs => by
    obtain ⟨w, -, rfl⟩ := Option.map_eq_some_iff.mp hs
    exact w.baseSha_nonblank
  have hpath : textIfTruthy (optionalText (workspace.map (·.path))) = workspace.map (·.path) :=
    textIfTruthy_optionalText fun s hs => by
      obtain ⟨w, -, rfl⟩ := Option.map_eq_some_iff.mp hs
      exact w.path_nonblank
  rw [evidenceOfDocument]
  simp only [hget]
  rw [TaskEvidenceView.mk.injEq]
  refine ⟨?_, ?_, ?_, ?_, ?_, rfl, rfl, ?_, ?_, ?_, rfl⟩
  · have hread : (writtenDocument summary result runId workspace).get "commitSha" =
        optionalText result.commitSha := rfl
    rw [hread, sorted_optionalText]
    cases hvalue : result.commitSha with
    | none => rfl
    | some sha =>
      have hfull := result.commitSha_full sha (by rw [hvalue]; rfl)
      simp [optionalText, isBlank_of_isFullObjectId hfull]
  · exact hrunId
  · have hread : (writtenDocument summary result runId workspace).get "changedFiles" =
        .arr (result.changedFiles.map .str) := rfl
    rw [hread, sorted_texts]
    exact hfiles
  · exact (congrArg textIfTruthy (sorted_optionalText _)).trans hbase
  · exact (congrArg textIfTruthy (sorted_optionalText _)).trans hpath
  · exact (congrArg Json.str? (sorted_optionalText _)).trans htestCommand
  · exact parseTestResults_wire result.testResults
  · have hread : (writtenDocument summary result runId workspace).get "artifacts" =
        .arr (result.artifacts.map ArtifactRef.toWire) := rfl
    rw [hread, Json.sorted_arr]
    exact hartifacts

theorem evidence_written [PythonCodecs] (row : Task) (status : TaskStatus) (summary : String)
    (result : RunnerExecutionResult) {runId : UUID} (hrun : runId < 2 ^ 128)
    (workspace : Option WorkspaceAssignment) :
    (row.moved status (some (strip (RunnerCodecs.evidenceText
      (writtenDocument summary result runId workspace))))).evidence =
      some
        { commitSha := result.commitSha
          runId := some runId
          changedFiles := result.changedFiles
          baseSha := workspace.map (·.baseSha)
          workspacePath := workspace.map (·.path)
          summaryText := some summary
          blockers := []
          testCommand := result.testCommand
          testResults := result.testResults.map fun entry =>
            { command := strip entry.command, exitCode := entry.exitCode, summary := "" }
          artifactCount := result.artifacts.length
          databaseChange := none } := by
  have hread := Runner.parseEvidence_evidenceText
    (plain_writtenDocument summary result runId workspace) rfl
  exact hread.trans (congrArg some (evidenceOfDocument_written summary result hrun workspace))

/-! ## What is kept -/

theorem commands_kept_iff (entries : List TestCommandResult) :
    (entries.map fun entry => (strip entry.command, entry.exitCode)) =
        (entries.map fun entry => (entry.command, entry.exitCode)) ↔
      ∀ entry ∈ entries, strip entry.command = entry.command := by
  rw [List.map_inj_left]
  constructor
  · intro h entry hentry
    exact (Prod.mk.inj (h entry hentry)).1
  · intro h entry hentry
    rw [h entry hentry]

/-- **What was written has what the executor answered** exactly when nothing was lost. -/
theorem evidenceKept_written_iff [PythonCodecs] (uuid5 : String → UUID) (occurredAt : Instant)
    (task : RunnerTask) (outcome : Except Failure RunnerExecutionResult)
    {dispatch : AgentRuntime.RunnerDispatchRecord} {workspace : Option WorkspaceAssignment}
    (hassigns : Assigns dispatch workspace) (hrun : dispatch.runId < 2 ^ 128) (row : Task)
    (status : TaskStatus) :
    EvidenceKept outcome dispatch workspace (row.moved status (some (strip
        (RunnerCodecs.evidenceText
          (evidenceOf ((finalEvent task outcome).toWire uuid5 occurredAt) dispatch))))) ↔
      LosesNothing outcome := by
  rw [evidenceOf_finalEvent uuid5 occurredAt task hassigns outcome]
  cases outcome with
  | ok result =>
    have hview := evidence_written row status (Runner.summaryOf (resultPayload result)
      (finalEventType result.status).value) result hrun workspace
    constructor
    · rintro ⟨view, hsome, hcarries⟩
      obtain rfl := Option.some.inj (hview.symm.trans hsome)
      refine ⟨?_, ?_⟩
      · have hdatabase := hcarries.databaseChange
        cases hchange : result.databaseChange with
        | none => rfl
        | some fields =>
          rw [hchange] at hdatabase
          cases hdatabase
      · have hresults := hcarries.testResults
        rw [List.map_map] at hresults
        exact (commands_kept_iff result.testResults).mp hresults
    · rintro ⟨hdatabase, hcommands⟩
      refine ⟨_, hview, ?_⟩
      exact
        { commitSha := rfl
          changedFiles := rfl
          testCommand := rfl
          testResults := by
            rw [List.map_map]
            exact (commands_kept_iff result.testResults).mpr hcommands
          artifactCount := rfl
          databaseChange := by rw [hdatabase]; rfl
          runId := rfl
          workspacePath := rfl
          baseSha := rfl }
  | error error =>
    have hview := evidence_written row status "runner.failed" noResult hrun workspace
    constructor
    · rintro ⟨view, hsome, summary, hsummary, hcontains⟩
      obtain rfl := Option.some.inj (hview.symm.trans hsome)
      obtain rfl := Option.some.inj hsummary
      exact hcontains
    · intro hcontains
      exact ⟨_, hview, _, rfl, hcontains⟩

theorem statusOf_reported (outcome : Except Failure RunnerExecutionResult) :
    statusOf outcome = .blocked ∨ statusOf outcome = .succeeded ∨ statusOf outcome = .failed := by
  cases outcome with
  | error error => exact Or.inr (Or.inr rfl)
  | ok result =>
    show taskStatusOf result.status = .blocked ∨ taskStatusOf result.status = .succeeded ∨
      taskStatusOf result.status = .failed
    cases result.status with
    | succeeded => exact Or.inr (Or.inl rfl)
    | failed => exact Or.inr (Or.inr rfl)
    | interrupted => exact Or.inr (Or.inr rfl)
    | inputRequired => exact Or.inl rfl

/-- **The evidence a run leaves on its task.** Whatever the executor answered and however the sink
and the ports answer, the view of the task a published result is written back to has the result
exactly when it carries no database report and no test command with blanks at its ends, and it has
the text of an exception exactly when the name of the event contains it. A task that is blocked
already keeps its evidence when the run asks for input again. -/
theorem evidence_kept_iff [PythonCodecs] (uuid5 : String → UUID) (occurredAt : Instant)
    (sink : RunnerEvent → Except Failure Unit)
    (port : (op : RunnerCallOp) → Except Raised (RunnerAnswer op)) {task : RunnerTask}
    {outcome : Except Failure RunnerExecutionResult} {event : RunnerEvent} {status : TaskStatus}
    (hpublished : event ∈ published sink outcome task)
    (hterminal : (event.toWire uuid5 occurredAt).terminalStatus? = some status) {st : RunnerWorld}
    {dispatch : AgentRuntime.RunnerDispatchRecord} {row : Task}
    (hbound : BoundTo (event.toWire uuid5 occurredAt) st dispatch row)
    (hfinal : row.status.isFinal = false) {workspace : Option WorkspaceAssignment}
    (hassigns : Assigns dispatch workspace) (hrun : dispatch.runId < 2 ^ 128) :
    ∃ row', ((writeBack (event.toWire uuid5 occurredAt) status).run (answeredExec port) st).2.getTask
        row.id = some row' ∧
      (EvidenceKept outcome dispatch workspace row' ↔
        if row.status = statusOf outcome then EvidenceKept outcome dispatch workspace row
        else LosesNothing outcome) := by
  rcases mem_published hpublished with rfl | rfl
  · rw [terminalStatus_acceptedEvent] at hterminal
    cases hterminal
  rw [terminalStatus_finalEvent] at hterminal
  obtain rfl := Option.some.inj hterminal
  refine ⟨_, Runner.getTask_writeBack port (statusOf_reported outcome) hbound hfinal, ?_⟩
  split
  · rfl
  · exact evidenceKept_written_iff uuid5 occurredAt task outcome hassigns hrun row _

/-! ## A database report -/

/-- The payload of a run without a workspace. -/
def samplePayload : Json := .obj [("workspace", .null)]

/-- The run, as it was dispatched. -/
def sampleDispatch : AgentRuntime.RunnerDispatchRecord :=
  { Runner.sampleRun with
    taskPayload :=
      { idempotencyKey := "run"
        document := String.ofList (Json.plainLayout.dumps samplePayload)
        task := none } }

/-- The task it works on is in progress. -/
def sampleRunning : RunnerWorld :=
  { Runner.sampleWorld with runtime := { gateway := { dispatches := [sampleDispatch] } } }

/-- What the Runner was given. -/
def sampleTask : RunnerTask :=
  { ids := Runner.sampleRun.task, adapterId := "claude", idempotencyKey := "run" }

/-- A migration, with its report. -/
def sampleMigration : RunnerExecutionResult :=
  { status := .succeeded
    summary := "Added the column"
    changedFiles := ["migrations/001.sql"]
    databaseChange := some
      [("migrationFiles", .arr [.str "migrations/001.sql"]), ("affectedTables", .arr [.str "users"])]
    changedFiles_unique := by decide }

theorem assigns_sampleDispatch :
    letI := Runner.pythonCodecs
    Assigns sampleDispatch none := by
  let _ : PythonCodecs := Runner.pythonCodecs
  have hplain : Json.Plain samplePayload := by
    refine .obj (by simp) fun f hf => ?_
    rw [List.mem_singleton.mp hf]
    exact .null
  refine ⟨Json.sorted samplePayload, Json.plainLayout_lawful.loads_dumps hplain, ?_⟩
  rw [Json.get_sorted hplain]
  rfl

theorem runId_sampleDispatch : sampleDispatch.runId < 2 ^ 128 := by
  have hrunId : sampleDispatch.runId = 7 := rfl
  rw [hrunId]
  decide

theorem boundTo_sampleRunning (outcome : Except Failure RunnerExecutionResult) :
    BoundTo ((finalEvent sampleTask outcome).toWire (fun _ => 80) 0) sampleRunning sampleDispatch
      Orchestration.leaderTask where
  dispatch_found := by cases outcome <;> rfl
  task_found := rfl
  worker := rfl

/-- An executor that raises. -/
def sampleFailure : Except Failure RunnerExecutionResult :=
  .error { errorType := "OSError", message := "no space left" }

/-- A run that raises: the view has no word of it. -/
theorem evidence_kept_sample :
    letI := Runner.pythonCodecs
    ∃ row', ((writeBack ((finalEvent sampleTask sampleFailure).toWire (fun _ => 80) 0) .failed).run
          (answeredExec Runner.quietPort) sampleRunning).2.getTask leaderTask.id = some row' ∧
      (EvidenceKept sampleFailure sampleDispatch none row' ↔
        if leaderTask.status = statusOf sampleFailure then
          EvidenceKept sampleFailure sampleDispatch none leaderTask
        else LosesNothing sampleFailure) := by
  have hpublished : finalEvent sampleTask sampleFailure ∈
      published (fun _ => .ok ()) sampleFailure sampleTask := by
    rw [published_eq]
    exact List.mem_cons_of_mem _ (List.mem_singleton.mpr rfl)
  have hterminal : ((finalEvent sampleTask sampleFailure).toWire (fun _ => 80) 0).terminalStatus? =
      some .failed := terminalStatus_finalEvent (fun _ => 80) 0 sampleTask sampleFailure
  exact @evidence_kept_iff Runner.pythonCodecs (fun _ => 80) 0 (fun _ => .ok ()) Runner.quietPort _ _
    _ _ hpublished hterminal _ _ _ (boundTo_sampleRunning sampleFailure) rfl _
    assigns_sampleDispatch runId_sampleDispatch

/-- The report of a migration never reaches its task: the gateway writes the evidence down without
it, and the task's view has no database change. -/
theorem database_report_dropped :
    letI := Runner.pythonCodecs
    ¬ ∀ (outcome : Except Failure RunnerExecutionResult) (task : RunnerTask) (event : RunnerEvent)
      (status : TaskStatus) (st : RunnerWorld) (dispatch : AgentRuntime.RunnerDispatchRecord)
      (row : Task) (workspace : Option WorkspaceAssignment),
      event ∈ published (fun _ => .ok ()) outcome task →
        (event.toWire (fun _ => 80) 0).terminalStatus? = some status →
        BoundTo (event.toWire (fun _ => 80) 0) st dispatch row → row.status.isFinal = false →
        Assigns dispatch workspace → dispatch.runId < 2 ^ 128 →
        ∃ row', ((writeBack (event.toWire (fun _ => 80) 0) status).run
            (answeredExec Runner.quietPort) st).2.getTask row.id = some row' ∧
          EvidenceKept outcome dispatch workspace row' := by
  intro h
  have hpublished : finalEvent sampleTask (.ok sampleMigration) ∈
      published (fun _ => .ok ()) (.ok sampleMigration) sampleTask := by
    rw [published_eq]
    exact List.mem_cons_of_mem _ (List.mem_singleton.mpr rfl)
  have hbound := boundTo_sampleRunning (.ok sampleMigration)
  obtain ⟨row', hrow', hkept⟩ := h (.ok sampleMigration) sampleTask _ _ sampleRunning
    sampleDispatch leaderTask none hpublished
    (terminalStatus_finalEvent (fun _ => 80) 0 sampleTask (.ok sampleMigration)) hbound rfl
    assigns_sampleDispatch runId_sampleDispatch
  have hwritten := @Runner.getTask_writeBack Runner.quietPort Runner.pythonCodecs _ _
    (statusOf_reported (.ok sampleMigration)) _ _ _ hbound rfl
  obtain rfl := Option.some.inj (hrow'.symm.trans hwritten)
  have hlost := (@evidenceKept_written_iff Runner.pythonCodecs (fun _ => 80) 0 sampleTask
    (.ok sampleMigration) _ _ assigns_sampleDispatch runId_sampleDispatch leaderTask _).mp hkept
  cases hlost.1

end Execution
end RepoMesh
