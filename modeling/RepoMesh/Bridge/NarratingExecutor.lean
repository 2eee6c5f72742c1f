/-
# Narration beside a governed run

The executor that tells a room how the run it asked for goes: a message when it starts, one about
its tests, one about its end, each at its known position. The run is what the wrapped executor makes
of it as long as each of these positions is free or holds the very same message.
-/
import RepoMesh.Bridge.Supervisor
import RepoMesh.Execution.Engine

namespace RepoMesh
namespace Bridge

open Text
open Delivery (UUID Instant)
open Execution (RunnerTask RunnerPermissions RunnerExecutionResult RunnerResultStatus
  TestCommandResult Failure uniqueStrings)

def RUN_STARTED_BODY : String := "The governed run is executing on this machine."

def TEST_COMPLETED_BODY : String := "The task's test commands finished."

def RUN_CRASHED_BODY : String := "The governed run could not be carried out on this machine."

/-- `TERMINAL_KINDS`. -/
def terminalKind : RunnerResultStatus → String
  | .succeeded => "run_completed"
  | .failed => "run_failed"
  | .interrupted => "run_interrupted"
  | .inputRequired => "blocked"

/-- Positions in the run lane; zero is the supervisor's receipt. -/
def STARTED_ORDINAL : ℕ := 1
def TEST_ORDINAL : ℕ := 2
def TERMINAL_ORDINAL : ℕ := 3

/-- The gate reasons a room may read verbatim. -/
def QUOTED_REASONS : List String :=
  ["changed_path_denied:", "test_command_failed:", "context_verification_failed:"]

def MAX_REASON_CHARS : ℕ := 200

def CODEX_PROFILE_ID : String := "codex"

/-- RepoMesh's capability words, and the tool names the approvals of codex carry. -/
def CODEX_TOOL_VOCABULARY : List (String × List String) :=
  [("edit", ["fileChange", "item/fileChange/requestApproval"]), ("test", ["commandExecution"])]

/-- The names one capability adds to those granted. -/
def aliasesOf (allowed : List String) (granted : List String) (entry : String × List String) :
    List String :=
  if entry.1 ∈ allowed then granted ++ entry.2.filter (· ∉ granted) else granted

/-- The granted tools with the names of codex. -/
def grantedTools (allowed : List String) : List String :=
  CODEX_TOOL_VOCABULARY.foldl (aliasesOf allowed) allowed

theorem unique_aliasesOf {allowed tools : List String} {entry : String × List String}
    (h : uniqueStrings tools = true) (hentry : uniqueStrings entry.2 = true) :
    uniqueStrings (aliasesOf allowed tools entry) = true := by
  simp only [uniqueStrings, Bool.and_eq_true, List.all_eq_true, decide_eq_true_eq] at h hentry ⊢
  unfold aliasesOf
  split_ifs
  · constructor
    · intro value hvalue
      rcases List.mem_append.mp hvalue with hold | hnew
      · exact h.1 value hold
      · exact hentry.1 value (List.mem_of_mem_filter hnew)
    · refine List.nodup_append.mpr ⟨h.2, hentry.2.filter _, fun a ha b hb hab => ?_⟩
      have hfresh := (List.mem_filter.mp hb).2
      simp only [decide_eq_true_eq] at hfresh
      exact hfresh (hab ▸ ha)
  · exact h

theorem unique_grantedTools {allowed : List String} (h : uniqueStrings allowed = true) :
    uniqueStrings (grantedTools allowed) = true :=
  unique_aliasesOf (unique_aliasesOf h (by decide)) (by decide)

/-- `_translated`: add the names of codex for the capabilities a task was already granted. -/
def translated (task : RunnerTask) : RunnerTask :=
  if task.adapterId ≠ CODEX_PROFILE_ID ∨ task.permissions.allowedTools = [] then task
  else
    { task with
      permissions :=
        { task.permissions with
          allowedTools := grantedTools task.permissions.allowedTools
          allowedTools_unique := unique_grantedTools task.permissions.allowedTools_unique } }

/-- How many tool actions one execution asked for, and how many were refused. -/
structure ToolActionTally where
  requested : ℕ
  denied : ℕ
  deriving DecidableEq

/-- The phrase of a tally, or `none` when nothing was asked for. -/
def ToolActionTally.phrase (tally : ToolActionTally) : Option String :=
  if tally.requested = 0 ∧ tally.denied = 0 then none
  else some (toString tally.requested ++ " tool action(s), " ++ toString tally.denied ++ " denied")

/-- `_first_failure`. -/
def firstFailure (results : List TestCommandResult) : Option TestCommandResult :=
  (results.find? fun entry => entry.exitCode ≠ 0).or results.head?

/-- `_room_safe_reason`. -/
def roomSafeReason (summary : String) : String :=
  let reason := strip summary
  if QUOTED_REASONS.any (startsWith reason) then truncate MAX_REASON_CHARS reason
  else if startsWith reason "commit_failed:" then
    "commit_failed (git's own words are in the run record)"
  else "this machine's log has the details"

/-- `_terminal_body`. -/
def terminalBody (result : RunnerExecutionResult) (tally : ToolActionTally) : String :=
  let evidence := ", ".intercalate
    ([toString result.changedFiles.length ++ " file(s) changed"] ++
      ((result.commitSha.filter (· ≠ "")).toList.map fun sha => "commit " ++ truncate 12 sha) ++
      ((firstFailure result.testResults).toList.map fun reported =>
        if reported.exitCode = 0 then "tests passed"
        else "tests failed (exit " ++ toString reported.exitCode ++ ")") ++
      tally.phrase.toList)
  if result.status = .succeeded then "The governed run finished. " ++ evidence ++ "."
  else "The governed run ended " ++ result.status.value ++ ". " ++ evidence ++ ". Reason: " ++
    roomSafeReason result.summary

/-- What an execution raises: the executor's own exception, the refusal of a workspace that cannot
be written, or an exception of the narration. -/
inductive Escape where
  | executor (failure : Failure)
  | workspaceNotWritable
  | narration (raised : Raised)

/-- What the wrapped executor answers, the tool actions it counted, and the file as it is then:
whatever the supervisor wrote meanwhile is in it. -/
structure Executed where
  outcome : Except Failure RunnerExecutionResult
  tally : ToolActionTally
  state : BridgeState

/-- The wrapped executor, from a task and the file it is started with. -/
abbrev RunnerExecutor := RunnerTask → BridgeState → Executed

/-- What an execution answers, the file it leaves, and the file with which it started the wrapped
executor, if it did. -/
structure Narrated where
  outcome : Except Escape RunnerExecutionResult
  state : BridgeState
  started : Option BridgeState

/-- The executor's settings: who it narrates for, and how it makes a workspace writable. -/
structure NarratingExecutor where
  workerAgentId : UUID
  prepareWorkspace : String → Bool

namespace NarratingExecutor

/-- `_label_workspace`: whether the workspace of a task can be written. -/
def labelWorkspace (ne : NarratingExecutor) (task : RunnerTask) : Bool :=
  match task.workspace with
  | none => true
  | some workspace => ne.prepareWorkspace workspace.path

section

variable [Names] (ne : NarratingExecutor) (anchor : RunAnchor) (task : RunnerTask)

/-- The row of one lifecycle message, at its known position. -/
def row (ordinal : ℕ) (observation : RoomObservation) (now : Instant) : OutboxRow :=
  Outbox.row ne.workerAgentId anchor.roomId anchor.threadRootId
    ⟨anchor.triggerEventId, RUN_LANE, ordinal⟩
    { observation with taskId := some task.ids.taskId, runId := some task.runId } now

/-- `_observe`: write one lifecycle message at its known position. -/
def observe (ordinal : ℕ) (observation : RoomObservation) (now : Instant) (s : BridgeState) :
    Except Raised Unit × BridgeState :=
  let (r, s') := Outbox.enqueueAt ne.workerAgentId anchor.roomId anchor.threadRootId
    ⟨anchor.triggerEventId, RUN_LANE, ordinal⟩
    { observation with taskId := some task.ids.taskId, runId := some task.runId } now s
  (r.map fun _ => (), s')

end

/-- The run has started. -/
def runStarted : RoomObservation where
  kind := "run_started"
  body := RUN_STARTED_BODY

/-- The run did not happen. -/
def runCrashed : RoomObservation where
  kind := "run_failed"
  body := RUN_CRASHED_BODY

/-- The tests, by the first that failed or else the first. -/
def testCompleted (reported : TestCommandResult) : RoomObservation where
  kind := "test_completed"
  body := TEST_COMPLETED_BODY
  testCommand := some reported.command
  testExitCode := some reported.exitCode

/-- The end of the run. -/
def runEnded (result : RunnerExecutionResult) (tally : ToolActionTally) : RoomObservation where
  kind := terminalKind result.status
  body := terminalBody result tally
  changedFiles := if result.changedFiles = [] then none else some result.changedFiles
  commitSha := result.commitSha

section

variable [Names]

/-- `_observe_tests`: one message about the task's own verification, when there was any. -/
def observeTests (ne : NarratingExecutor) (anchor : RunAnchor) (task : RunnerTask)
    (result : RunnerExecutionResult) (now : Instant) (s : BridgeState) :
    Except Raised Unit × BridgeState :=
  match firstFailure result.testResults with
  | none => (.ok (), s)
  | some reported => ne.observe anchor task TEST_ORDINAL (testCompleted reported) now s

/-- `execute`: execute a leased task, and tell the room that asked for it what happened. The clock is
read when the run starts and when it ends. -/
def execute (ne : NarratingExecutor) (executor : RunnerExecutor) (now later : Instant)
    (task : RunnerTask) (s : BridgeState) : Narrated :=
  let task := translated task
  match s.anchorForRun task.runId with
  | none =>
    if ne.labelWorkspace task then
      let executed := executor task s
      ⟨executed.outcome.mapError .executor, executed.state, some s⟩
    else ⟨.error .workspaceNotWritable, s, none⟩
  | some anchor =>
    match ne.observe anchor task STARTED_ORDINAL runStarted now s with
    | (.error raised, s₁) => ⟨.error (.narration raised), s₁, none⟩
    | (.ok (), s₁) =>
      if ne.labelWorkspace task then
        let executed := executor task s₁
        match executed.outcome with
        | .error failure =>
          match ne.observe anchor task TERMINAL_ORDINAL runCrashed later executed.state with
          | (.error raised, s₂) => ⟨.error (.narration raised), s₂, some s₁⟩
          | (.ok (), s₂) => ⟨.error (.executor failure), s₂, some s₁⟩
        | .ok result =>
          match ne.observeTests anchor task result later executed.state with
          | (.error raised, s₂) => ⟨.error (.narration raised), s₂, some s₁⟩
          | (.ok (), s₂) =>
            match ne.observe anchor task TERMINAL_ORDINAL (runEnded result executed.tally) later s₂ with
            | (.error raised, s₃) => ⟨.error (.narration raised), s₃, some s₁⟩
            | (.ok (), s₃) => ⟨.ok result, s₃, some s₁⟩
      else
        match ne.observe anchor task TERMINAL_ORDINAL runCrashed now s₁ with
        | (.error raised, s₂) => ⟨.error (.narration raised), s₂, none⟩
        | (.ok (), s₂) => ⟨.error .workspaceNotWritable, s₂, none⟩

/-! ## Narration that changes nothing -/

/-- **The purpose.** Where the workspace can be written the wrapped executor is started on the
translated task, and what it returns or raises is what is returned or raised. -/
def Transparent (ne : NarratingExecutor) (executor : RunnerExecutor) (now later : Instant)
    (task : RunnerTask) (s : BridgeState) : Prop :=
  if ne.labelWorkspace (translated task) then
    ∃ s₁, (ne.execute executor now later task s).started = some s₁ ∧
      (ne.execute executor now later task s).outcome =
        (executor (translated task) s₁).outcome.mapError .executor
  else (ne.execute executor now later task s).outcome = .error .workspaceNotWritable

/-- The position of a row holds the very same message, or nothing stands in its way. -/
def Agrees (row : OutboxRow) (s : BridgeState) : Prop :=
  (s.sendAt row.key).map OutboxRow.payload = some row.payload ∨
    ∀ r ∈ s.outbox, BridgeState.conflicts row r = false

/-- The row of the tests, when there were any. -/
def testRows (ne : NarratingExecutor) (anchor : RunAnchor) (task : RunnerTask)
    (result : RunnerExecutionResult) (now : Instant) : List OutboxRow :=
  (firstFailure result.testResults).toList.map fun reported =>
    ne.row anchor task TEST_ORDINAL (testCompleted reported) now

/-- Each message the narration of a translated task comes to write for a room agrees with the outbox
it meets. -/
def AgreedFor (ne : NarratingExecutor) (executor : RunnerExecutor) (anchor : RunAnchor)
    (now later : Instant) (task : RunnerTask) (s : BridgeState) : Prop :=
  let start := ne.row anchor task STARTED_ORDINAL runStarted now
  Agrees start s ∧
    if ne.labelWorkspace task then
      let executed := executor task (s.enqueueSends [start])
      match executed.outcome with
      | .error _ => Agrees (ne.row anchor task TERMINAL_ORDINAL runCrashed later) executed.state
      | .ok result =>
        let tests := ne.testRows anchor task result later
        (∀ row ∈ tests, Agrees row executed.state) ∧
          Agrees (ne.row anchor task TERMINAL_ORDINAL (runEnded result executed.tally) later)
            (executed.state.enqueueSends tests)
    else
      Agrees (ne.row anchor task TERMINAL_ORDINAL runCrashed now) (s.enqueueSends [start])

/-- No room asked for the run, or its narration agrees with the outbox. -/
def Agreed (ne : NarratingExecutor) (executor : RunnerExecutor) (now later : Instant)
    (task : RunnerTask) (s : BridgeState) : Prop :=
  ∀ anchor, s.anchorForRun (translated task).runId = some anchor →
    ne.AgreedFor executor anchor now later (translated task) s

omit [Names] in
/-- **Writing at a position** succeeds exactly when the row agrees with the outbox. -/
theorem enqueueSendAt_cases (row : OutboxRow) (s : BridgeState) :
    (Agrees row s ∧ s.enqueueSendAt row = (.ok (), s.enqueueSends [row])) ∨
      ¬ Agrees row s ∧ ∃ e, (s.enqueueSendAt row).1 = .error e := by
  by_cases hconflict : ∀ r ∈ s.outbox, BridgeState.conflicts row r = false
  · -- Free: the row is inserted and read back.
    have hnone : s.outbox.any (BridgeState.conflicts row) = false :=
      List.any_eq_false.mpr fun r hr => by simp [hconflict r hr]
    have hkey : ∀ r ∈ s.outbox, r.key ≠ row.key := by
      intro r hr hsame
      have hfree := hconflict r hr
      simp [BridgeState.conflicts, hsame] at hfree
    have hinsert : (s.enqueueSends [row]).outbox = s.outbox ++ [row] := by
      simp [BridgeState.enqueueSends, BridgeState.insertSend, hnone]
    have hfound : (s.enqueueSends [row]).sendAt row.key = some row := by
      rw [BridgeState.sendAt, hinsert]
      exact Keyed.find_append_self hkey
    refine Or.inl ⟨Or.inr hconflict, ?_⟩
    simp [BridgeState.enqueueSendAt, hfound]
  · have hany : s.outbox.any (BridgeState.conflicts row) = true := by
      by_contra hnot
      refine hconflict fun r hr => ?_
      have hfree := List.any_eq_false.mp (Bool.eq_false_iff.mpr hnot) r hr
      simpa using hfree
    have hsame : s.enqueueSends [row] = s := by
      simp [BridgeState.enqueueSends, BridgeState.insertSend, hany]
    cases hstored : s.sendAt row.key with
    | none =>
      refine Or.inr ⟨?_, ?_⟩
      · rintro (h | h)
        · rw [hstored] at h
          cases h
        · exact hconflict h
      · simp [BridgeState.enqueueSendAt, hsame, hstored]
    | some stored =>
      by_cases hpayload : stored.payload = row.payload
      · refine Or.inl ⟨Or.inl (by rw [hstored, Option.map_some, hpayload]), ?_⟩
        simp [BridgeState.enqueueSendAt, hsame, hstored, hpayload]
      · refine Or.inr ⟨?_, ?_⟩
        · rintro (h | h)
          · rw [hstored, Option.map_some, Option.some_inj] at h
            exact hpayload h
          · exact hconflict h
        · simp [BridgeState.enqueueSendAt, hsame, hstored, hpayload]

variable (ne : NarratingExecutor) (anchor : RunAnchor) (task : RunnerTask)

/-- **Observing** succeeds exactly when the message agrees with the outbox. -/
theorem observe_cases (ordinal : ℕ) (observation : RoomObservation) (now : Instant)
    (s : BridgeState) :
    (Agrees (ne.row anchor task ordinal observation now) s ∧
        ne.observe anchor task ordinal observation now s =
          (.ok (), s.enqueueSends [ne.row anchor task ordinal observation now])) ∨
      ¬ Agrees (ne.row anchor task ordinal observation now) s ∧
        ∃ e s', ne.observe anchor task ordinal observation now s = (.error e, s') := by
  have hlane : requireLane RUN_LANE = .ok () := if_pos (by decide)
  rcases enqueueSendAt_cases (ne.row anchor task ordinal observation now) s with
    ⟨hagrees, hok⟩ | ⟨hagrees, e, herror⟩
  · refine Or.inl ⟨hagrees, ?_⟩
    simp only [row] at hok
    simp only [observe, Outbox.enqueueAt, hlane, hok, row]
    rfl
  · refine Or.inr ⟨hagrees, e, ?_⟩
    simp only [row] at herror
    cases hresult : s.enqueueSendAt (Outbox.row ne.workerAgentId anchor.roomId anchor.threadRootId
        ⟨anchor.triggerEventId, RUN_LANE, ordinal⟩
        { observation with taskId := some task.ids.taskId, runId := some task.runId } now) with
    | mk r s' =>
      rw [hresult] at herror
      have herror' : r = .error e := herror
      subst herror'
      exact ⟨s', by simp only [observe, Outbox.enqueueAt, hlane, hresult]; rfl⟩

theorem observeTests_cases (result : RunnerExecutionResult) (now : Instant) (s : BridgeState) :
    ((∀ row ∈ ne.testRows anchor task result now, Agrees row s) ∧
        ne.observeTests anchor task result now s =
          (.ok (), s.enqueueSends (ne.testRows anchor task result now))) ∨
      ¬ (∀ row ∈ ne.testRows anchor task result now, Agrees row s) ∧
        ∃ e s', ne.observeTests anchor task result now s = (.error e, s') := by
  cases hfirst : firstFailure result.testResults with
  | none =>
    refine Or.inl ⟨by simp [testRows, hfirst], ?_⟩
    simp only [observeTests, testRows, hfirst, Option.toList_none, List.map_nil]
    rfl
  | some reported =>
    have hrows : ne.testRows anchor task result now =
        [ne.row anchor task TEST_ORDINAL (testCompleted reported) now] := by
      simp [testRows, hfirst]
    rw [hrows, List.forall_mem_singleton]
    simp only [observeTests, hfirst]
    exact ne.observe_cases anchor task TEST_ORDINAL (testCompleted reported) now s

theorem transparent_iff_agreedFor (ne : NarratingExecutor) (executor : RunnerExecutor)
    (now later : Instant) (task : RunnerTask) (s : BridgeState) {anchor : RunAnchor}
    (hanchor : s.anchorForRun (translated task).runId = some anchor) :
    ne.Transparent executor now later task s ↔
      ne.AgreedFor executor anchor now later (translated task) s := by
  unfold Transparent AgreedFor execute
  generalize translated task = task' at hanchor ⊢
  simp only [hanchor]
  rcases ne.observe_cases anchor task' STARTED_ORDINAL runStarted now s with
    ⟨hstart, hok⟩ | ⟨hstart, e, s₁, herror⟩
  · simp only [hok, hstart, true_and]
    by_cases hlabel : ne.labelWorkspace task' = true
    · simp only [hlabel, if_true]
      generalize hexecuted : executor task' (s.enqueueSends
        [ne.row anchor task' STARTED_ORDINAL runStarted now]) = executed
      obtain ⟨outcome, tally, state⟩ := executed
      cases outcome with
      | error failure =>
        rcases ne.observe_cases anchor task' TERMINAL_ORDINAL runCrashed later state with
          ⟨hend, hok'⟩ | ⟨hend, e, s₂, herror⟩
        · simp only [hok', hend, iff_true]
          exact ⟨_, rfl, by rw [hexecuted]; rfl⟩
        · simp only [herror, hend, iff_false]
          rintro ⟨_, hsame, h⟩
          obtain rfl := Option.some.inj hsame
          simp [hexecuted, Except.mapError] at h
      | ok result =>
        rcases ne.observeTests_cases anchor task' result later state with
          ⟨htests, hok'⟩ | ⟨htests, e, s₂, herror⟩
        · rcases ne.observe_cases anchor task' TERMINAL_ORDINAL (runEnded result tally) later
            (state.enqueueSends (ne.testRows anchor task' result later)) with
            ⟨hend, hok''⟩ | ⟨hend, e, s₂, herror⟩
          · simp only [hok', hok'']
            refine iff_of_true ⟨_, rfl, ?_⟩ ⟨htests, hend⟩
            rw [hexecuted]
            rfl
          · simp only [hok', herror, hend, and_false, iff_false]
            rintro ⟨_, hsame, h⟩
            obtain rfl := Option.some.inj hsame
            simp [hexecuted, Except.mapError] at h
        · simp only [herror]
          refine iff_of_false ?_ fun h => htests h.1
          rintro ⟨_, hsame, h⟩
          obtain rfl := Option.some.inj hsame
          simp [hexecuted, Except.mapError] at h
    · rw [Bool.not_eq_true] at hlabel
      simp only [hlabel, Bool.false_eq_true, if_false]
      rcases ne.observe_cases anchor task' TERMINAL_ORDINAL runCrashed now
        (s.enqueueSends [ne.row anchor task' STARTED_ORDINAL runStarted now]) with
        ⟨hend, hok'⟩ | ⟨hend, e, s₂, herror⟩
      · simp only [hok', hend]
      · simp only [herror, hend, iff_false]
        simp
  · -- The start itself is refused: the executor is not started at all.
    simp only [herror, hstart, false_and, iff_false]
    split_ifs
    · rintro ⟨_, hnone, _⟩
      cases hnone
    · simp

/-- **Narration changes nothing exactly when it agrees.** The wrapped executor is started wherever
the workspace can be written, and its outcome is the outcome, if and only if no room asked for the
run or each message the narration comes to write finds its position free or holding that very
message. -/
theorem transparent_iff_agreed (ne : NarratingExecutor) (executor : RunnerExecutor)
    (now later : Instant) (task : RunnerTask) (s : BridgeState) :
    ne.Transparent executor now later task s ↔ ne.Agreed executor now later task s := by
  cases hanchor : s.anchorForRun (translated task).runId with
  | none =>
    -- Nobody asked for the run in a room: nothing is written.
    refine iff_of_true ?_ fun anchor h => ?_
    · unfold Transparent execute
      simp only [hanchor]
      split_ifs
      · exact ⟨s, rfl, rfl⟩
      · rfl
    · rw [hanchor] at h
      cases h
  | some anchor =>
    rw [transparent_iff_agreedFor ne executor now later task s hanchor]
    constructor
    · rintro h anchor' hanchor'
      obtain rfl : anchor = anchor' := Option.some.inj (hanchor.symm.trans hanchor')
      exact h
    · exact fun h => h anchor hanchor

end

/-! ## A run that is executed again -/

namespace Redelivered

/-- The two texts whose digests this history takes. -/
def started : String := "$first\x1frun\x1f1"
def ended : String := "$first\x1frun\x1f3"

/-- The names of the two messages this history writes; other texts are left as they are. -/
@[reducible] def names : Names where
  digest := Equiv.swap started "d8f92e710acde85ee7743e88250c9bd8aa65edfa" ∘
    Equiv.swap ended "863d939d46818c683492c8e1b92e7ec350ca4058"
  uuid5 text :=
    if text = "00000000-0000-0000-0000-000000000001|!room:hs|$first|run|1" then
      0xed172ce94a215d17b2d7d9acbe558952
    else 0xbae79799dfd2597c80c3496e6f01f631

local instance : Names := names

def narrating : NarratingExecutor where
  workerAgentId := 1
  prepareWorkspace _ := true

/-- A run of a mention. -/
def asked : RunnerTask where
  ids := ⟨0x2a, 2, 3, 4, 7, 1, 1, none, none, none, none⟩
  adapterId := "claude"
  idempotencyKey := "run-2a"

/-- The file once the mention has been answered with the run. -/
def anchored : BridgeState where
  runAnchors := [⟨0x2a, 7, "!room:hs", none, "$first"⟩]

/-- The executor is cancelled. -/
def cancelled : RunnerExecutor := fun _ s =>
  ⟨.error ⟨"CancelledError", "", false⟩, ⟨0, 0⟩, s⟩

/-- The executor finishes the run. -/
def finished : RunnerExecutor := fun _ s =>
  ⟨.ok { status := .succeeded, summary := "done" }, ⟨0, 0⟩, s⟩

/-- The file after the execution that was cancelled. -/
def interrupted : BridgeState := (narrating.execute cancelled 0 1 asked anchored).state

/-- Whether an outcome is an exception of the narration. -/
def isNarration : Except Escape RunnerExecutionResult → Bool
  | .error (.narration _) => true
  | _ => false

/-- When the run is executed again and finishes, the narration raises. -/
def raisedAgain :
    letI := names
    {outcome : Except Escape RunnerExecutionResult //
      outcome = (narrating.execute finished 2 3 asked interrupted).outcome ∧
        isNarration outcome = true} :=
  letI := names
  ⟨(narrating.execute finished 2 3 asked interrupted).outcome, rfl, by decide +kernel⟩

end Redelivered

/-- An execution that was cancelled has told its end: when the same run is executed again and
finishes, the narration refuses the other message and the result is lost. -/
theorem finished_run_raises :
    let : Names := Redelivered.names
    Redelivered.isNarration
        (Redelivered.narrating.execute Redelivered.finished 2 3 Redelivered.asked
          Redelivered.interrupted).outcome = true ∧
      ¬ Redelivered.narrating.Transparent Redelivered.finished 2 3 Redelivered.asked
        Redelivered.interrupted := by
  intro _
  have hraised : Redelivered.isNarration
      (Redelivered.narrating.execute Redelivered.finished 2 3 Redelivered.asked
        Redelivered.interrupted).outcome = true := by
    have raised := Redelivered.raisedAgain
    obtain ⟨outcome, houtcome, hnarration⟩ := raised
    rw [houtcome] at hnarration
    exact hnarration
  refine ⟨hraised, ?_⟩
  rintro ⟨s₁, -, h⟩
  rw [h] at hraised
  simp [Redelivered.finished, Redelivered.isNarration, Except.mapError] at hraised

end NarratingExecutor
end Bridge
end RepoMesh
