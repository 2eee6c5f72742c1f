/-
# The Runner's contracts

What the Runner is given to do, what an execution of it results in, and the events it reports, with
the checks their constructors make.
-/
import RepoMesh.Foundation.Json
import RepoMesh.AgentRuntime.RunnerStore

namespace RepoMesh
namespace Execution

open Text
open Delivery (UUID uuidStr)

/-- `RunnerResultStatus`. -/
inductive RunnerResultStatus where
  | succeeded | failed | interrupted | inputRequired
  deriving DecidableEq

/-- The wire value of a result status. -/
def RunnerResultStatus.value : RunnerResultStatus → String
  | .succeeded => "succeeded"
  | .failed => "failed"
  | .interrupted => "interrupted"
  | .inputRequired => "input_required"

/-- The members of `RunnerEventType` the engine reports with. -/
inductive RunnerEventType where
  | accepted | inputRequired | completed | failed | interrupted
  deriving DecidableEq

/-- The wire value of an event type. -/
def RunnerEventType.value : RunnerEventType → String
  | .accepted => "runner.accepted"
  | .inputRequired => "runner.input_required"
  | .completed => "runner.completed"
  | .failed => "runner.failed"
  | .interrupted => "runner.interrupted"

/-- `_validate_unique_strings`. -/
def uniqueStrings (values : List String) : Bool :=
  values.all (fun value => !isBlank value) && decide values.Nodup

theorem uniqueStrings_nil : uniqueStrings [] = true := rfl

/-- `WorkspaceAssignment`. -/
structure WorkspaceAssignment where
  workspaceId : String
  path : String
  baseSha : String
  workspaceId_nonblank : isBlank workspaceId = false
  path_nonblank : isBlank path = false
  baseSha_nonblank : isBlank baseSha = false

/-- The workspace part of `RunnerTask.to_wire`. -/
def WorkspaceAssignment.toWire (workspace : WorkspaceAssignment) : Json :=
  .obj
    [("workspaceId", .str workspace.workspaceId),
      ("path", .str workspace.path),
      ("baseSha", .str workspace.baseSha)]

/-- `RunnerPermissionMode`. -/
inductive RunnerPermissionMode where
  | default | acceptEdits | auto | bypassPermissions
  deriving DecidableEq

/-- The wire value of a permission mode. -/
def RunnerPermissionMode.value : RunnerPermissionMode → String
  | .default => "default"
  | .acceptEdits => "accept_edits"
  | .auto => "auto"
  | .bypassPermissions => "bypass_permissions"

/-- `RunnerPermissions`. -/
structure RunnerPermissions where
  mode : RunnerPermissionMode := .default
  allowedTools : List String := []
  disallowedTools : List String := []
  networkTargets : List String := []
  allowedPaths : List String := []
  deniedPaths : List String := []
  allowedTools_unique : uniqueStrings allowedTools = true := by
    first | exact RepoMesh.Execution.uniqueStrings_nil | rfl
  disallowedTools_unique : uniqueStrings disallowedTools = true := by
    first | exact RepoMesh.Execution.uniqueStrings_nil | rfl
  networkTargets_unique : uniqueStrings networkTargets = true := by
    first | exact RepoMesh.Execution.uniqueStrings_nil | rfl
  allowedPaths_unique : uniqueStrings allowedPaths = true := by
    first | exact RepoMesh.Execution.uniqueStrings_nil | rfl
  deniedPaths_unique : uniqueStrings deniedPaths = true := by
    first | exact RepoMesh.Execution.uniqueStrings_nil | rfl

/-- `RunnerTask`. The identifiers the server binds a run by are kept as one value. -/
structure RunnerTask where
  ids : AgentRuntime.RunnerTask
  adapterId : String
  idempotencyKey : String
  permissions : RunnerPermissions := {}
  workspace : Option WorkspaceAssignment := none
  testCommands : List String := []

/-- `task.run_id`. -/
def RunnerTask.runId (task : RunnerTask) : UUID := task.ids.runId

/-- `ArtifactRef`. -/
structure ArtifactRef where
  kind : String
  uri : String
  contentHash : String

/-- `ArtifactRef.to_wire`. -/
def ArtifactRef.toWire (artifact : ArtifactRef) : Json :=
  .obj
    [("kind", .str artifact.kind), ("uri", .str artifact.uri),
      ("contentHash", .str artifact.contentHash)]

/-- `TestCommandResult`. -/
structure TestCommandResult where
  command : String
  exitCode : ℤ
  command_nonblank : isBlank command = false

/-- The length of a full Git object id. -/
def isFullObjectId (text : String) : Bool :=
  ([40, 64].contains (normalize text).length) && (normalize text).toList.all isHexDigit

theorem no_commit_full : ∀ sha ∈ (none : Option String), isFullObjectId sha = true :=
  fun _ hsha => by cases hsha

/-- `RunnerExecutionResult`. -/
structure RunnerExecutionResult where
  status : RunnerResultStatus
  summary : String
  nativeSessionId : Option String := none
  artifacts : List ArtifactRef := []
  testCommand : Option String := none
  changedFiles : List String := []
  testResults : List TestCommandResult := []
  commitSha : Option String := none
  databaseChange : Option (List (String × Json)) := none
  changedFiles_unique : uniqueStrings changedFiles = true := by
    first | exact RepoMesh.Execution.uniqueStrings_nil | rfl
  commitSha_full : ∀ sha ∈ commitSha, isFullObjectId sha = true := by
    first | exact RepoMesh.Execution.no_commit_full | simp

/-- `RunnerEvent`. Its `event_id` is `uuid5` of a name. -/
structure RunnerEvent where
  eventName : String
  eventType : RunnerEventType
  task : RunnerTask
  sequence : ℕ
  payload : Json
  nativeSessionId : Option String := none

theorem isBlank_of_isFullObjectId {text : String} (h : isFullObjectId text = true) :
    isBlank text = false := by
  rw [isBlank, Bool.eq_false_iff]
  intro hempty
  rw [String.isEmpty_iff] at hempty
  have hnormal : normalize text = "" := by
    rw [Text.normalize, hempty]
    rfl
  rw [isFullObjectId, hnormal] at h
  revert h
  decide

end Execution
end RepoMesh
