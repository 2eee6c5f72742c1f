/-
# Task orchestration contracts

The enumerations, views, commands, documents and errors the task orchestration module
publishes, with those of the modules it reads (agent directory, project topology,
collaboration), under the source's names.
-/
import RepoMesh.Foundation.Json
import RepoMesh.Delivery.Contracts

namespace RepoMesh
namespace Orchestration

open Text
open Delivery (UUID uuidStr)

/-! ## Enumerations -/

/-- Status of a task. -/
inductive TaskStatus where
  | assigned | inProgress | blocked | succeeded | failed | cancelled | superseded
  deriving DecidableEq

/-- The wire value of a task status. -/
def TaskStatus.value : TaskStatus → String
  | .assigned => "assigned"
  | .inProgress => "in_progress"
  | .blocked => "blocked"
  | .succeeded => "succeeded"
  | .failed => "failed"
  | .cancelled => "cancelled"
  | .superseded => "superseded"

/-- `status in FINAL_TASK_STATUSES`. -/
def TaskStatus.isFinal : TaskStatus → Bool
  | .succeeded | .failed | .cancelled | .superseded => true
  | _ => false

/-- `status in _REDOABLE_TASK_STATUSES`. -/
def TaskStatus.isRedoable : TaskStatus → Bool
  | .succeeded | .failed => true
  | _ => false

/-- `status in _FAILED_TASK_STATUSES`. -/
def TaskStatus.isFailed : TaskStatus → Bool
  | .failed | .cancelled => true
  | _ => false

/-- `status in _OPEN_TASK_STATUSES`. -/
def TaskStatus.isOpen : TaskStatus → Bool
  | .assigned | .inProgress => true
  | _ => false

/-- Why a task exists. -/
inductive TaskOrigin where
  | planned | rework
  deriving DecidableEq

/-- The kinds of database change a task declares. -/
inductive DatabaseChangeKind where
  | schema | migration | backfill | query | data
  deriving DecidableEq

/-- Status of an execution plan. -/
inductive ExecutionPlanStatus where
  | inProgress | completed | failed
  deriving DecidableEq

/-- Where a leader assignment stands. -/
inductive LeaderAssignmentPhase where
  | planning | executing | reviewDue | closed
  deriving DecidableEq

/-- The wire value of a phase. -/
def LeaderAssignmentPhase.value : LeaderAssignmentPhase → String
  | .planning => "planning"
  | .executing => "executing"
  | .reviewDue => "review_due"
  | .closed => "closed"

/-- The frozen refusal codes of the leader-actions surface that its use cases raise. -/
inductive LeaderActionErrorCode where
  | forbiddenNotAssignee | forbiddenRole | assignmentNotFound | phaseConflict
  | decompositionModeConflict | planInvalidDagCycle | planInvalidDagCoverage
  | planInvalidAssignee | planInvalidAllowedPaths | planInvalidTestsRemoved
  | planInvalidProvenance | reviewInvalidFindings
  deriving DecidableEq

/-- The three ways a review round can end. -/
inductive LeaderReviewVerdict where
  | approve | requestRework | escalate
  deriving DecidableEq

/-- The wire value of a verdict. -/
def LeaderReviewVerdict.value : LeaderReviewVerdict → String
  | .approve => "approve"
  | .requestRework => "request_rework"
  | .escalate => "escalate"

/-- Role of an agent. -/
inductive AgentRole where
  | organizationLeader | repositoryLeader | worker
  deriving DecidableEq

/-- Status of an agent. -/
inductive AgentPrincipalStatus where
  | active | disabled
  deriving DecidableEq

/-- Who decomposes a repository task into worker tasks. -/
inductive TeamDecompositionMode where
  | server | leader
  deriving DecidableEq

/-- The checkpoints task orchestration evaluates. -/
inductive ProjectCheckpoint where
  | execution | exceptionEscalation
  deriving DecidableEq

/-- The kinds of room message task orchestration sends. -/
inductive CollaborationMessageKind where
  | taskAssignment | taskReport | progress | decision
  deriving DecidableEq

/-! ## Errors -/

/-- The exceptions that reach or leave a task orchestration call, with their messages. A
`collaborator` exception is any other one a port raises. -/
inductive Raised where
  | taskDenied (message : String)
  | taskBlocked (message : String)
  | taskConflict (message : String)
  | taskNotFound (message : String)
  | roundNotDispatchable (message : String)
  | valueError (message : String)
  | runtimeError (message : String)
  | leaderActionRefused (code : LeaderActionErrorCode) (message : String)
  | batchDeliveryRefused (reason : String) (repositoryId taskId : Option UUID)
  | collaborationDeliveryDeferred (messageId : UUID)
  | collaborator (message : String)
  deriving DecidableEq

/-- `except TaskConflict`: `RoundNotDispatchable` is a subclass. -/
def Raised.isTaskConflict : Raised → Bool
  | .taskConflict _ | .roundNotDispatchable _ => true
  | _ => false

/-! ## Tasks -/

-- The checks of a task that declares no database change.

theorem nothing_declared : false = true → false = true := id

theorem nothing_empty : false = false → ([] : List DatabaseChangeKind) = [] ∧
    ([] : List String) = [] ∧ false = false ∧ false = false ∧ ([] : List String) = [] :=
  fun _ => ⟨rfl, rfl, rfl, rfl, rfl⟩

theorem nothing_checked : false = true → ([] : List String) ≠ [] :=
  fun h => absurd h Bool.false_ne_true

theorem nothing_named : ∀ v ∈ ([] : List String) ++ [], isBlank v = false :=
  fun _ hv => absurd hv List.not_mem_nil

theorem no_kinds : ([] : List DatabaseChangeKind).Nodup := List.nodup_nil

theorem no_names : ([] : List String).Nodup := List.nodup_nil

/-- The database change a task declares, with the checks of its `__post_init__`. -/
structure DatabaseChangeRequirement where
  declared : Bool := false
  required : Bool := false
  changeKinds : List DatabaseChangeKind := []
  affectedTables : List String := []
  migrationRequired : Bool := false
  backfillRequired : Bool := false
  requiredChecks : List String := []
  declared_of_required : required = true → declared = true := by
    first | exact RepoMesh.Orchestration.nothing_declared | decide
  empty_of_not_required : required = false → changeKinds = [] ∧ affectedTables = [] ∧
      migrationRequired = false ∧ backfillRequired = false ∧ requiredChecks = [] := by
    first | exact RepoMesh.Orchestration.nothing_empty | decide
  checks_of_required : required = true → requiredChecks ≠ [] := by
    first | exact RepoMesh.Orchestration.nothing_checked | decide
  names_nonblank : ∀ v ∈ affectedTables ++ requiredChecks, isBlank v = false := by
    first | exact RepoMesh.Orchestration.nothing_named | decide
  kinds_nodup : changeKinds.Nodup := by
    first | exact RepoMesh.Orchestration.no_kinds | decide
  tables_nodup : affectedTables.Nodup := by
    first | exact RepoMesh.Orchestration.no_names | decide
  checks_nodup : requiredChecks.Nodup := by
    first | exact RepoMesh.Orchestration.no_names | decide
  deriving DecidableEq

/-- One test command the Runner reports as executed. -/
structure TaskTestResultView where
  command : String
  exitCode : ℤ
  summary : String
  deriving DecidableEq

/-- The database part of a task's evidence. -/
structure DatabaseChangeEvidence where
  migrationFiles : List String
  backfillFiles : List String
  affectedTables : List String
  checks : List TaskTestResultView
  deriving DecidableEq

/-- Structured Runner evidence for a task. -/
structure TaskEvidenceView where
  commitSha : Option String
  runId : Option UUID
  changedFiles : List String
  baseSha : Option String
  workspacePath : Option String
  summaryText : Option String
  blockers : List String
  testCommand : Option String
  testResults : List TaskTestResultView
  artifactCount : ℕ
  databaseChange : Option DatabaseChangeEvidence
  deriving DecidableEq

/-- `AssignTaskCommand`. -/
structure AssignTaskCommand where
  organizationId : UUID
  projectId : UUID
  repositoryId : UUID
  assignedByAgentId : UUID
  assigneeAgentId : UUID
  title : String
  instruction : String
  acceptance : List String
  parentTaskId : Option UUID := none
  databaseChange : DatabaseChangeRequirement := {}
  deriving DecidableEq

/-- `ReportTaskCommand`. -/
structure ReportTaskCommand where
  taskId : UUID
  reporterAgentId : UUID
  status : TaskStatus
  summary : String
  deriving DecidableEq

/-- A published task package. -/
structure PublishedTaskPackage where
  taskPath : String
  contentHash : String
  deriving DecidableEq

/-! ## The leader lane -/

/-- The hard bounds a leader's plan is validated against. -/
structure LeaderSafetyEnvelopeView where
  allowedPathRoots : List String
  testPaths : List String
  testCommands : List String
  deriving DecidableEq

/-- One worker a leader may assign to. -/
structure WorkerRosterEntryView where
  workerAgentId : UUID
  workerName : String
  responsibilityPaths : List String
  deriving DecidableEq

/-- What one worker task produced, frozen when review opened. -/
structure WorkerEvidenceView where
  workerTaskId : UUID
  workerAgentId : UUID
  status : TaskStatus
  runId : Option UUID
  commitSha : Option String
  changedFiles : List String
  testResults : List TaskTestResultView
  diffStat : Option String
  summary : Option String
  deriving DecidableEq

/-- The package one review round is judged against. -/
structure LeaderReviewEvidenceView where
  reviewRevision : ℕ
  workerEvidence : List WorkerEvidenceView
  deriving DecidableEq

/-- The leader's accepted plan beside what it created. -/
structure AcceptedPlanView where
  fingerprint : String
  planRevision : ℕ
  workerTaskIds : List UUID
  decision : Json

/-- One accepted verdict, with the revision it judged. -/
structure AcceptedReviewView where
  fingerprint : String
  verdict : LeaderReviewVerdict
  reviewRevision : ℕ
  leaderTaskStatus : TaskStatus
  reworkTaskIds : List UUID
  deriving DecidableEq

/-- The persisted record of a batch item parked for an external leader. -/
structure LeaderAssignmentView where
  leaderTaskId : UUID
  organizationId : UUID
  projectId : UUID
  repositoryId : UUID
  leaderAgentId : UUID
  phase : LeaderAssignmentPhase
  safetyEnvelope : LeaderSafetyEnvelopeView
  workerRoster : List WorkerRosterEntryView
  reviewRevision : ℕ := 1
  acceptedPlan : Option AcceptedPlanView := none
  reviewEvidence : Option LeaderReviewEvidenceView := none
  acceptedReviews : List AcceptedReviewView := []

/-- `accepted_review`: the first accepted verdict of a revision. -/
def LeaderAssignmentView.acceptedReview (a : LeaderAssignmentView) (reviewRevision : ℕ) :
    Option AcceptedReviewView :=
  a.acceptedReviews.find? fun item => item.reviewRevision == reviewRevision

/-- The one provenance a leader product may claim. -/
def leaderProvenanceSource : String := "leader-codex-session"

/-- Where a leader product came from. -/
structure LeaderProvenanceView where
  source : String
  sessionThreadId : String
  turnId : Option String
  deriving DecidableEq

/-- One worker task the leader wants created. -/
structure LeaderWorkerTaskDraft where
  nodeId : String
  assigneeWorkerAgentId : UUID
  title : String
  instruction : String
  allowedPaths : List String
  tests : List String
  databaseChange : DatabaseChangeRequirement := {}
  deriving DecidableEq

/-- Request body of `POST .../plan`. -/
structure RepositoryPlanDecision where
  nodes : List String
  edges : List (String × String)
  workerTasks : List LeaderWorkerTaskDraft
  provenance : LeaderProvenanceView
  raw : Json

/-- One thing the leader found; a rework instruction makes it actionable. -/
structure LeaderReviewFinding where
  workerTaskId : UUID
  note : String
  reworkInstruction : Option String
  deriving DecidableEq

/-- Request body of `POST .../review`. -/
structure RepositoryReviewDecision where
  verdict : LeaderReviewVerdict
  summary : String
  findings : List LeaderReviewFinding
  raw : Json

/-- `rework_findings`: the findings with a non-empty rework instruction, with it. -/
def RepositoryReviewDecision.reworkFindings (decision : RepositoryReviewDecision) :
    List (LeaderReviewFinding × String) :=
  decision.findings.filterMap fun finding =>
    match finding.reworkInstruction with
    | some instruction => if instruction = "" then none else some (finding, instruction)
    | none => none

/-- 200 response of `POST .../review`. -/
structure ReviewReceipt where
  leaderTaskId : UUID
  verdict : LeaderReviewVerdict
  reviewRevision : ℕ
  leaderTaskStatus : TaskStatus
  reworkTaskIds : List UUID
  deriving DecidableEq

/-! ## What the other modules publish -/

/-- `AgentPrincipalView`. -/
structure AgentPrincipalView where
  id : UUID
  role : AgentRole
  leaderAgentId : Option UUID
  responsibilityPaths : List String
  agentteamsResourceName : String
  status : AgentPrincipalStatus
  deriving DecidableEq

/-- `RepositoryTeamView`. -/
structure RepositoryTeamView where
  repositoryId : UUID
  leaderAgentId : UUID
  workerAgentIds : List UUID
  agentteamsTeamName : String
  roomId : Option String
  deriving DecidableEq

/-- `ProjectAgentTopologyView`. -/
structure ProjectAgentTopologyView where
  organizationId : UUID
  organizationLeaderId : UUID
  repositoryTeams : List RepositoryTeamView
  deriving DecidableEq

/-- The team of a repository: the first one the topology lists. -/
def ProjectAgentTopologyView.team (topology : ProjectAgentTopologyView) (repositoryId : UUID) :
    Option RepositoryTeamView :=
  topology.repositoryTeams.find? fun team => team.repositoryId == repositoryId

/-- `CheckpointGateDecision`. -/
structure CheckpointGateDecision where
  allowed : Bool
  reason : String
  deriving DecidableEq

/-- The arguments of `ProjectCheckpointGateway.evaluate`. -/
structure CheckpointRequest where
  projectId : UUID
  checkpoint : ProjectCheckpoint
  evidenceVersion : String
  repositoryId : Option UUID
  requestedByAgentId : Option UUID := none
  title : Option String := none
  summary : Option String := none
  deriving DecidableEq

/-- `SendCollaborationMessageCommand`. -/
structure SendCollaborationMessageCommand where
  organizationId : UUID
  projectId : UUID
  senderAgentId : UUID
  recipientAgentId : UUID
  kind : CollaborationMessageKind
  subject : String
  body : String
  repositoryId : Option UUID
  taskId : Option UUID
  correlationId : Option UUID
  deriving DecidableEq

/-- The library functions that only carry text: reading and writing JSON, `UUID(text)` and
SHA-256. Nothing below depends on how they behave. -/
class Codecs where
  /-- `json.loads(text)`; `none` where it raises. -/
  jsonLoads : String → Option Json
  /-- `str(value)` of a value that is not a string. -/
  jsonRepr : Json → String
  /-- `UUID(text)`; `none` where it raises. -/
  uuidOfText : String → Option UUID
  /-- `hashlib.sha256(text.encode()).hexdigest()`. -/
  sha256 : String → String
  /-- `json.dumps(asdict(command), sort_keys=True, default=str, separators=(",", ":"))`. -/
  commandText : AssignTaskCommand → String
  /-- `json.dumps(document, sort_keys=True, separators=(",", ":"))`. -/
  documentText : Json → String

/-- Codecs for results in prose: no text is a JSON document, and a command or document is told
apart by its texts. -/
def proseCodecs : Codecs where
  jsonLoads _ := none
  jsonRepr _ := ""
  uuidOfText _ := none
  sha256 text := text
  commandText command := join "\n" (command.title :: command.instruction :: command.acceptance)
  documentText document := match document with
    | .str s => s
    | _ => ""

/-- `str(value)`. -/
def pyStr [Codecs] : Json → String
  | .str s => s
  | value => Codecs.jsonRepr value

/-- `command_fingerprint`. -/
def commandFingerprint [Codecs] (command : AssignTaskCommand) : String :=
  "sha256:" ++ Codecs.sha256 (Codecs.commandText command)

/-- `_document_fingerprint`. -/
def documentFingerprint [Codecs] (document : Json) : String :=
  "sha256:" ++ Codecs.sha256 (Codecs.documentText document)

end Orchestration
end RepoMesh
