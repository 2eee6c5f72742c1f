/-
# The task orchestrator

`TaskOrchestrator`: assigning a task, announcing it, dispatching it again, and recording what
its assignee starts and reports.
-/
import RepoMesh.Orchestration.World

namespace RepoMesh
namespace Orchestration

open Text
open Async (Prog)
open Delivery (UUID uuidStr)

variable [Codecs]

/-! ## Keys and texts -/

/-- `IDEMPOTENCY_KEY_LIMIT`. -/
def idempotencyKeyLimit : ℕ := 200

/-- `_digest`. -/
def digest (value : String) (chars : ℕ) : String := truncate chars (Codecs.sha256 value)

/-- `_attempt_token`. -/
def attemptToken (attempt : String) : String := digest attempt 12

/-- `_dispatch_message_key`. -/
def dispatchMessageKey (key : String) (attempt : Option String) : String :=
  match attempt with
  | none => key ++ ":message"
  | some attempt =>
    let derived := key ++ ":message:rd:" ++ attemptToken attempt
    if derived.length ≤ idempotencyKeyLimit then derived
    else "rd:" ++ digest key 24 ++ ":" ++ attemptToken attempt

/-- `_assignment_body`. -/
def assignmentBody (task : Task) (published : Option PublishedTaskPackage) : String :=
  match published with
  | some package =>
    "A verified RepoMesh task package is ready. Do not edit code directly in this " ++
    "chat session. Call the MCP tool " ++
    "repomesh-task-control.start_assigned_task with:\n" ++
    "\x7b\"task_id\":\"" ++ uuidStr task.id ++ "\",\"worker_agent_id\":\"" ++
    uuidStr task.assigneeAgentId ++ "\"\x7d\n\n" ++
    "Task package: " ++ package.taskPath ++ "\n" ++
    "Content hash: " ++ package.contentHash ++ "\n" ++
    "RepoMesh Runner will prepare the isolated workspace, invoke the configured " ++
    "coding-agent adapter, run verification, and persist the result."
  | none =>
    task.instruction ++ "\n\nAcceptance criteria:\n" ++
    join "\n" (task.acceptance.map ("- " ++ ·)) ++ "\n\n" ++
    "When blocked or finished, reply with only this JSON object:\n" ++
    "\x7b\n" ++
    "  \"schema\": \"repomesh.agent-report.v1\",\n" ++
    "  \"sender_agent_id\": \"" ++ uuidStr task.assigneeAgentId ++ "\",\n" ++
    "  \"project_id\": \"" ++ uuidStr task.projectId ++ "\",\n" ++
    "  \"task_id\": \"" ++ uuidStr task.id ++ "\",\n" ++
    "  \"status\": \"blocked|succeeded|failed\",\n" ++
    "  \"summary\": \"what changed, tests run, or the blocking question\"\n" ++
    "\x7d"

/-! ## Checks -/

/-- `_required_agent`. -/
def requiredAgent (agentId : UUID) : Call AgentPrincipalView := do
  match ← Call.agent agentId with
  | none => throw (.taskDenied ("agent does not exist: " ++ uuidStr agentId))
  | some profile =>
    if profile.status = .active then pure profile else throw (.taskDenied "agent_disabled")

/-- `_required_task`. -/
def requiredTask (taskId : UUID) : Call Task := do
  match ← Call.getTask taskId with
  | none => throw (.taskNotFound ("task does not exist: " ++ uuidStr taskId))
  | some task => pure task

/-- `_validate_membership`. -/
def validateMembership (assigner assignee : AgentPrincipalView) (repositoryId : UUID)
    (topology : ProjectAgentTopologyView) : Except Raised Unit :=
  if assigner.id = topology.organizationLeaderId then
    if topology.repositoryTeams.any fun team =>
        team.repositoryId == repositoryId && team.leaderAgentId == assignee.id then .ok ()
    else .error
      (.taskDenied "repository leader is not assigned to this project repository")
  else if topology.repositoryTeams.any fun team =>
      team.repositoryId == repositoryId && team.leaderAgentId == assigner.id &&
        team.workerAgentIds.contains assignee.id then .ok ()
  else .error (.taskDenied "worker is not assigned to this project repository team")

/-- The conditions on a parent task in `assign`. -/
def validateParent (parent : Task) (assignerId : UUID) (command : AssignTaskCommand) :
    Except Raised Unit :=
  if parent.assigneeAgentId ≠ assignerId then
    .error (.taskDenied "only the parent task assignee can create a child task")
  else if parent.projectId ≠ command.projectId ∨ parent.repositoryId ≠ command.repositoryId then
    .error (.taskDenied "child task must remain in its parent project and repository")
  else .ok ()

/-- `if command.parent_task_id is not None` in `assign`. -/
def requireParent (assignerId : UUID) (command : AssignTaskCommand) : Call Unit :=
  match command.parentTaskId with
  | none => pure ()
  | some parentTaskId => do
    match ← Call.getTask parentTaskId with
    | none => throw (.taskNotFound "parent task does not exist")
    | some parent => Prog.lift (validateParent parent assignerId command)

/-! ## Announcing a task -/

/-- `_send_assignment`. -/
def sendAssignment (task : Task) (key : String) (published : Option PublishedTaskPackage)
    (dispatchAttempt : Option String) : Call Unit :=
  Call.send
    { organizationId := task.organizationId
      projectId := task.projectId
      repositoryId := some task.repositoryId
      taskId := some task.id
      senderAgentId := task.assignedByAgentId
      recipientAgentId := task.assigneeAgentId
      kind := .taskAssignment
      subject := task.title
      body := assignmentBody task published
      correlationId := some task.id }
    (dispatchMessageKey key dispatchAttempt)

/-- The team that can take a worker's task package, with its room. -/
def readyTeam (topology : Option ProjectAgentTopologyView) (task : Task) :
    Option (RepositoryTeamView × String) := do
  let topology ← topology
  let team ← topology.repositoryTeams.find? fun team =>
    team.repositoryId == task.repositoryId && team.workerAgentIds.contains task.assigneeAgentId
  let roomId ← team.roomId
  if roomId = "" then none else some (team, roomId)

/-- `_deliver_assignment`. -/
def deliverTo (task : Task) (key : String) (dispatchAttempt : Option String) : Call Unit := do
  let assignee ← requiredAgent task.assigneeAgentId
  if assignee.role = .worker then do
    let topology ← Call.topology task.projectId
    match readyTeam topology task with
    | none => throw (.taskDenied "Worker Team runtime is not ready for task publication")
    | some (team, roomId) => do
      let published ← Call.publish task team.agentteamsTeamName roomId
        assignee.agentteamsResourceName (key ++ ":publication")
      sendAssignment task key (some published) dispatchAttempt
  else sendAssignment task key none dispatchAttempt

/-- `deliver_assignment`. -/
def deliverAssignment (taskId : UUID) : Call Unit := do
  let task ← requiredTask taskId
  match ← Call.assignmentKey task.id with
  | none => throw (.taskConflict ("task " ++ uuidStr task.id ++
      " has no recorded assignment key, so its task package cannot be published"))
  | some key => deliverTo task key none

/-! ## Assigning -/

/-- The agents, topology, gate and parent a new task needs, in the order `assign` asks. -/
def checkAdmission (command : AssignTaskCommand) : Call (AgentPrincipalView × AgentPrincipalView) := do
  let assigner ← requiredAgent command.assignedByAgentId
  let assignee ← requiredAgent command.assigneeAgentId
  if assignee.leaderAgentId ≠ some assigner.id then
    throw (.taskDenied "tasks can only be assigned to a direct subordinate")
  else do
    match ← Call.topology command.projectId with
    | none => throw (.taskDenied "project topology does not exist")
    | some topology =>
      if topology.organizationId ≠ command.organizationId then
        throw (.taskDenied "project topology does not exist")
      else do
        let gate ← Call.operationalGate command.projectId
        if gate.allowed = false then throw (.taskBlocked gate.reason)
        else do
          Prog.lift (validateMembership assigner assignee command.repositoryId topology)
          requireParent assigner.id command
          pure (assigner, assignee)

/-- The part of `assign` for a key no task is bound to. -/
def assignNew (command : AssignTaskCommand) (key : String) (origin : TaskOrigin)
    (deliver : Bool) : Call Task := do
  let (assigner, assignee) ← checkAdmission command
  let id ← Call.newId
  let task ← Prog.lift (Task.create id
    { command with assignedByAgentId := assigner.id, assigneeAgentId := assignee.id } origin)
  Call.addTask task key (commandFingerprint command)
  if deliver then do
    deliverTo task key none
    pure task
  else pure task

/-- The part of `assign` for a key a task is bound to. -/
def assignReplay (command : AssignTaskCommand) (key : String) (task : Task)
    (previousFingerprint : String) (deliver : Bool) : Call Task :=
  if commandFingerprint command ≠ previousFingerprint then
    throw (.taskConflict "idempotency key was used for a different task")
  else if deliver then do
    deliverTo task key none
    pure task
  else pure task

/-- `assign`. -/
def assign (command : AssignTaskCommand) (idempotencyKey : String) (origin : TaskOrigin)
    (deliver : Bool) : Call Task :=
  if strip idempotencyKey = "" then throw (.valueError "idempotency_key is required")
  else do
    match ← Call.taskByKey (strip idempotencyKey) with
    | some (task, previousFingerprint) =>
      assignReplay command (strip idempotencyKey) task previousFingerprint deliver
    | none => assignNew command (strip idempotencyKey) origin deliver

/-! ## Dispatching again -/

/-- The `redo` branch of `redispatch`: the task to announce, reopened where it was final. -/
def reopenForRedispatch (task : Task) (redo : Bool) : Call Task :=
  if task.status.isFinal = false then pure task
  else if redo = false then
    throw (.taskConflict ("task " ++ uuidStr task.id ++ " has already finished (" ++
      task.status.value ++ "); there is nothing to dispatch again"))
  else do
    let reopened ← Prog.lift task.redo
    Call.updateTask reopened task.version
    pure reopened

/-- `redispatch`. -/
def redispatch (taskId : UUID) (attempt : String) (redo : Bool) : Call Task := do
  let found ← requiredTask taskId
  let task ← reopenForRedispatch found redo
  match ← Call.assignmentKey task.id with
  | none => throw (.taskConflict ("task " ++ uuidStr task.id ++
      " has no recorded assignment key, so its task package cannot be republished"))
  | some key => do
    deliverTo task key (some attempt)
    pure task

/-! ## Starting, reporting, superseding -/

/-- `start`. -/
def start (taskId agentId : UUID) : Call Task := do
  let task ← requiredTask taskId
  if task.assigneeAgentId ≠ agentId then throw (.taskDenied "only the assignee can start a task")
  else do
    let gate ← Call.evaluateCheckpoint
      { projectId := task.projectId
        checkpoint := .execution
        evidenceVersion := "task:" ++ uuidStr task.id ++ ":v" ++ toString task.version
        repositoryId := some task.repositoryId }
    if gate.allowed = false then throw (.taskBlocked gate.reason)
    else do
      let updated ← Prog.lift task.start
      Call.updateTask updated task.version
      pure updated

/-- The result a report leaves on the task row: the row itself when it says the same already. -/
def recordReport (task : Task) (command : ReportTaskCommand) : Call Task :=
  if task.status = command.status ∧ task.resultSummary = some (strip command.summary) then
    pure task
  else if task.status = .succeeded ∨ task.status = .failed then
    throw (.taskConflict "a final task cannot be reported with different results")
  else do
    let updated ← Prog.lift (task.report command.status command.summary)
    if command.status = .succeeded ∧ (updated.evaluateDatabaseAutomation).blocks then
      throw (.taskBlocked ("database automation blocked success: " ++
        join ", " updated.evaluateDatabaseAutomation.reasons))
    else do
      Call.updateTask updated task.version
      pure updated

/-- `except CollaborationDeliveryDeferred`: the report stands, the message is retried later. -/
def ignoreDeferred (e : Raised) : Call Unit :=
  match e with
  | .collaborationDeliveryDeferred _ => pure ()
  | e => throw e

/-- The room message of a report. -/
def announceReport (task updated : Task) (command : ReportTaskCommand)
    (idempotencyKey : String) : Call Unit :=
  MonadExcept.tryCatch
    (Call.send
      { organizationId := task.organizationId
        projectId := task.projectId
        repositoryId := some task.repositoryId
        taskId := some task.id
        senderAgentId := task.assigneeAgentId
        recipientAgentId := task.assignedByAgentId
        kind := if command.status = .blocked then .progress else .taskReport
        subject := task.title ++ ": " ++ updated.status.value
        body := strip command.summary
        correlationId := some task.id }
      (idempotencyKey ++ ":message"))
    ignoreDeferred

/-- The exception escalation of a repository leader's report. -/
def escalateReport (reporter : AgentPrincipalView) (task updated : Task)
    (command : ReportTaskCommand) : Call Unit :=
  if reporter.role = .repositoryLeader ∧ (command.status = .blocked ∨ command.status = .failed)
  then do
    let _ ← Call.evaluateCheckpoint
      { projectId := task.projectId
        checkpoint := .exceptionEscalation
        evidenceVersion := "task:" ++ uuidStr updated.id ++ ":v" ++ toString updated.version
        repositoryId := some task.repositoryId
        requestedByAgentId := some reporter.id
        title := some (task.title ++ "：仓库异常升级")
        summary := some (strip command.summary) }
    pure ()
  else pure ()

/-- The database validation a successful report requests. -/
def requestValidation (updated : Task) (command : ReportTaskCommand) : Call Unit :=
  if command.status = .succeeded ∧
      updated.evaluateDatabaseAutomation.disposition = .requestValidation then
    Call.databaseAutomation updated.evaluateDatabaseAutomation
  else pure ()

/-- What `report` does once the row is written. -/
def followReport (reporter : AgentPrincipalView) (task updated : Task)
    (command : ReportTaskCommand) (idempotencyKey : String) : Call Unit := do
  announceReport task updated command idempotencyKey
  escalateReport reporter task updated command
  requestValidation updated command

/-- `report`. -/
def report (command : ReportTaskCommand) (idempotencyKey : String) : Call Task := do
  let reporter ← requiredAgent command.reporterAgentId
  let task ← requiredTask command.taskId
  if task.assigneeAgentId ≠ command.reporterAgentId then
    throw (.taskDenied "only the assignee can report a task")
  else do
    let updated ← recordReport task command
    followReport reporter task updated command idempotencyKey
    pure updated

/-- `SupersedeTaskCommand`. -/
structure SupersedeTaskCommand where
  taskId : UUID
  reason : String := ""
  supersededByTaskId : Option UUID := none
  deriving DecidableEq

/-- `supersede`. -/
def supersede (command : SupersedeTaskCommand) (idempotencyKey : String) : Call Task :=
  if strip idempotencyKey = "" then throw (.valueError "idempotency_key is required")
  else do
    let task ← requiredTask command.taskId
    let reason := strip command.reason
    if task.status = .superseded ∧
        task.resultSummary = some (if reason = "" then "SUPERSEDED" else "SUPERSEDED: " ++ reason)
    then pure task
    else do
      let updated ← Prog.lift (task.supersede reason)
      Call.updateTask updated task.version
      pure updated

end Orchestration
end RepoMesh
