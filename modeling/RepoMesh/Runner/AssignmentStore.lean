/-
# The assignment store

`PostgresTaskAssignmentStore`: the attempts a task has been assigned in, one row each, beside the
task rows. Every call locks the task and its active attempt, and is one transaction.
-/
import RepoMesh.AgentRuntime.Reservation
import RepoMesh.Orchestration.Evolution

namespace RepoMesh
namespace Runner

open Orchestration
open Delivery (UUID Instant)

/-- State of an assignment attempt. -/
inductive AssignmentAttemptState where
  | active | superseded | completed | failed
  deriving DecidableEq

/-- Why a task was assigned. -/
inductive AssignmentReason where
  | initial | leaseExpired | workerUnreachable | runnerInterrupted | operator
  deriving DecidableEq

/-- Who assigned it. -/
inductive AssignmentActorKind where
  | agent | human | system
  deriving DecidableEq

/-- `TaskAssignmentAttemptRecord`. -/
structure TaskAssignmentAttempt where
  id : UUID
  organizationId : UUID
  projectId : UUID
  repositoryId : UUID
  taskId : UUID
  workerAgentId : UUID
  generation : ℤ
  state : AssignmentAttemptState := .active
  reason : AssignmentReason
  assignedBy : AssignmentActorKind
  assignedById : Option UUID
  previousAttemptId : Option UUID
  executionId : Option UUID := none
  createdAt : Instant
  finishedAt : Option Instant := none
  deriving DecidableEq

/-- The rows of the attempt table. -/
abbrev Attempts := List TaskAssignmentAttempt

namespace Attempts

/-- `_active`. -/
def active (rows : Attempts) (taskId : UUID) : Option TaskAssignmentAttempt :=
  rows.find? fun a => a.taskId == taskId && a.state == .active

/-- The attempt of a task with the highest generation. -/
def latest (rows : Attempts) (taskId : UUID) : Option TaskAssignmentAttempt :=
  ((rows.filter fun a => a.taskId == taskId).insertionSort
    fun a b => b.generation ≤ a.generation).head?

/-- `session.get(TaskAssignmentAttemptRecord, id)`. -/
def get (rows : Attempts) (id : UUID) : Option TaskAssignmentAttempt := Keyed.find (·.id) rows id

/-- `ensure_initial`: the active attempt, or a new one that continues the lineage. The new row gets
the identifier `uuid4` drew. -/
def ensureInitial (rows : Attempts) (task : Option Task) (taskId id : UUID) (now : Instant) :
    Except Raised (TaskAssignmentAttempt × Attempts) :=
  match rows.active taskId with
  | some active => .ok (active, rows)
  | none =>
    match task with
    | none => .error (.taskConflict "task does not exist")
    | some task =>
      let latest := rows.latest taskId
      let record : TaskAssignmentAttempt :=
        { id := id
          organizationId := task.organizationId
          projectId := task.projectId
          repositoryId := task.repositoryId
          taskId := task.id
          workerAgentId := task.assigneeAgentId
          generation := (latest.map (·.generation + 1)).getD 1
          reason := if latest.isNone then .initial else .operator
          assignedBy := .agent
          assignedById := some task.assignedByAgentId
          previousAttemptId := latest.map (·.id)
          createdAt := now }
      .ok (record, rows ++ [record])

/-- `allows_projection`. -/
def allowsProjection (rows : Attempts) (taskId attemptId : UUID) (generation : ℤ) : Bool :=
  (rows.get attemptId).any fun a =>
    a.taskId == taskId && a.generation == generation && a.state != .superseded

/-- `complete_current`. -/
def completeCurrent (rows : Attempts) (taskId attemptId : UUID) (generation : ℤ) (now : Instant) :
    Except Raised Attempts :=
  if rows.allowsProjection taskId attemptId generation then
    .ok (Keyed.write (·.id) rows attemptId fun a =>
      if a.state = .active then { a with state := .completed, finishedAt := some now } else a)
  else .error (.taskConflict "task assignment generation changed")

end Attempts

/-- The arguments of `reassign`. -/
structure ReassignCommand where
  taskId : UUID
  expectedTaskVersion : ℕ
  expectedGeneration : ℤ
  replacementWorkerId : UUID
  reason : AssignmentReason
  assignedBy : AssignmentActorKind := .system
  assignedById : Option UUID := none
  deriving DecidableEq

/-- The task and its active attempt, at the version and generation that are expected. -/
def lockAssignment (w : World) (rows : Attempts) (taskId : UUID) (expectedTaskVersion : ℕ)
    (expectedGeneration : ℤ) : Except Raised (Task × TaskAssignmentAttempt) :=
  match w.getTask taskId, rows.active taskId with
  | some task, some active =>
    if task.version ≠ expectedTaskVersion ∨ active.generation ≠ expectedGeneration then
      .error (.taskConflict "task assignment generation changed")
    else .ok (task, active)
  | _, _ => .error (.taskConflict "task assignment does not exist")

/-- The task row `reassign` writes. -/
def reassigned (t : Task) (workerAgentId : UUID) (h : t.assignedByAgentId ≠ workerAgentId) : Task :=
  { t with
    assigneeAgentId := workerAgentId
    version := t.version + 1
    status := .assigned
    resultSummary := none
    assigner_ne_assignee := h }

/-- The task rows after `reassign`. -/
def reassignTask (w : World) (taskId workerAgentId : UUID) : World :=
  { w with tasks := w.tasks.map fun t =>
      if h : t.id = taskId ∧ t.assignedByAgentId ≠ workerAgentId then
        reassigned t workerAgentId h.2
      else t }

/-- `reassign`. A replacement that is the assigner itself would leave a row no reader accepts; no
caller asks for one. -/
def reassign (w : World) (rows : Attempts) (c : ReassignCommand) (id : UUID) (now : Instant) :
    Except Raised (TaskAssignmentAttempt × World × Attempts) := do
  let (task, active) ← lockAssignment w rows c.taskId c.expectedTaskVersion c.expectedGeneration
  if active.workerAgentId = c.replacementWorkerId then
    .error (.taskConflict "replacement Worker must differ from current assignee")
  else if task.assignedByAgentId = c.replacementWorkerId then
    .error (.valueError "a task must be assigned to another agent")
  else
    let replacement : TaskAssignmentAttempt :=
      { id := id
        organizationId := task.organizationId
        projectId := task.projectId
        repositoryId := task.repositoryId
        taskId := task.id
        workerAgentId := c.replacementWorkerId
        generation := active.generation + 1
        reason := c.reason
        assignedBy := c.assignedBy
        assignedById := c.assignedById
        previousAttemptId := some active.id
        createdAt := now }
    .ok (replacement, reassignTask w c.taskId c.replacementWorkerId,
      Keyed.write (·.id) rows active.id
        (fun a => { a with state := .superseded, finishedAt := some now }) ++ [replacement])

/-- `reopen_same_assignment`. -/
def reopenSameAssignment (w : World) (rows : Attempts) (taskId : UUID) (expectedTaskVersion : ℕ)
    (expectedGeneration : ℤ) : Except Raised (TaskAssignmentAttempt × World) := do
  let (task, active) ← lockAssignment w rows taskId expectedTaskVersion expectedGeneration
  .ok (active, w.writeTask (task.moved .assigned none))

end Runner
end RepoMesh
