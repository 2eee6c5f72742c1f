/-
# The orchestration world

The stores task orchestration writes, the collaborators it asks, and the operations its calls
wait for, each with what it answers and what it changes.
-/
import RepoMesh.Foundation.Async
import RepoMesh.Orchestration.Task
import RepoMesh.Orchestration.Plan
import RepoMesh.Delivery.Service

namespace RepoMesh
namespace Orchestration

open Async (Prog)
open Delivery (UUID uuidStr ChangeSetStore)

/-- What the other modules answer, or raise. They may change between two operations. -/
structure Ports where
  /-- `AgentPrincipalReader.get_view`. -/
  agent : UUID → Except Raised (Option AgentPrincipalView)
  /-- `ProjectTopologyReader.get_view`. -/
  topology : UUID → Except Raised (Option ProjectAgentTopologyView)
  /-- `ProjectCheckpointGateway.operational_gate`. -/
  operationalGate : UUID → Except Raised CheckpointGateDecision
  /-- `ProjectCheckpointGateway.evaluate`. -/
  evaluateCheckpoint : CheckpointRequest → Except Raised CheckpointGateDecision
  /-- `TeamDecompositionModeReader.decomposition_mode`. -/
  decompositionMode : UUID → UUID → Except Raised TeamDecompositionMode
  /-- `TaskAssignmentPublisher.publish`. -/
  publish : Task → String → String → String → String → Except Raised PublishedTaskPackage
  /-- `CollaborationGateway.send`. -/
  send : SendCollaborationMessageCommand → String → Except Raised Unit
  /-- `TaskSpecificationAuthor.ensure_approved`. -/
  ensureApproved : Task → List String → List String → String → Except Raised Unit
  /-- `request_database_validation`. -/
  databaseAutomation : DatabaseAutomationDecision → Except Raised Unit
  /-- `on_batch_deliver`, which also writes ChangeSets. -/
  onBatchDeliver : ExecutionPlan → ChangeSetStore → Except Raised Unit × ChangeSetStore

/-- The task, plan, assignment and ChangeSet rows, the supply of `new_id`, and the ports. -/
structure World where
  tasks : List Task := []
  taskKeys : List (String × UUID × String) := []
  plans : List ExecutionPlan := []
  planKeys : List (String × UUID) := []
  assignments : List LeaderAssignmentView := []
  delivery : ChangeSetStore := {}
  nextId : UUID := 0
  ports : Ports

/-- One await of an orchestration call. -/
inductive Op where
  | newId
  | addTask (task : Task) (key fingerprint : String)
  | getTask (taskId : UUID)
  | taskByKey (key : String)
  | assignmentKey (taskId : UUID)
  | updateTask (task : Task) (expectedVersion : ℕ)
  | tasksByParent (parentTaskId : UUID)
  | addPlan (plan : ExecutionPlan) (key : String)
  | getPlan (planId : UUID)
  | planByKey (key : String)
  | updatePlan (plan : ExecutionPlan) (expectedVersion : ℕ)
  | planByLeaderTask (leaderTaskId : UUID)
  | ensureAssignment (assignment : LeaderAssignmentView)
  | getAssignment (leaderTaskId : UUID)
  /-- `save(replace(read, ...))`: the record the caller derived the new one from goes along. -/
  | saveAssignment (read new : LeaderAssignmentView)
  | agent (agentId : UUID)
  | topology (projectId : UUID)
  | operationalGate (projectId : UUID)
  | evaluateCheckpoint (request : CheckpointRequest)
  | decompositionMode (projectId repositoryId : UUID)
  | publish (task : Task) (teamName roomId assigneeResourceName key : String)
  | send (command : SendCollaborationMessageCommand) (key : String)
  | ensureApproved (task : Task) (allowedPaths tests : List String) (key : String)
  | databaseAutomation (decision : DatabaseAutomationDecision)
  | deliverBatch (plan : ExecutionPlan)
  | repositoryStates (projectId : UUID)

/-- What each operation answers. -/
@[reducible] def Op.Answer : Op → Type
  | .newId => UUID
  | .getTask _ => Option Task
  | .taskByKey _ => Option (Task × String)
  | .assignmentKey _ => Option String
  | .tasksByParent _ => List Task
  | .getPlan _ | .planByKey _ | .planByLeaderTask _ => Option ExecutionPlan
  | .ensureAssignment _ => LeaderAssignmentView
  | .getAssignment _ => Option LeaderAssignmentView
  | .agent _ => Option AgentPrincipalView
  | .topology _ => Option ProjectAgentTopologyView
  | .operationalGate _ | .evaluateCheckpoint _ => CheckpointGateDecision
  | .decompositionMode .. => TeamDecompositionMode
  | .publish .. => PublishedTaskPackage
  | .repositoryStates _ => List (UUID × Bool)
  | .addTask .. | .updateTask .. | .addPlan .. | .updatePlan .. | .saveAssignment .. | .send ..
  | .ensureApproved .. | .databaseAutomation _ | .deliverBatch _ => Unit

/-- An orchestration call. -/
abbrev Call (α : Type) := Async.Prog Op.Answer Raised α

namespace Call

/-! ## The operations as calls -/

abbrev newId : Call UUID := Prog.perform Op.newId

abbrev addTask (task : Task) (key fingerprint : String) : Call Unit :=
  Prog.perform (Op.addTask task key fingerprint)

abbrev getTask (taskId : UUID) : Call (Option Task) := Prog.perform (Op.getTask taskId)

abbrev taskByKey (key : String) : Call (Option (Task × String)) := Prog.perform (Op.taskByKey key)

abbrev assignmentKey (taskId : UUID) : Call (Option String) := Prog.perform (Op.assignmentKey taskId)

abbrev updateTask (task : Task) (expectedVersion : ℕ) : Call Unit :=
  Prog.perform (Op.updateTask task expectedVersion)

abbrev tasksByParent (parentTaskId : UUID) : Call (List Task) :=
  Prog.perform (Op.tasksByParent parentTaskId)

abbrev updatePlan (plan : ExecutionPlan) (expectedVersion : ℕ) : Call Unit :=
  Prog.perform (Op.updatePlan plan expectedVersion)

abbrev planByLeaderTask (leaderTaskId : UUID) : Call (Option ExecutionPlan) :=
  Prog.perform (Op.planByLeaderTask leaderTaskId)

abbrev ensureAssignment (a : LeaderAssignmentView) : Call LeaderAssignmentView :=
  Prog.perform (Op.ensureAssignment a)

abbrev getAssignment (leaderTaskId : UUID) : Call (Option LeaderAssignmentView) :=
  Prog.perform (Op.getAssignment leaderTaskId)

abbrev saveAssignment (read new : LeaderAssignmentView) : Call Unit :=
  Prog.perform (Op.saveAssignment read new)

abbrev agent (agentId : UUID) : Call (Option AgentPrincipalView) := Prog.perform (Op.agent agentId)

abbrev topology (projectId : UUID) : Call (Option ProjectAgentTopologyView) :=
  Prog.perform (Op.topology projectId)

abbrev operationalGate (projectId : UUID) : Call CheckpointGateDecision :=
  Prog.perform (Op.operationalGate projectId)

abbrev evaluateCheckpoint (request : CheckpointRequest) : Call CheckpointGateDecision :=
  Prog.perform (Op.evaluateCheckpoint request)

abbrev decompositionMode (projectId repositoryId : UUID) : Call TeamDecompositionMode :=
  Prog.perform (Op.decompositionMode projectId repositoryId)

abbrev publish (task : Task) (teamName roomId assigneeResourceName key : String) :
    Call PublishedTaskPackage :=
  Prog.perform (Op.publish task teamName roomId assigneeResourceName key)

abbrev send (command : SendCollaborationMessageCommand) (key : String) : Call Unit :=
  Prog.perform (Op.send command key)

abbrev ensureApproved (task : Task) (allowedPaths tests : List String) (key : String) :
    Call Unit :=
  Prog.perform (Op.ensureApproved task allowedPaths tests key)

abbrev databaseAutomation (decision : DatabaseAutomationDecision) : Call Unit :=
  Prog.perform (Op.databaseAutomation decision)

abbrev deliverBatch (plan : ExecutionPlan) : Call Unit := Prog.perform (Op.deliverBatch plan)

abbrev repositoryStates (projectId : UUID) : Call (List (UUID × Bool)) :=
  Prog.perform (Op.repositoryStates projectId)

end Call

namespace World

/-! ## The stores -/

/-- `TaskStore.get`. -/
def getTask (w : World) (taskId : UUID) : Option Task := w.tasks.find? fun t => t.id == taskId

/-- `TaskStore.get_by_idempotency_key`. -/
def taskByKey (w : World) (key : String) : Option (Task × String) := do
  let entry ← w.taskKeys.find? fun e => e.1 == key
  let task ← w.getTask entry.2.1
  return (task, entry.2.2)

/-- `TaskStore.assignment_key`. -/
def assignmentKey (w : World) (taskId : UUID) : Option String :=
  (w.taskKeys.find? fun e => e.2.1 == taskId).map (·.1)

/-- `TaskStore.list_by_parent`. -/
def tasksByParent (w : World) (parentTaskId : UUID) : List Task :=
  w.tasks.filter fun t => t.parentTaskId == some parentTaskId

/-- `TaskStore.add`. -/
def addTask (w : World) (task : Task) (key fingerprint : String) : Except Raised World :=
  if (w.getTask task.id).isSome ∨ w.taskKeys.any (fun e => e.1 == key) then
    .error (.taskConflict "task already exists")
  else
    .ok { w with
      tasks := w.tasks ++ [task]
      taskKeys := w.taskKeys ++ [(key, task.id, fingerprint)] }

/-- The columns an update writes: status, result and version. -/
def writeTask (w : World) (task : Task) : World :=
  { w with tasks := w.tasks.map fun t =>
      if t.id = task.id then
        { t with status := task.status, resultSummary := task.resultSummary, version := task.version }
      else t }

/-- `TaskStore.update`, a compare-and-set on the version. -/
def updateTask (w : World) (task : Task) (expectedVersion : ℕ) : Except Raised World :=
  match w.getTask task.id with
  | none => .error (.taskConflict "task version changed")
  | some current =>
    if current.version ≠ expectedVersion then .error (.taskConflict "task version changed")
    else .ok (w.writeTask task)

/-- `ExecutionPlanStore.get`. -/
def getPlan (w : World) (planId : UUID) : Option ExecutionPlan :=
  w.plans.find? fun p => p.id == planId

/-- `ExecutionPlanStore.get_by_idempotency_key`. -/
def planByKey (w : World) (key : String) : Option ExecutionPlan := do
  let entry ← w.planKeys.find? fun e => e.1 == key
  w.getPlan entry.2

/-- `ExecutionPlanStore.find_by_leader_task`. -/
def planByLeaderTask (w : World) (leaderTaskId : UUID) : Option ExecutionPlan :=
  w.plans.find? fun p => p.hasLeaderTask leaderTaskId

/-- `ExecutionPlanStore.add`. -/
def addPlan (w : World) (plan : ExecutionPlan) (key : String) : Except Raised World :=
  if (w.getPlan plan.id).isSome ∨ w.planKeys.any (fun e => e.1 == key) then
    .error (.taskConflict "execution plan already exists")
  else .ok { w with plans := w.plans ++ [plan], planKeys := w.planKeys ++ [(key, plan.id)] }

/-- Put a plan in the place of the one stored under its identifier. -/
def writePlan (w : World) (plan : ExecutionPlan) : World :=
  { w with plans := w.plans.map fun p => if p.id = plan.id then plan else p }

/-- `ExecutionPlanStore.update`, a compare-and-set on the version. -/
def updatePlan (w : World) (plan : ExecutionPlan) (expectedVersion : ℕ) : Except Raised World :=
  match w.getPlan plan.id with
  | none => .error (.taskConflict "execution plan version changed")
  | some current =>
    if current.version ≠ expectedVersion then
      .error (.taskConflict "execution plan version changed")
    else .ok (w.writePlan plan)

/-- `LeaderAssignmentStore.get`. -/
def getAssignment (w : World) (leaderTaskId : UUID) : Option LeaderAssignmentView :=
  w.assignments.find? fun a => a.leaderTaskId == leaderTaskId

/-- `LeaderAssignmentStore.ensure`: the first write stays. -/
def ensureAssignment (w : World) (a : LeaderAssignmentView) : LeaderAssignmentView × World :=
  match w.getAssignment a.leaderTaskId with
  | some stored => (stored, w)
  | none => (a, { w with assignments := w.assignments ++ [a] })

/-- Put an assignment in the place of the one stored for its leader task. -/
def writeAssignment (w : World) (a : LeaderAssignmentView) : World :=
  { w with assignments := w.assignments.map fun b =>
      if b.leaderTaskId = a.leaderTaskId then a else b }

/-- `LeaderAssignmentStore.save`: no version is compared. -/
def saveAssignment (w : World) (a : LeaderAssignmentView) : Except Raised World :=
  match w.getAssignment a.leaderTaskId with
  | none => .error (.taskConflict "leader assignment does not exist")
  | some _ => .ok (w.writeAssignment a)

/-- One repository in the fold of `repository_states`: merged wins. -/
def noteRepositoryState (states : List (UUID × Bool)) (d : Delivery.RepositoryDelivery) :
    List (UUID × Bool) :=
  let merged := decide (d.status = .merged)
  match states.find? fun s => s.1 == d.repositoryId with
  | none => states ++ [(d.repositoryId, merged)]
  | some (_, before) =>
    if merged && !before then
      states.map fun s => if s.1 = d.repositoryId then (d.repositoryId, true) else s
    else states

/-- `DeliveryStateAdapter.repository_states`: every ChangeSet of the project folded into one
map by repository. -/
def repositoryStates (w : World) (projectId : UUID) : List (UUID × Bool) :=
  ((w.delivery.findByProject projectId).flatMap (·.repositories)).foldl noteRepositoryState []

end World

/-- An answer that leaves the world as it was. -/
def answered {α : Type} (r : Except Raised α) (w : World) : Except Raised α × World := (r, w)

/-- A write, or the exception that refuses it. -/
def written (r : Except Raised World) (w : World) : Except Raised Unit × World :=
  match r with
  | .ok w' => (.ok (), w')
  | .error e => (.error e, w)

/-- One operation: its answer and the world after it. -/
def exec : (op : Op) → World → Except Raised op.Answer × World
  | .newId, w => (.ok w.nextId, { w with nextId := w.nextId + 1 })
  | .addTask task key fingerprint, w => written (w.addTask task key fingerprint) w
  | .getTask taskId, w => answered (.ok (w.getTask taskId)) w
  | .taskByKey key, w => answered (.ok (w.taskByKey key)) w
  | .assignmentKey taskId, w => answered (.ok (w.assignmentKey taskId)) w
  | .updateTask task expectedVersion, w => written (w.updateTask task expectedVersion) w
  | .tasksByParent parentTaskId, w => answered (.ok (w.tasksByParent parentTaskId)) w
  | .addPlan plan key, w => written (w.addPlan plan key) w
  | .getPlan planId, w => answered (.ok (w.getPlan planId)) w
  | .planByKey key, w => answered (.ok (w.planByKey key)) w
  | .updatePlan plan expectedVersion, w => written (w.updatePlan plan expectedVersion) w
  | .planByLeaderTask leaderTaskId, w => answered (.ok (w.planByLeaderTask leaderTaskId)) w
  | .ensureAssignment a, w => (.ok (w.ensureAssignment a).1, (w.ensureAssignment a).2)
  | .getAssignment leaderTaskId, w => answered (.ok (w.getAssignment leaderTaskId)) w
  | .saveAssignment _ new, w => written (w.saveAssignment new) w
  | .agent agentId, w => answered (w.ports.agent agentId) w
  | .topology projectId, w => answered (w.ports.topology projectId) w
  | .operationalGate projectId, w => answered (w.ports.operationalGate projectId) w
  | .evaluateCheckpoint request, w => answered (w.ports.evaluateCheckpoint request) w
  | .decompositionMode projectId repositoryId, w =>
    answered (w.ports.decompositionMode projectId repositoryId) w
  | .publish task teamName roomId assigneeResourceName key, w =>
    answered (w.ports.publish task teamName roomId assigneeResourceName key) w
  | .send command key, w => answered (w.ports.send command key) w
  | .ensureApproved task allowedPaths tests key, w =>
    answered (w.ports.ensureApproved task allowedPaths tests key) w
  | .databaseAutomation decision, w => answered (w.ports.databaseAutomation decision) w
  | .deliverBatch plan, w =>
    ((w.ports.onBatchDeliver plan w.delivery).1,
      { w with delivery := (w.ports.onBatchDeliver plan w.delivery).2 })
  | .repositoryStates projectId, w => answered (.ok (w.repositoryStates projectId)) w

/-- The operations that only ask. -/
def Op.isRead : Op → Bool
  | .newId | .addTask .. | .updateTask .. | .addPlan .. | .updatePlan .. | .ensureAssignment _
  | .saveAssignment .. | .deliverBatch _ => false
  | _ => true

theorem exec_of_isRead {op : Op} (h : op.isRead = true) (w : World) : (exec op w).2 = w := by
  cases op <;> first | rfl | cases h

/-- The operations that ask another module. -/
def Op.isPort : Op → Bool
  | .agent _ | .topology _ | .operationalGate _ | .evaluateCheckpoint _ | .decompositionMode ..
  | .publish .. | .send .. | .ensureApproved .. | .databaseAutomation _ => true
  | _ => false

theorem Op.isRead_of_isPort {op : Op} (h : op.isPort = true) : op.isRead = true := by
  cases op <;> first | rfl | cases h

theorem exec_of_isPort {op : Op} (h : op.isPort = true) {w w' : World}
    (hports : w.ports = w'.ports) : (exec op w).1 = (exec op w').1 := by
  cases op <;> first | (dsimp only [exec, answered]; rw [hports]; done) | cases h

@[simp] theorem written_ok (w w' : World) : written (.ok w') w = (.ok (), w') := rfl

@[simp] theorem written_error (e : Raised) (w : World) : written (.error e) w = (.error e, w) := rfl

end Orchestration
end RepoMesh
