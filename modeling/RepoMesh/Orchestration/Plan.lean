/-
# Execution plans

Ordered batches of repository tasks: the aggregate, its transitions and what each of them
changes.
-/
import RepoMesh.Orchestration.Contracts

namespace RepoMesh
namespace Orchestration

open Text
open Delivery (UUID uuidStr)

/-- `PlannedRepositoryTask`, with the checks of its `__post_init__`. -/
structure PlannedRepositoryTask where
  repositoryId : UUID
  title : String
  instruction : String
  acceptance : List String
  leaderTaskId : Option UUID := none
  tests : List String := []
  testPaths : List String := []
  dependsOn : List UUID := []
  title_nonblank : isBlank title = false := by decide
  instruction_nonblank : isBlank instruction = false := by decide
  acceptance_ne_nil : acceptance ≠ [] := by decide
  acceptance_nonblank : ∀ item ∈ acceptance, isBlank item = false := by decide

theorem PlannedRepositoryTask.eq_iff {a b : PlannedRepositoryTask} : a = b ↔
    a.repositoryId = b.repositoryId ∧ a.title = b.title ∧ a.instruction = b.instruction ∧
    a.acceptance = b.acceptance ∧ a.leaderTaskId = b.leaderTaskId ∧ a.tests = b.tests ∧
    a.testPaths = b.testPaths ∧ a.dependsOn = b.dependsOn := by
  cases a
  cases b
  simp only [PlannedRepositoryTask.mk.injEq]

instance : DecidableEq PlannedRepositoryTask := fun _ _ => decidable_of_iff' _ PlannedRepositoryTask.eq_iff

/-- `assigned_to`. -/
def PlannedRepositoryTask.assignedTo (planned : PlannedRepositoryTask) (leaderTaskId : UUID) :
    PlannedRepositoryTask :=
  { planned with leaderTaskId := some leaderTaskId }

/-- A stated refusal to deliver the batch the plan is standing on. -/
structure DeliveryRefusal where
  reason : String
  batchIndex : ℕ
  repositoryId : Option UUID
  taskId : Option UUID
  deriving DecidableEq

/-- `ExecutionPlan`, with the checks of its `__post_init__`. -/
structure ExecutionPlan where
  id : UUID
  organizationId : UUID
  projectId : UUID
  createdByAgentId : UUID
  batches : List (List PlannedRepositoryTask)
  currentBatchIndex : ℕ := 0
  status : ExecutionPlanStatus := .inProgress
  version : ℕ := 1
  deliveryRefusal : Option DeliveryRefusal := none
  batches_nonempty : ∀ batch ∈ batches, batch ≠ [] := by decide
  index_lt : currentBatchIndex < batches.length := by decide
  deriving DecidableEq

namespace ExecutionPlan

/-- `batches[index]`. -/
def batch (p : ExecutionPlan) (index : ℕ) : List PlannedRepositoryTask :=
  p.batches.getD index []

/-- `current_batch`. -/
def currentBatch (p : ExecutionPlan) : List PlannedRepositoryTask :=
  p.batch p.currentBatchIndex

/-- `is_last_batch`. -/
def isLastBatch (p : ExecutionPlan) : Bool := p.currentBatchIndex == p.batches.length - 1

/-- `leader_task_ids`. -/
def leaderTaskIds (p : ExecutionPlan) (batchIndex : ℕ) : List UUID :=
  (p.batch batchIndex).filterMap (·.leaderTaskId)

/-- `find_by_leader_task` on one plan. -/
def hasLeaderTask (p : ExecutionPlan) (leaderTaskId : UUID) : Bool :=
  p.batches.any fun batch => batch.any fun planned => planned.leaderTaskId == some leaderTaskId

/-- A batch whose items carry the given leader tasks. -/
def assignBatch (batch : List PlannedRepositoryTask) (leaderTaskIds : List UUID) :
    List PlannedRepositoryTask :=
  List.zipWith (fun planned taskId => planned.assignedTo taskId) batch leaderTaskIds

theorem set_nonempty {batches : List (List PlannedRepositoryTask)} {i : ℕ}
    {batch : List PlannedRepositoryTask} (h : ∀ b ∈ batches, b ≠ []) (hbatch : batch ≠ []) :
    ∀ b ∈ batches.set i batch, b ≠ [] := by
  intro b hb
  rcases List.mem_or_eq_of_mem_set hb with hmem | rfl
  · exact h b hmem
  · exact hbatch

/-- `with_leader_tasks`. The index is one of the plan's batches; any other raises `IndexError`
in the source. -/
def withLeaderTasks (p : ExecutionPlan) (batchIndex : ℕ) (leaderTaskIds : List UUID) :
    Except Raised ExecutionPlan :=
  if leaderTaskIds.length ≠ (p.batch batchIndex).length then
    .error (.taskConflict "every planned task of a batch needs one leader task")
  else if hne : assignBatch (p.batch batchIndex) leaderTaskIds ≠ [] then
    .ok
      { p with
        batches := p.batches.set batchIndex (assignBatch (p.batch batchIndex) leaderTaskIds)
        version := p.version + 1
        batches_nonempty := set_nonempty p.batches_nonempty hne
        index_lt := by simpa using p.index_lt }
  else .error (.runtimeError "list index out of range")

/-- `_require_in_progress`, before a change. -/
def ifInProgress (p : ExecutionPlan) (result : Except Raised ExecutionPlan) :
    Except Raised ExecutionPlan :=
  if p.status = .inProgress then result
  else .error (.taskConflict "a finished execution plan cannot change")

/-- Status replaced, one version on. -/
def settled (p : ExecutionPlan) (status : ExecutionPlanStatus) : ExecutionPlan :=
  { p with status, version := p.version + 1 }

/-- `advance`. -/
def advance (p : ExecutionPlan) : Except Raised ExecutionPlan :=
  p.ifInProgress
    (if hlast : p.currentBatchIndex + 1 < p.batches.length then
      .ok { p with
        currentBatchIndex := p.currentBatchIndex + 1
        version := p.version + 1
        index_lt := hlast }
    else .error (.taskConflict "the last batch cannot be advanced"))

/-- `complete`. -/
def complete (p : ExecutionPlan) : Except Raised ExecutionPlan :=
  p.ifInProgress (.ok (p.settled .completed))

/-- `fail`. -/
def fail (p : ExecutionPlan) : Except Raised ExecutionPlan :=
  p.ifInProgress (.ok (p.settled .failed))

/-- The refusal as `refuse_delivery` records it. -/
def refusal (p : ExecutionPlan) (reason : String) (repositoryId taskId : Option UUID) :
    DeliveryRefusal :=
  { reason, batchIndex := p.currentBatchIndex, repositoryId, taskId }

/-- `refuse_delivery(...).plan`: nothing to write when the same refusal is recorded already. -/
def refuseDelivery (p : ExecutionPlan) (reason : String) (repositoryId taskId : Option UUID) :
    Option ExecutionPlan :=
  if p.deliveryRefusal = some (p.refusal reason repositoryId taskId) then none
  else
    some { p with
      deliveryRefusal := some (p.refusal reason repositoryId taskId)
      version := p.version + 1 }

/-- `clear_delivery_refusal`. -/
def clearDeliveryRefusal (p : ExecutionPlan) : Option ExecutionPlan :=
  if p.deliveryRefusal = none then none
  else some { p with deliveryRefusal := none, version := p.version + 1 }

/-! ## What each transition changes -/

end ExecutionPlan
end Orchestration
end RepoMesh
