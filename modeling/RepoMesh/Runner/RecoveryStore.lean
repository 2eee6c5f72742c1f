/-
# The recovery store

`PostgresWorkerRecoveryStore`: one recovery operation per failed execution. Every call is one
transaction.
-/
import RepoMesh.Runner.AssignmentStore

namespace RepoMesh
namespace Runner

open Text
open Orchestration (Raised)
open Delivery (UUID uuidStr Instant seconds)

/-- State of a recovery operation. -/
inductive WorkerRecoveryState where
  | pending | running | completed | escalated | failed
  deriving DecidableEq

/-- What a recovery decides. -/
inductive WorkerRecoveryDecision where
  | noAction | resume | reassign | escalate
  deriving DecidableEq

/-- `WorkerRecoveryOperationRecord`. It stands for the `WorkerRecoveryOperation` read from it too. -/
structure WorkerRecoveryOperation where
  id : UUID
  executionId : UUID
  taskId : UUID
  assignmentAttemptId : Option UUID
  assignmentGeneration : Option ℤ
  failedWorkerId : UUID
  state : WorkerRecoveryState := .pending
  reason : String
  nativeSessionId : Option String
  attempts : ℕ := 0
  leaseOwner : Option String := none
  leaseExpiresAt : Option Instant := none
  decision : Option WorkerRecoveryDecision := none
  errorCode : Option String := none
  createdAt : Instant
  finishedAt : Option Instant := none
  deriving DecidableEq

/-- The rows of the recovery table. -/
abbrev Recoveries := List WorkerRecoveryOperation

namespace Recoveries

/-- `ensure`, and `ensure_recovery_for_run` once it has read the reservation: an execution is
recovered by one operation. -/
def ensure (rows : Recoveries) (record : WorkerRecoveryOperation) : Recoveries :=
  if rows.any fun o => o.executionId == record.executionId then rows else rows ++ [record]

end Recoveries

/-- `WorkerRecoveryCandidate`. -/
structure WorkerRecoveryCandidate where
  workerId : UUID
  activeExecutions : ℕ := 0
  recentFailures : ℕ := 0
  deriving DecidableEq

/-- The key `select_replacement_worker` compares by. -/
def WorkerRecoveryCandidate.before (a b : WorkerRecoveryCandidate) : Bool :=
  a.activeExecutions < b.activeExecutions ∨
    a.activeExecutions = b.activeExecutions ∧
      (a.recentFailures < b.recentFailures ∨
        a.recentFailures = b.recentFailures ∧ uuidStr a.workerId ≤ uuidStr b.workerId)

/-- `select_replacement_worker`. -/
def selectReplacementWorker (candidates : List WorkerRecoveryCandidate) (failedWorkerId : UUID) :
    Option WorkerRecoveryCandidate :=
  ((candidates.filter fun item => item.workerId ≠ failedWorkerId).insertionSort
    fun a b => a.before b).head?

end Runner
end RepoMesh
