/-
# The runner world

The rows the runner integration works on, and the operations its calls wait for, each with what it
answers and what it changes.
-/
import RepoMesh.Runner.RecoveryStore

namespace RepoMesh
namespace Runner

open Text
open Async (Prog)
open AgentRuntime
open Orchestration
open Delivery (UUID Instant)

/-- The task orchestration rows, the runtime tables with their clock, the assignment attempts and
the recovery operations. -/
structure RunnerWorld where
  world : World
  runtime : RuntimeState := {}
  attempts : Attempts := []
  recoveries : Recoveries := []

namespace RunnerWorld

/-- The clock. -/
abbrev now (st : RunnerWorld) : Instant := st.runtime.now

/-- The task row of an identifier. -/
abbrev getTask (st : RunnerWorld) (taskId : UUID) : Option Task := st.world.getTask taskId

/-- One identifier drawn by `uuid4`. -/
def drawn (st : RunnerWorld) : RunnerWorld :=
  { st with world := { st.world with nextId := st.world.nextId + 1 } }

end RunnerWorld

/-- One await of a runner call. -/
inductive RunnerCallOp where
  | task (op : Op)
  | getDispatch (runId : UUID)
  | recordEvent (event : RunnerEvent) (expectedWorkerAgentId : Option UUID)
      (projectionAllowed : Bool)
  | projectionAllowed (runId : UUID)
  | ensureRecoveryForRun (runId : UUID) (reason : String) (nativeSessionId : Option String)
  | allowsProjection (taskId attemptId : UUID) (generation : ℤ)
  | completeCurrent (taskId attemptId : UUID) (generation : ℤ)
  | activeAttempt (taskId : UUID)
  | ensureInitial (taskId : UUID)
  | reassign (command : ReassignCommand)
  | reopenSameAssignment (taskId : UUID) (expectedTaskVersion : ℕ) (expectedGeneration : ℤ)
  | workerBusy (workerAgentId : UUID)
  | healthy (workerAgentId : UUID)
  | recentFailures (workerAgentId : UUID)
  | resume (operation : WorkerRecoveryOperation)
  | startReplacement (taskId workerAgentId : UUID)
  | escalate (operation : WorkerRecoveryOperation) (reason : String)
  | onTerminal (taskId : UUID)

/-- What it is answered. -/
@[reducible] def RunnerAnswer : RunnerCallOp → Type
  | .task op => op.Answer
  | .getDispatch _ => Option RunnerDispatchRecord
  | .recordEvent .. | .projectionAllowed _ | .allowsProjection .. | .workerBusy _ | .healthy _ =>
    Bool
  | .activeAttempt _ => Option TaskAssignmentAttempt
  | .ensureInitial _ | .reassign _ | .reopenSameAssignment .. => TaskAssignmentAttempt
  | .recentFailures _ => ℕ
  | .ensureRecoveryForRun .. | .completeCurrent .. | .resume _ | .startReplacement ..
  | .escalate .. | .onTerminal _ => Unit

/-- A call of the runner integration. -/
abbrev RunnerCall (α : Type) := Prog RunnerAnswer Raised α

namespace RunnerCall

abbrev getTask (taskId : UUID) : RunnerCall (Option Task) :=
  Prog.perform (RunnerCallOp.task (.getTask taskId))

abbrev updateTask (task : Task) (expectedVersion : ℕ) : RunnerCall Unit :=
  Prog.perform (RunnerCallOp.task (.updateTask task expectedVersion))

abbrev agent (agentId : UUID) : RunnerCall (Option AgentPrincipalView) :=
  Prog.perform (RunnerCallOp.task (.agent agentId))

abbrev topology (projectId : UUID) : RunnerCall (Option ProjectAgentTopologyView) :=
  Prog.perform (RunnerCallOp.task (.topology projectId))

abbrev getDispatch (runId : UUID) : RunnerCall (Option RunnerDispatchRecord) :=
  Prog.perform (RunnerCallOp.getDispatch runId)

abbrev recordEvent (event : RunnerEvent) (expectedWorkerAgentId : Option UUID)
    (projectionAllowed : Bool) : RunnerCall Bool :=
  Prog.perform (RunnerCallOp.recordEvent event expectedWorkerAgentId projectionAllowed)

abbrev projectionAllowed (runId : UUID) : RunnerCall Bool :=
  Prog.perform (RunnerCallOp.projectionAllowed runId)

abbrev ensureRecoveryForRun (runId : UUID) (reason : String) (nativeSessionId : Option String) :
    RunnerCall Unit :=
  Prog.perform (RunnerCallOp.ensureRecoveryForRun runId reason nativeSessionId)

abbrev allowsProjection (taskId attemptId : UUID) (generation : ℤ) : RunnerCall Bool :=
  Prog.perform (RunnerCallOp.allowsProjection taskId attemptId generation)

abbrev completeCurrent (taskId attemptId : UUID) (generation : ℤ) : RunnerCall Unit :=
  Prog.perform (RunnerCallOp.completeCurrent taskId attemptId generation)

abbrev activeAttempt (taskId : UUID) : RunnerCall (Option TaskAssignmentAttempt) :=
  Prog.perform (RunnerCallOp.activeAttempt taskId)

abbrev ensureInitial (taskId : UUID) : RunnerCall TaskAssignmentAttempt :=
  Prog.perform (RunnerCallOp.ensureInitial taskId)

abbrev reassign (command : ReassignCommand) : RunnerCall TaskAssignmentAttempt :=
  Prog.perform (RunnerCallOp.reassign command)

abbrev reopenSameAssignment (taskId : UUID) (expectedTaskVersion : ℕ) (expectedGeneration : ℤ) :
    RunnerCall TaskAssignmentAttempt :=
  Prog.perform (RunnerCallOp.reopenSameAssignment taskId expectedTaskVersion expectedGeneration)

abbrev workerBusy (workerAgentId : UUID) : RunnerCall Bool :=
  Prog.perform (RunnerCallOp.workerBusy workerAgentId)

abbrev healthy (workerAgentId : UUID) : RunnerCall Bool :=
  Prog.perform (RunnerCallOp.healthy workerAgentId)

abbrev recentFailures (workerAgentId : UUID) : RunnerCall ℕ :=
  Prog.perform (RunnerCallOp.recentFailures workerAgentId)

abbrev resume (operation : WorkerRecoveryOperation) : RunnerCall Unit :=
  Prog.perform (RunnerCallOp.resume operation)

abbrev startReplacement (taskId workerAgentId : UUID) : RunnerCall Unit :=
  Prog.perform (RunnerCallOp.startReplacement taskId workerAgentId)

abbrev escalate (operation : WorkerRecoveryOperation) (reason : String) : RunnerCall Unit :=
  Prog.perform (RunnerCallOp.escalate operation reason)

abbrev onTerminal (taskId : UUID) : RunnerCall Unit :=
  Prog.perform (RunnerCallOp.onTerminal taskId)

/-- A call of task orchestration among the runner calls. -/
def ofCall {α : Type} (p : Call α) : RunnerCall α :=
  Prog.expand (fun op => Prog.perform (RunnerCallOp.task op)) p

theorem only_ofCall {P : RunnerCallOp → Prop} {α : Type} {p : Call α}
    (hp : p.Only fun op => P (.task op)) : (ofCall p).Only P := by
  induction p with
  | done r => exact Prog.only_done _
  | await op next ih =>
    obtain ⟨hop, hnext⟩ := Prog.only_await.mp hp
    exact Prog.only_await.mpr ⟨hop, fun r => ih r (hnext r)⟩

theorem atMostOnce_ofCall {W : RunnerCallOp → Prop} {α : Type} {p : Call α}
    (hp : p.AtMostOnce fun op => W (.task op)) : (ofCall p).AtMostOnce W := by
  induction p with
  | done r => exact Prog.atMostOnce_done _
  | await op next ih =>
    obtain ⟨hop, hnext⟩ := Prog.atMostOnce_await.mp hp
    exact Prog.atMostOnce_await.mpr ⟨fun hW a => only_ofCall (hop hW a), fun r => ih r (hnext r)⟩

-- From here on the rules above are used; unfolding would evaluate the call itself.
attribute [irreducible] ofCall

end RunnerCall

/-! ## The stores -/

/-- `RunnerGatewayConflict` is a `ValueError`; nothing here catches `RunnerGatewayForbidden`. -/
def raisedOf : RunnerGatewayError → Raised
  | .conflict message => .valueError message
  | .forbidden message => .collaborator message

/-- `PostgresRunnerGatewayStore.projection_allowed`: the last event of the run was accepted. -/
def lastAccepted (events : List RunnerEventRecord) (runId : UUID) : Bool :=
  match ((events.filter fun e => e.runId == runId).insertionSort
      fun a b => b.body.sequence ≤ a.body.sequence).head? with
  | none => true
  | some event => event.projectionAccepted

/-- `ensure_recovery_for_run`. -/
def ensureRecovery (st : RunnerWorld) (runId : UUID) (reason : String)
    (nativeSessionId : Option String) : RunnerWorld :=
  match st.runtime.rows.find? fun r => r.runId == runId with
  | none => st
  | some reservation =>
    let record : WorkerRecoveryOperation :=
      { id := st.world.nextId
        executionId := reservation.id
        taskId := reservation.taskId
        assignmentAttemptId := reservation.assignmentAttemptId
        assignmentGeneration := reservation.assignmentGeneration
        failedWorkerId := reservation.workerAgentId
        reason := reason
        nativeSessionId := nativeSessionId
        createdAt := st.now }
    { st.drawn with recoveries := st.recoveries.ensure record }

/-- An operation of a store: its answer and the world after it. What a port answers is not said
here. -/
def perform : (op : RunnerCallOp) → RunnerWorld → Option (Except Raised (RunnerAnswer op) × RunnerWorld)
  | .task op, st => some ((exec op st.world).1, { st with world := (exec op st.world).2 })
  | .getDispatch runId, st => some (.ok (st.runtime.gateway.getDispatch runId), st)
  | .recordEvent event worker allowed, st =>
    match st.runtime.gateway.recordEvent event worker allowed st.now with
    | .ok (inserted, gateway) =>
      some (.ok inserted, { st with runtime := { st.runtime with gateway := gateway } })
    | .error e => some (.error (raisedOf e), st)
  | .projectionAllowed runId, st => some (.ok (lastAccepted st.runtime.gateway.events runId), st)
  | .ensureRecoveryForRun runId reason nativeSessionId, st =>
    some (.ok (), ensureRecovery st runId reason nativeSessionId)
  | .allowsProjection taskId attemptId generation, st =>
    some (.ok (st.attempts.allowsProjection taskId attemptId generation), st)
  | .completeCurrent taskId attemptId generation, st =>
    match st.attempts.completeCurrent taskId attemptId generation st.now with
    | .ok attempts => some (.ok (), { st with attempts := attempts })
    | .error e => some (.error e, st)
  | .activeAttempt taskId, st => some (.ok (st.attempts.active taskId), st)
  | .ensureInitial taskId, st =>
    match st.attempts.ensureInitial (st.getTask taskId) taskId st.world.nextId st.now with
    | .ok (attempt, attempts) => some (.ok attempt, { st.drawn with attempts := attempts })
    | .error e => some (.error e, st)
  | .reassign command, st =>
    match Runner.reassign st.world st.attempts command st.world.nextId st.now with
    | .ok (attempt, world, attempts) =>
      some (.ok attempt, { st with
        world := { world with nextId := world.nextId + 1 }
        attempts := attempts })
    | .error e => some (.error e, st)
  | .reopenSameAssignment taskId version generation, st =>
    match Runner.reopenSameAssignment st.world st.attempts taskId version generation with
    | .ok (attempt, world) => some (.ok attempt, { st with world := world })
    | .error e => some (.error e, st)
  | .workerBusy worker, st => some (.ok (st.runtime.rows.workerBusy worker), st)
  | .healthy _, _ | .recentFailures _, _ | .resume _, _ | .startReplacement .., _ | .escalate .., _
  | .onTerminal _, _ => none

/-- How an operation answers: a store as it does, a port as it likes, and either may raise. What the
callbacks of a call do is done by calls of their own. -/
inductive RunnerExec : (op : RunnerCallOp) → RunnerWorld → Except Raised (RunnerAnswer op) →
    RunnerWorld → Prop
  | store {op st r st'} (answered : perform op st = some (r, st')) : RunnerExec op st r st'
  | port {op st} (r) (isPort : perform op st = none) : RunnerExec op st r st
  | raises (op st e) : RunnerExec op st (.error e) st

end Runner
end RepoMesh
