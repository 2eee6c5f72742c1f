/-
# Driving an execution plan

`AdvanceExecutionPlan`: assigning the batches of a plan, rolling worker results up to their leader
task, opening a leader's review, and delivering and leaving a batch.
-/
import RepoMesh.Orchestration.Decompose

namespace RepoMesh
namespace Orchestration

open Text
open Async (Prog)
open Delivery (UUID uuidStr)

/-! ## Reviews -/

/-- `_notify_review_due`. -/
def notifyReviewDue (parent : Task) (assignment : LeaderAssignmentView)
    (evidence : LeaderReviewEvidenceView) : Call Unit :=
  Call.send
    { organizationId := assignment.organizationId
      projectId := assignment.projectId
      repositoryId := some assignment.repositoryId
      taskId := some parent.id
      senderAgentId := parent.assignedByAgentId
      recipientAgentId := assignment.leaderAgentId
      kind := .decision
      subject := parent.title ++ ": awaiting your review"
      body := "All " ++ toString evidence.workerEvidence.length ++
        " worker tasks of this round have " ++
        "finished, so this repository is waiting on your verdict.\n\n" ++
        "Read the evidence, then submit approve, request_rework or escalate:\n" ++
        "  GET  /api/v1/agent-actions/leader/assignments/" ++ uuidStr parent.id ++ "\n" ++
        "  POST /api/v1/agent-actions/leader/assignments/" ++ uuidStr parent.id ++
        "/review\n\n" ++
        "The package carries each worker task's status, run, commit, changed " ++
        "files and test results. Nothing is delivered until you approve."
      correlationId := some parent.id }
    ("leader-review:" ++ uuidStr parent.id ++ ":r" ++ toString evidence.reviewRevision ++ ":due")

section Review

variable [Codecs]

/-- The evidence a review of these worker tasks is judged against. -/
def reviewEvidenceOf (assignment : LeaderAssignmentView) (children : List Task) :
    LeaderReviewEvidenceView :=
  { reviewRevision := assignment.reviewRevision
    workerEvidence := children.map Task.workerEvidence }

/-- The record with its review opened. -/
def reviewOpened (assignment : LeaderAssignmentView) (children : List Task) :
    LeaderAssignmentView :=
  { assignment with
    phase := .reviewDue
    reviewEvidence := some (reviewEvidenceOf assignment children) }

/-- `_open_review_if_leader_side`. -/
def openReviewIfLeaderSide (parent : Task) (children : List Task) : Call Bool := do
  match ← Call.getAssignment parent.id with
  | none => pure false
  | some assignment =>
    if assignment.phase ≠ .executing then pure true
    else if children.any fun child => child.status.isOpen then pure true
    else do
      Call.saveAssignment assignment (reviewOpened assignment children)
      notifyReviewDue parent assignment (reviewEvidenceOf assignment children)
      pure true

/-- The result the platform settles a leader task with, where it does. -/
def rolledUp (parent : Task) (children : List Task) : Except Raised (Option Task) :=
  let failed := children.filter fun child => child.status.isFailed
  if failed ≠ [] then
    (parent.report .failed (toString failed.length ++ " of " ++ toString children.length ++
      " worker tasks did not succeed.")).map some
  else if children.all fun child => child.status = .succeeded then
    (parent.report .succeeded ("All " ++ toString children.length ++
      " worker tasks succeeded.")).map some
  else .ok none

/-- The update at the end of `_roll_up`. -/
def settleRollUp (parent updated : Task) : Call Task := do
  match ← (MonadExcept.tryCatch
      (do Call.updateTask updated parent.version; pure none)
      (fun e => if e.isTaskConflict then (do
          let current ← Call.getTask parent.id
          pure (some (current.getD parent)))
        else throw e) : Call (Option Task)) with
  | none => pure updated
  | some persisted => pure persisted

/-- `_roll_up`. -/
def rollUp (parent : Task) : Call Task :=
  if parent.status.isFinal then pure parent
  else do
    let children ← Call.tasksByParent parent.id
    if children = [] then pure parent
    else do
      if ← openReviewIfLeaderSide parent children then pure parent
      else do
        match ← (Prog.lift (rolledUp parent children) : Call (Option Task)) with
        | none => pure parent
        | some updated => settleRollUp parent updated

end Review

/-! ## Assigning a batch -/

/-- What `_park_for_leader` records: the team, its roster and its envelope. -/
def parkedAssignment (plan : ExecutionPlan) (planned : PlannedRepositoryTask) (leaderTaskId : UUID)
    (team : RepositoryTeamView) (roster : List WorkerRosterEntryView) : LeaderAssignmentView :=
  { leaderTaskId
    organizationId := plan.organizationId
    projectId := plan.projectId
    repositoryId := planned.repositoryId
    leaderAgentId := team.leaderAgentId
    phase := .planning
    safetyEnvelope := safetyEnvelope roster planned.tests planned.testPaths
    workerRoster := roster }

/-- `_park_for_leader`. -/
def parkForLeader (plan : ExecutionPlan) (planned : PlannedRepositoryTask) (leaderTaskId : UUID)
    (team : RepositoryTeamView) (key : String) : Call Unit := do
  let roster ← workerRoster team
  let _ ← Call.ensureAssignment (parkedAssignment plan planned leaderTaskId team roster)
  Call.send
    { organizationId := plan.organizationId
      projectId := plan.projectId
      repositoryId := some planned.repositoryId
      taskId := some leaderTaskId
      senderAgentId := plan.createdByAgentId
      recipientAgentId := team.leaderAgentId
      kind := .decision
      subject := planned.title ++ ": awaiting your repository plan"
      body := "This repository team plans leader-side, so no worker task has been " ++
        "created for this round.\n\n" ++
        "Read your assignment package, then submit your Engineering Spec, " ++
        "task DAG and worker tasks:\n" ++
        "  GET  /api/v1/agent-actions/leader/assignments/" ++ uuidStr leaderTaskId ++ "\n" ++
        "  POST /api/v1/agent-actions/leader/assignments/" ++ uuidStr leaderTaskId ++
        "/plan\n\n" ++
        "Authenticate with your own external member token. The package names " ++
        "your worker roster and the safety envelope your plan is validated " ++
        "against; nothing is dispatched until the plan is accepted."
      correlationId := some leaderTaskId }
    (key ++ ":leader-plan")

/-- The key of one batch item. -/
def batchItemKey (keyPrefix : String) (batchIndex : ℕ) (repositoryId : UUID) : String :=
  keyPrefix ++ ":b" ++ toString batchIndex ++ ":" ++ uuidStr repositoryId

section Advance

variable [Codecs]

/-- The leader task of one batch item, with its team. -/
def assignLeaderTask (plan : ExecutionPlan) (batchIndex : ℕ) (keyPrefix : String)
    (planned : PlannedRepositoryTask) : Call (UUID × RepositoryTeamView) := do
  let team ← repositoryTeam plan.projectId planned.repositoryId
  let leaderTask ← assign
    { organizationId := plan.organizationId
      projectId := plan.projectId
      repositoryId := planned.repositoryId
      assignedByAgentId := plan.createdByAgentId
      assigneeAgentId := team.leaderAgentId
      title := planned.title
      instruction := planned.instruction
      acceptance := planned.acceptance }
    (batchItemKey keyPrefix batchIndex planned.repositoryId) .planned true
  pure (leaderTask.id, team)

/-- The fork of the second loop of `_assign_batch`: the leader decomposes, or the platform. -/
def expandLeaderTask (plan : ExecutionPlan) (batchIndex : ℕ) (keyPrefix : String)
    (item : PlannedRepositoryTask × UUID × RepositoryTeamView) : Call Unit := do
  let key := batchItemKey keyPrefix batchIndex item.1.repositoryId
  let mode ← Call.decompositionMode plan.projectId item.1.repositoryId
  if mode = .leader then parkForLeader plan item.1 item.2.1 item.2.2 key
  else do
    let _ ← decompose item.2.1 (key ++ ":decompose") item.1.tests item.1.testPaths
    pure ()

/-- `_assign_batch`. -/
def assignBatch (plan : ExecutionPlan) (batchIndex : ℕ) (keyPrefix : String) :
    Call ExecutionPlan := do
  let leaders ← Prog.each (assignLeaderTask plan batchIndex keyPrefix) (plan.batch batchIndex)
  let assigned ← Prog.lift (plan.withLeaderTasks batchIndex (leaders.map (·.1)))
  Call.updatePlan assigned plan.version
  let _ ← Prog.each (expandLeaderTask plan batchIndex keyPrefix)
    ((assigned.batch batchIndex).zip leaders)
  pure assigned

/-! ## Leaving a batch -/

/-- `_settle`: false when another caller already moved the plan. -/
def settle (plan updated : ExecutionPlan) : Call Bool :=
  MonadExcept.tryCatch (do Call.updatePlan updated plan.version; pure true)
    fun e => if e.isTaskConflict then pure false else throw e

/-- The planned tasks all have a leader task that succeeded. -/
def allSucceeded : List PlannedRepositoryTask → Call Bool
  | [] => pure true
  | planned :: rest =>
    match planned.leaderTaskId with
    | none => pure false
    | some leaderTaskId => do
      match ← Call.getTask leaderTaskId with
      | none => pure false
      | some task => if task.status = .succeeded then allSucceeded rest else pure false

/-- `_batch_succeeded`. -/
def batchSucceeded (plan : ExecutionPlan) : Call Bool := allSucceeded plan.currentBatch

/-- `try: on_batch_deliver except BatchDeliveryRefused`: the refusal, if there is one. -/
def tryDeliver (plan : ExecutionPlan) : Call (Option (String × Option UUID × Option UUID)) :=
  MonadExcept.tryCatch (do Call.deliverBatch plan; pure none) fun e =>
    match e with
    | .batchDeliveryRefused reason repositoryId taskId => pure (some (reason, repositoryId, taskId))
    | e => throw e

/-- `_deliver_batch`. -/
def deliverBatch (plan : ExecutionPlan) : Call (Option ExecutionPlan) := do
  match ← tryDeliver plan with
  | some (reason, repositoryId, taskId) =>
    match plan.refuseDelivery reason repositoryId taskId with
    | none => pure none
    | some refused => do
      let _ ← settle plan refused
      pure none
  | none =>
    match plan.clearDeliveryRefusal with
    | none => pure (some plan)
    | some cleared => do
      if ← settle plan cleared then pure (some cleared) else pure none

/-- `states.get(repository_id, False)`. -/
def mergedIn (states : List (UUID × Bool)) (repositoryId : UUID) : Bool :=
  ((states.find? fun s => s.1 == repositoryId).map (·.2)).getD false

/-- `_delivery_gate`, where delivery is gated. -/
def deliveryGate (plan : ExecutionPlan) : Call Bool := do
  let states ← Call.repositoryStates plan.projectId
  pure (plan.currentBatch.all fun planned => mergedIn states planned.repositoryId)

/-- What `_advance_if_ready` does once the batch is delivered and merged. -/
def leaveBatch (plan : ExecutionPlan) : Call Unit :=
  if plan.isLastBatch then do
    let completed ← Prog.lift plan.complete
    let _ ← settle plan completed
    pure ()
  else do
    let advanced ← Prog.lift plan.advance
    if ← settle plan advanced then do
      let _ ← assignBatch advanced advanced.currentBatchIndex (uuidStr plan.id)
      pure ()
    else pure ()

/-- `_advance_if_ready`. With `deliveryAuto` the batch is delivered first and left once it is
merged. -/
def advanceIfReady (deliveryAuto : Bool) (plan : ExecutionPlan) : Call Unit := do
  if ← batchSucceeded plan then
    if deliveryAuto then do
      match ← deliverBatch plan with
      | none => pure ()
      | some plan => do
        if ← deliveryGate plan then leaveBatch plan else pure ()
    else leaveBatch plan
  else pure ()

/-! ## The entry points -/

/-- `on_task_terminal` once the leader task is known to be final. -/
def onLeaderTerminal (deliveryAuto : Bool) (leaderTask : Task) : Call Unit := do
  match ← Call.planByLeaderTask leaderTask.id with
  | none => pure ()
  | some plan =>
    if plan.status ≠ .inProgress then pure ()
    else if leaderTask.id ∉ plan.leaderTaskIds plan.currentBatchIndex then pure ()
    else if leaderTask.status ≠ .succeeded then do
      let failed ← Prog.lift plan.fail
      let _ ← settle plan failed
      pure ()
    else advanceIfReady deliveryAuto plan

/-- The leader task a terminal worker task is rolled up to, or the task itself. -/
def leaderTaskOf (task : Task) : Call (Option Task) :=
  match task.parentTaskId with
  | none => pure (some task)
  | some parentTaskId => do
    match ← Call.getTask parentTaskId with
    | none => pure none
    | some parent => do
      let leaderTask ← rollUp parent
      pure (some leaderTask)

/-- `on_task_terminal`. -/
def onTaskTerminal (deliveryAuto : Bool) (taskId : UUID) : Call Unit := do
  match ← Call.getTask taskId with
  | none => pure ()
  | some task => do
    match ← leaderTaskOf task with
    | none => pure ()
    | some leaderTask =>
      if leaderTask.status.isFinal then onLeaderTerminal deliveryAuto leaderTask else pure ()

end Advance

end Orchestration
end RepoMesh
