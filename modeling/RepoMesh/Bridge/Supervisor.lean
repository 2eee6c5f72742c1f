/-
# The room supervisor

One worker's rooms, served one turn at a time: the calls of a round as programs over the state
file, the room, the coding session, the governed start action and the leader lane. How a prompt is
read and what the leader documents hold is left to the protocol.
-/
import RepoMesh.Foundation.Async
import RepoMesh.Bridge.Outbox
import RepoMesh.Bridge.Inbox

namespace RepoMesh
namespace Bridge

open Async Async.Prog
open Delivery (UUID Instant uuidStr)

/-- A dispatch RepoMesh addressed to one worker. -/
structure AssignmentDirective where
  taskId : UUID
  workerAgentId : UUID
  deriving DecidableEq

/-- What a leader notice asks for. -/
inductive NoticeAction where
  | plan
  | review
  deriving DecidableEq

/-- The word of a notice. -/
def NoticeAction.text : NoticeAction → String
  | .plan => "plan"
  | .review => "review"

/-- `_EXPECTED_PHASE`. -/
def NoticeAction.expectedPhase : NoticeAction → String
  | .plan => "planning"
  | .review => "review_due"

/-- A notice RepoMesh addressed to one Repository Leader. -/
structure LeaderNotice where
  taskId : UUID
  action : NoticeAction
  deriving DecidableEq

/-- How the messages of a room are read, and the documents of the leader lane. -/
class Protocol where
  governedTaskId : String → Option UUID
  assignmentDirective : String → Option AssignmentDirective
  parseLeaderNotice : String → Option LeaderNotice
  RepositoryAssignmentPackage : Type
  phase : RepositoryAssignmentPackage → String
  RepositoryPlanDecision : Type
  RepositoryReviewDecision : Type

/-- One conversational turn, addressed to whatever session serves it. -/
structure TurnRequest where
  roomId : String
  threadId : String
  triggerEventId : String
  prompt : String
  nativeSessionId : Option String
  deriving DecidableEq

/-- What a turn produced. -/
structure TurnOutcome where
  observations : List RoomObservation
  nativeSessionId : Option String
  status : String
  deriving DecidableEq

/-- What RepoMesh answered when it took a task on. -/
structure GovernedStartReceipt where
  runId : UUID
  taskId : UUID
  deriving DecidableEq

/-- What the server hands back for an accepted plan. -/
structure PlanReceipt where
  planRevision : ℤ
  workerTaskIds : List UUID
  deriving DecidableEq

/-- What the server hands back for an accepted verdict. -/
structure ReviewReceipt where
  verdict : String
  reviewRevision : ℤ
  leaderTaskStatus : String
  reworkTaskIds : List UUID
  deriving DecidableEq

/-- The supervisor's settings: its enrollment, its rooms, and which ports it was given. -/
structure RoomSupervisor where
  workerAgentId : UUID
  matrixUserId : String
  codingProfile : String
  isRepositoryLeader : Bool
  rooms : List String
  governedTask : Bool
  leader : Bool

/-- What one turn produced, and which lane the outbox should file it under. -/
structure TurnAnswer where
  status : String
  lane : String
  observations : List RoomObservation
  deriving DecidableEq

def FAILURE_NOTE : String :=
  "I could not finish that turn. The details are in this machine's log."

def TIMEOUT_NOTE : String :=
  "I ran out of time on that turn. The details are in this machine's log."

def GOVERNANCE_DISABLED_NOTE : String :=
  "This bridge instance cannot start governed runs; it was launched conversation-only."

def GOVERNANCE_UNAVAILABLE_NOTE : String :=
  "I could not reach RepoMesh, so nothing was started. Ask me again and I will retry."

def GOVERNANCE_REFUSED_PREFIX : String := "RepoMesh will not start that task: "

def RUN_ACCEPTED_BODY : String := "Task accepted; governed run is queued."

def LEADER_LANE_DISABLED_NOTE : String :=
  "This bridge instance cannot submit leader decisions; it was launched conversation-only."

def LEADER_UNAVAILABLE_NOTE : String :=
  "I could not reach RepoMesh, so nothing was submitted. Ask me again and I will retry."

def LEADER_REFUSED_PREFIX : String := "RepoMesh will not take that leader action: "

def LEADER_DRAFT_REFUSED_NOTE : String :=
  "I would not submit the decision my own session produced, so RepoMesh has nothing from " ++
    "me for this round. The reason is in this machine's log; ask me again and I will try " ++
    "once more."

/-- `LEADER_PLAN_ACCEPTED_TEMPLATE`. -/
def planAcceptedLine (receipt : PlanReceipt) : String :=
  "Repository plan accepted: revision " ++ toString receipt.planRevision ++ ", " ++
    toString receipt.workerTaskIds.length ++ " worker task(s) dispatched."

/-- `LEADER_REVIEW_ACCEPTED_TEMPLATE` and `LEADER_REWORK_SUFFIX`. -/
def reviewAcceptedLine (receipt : ReviewReceipt) : String :=
  "Review round " ++ toString receipt.reviewRevision ++ " answered " ++ receipt.verdict ++
    "; RepoMesh now calls this leader task " ++ receipt.leaderTaskStatus ++ "." ++
    if receipt.reworkTaskIds.isEmpty then ""
    else " " ++ toString receipt.reworkTaskIds.length ++ " rework task(s) created."

/-- `LEADER_PHASE_MOVED_TEMPLATE`. -/
def phaseMovedLine (phase expected : String) : String :=
  "RepoMesh says this round is " ++ phase ++ " rather than " ++ expected ++
    ", so I submitted nothing."

/-- `_note`. -/
def note (text : String) : RoomObservation where
  kind := "note"
  body := text

/-- `_accepted`. -/
def accepted (receipt : GovernedStartReceipt) : RoomObservation where
  kind := "run_accepted"
  body := RUN_ACCEPTED_BODY
  taskId := some receipt.taskId
  runId := some receipt.runId

/-- `_terminal`: an unknown status is recorded as failed. -/
def terminal (status : String) : String :=
  if status ∈ TERMINAL_TURN_STATES then status else "failed"

section

variable [Protocol]

open Protocol

/-- What a round asks of the state file, of the room and of the other ports. -/
inductive BridgeOp where
  | pending
  | markSent (txnId eventId : String)
  | markRefused (txnId : String)
  | since
  | isBaseline
  | recordBaseline (batch : RoomBatch)
  | triggers (batch : RoomBatch)
  | claim (trigger : Trigger)
  | settle (trigger : Trigger) (status : String)
  | commit (batch : RoomBatch)
  | enqueue (trigger : Trigger) (lane : String) (observations : List RoomObservation)
  | resumeHandle (roomId threadId profile : String)
  | bindSession (roomId threadId profile : String) (nativeSessionId : Option String)
  | countTurn (roomId threadId profile : String)
  | recordAnchor (anchor : RunAnchor)
  | sync (since : Option String)
  | join (roomId : String)
  | send (row : OutboxRow)
  | respond (turn : TurnRequest)
  | startTask (taskId workerAgentId : UUID)
  | fetchAssignment (taskId : UUID)
  | plan (package : RepositoryAssignmentPackage)
  | submitPlan (taskId : UUID) (decision : RepositoryPlanDecision)
  | review (package : RepositoryAssignmentPackage)
  | submitReview (taskId : UUID) (decision : RepositoryReviewDecision)

/-- What each operation answers. -/
@[reducible] def BridgeOp.Answer : BridgeOp → Type
  | .pending => List OutboxRow
  | .since => Option String
  | .isBaseline => Bool
  | .triggers _ => List Trigger
  | .claim _ => TurnClaim
  | .resumeHandle .. => Option String
  | .sync _ => RoomBatch
  | .send _ => String
  | .respond _ => TurnOutcome
  | .startTask .. => GovernedStartReceipt
  | .fetchAssignment _ => RepositoryAssignmentPackage
  | .plan _ => RepositoryPlanDecision
  | .submitPlan .. => PlanReceipt
  | .review _ => RepositoryReviewDecision
  | .submitReview .. => ReviewReceipt
  | _ => Unit

/-- A call of the supervisor. -/
abbrev Call (α : Type) := Prog BridgeOp.Answer Raised α

/-- One operation. -/
abbrev ask (op : BridgeOp) : Call op.Answer := perform op

/-- One answer of a coding session, of the start action or of a leader round that failed. -/
def failedAnswer (text : String) : TurnAnswer := ⟨"failed", NOTE_LANE, [note text]⟩

/-- A turn that ran out of time. -/
def timedOut : TurnAnswer := ⟨"timeout", NOTE_LANE, [note TIMEOUT_NOTE]⟩

/-- Offer one intent to its room, and write down what the room said. -/
def offer (row : OutboxRow) : Call Unit :=
  (ask (.send row)).resume fun
    | .ok eventId => ask (.markSent row.txnId eventId)
    | .error (.roomRefused _) => ask (.markRefused row.txnId)
    | .error .cancelledError => throw .cancelledError
    | .error _ => throw .roomTrouble

/-- `_drain`: hand every unacknowledged intent to its room, oldest first. -/
def drain : Call Unit := do
  let sends ← ask .pending
  let _ ← each offer sends
  pure ()

/-- `_sync`: read one batch; a refusal passes, any other failure is the room's trouble. -/
def sync : Call RoomBatch := do
  let since ← ask .since
  (ask (.sync since)).resume fun
    | .ok batch => pure batch
    | .error (.roomRefused message) => throw (.roomRefused message)
    | .error .cancelledError => throw .cancelledError
    | .error _ => throw .roomTrouble

/-- Answer one invitation. -/
def acceptInvite (sv : RoomSupervisor) (invite : RoomInvite) : Call Unit :=
  if invite.roomId ∉ sv.rooms then pure ()
  else
    (ask (.join invite.roomId)).resume fun
      | .ok () => pure ()
      | .error (.roomRefused _) => pure ()
      | .error .cancelledError => throw .cancelledError
      | .error _ => throw .roomTrouble

/-- `_accept_invites`. -/
def acceptInvites (sv : RoomSupervisor) (batch : RoomBatch) : Call Unit := do
  let _ ← each (acceptInvite sv) batch.invites
  pure ()

/-- `_start_governed`: ask RepoMesh to start a task, and tell the room what it said. -/
def startGoverned (sv : RoomSupervisor) (trigger : Trigger) (taskId : UUID) : Call TurnAnswer :=
  if !sv.governedTask then pure (failedAnswer GOVERNANCE_DISABLED_NOTE)
  else
    (ask (.startTask taskId sv.workerAgentId)).resume fun
      | .error .cancelledError => throw .cancelledError
      | .error .timeoutError => pure timedOut
      | .error (.governedTaskRefused refusal) =>
        pure (failedAnswer (GOVERNANCE_REFUSED_PREFIX ++ refusal))
      | .error (.governedTaskUnavailable _) => pure (failedAnswer GOVERNANCE_UNAVAILABLE_NOTE)
      | .error _ => pure (failedAnswer FAILURE_NOTE)
      | .ok receipt => do
        ask (.recordAnchor
          { runId := receipt.runId
            taskId := receipt.taskId
            roomId := trigger.roomId
            threadRootId := trigger.threadRootId
            triggerEventId := trigger.eventId })
        pure ⟨"completed", RUN_LANE, [accepted receipt]⟩

/-- `_leader_round`: read the facts, decide on them, submit the decision, say what came back. -/
def leaderRound (notice : LeaderNotice) : Call String := do
  let package ← ask (.fetchAssignment notice.taskId)
  let expected := notice.action.expectedPhase
  if phase package ≠ expected then pure (phaseMovedLine (phase package) expected)
  else
    match notice.action with
    | .plan => do
      let plan ← ask (.plan package)
      let receipt ← ask (.submitPlan notice.taskId plan)
      pure (planAcceptedLine receipt)
    | .review => do
      let verdict ← ask (.review package)
      let receipt ← ask (.submitReview notice.taskId verdict)
      pure (reviewAcceptedLine receipt)

/-- `_decide_as_leader`: carry one leader round out, and tell the room the one line it gets. -/
def decideAsLeader (sv : RoomSupervisor) (notice : LeaderNotice) : Call TurnAnswer :=
  if !sv.leader then pure (failedAnswer LEADER_LANE_DISABLED_NOTE)
  else
    (leaderRound notice).resume fun
      | .error .cancelledError => throw .cancelledError
      | .error .timeoutError => pure timedOut
      | .error (.leaderActionRefused _ refusal) =>
        pure (failedAnswer (LEADER_REFUSED_PREFIX ++ refusal))
      | .error (.leaderActionUnavailable _) => pure (failedAnswer LEADER_UNAVAILABLE_NOTE)
      | .error (.leaderDocumentInvalid _) => pure (failedAnswer LEADER_DRAFT_REFUSED_NOTE)
      | .error _ => pure (failedAnswer FAILURE_NOTE)
      | .ok line => pure ⟨"completed", NOTE_LANE, [note line]⟩

/-- The conversation branch of `_decide`. -/
def converse (sv : RoomSupervisor) (trigger : Trigger) : Call TurnAnswer := do
  let handle ← ask (.resumeHandle trigger.roomId trigger.threadId sv.codingProfile)
  (ask (.respond
      { roomId := trigger.roomId
        threadId := trigger.threadId
        triggerEventId := trigger.eventId
        prompt := trigger.prompt
        nativeSessionId := handle })).resume fun
    | .error .cancelledError => throw .cancelledError
    | .error .timeoutError => pure timedOut
    | .error _ => pure (failedAnswer FAILURE_NOTE)
    | .ok outcome => do
      ask (.bindSession trigger.roomId trigger.threadId sv.codingProfile
        outcome.nativeSessionId)
      ask (.countTurn trigger.roomId trigger.threadId sv.codingProfile)
      pure ⟨terminal outcome.status, TURN_LANE, outcome.observations⟩

/-- The task a mention asks this worker to start: the platform's dispatch first, then the typed
command. -/
def governedRequest (sv : RoomSupervisor) (prompt : String) : Option UUID :=
  match assignmentDirective prompt with
  | some directive =>
    if directive.workerAgentId = sv.workerAgentId then some directive.taskId
    else governedTaskId prompt
  | none => governedTaskId prompt

/-- `_decide`: put the turn to the leader lane, the control plane or the coding session. -/
def decide (sv : RoomSupervisor) (trigger : Trigger) : Call TurnAnswer :=
  match if sv.isRepositoryLeader then parseLeaderNotice trigger.prompt else none with
  | some notice => decideAsLeader sv notice
  | none =>
    match governedRequest sv trigger.prompt with
    | some taskId => startGoverned sv trigger taskId
    | none => converse sv trigger

/-- Write an answer down and send it. -/
def deliver (trigger : Trigger) (answer : TurnAnswer) : Call Unit := do
  ask (.enqueue trigger answer.lane answer.observations)
  drain

/-- The status a turn is settled with when it was left by an exception. -/
def leftWith (status : String) (e : Raised) : String :=
  if e = .cancelledError then "cancelled" else status

/-- `_run_turn`: answer one mention, or record why it was not answered. -/
def runTurn (sv : RoomSupervisor) (trigger : Trigger) : Call Unit := do
  let claim ← ask (.claim trigger)
  if !claim.granted then pure ()
  else
    (decide sv trigger).resume fun
      | .error e => do
        ask (.settle trigger (leftWith "failed" e))
        throw e
      | .ok answer =>
        (deliver trigger answer).resume fun
          | .error e => do
            ask (.settle trigger (leftWith answer.status e))
            throw e
          | .ok () => ask (.settle trigger answer.status)

/-- `_round`. -/
def round (sv : RoomSupervisor) : Call Unit := do
  drain
  let batch ← sync
  acceptInvites sv batch
  let baseline ← ask .isBaseline
  if baseline then ask (.recordBaseline batch)
  else do
    let triggers ← ask (.triggers batch)
    let _ ← each (runTurn sv) triggers
    ask (.commit batch)

end

end Bridge
end RepoMesh
