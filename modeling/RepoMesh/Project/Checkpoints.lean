/-
# Human checkpoints

`ProjectCheckpointService`: a gate that asks for the latest decision on a checkpoint of a project or of
one repository, and files a review request where there is none for the evidence at hand; and the decision
on such a request, which is inserted first and then closes the request. Any number of both run at once,
each statement a transaction of its own.
-/
import RepoMesh.Foundation.Crew
import RepoMesh.Project.Topology

namespace RepoMesh
namespace Project

open Async (Prog)
open Delivery (UUID)
open Orchestration (CheckpointGateDecision)
open Text

/-! ## Contracts -/

/-- How much of a project people decide. -/
inductive ProjectExecutionMode where
  | auto | supervised | manualControlled
  deriving DecidableEq

/-- Where a project may stop for a person. -/
inductive ProjectCheckpoint where
  | repositoryScope | specification | execution | validation | delivery | exceptionEscalation
  deriving DecidableEq

/-- What a person decides. -/
inductive CheckpointDecisionKind where
  | approved | rejected | changesRequested
  deriving DecidableEq

/-- The text of a decision. -/
def CheckpointDecisionKind.value : CheckpointDecisionKind → String
  | .approved => "approved"
  | .rejected => "rejected"
  | .changesRequested => "changes_requested"

/-- Where a review request stands. -/
inductive HumanReviewStatus where
  | pending | approved | rejected | changesRequested
  deriving DecidableEq

/-- `HumanReviewStatus(decision.value)`. -/
def HumanReviewStatus.of : CheckpointDecisionKind → HumanReviewStatus
  | .approved => .approved
  | .rejected => .rejected
  | .changesRequested => .changesRequested

/-- What the checkpoint service reads of `ProjectAgentTopologyView`. -/
structure CheckpointTopology where
  organizationId : UUID
  projectId : UUID
  organizationLeaderId : UUID
  executionMode : ProjectExecutionMode
  requiredCheckpoints : List ProjectCheckpoint
  humanGrants : List HumanProjectGrant
  operationalStatus : ProjectOperationalStatus := .active
  deriving DecidableEq

/-- `_CHECKPOINT_LABELS`. -/
def ProjectCheckpoint.label : ProjectCheckpoint → String
  | .repositoryScope => "仓库修改范围"
  | .specification => "工程 Spec"
  | .execution => "任务执行"
  | .validation => "测试验证"
  | .delivery => "PR 交付"
  | .exceptionEscalation => "异常升级"

/-- What a decision is about: the evidence for a checkpoint, of a project or of one repository. -/
@[ext] structure ReviewSubject where
  projectId : UUID
  checkpoint : ProjectCheckpoint
  repositoryId : Option UUID
  evidenceVersion : String
  deriving DecidableEq

/-- `HumanReviewRequest`, with the checks of its `__post_init__`. -/
structure HumanReviewRequest where
  id : UUID
  subject : ReviewSubject
  title : String
  summary : String
  requestedByAgentId : Option UUID := none
  status : HumanReviewStatus := .pending
  resolvedByHumanId : Option UUID := none
  evidence_nonblank : isBlank subject.evidenceVersion = false
  title_nonblank : isBlank title = false

/-- `ProjectCheckpointDecision`, with the checks of its `__post_init__`. -/
structure ProjectCheckpointDecision where
  id : UUID
  reviewRequestId : UUID
  subject : ReviewSubject
  humanPrincipalId : UUID
  decision : CheckpointDecisionKind
  reason : String
  decidedAt : ℕ
  reason_nonblank : isBlank reason = false
  evidence_nonblank : isBlank subject.evidenceVersion = false

/-- The arguments of `evaluate`. -/
structure EvaluateCheckpoint where
  subject : ReviewSubject
  requestedByAgentId : Option UUID := none
  title : Option String := none
  summary : Option String := none
  deriving DecidableEq

/-- `RecordCheckpointDecisionCommand`. -/
structure RecordCheckpointDecisionCommand where
  projectId : UUID
  reviewRequestId : UUID
  humanPrincipalId : UUID
  decision : CheckpointDecisionKind
  reason : String
  actorIsAdmin : Bool := false
  deriving DecidableEq

/-! ## Policies -/

/-- `authorize_human` for an action on a repository: the reason for which it is refused. -/
def authorizeOn (topology : CheckpointTopology) (humanPrincipalId : UUID) (action : HumanControlAction)
    (repositoryId : Option UUID) : Except String Unit :=
  let grants := topology.humanGrants.filter fun item => item.humanPrincipalId == humanPrincipalId
  let inScope := grants.filter fun grant =>
    grant.repositoryId.isNone || grant.repositoryId == repositoryId
  if grants = [] then .error "human_project_membership_denied"
  else if inScope = [] then .error "human_repository_scope_denied"
  else if inScope.any fun grant =>
      grant.controlActions.contains action &&
        CodeAccessLevel.rank .none ≤ grant.codeAccess.rank then .ok ()
  else .error "human_grant_does_not_allow_request"

/-- `requires_human_checkpoint`. -/
def requiresHumanCheckpoint (topology : CheckpointTopology) (checkpoint : ProjectCheckpoint) : Bool :=
  if topology.executionMode = .auto then false
  else if checkpoint = .exceptionEscalation then true
  else topology.requiredCheckpoints.contains checkpoint

/-- The order in which the table answers the latest decision: one that nothing was decided after,
whichever of those it is. -/
structure LatestDecision where
  pick : List ProjectCheckpointDecision → Option ProjectCheckpointDecision
  isSome : ∀ decisions, decisions ≠ [] → (pick decisions).isSome
  mem : ∀ decisions decision, pick decisions = some decision → decision ∈ decisions
  latest : ∀ decisions decision, pick decisions = some decision →
    ∀ other ∈ decisions, other.decidedAt ≤ decision.decidedAt

/-! ## The calls -/

/-- What an evaluation answers. -/
abbrev GateResult := Except TopologyError CheckpointGateDecision

/-- What a decision answers. -/
abbrev RecordResult := Except TopologyError ProjectCheckpointDecision

/-- One await of a call. The last one of each hands the outcome to the caller. -/
inductive CheckpointOp where
  | topology (projectId : UUID)
  | latestDecision (projectId : UUID) (checkpoint : ProjectCheckpoint) (repositoryId : Option UUID)
  | newId
  | now
  | ensureReview (request : HumanReviewRequest)
  | reviewById (reviewRequestId : UUID)
  | addDecision (decision : ProjectCheckpointDecision)
  | resolvePending (reviewRequestId : UUID) (decision : CheckpointDecisionKind)
      (humanPrincipalId : UUID)
  | notify (topology : CheckpointTopology) (review : HumanReviewRequest)
      (decision : ProjectCheckpointDecision)
  | evaluated (request : EvaluateCheckpoint) (result : GateResult)
  | recorded (command : RecordCheckpointDecisionCommand) (result : RecordResult)

/-- What each operation answers. -/
@[reducible] def CheckpointOp.Answer : CheckpointOp → Type
  | .topology _ => Option CheckpointTopology
  | .latestDecision .. => Option ProjectCheckpointDecision
  | .newId => UUID
  | .now => ℕ
  | .reviewById _ => Option HumanReviewRequest
  | .resolvePending .. => Bool
  | .ensureReview _ | .addDecision _ | .notify .. | .evaluated .. | .recorded .. => Unit

/-- A call of the service. -/
abbrev CheckpointCall (α : Type) := Prog CheckpointOp.Answer TopologyError α

/-- `value or default`, for a text. -/
def orDefault (value : Option String) (default_ : String) : String :=
  match value with
  | some text => if text = "" then default_ else text
  | none => default_

/-- The review request that an evaluation files. -/
def reviewOf (request : EvaluateCheckpoint) (id : UUID) (title summary : String) :
    Except TopologyError HumanReviewRequest :=
  if hevidence : isBlank (strip request.subject.evidenceVersion) = false then
    if htitle : isBlank (orDefault request.title title) = false then
      .ok
        { id
          subject := { request.subject with evidenceVersion := strip request.subject.evidenceVersion }
          title := orDefault request.title title
          summary := orDefault request.summary summary
          requestedByAgentId := request.requestedByAgentId
          evidence_nonblank := hevidence
          title_nonblank := htitle }
    else .error (.violation "review title is required")
  else .error (.violation "review evidence version is required")

/-- A review request is filed, and the gate stays closed. -/
def askHuman (request : EvaluateCheckpoint) (title summary reason : String) :
    CheckpointCall CheckpointGateDecision := do
  let id ← Prog.perform CheckpointOp.newId
  let review ← Prog.lift (reviewOf request id title summary)
  Prog.perform (CheckpointOp.ensureReview review)
  pure ⟨false, reason⟩

/-- What the project itself says of the gate, before any decision is read. -/
def gateOfProject (topology : Option CheckpointTopology) (checkpoint : ProjectCheckpoint) :
    Option CheckpointGateDecision :=
  match topology with
  | none => some ⟨false, "project_topology_missing"⟩
  | some topology =>
    if topology.operationalStatus = .paused then some ⟨false, "project_paused"⟩
    else if topology.operationalStatus = .cancelled then some ⟨false, "project_cancelled"⟩
    else if requiresHumanCheckpoint topology checkpoint = false then
      some ⟨true, "human_checkpoint_not_required"⟩
    else none

/-- What the latest decision on the checkpoint says of the gate. -/
def gateOfDecision (request : EvaluateCheckpoint) :
    Option ProjectCheckpointDecision → CheckpointCall CheckpointGateDecision
  | none =>
    askHuman request (request.subject.checkpoint.label ++ "需要人工确认")
      "Agent 已到达人工控制检查点，后续受控操作已暂停。" "human_checkpoint_pending"
  | some decision =>
    if decision.subject.evidenceVersion ≠ strip request.subject.evidenceVersion then
      askHuman request (request.subject.checkpoint.label ++ "证据已更新")
        "Agent 在上次人工决定后更新了证据，需要重新确认。" "human_checkpoint_evidence_stale"
    else if decision.decision ≠ .approved then
      pure ⟨false, "human_checkpoint_" ++ decision.decision.value⟩
    else pure ⟨true, "human_checkpoint_approved"⟩

/-- The gate, once the project has been asked. -/
def gateFrom (request : EvaluateCheckpoint) :
    Option CheckpointGateDecision → CheckpointCall CheckpointGateDecision
  | some gate => pure gate
  | none => do
    gateOfDecision request (← Prog.perform (CheckpointOp.latestDecision request.subject.projectId
      request.subject.checkpoint request.subject.repositoryId))

/-- `evaluate`. -/
def evaluate (request : EvaluateCheckpoint) : CheckpointCall CheckpointGateDecision := do
  let topology ← Prog.perform (CheckpointOp.topology request.subject.projectId)
  gateFrom request (gateOfProject topology request.subject.checkpoint)

/-- The request that is decided, as it was read. -/
def reviewToDecide (command : RecordCheckpointDecisionCommand) (stored : Option HumanReviewRequest) :
    Except TopologyError HumanReviewRequest :=
  match stored with
  | none => .error (.violation "pending review request does not exist")
  | some review =>
    if review.subject.projectId ≠ command.projectId then
      .error (.violation "pending review request does not exist")
    else if review.status ≠ .pending then .error (.conflict "review request was already decided")
    else .ok review

/-- Whether the person may decide. A request whose checkpoint is no longer enabled is left to an
administrator where no grant covers it. -/
def authorizeDecision (topology : CheckpointTopology) (review : HumanReviewRequest)
    (command : RecordCheckpointDecisionCommand) : Except TopologyError Unit :=
  let action := if command.decision = .approved then HumanControlAction.approveCheckpoint
    else HumanControlAction.requestChanges
  match authorizeOn topology command.humanPrincipalId action review.subject.repositoryId with
  | .ok () => .ok ()
  | .error reason =>
    if requiresHumanCheckpoint topology review.subject.checkpoint then .error (.violation reason)
    else if command.actorIsAdmin then .ok ()
    else .error (.violation "checkpoint is not enabled for this project")

/-- The decision that is recorded. -/
def decisionOn (review : HumanReviewRequest) (command : RecordCheckpointDecisionCommand) (id : UUID)
    (now : ℕ) : Except TopologyError ProjectCheckpointDecision :=
  if hreason : isBlank (strip command.reason) = false then
    .ok
      { id
        reviewRequestId := review.id
        subject := { review.subject with projectId := command.projectId }
        humanPrincipalId := command.humanPrincipalId
        decision := command.decision
        reason := strip command.reason
        decidedAt := now
        reason_nonblank := hreason
        evidence_nonblank := review.evidence_nonblank }
  else .error (.violation "checkpoint decision reason is required")

/-- `_topologies.get_view(...)`, where a project has to have one. -/
def requireTopology : Option CheckpointTopology → Except TopologyError CheckpointTopology
  | none => .error (.violation "project topology does not exist")
  | some topology => .ok topology

/-- The notifier, for the checkpoint whose decisions it sends back. -/
def notifyDecision (notifies : Bool) (topology : CheckpointTopology) (review : HumanReviewRequest)
    (decision : ProjectCheckpointDecision) : CheckpointCall Unit :=
  if notifies ∧ review.subject.checkpoint = .exceptionEscalation then
    Prog.perform (CheckpointOp.notify topology review decision)
  else pure ()

/-- The decision is inserted first, then it closes the request. -/
def recordDecision (notifies : Bool) (command : RecordCheckpointDecisionCommand)
    (topology : CheckpointTopology) (review : HumanReviewRequest)
    (decision : ProjectCheckpointDecision) : CheckpointCall ProjectCheckpointDecision := do
  Prog.perform (CheckpointOp.addDecision decision)
  let resolved ← Prog.perform
    (CheckpointOp.resolvePending review.id command.decision command.humanPrincipalId)
  if resolved = false then throw (.conflict "review request was already decided")
  else do
    notifyDecision notifies topology review decision
    pure decision

/-- `record`, in a service with or without a notifier. -/
def record (notifies : Bool) (command : RecordCheckpointDecisionCommand) :
    CheckpointCall ProjectCheckpointDecision := do
  let topology ← Prog.lift (requireTopology (← Prog.perform (CheckpointOp.topology command.projectId)))
  let stored ← Prog.perform (CheckpointOp.reviewById command.reviewRequestId)
  let review ← Prog.lift (reviewToDecide command stored)
  Prog.lift (authorizeDecision topology review command)
  let id ← Prog.perform CheckpointOp.newId
  let now ← Prog.perform CheckpointOp.now
  recordDecision notifies command topology review
    (← Prog.lift (decisionOn review command id now))

/-- An evaluation as the service meets it: the outcome goes to its caller. -/
def serveEvaluate (request : EvaluateCheckpoint) : CheckpointCall Unit :=
  Prog.resume (evaluate request) fun result => Prog.perform (CheckpointOp.evaluated request result)

/-- A decision as the service meets it. -/
def serveRecord (notifies : Bool) (command : RecordCheckpointDecisionCommand) : CheckpointCall Unit :=
  Prog.resume (record notifies command) fun result =>
    Prog.perform (CheckpointOp.recorded command result)

/-! ## The tables -/

/-- What an evaluation has been shown so far: the project, and the decisions that were stored when it
asked for the latest. -/
structure Looked where
  topology : Option CheckpointTopology := none
  decisions : List ProjectCheckpointDecision := []

/-- An evaluation that was answered. -/
structure Evaluation where
  call : ℕ
  looked : Looked
  request : EvaluateCheckpoint
  result : GateResult

/-- A decision that was answered, and whether the notifier raised in it. -/
structure Recording where
  call : ℕ
  notifierRaised : Bool
  command : RecordCheckpointDecisionCommand
  result : RecordResult

/-- The tables, the clock, and what `uuid4` will draw. With every decision the number of the call that
recorded it is kept; `looked`, `notifierRaised`, `evaluations` and `recordings` tell what the calls have
seen and been answered; no call reads them. -/
structure CheckpointTables where
  topologies : UUID → Option CheckpointTopology
  reviews : List HumanReviewRequest := []
  decisions : List (ℕ × ProjectCheckpointDecision) := []
  uuid4 : ℕ → UUID
  drawn : ℕ := 0
  clock : ℕ := 0
  looked : ℕ → Looked := fun _ => {}
  notifierRaised : ℕ → Bool := fun _ => false
  evaluations : List Evaluation := []
  recordings : List Recording := []

/-- The decisions on a checkpoint, of a project or of one repository. -/
def decisionsOn (decisions : List ProjectCheckpointDecision) (projectId : UUID)
    (checkpoint : ProjectCheckpoint) (repositoryId : Option UUID) : List ProjectCheckpointDecision :=
  decisions.filter fun decision => decision.subject.projectId == projectId &&
    decision.subject.checkpoint == checkpoint && decision.subject.repositoryId == repositoryId

namespace CheckpointTables

/-- The decisions that are stored. -/
def stored (s : CheckpointTables) : List ProjectCheckpointDecision := s.decisions.map (·.2)

/-- Call `i` has been shown the project. -/
def shownProject (s : CheckpointTables) (i : ℕ) (topology : Option CheckpointTopology) :
    CheckpointTables :=
  { s with looked := Function.update s.looked i ⟨topology, (s.looked i).decisions⟩ }

/-- Call `i` has been shown the decisions. -/
def shownDecisions (s : CheckpointTables) (i : ℕ) : CheckpointTables :=
  { s with looked := Function.update s.looked i ⟨(s.looked i).topology, s.stored⟩ }

/-- `resolve_pending` of a request that is pending. -/
def resolve (s : CheckpointTables) (reviewRequestId : UUID) (decision : CheckpointDecisionKind)
    (humanPrincipalId : UUID) : CheckpointTables :=
  { s with
    reviews := s.reviews.map fun review =>
      if review.id = reviewRequestId then
        { review with
          status := .of decision
          resolvedByHumanId := some humanPrincipalId }
      else review }

end CheckpointTables

/-- How an operation of call `i` is answered. -/
def executeCheckpoint (rule : LatestDecision) (i : ℕ) :
    (op : CheckpointOp) → CheckpointTables → Except TopologyError op.Answer × CheckpointTables
  | .topology projectId, s =>
    (.ok (s.topologies projectId), s.shownProject i (s.topologies projectId))
  | .latestDecision projectId checkpoint repositoryId, s =>
    (.ok (rule.pick (decisionsOn s.stored projectId checkpoint repositoryId)), s.shownDecisions i)
  | .newId, s => (.ok (s.uuid4 s.drawn), { s with drawn := s.drawn + 1 })
  | .now, s => (.ok s.clock, s)
  | .ensureReview request, s =>
    if s.reviews.any fun review => review.subject == request.subject then (.ok (), s)
    else if s.reviews.any fun review => review.id == request.id then
      (.error (.unavailable "IntegrityError"), s)
    else (.ok (), { s with reviews := s.reviews ++ [request] })
  | .reviewById reviewRequestId, s =>
    (.ok (s.reviews.find? fun review => review.id == reviewRequestId), s)
  | .addDecision decision, s =>
    if s.stored.any fun other => other.reviewRequestId == decision.reviewRequestId ||
        other.id == decision.id then
      (.error (.conflict "review request was already decided"), s)
    else (.ok (), { s with decisions := s.decisions ++ [(i, decision)] })
  | .resolvePending reviewRequestId decision humanPrincipalId, s =>
    if s.reviews.any fun review => review.id == reviewRequestId && review.status == .pending then
      (.ok true, s.resolve reviewRequestId decision humanPrincipalId)
    else (.ok false, s)
  | .notify .., s => (.ok (), s)
  | .evaluated request result, s =>
    (.ok (), { s with evaluations := s.evaluations ++ [⟨i, s.looked i, request, result⟩] })
  | .recorded command result, s =>
    (.ok (), { s with recordings := s.recordings ++ [⟨i, s.notifierRaised i, command, result⟩] })

/-- What may happen to an operation: it is answered; another transaction files the same review request
between the look and the insertion; or the notifier raises. -/
inductive CheckpointExecutes (rule : LatestDecision) (i : ℕ) :
    (op : CheckpointOp) → CheckpointTables → Except TopologyError op.Answer → CheckpointTables → Prop
  | answered (op : CheckpointOp) (s : CheckpointTables) :
      CheckpointExecutes rule i op s (executeCheckpoint rule i op s).1 (executeCheckpoint rule i op s).2
  | filedMeanwhile (request : HumanReviewRequest) (s : CheckpointTables) :
      CheckpointExecutes rule i (.ensureReview request) s (.error (.unavailable "IntegrityError")) s
  | notifierRaises (topology : CheckpointTopology) (review : HumanReviewRequest)
      (decision : ProjectCheckpointDecision) (message : String) (s : CheckpointTables) :
      CheckpointExecutes rule i (.notify topology review decision) s (.error (.unavailable message))
        { s with notifierRaised := Function.update s.notifierRaised i true }

/-- What others do: projects are changed, the clock moves, and review requests are filed. -/
inductive OtherCheckpointWriters : CheckpointTables → CheckpointTables → Prop
  | projectsChanged (s : CheckpointTables) (topologies : UUID → Option CheckpointTopology) :
      OtherCheckpointWriters s { s with topologies }
  | clockMoves (s : CheckpointTables) (clock : ℕ) : OtherCheckpointWriters s { s with clock }
  | reviewFiled (s : CheckpointTables) (request : HumanReviewRequest)
      (hpending : request.status = .pending)
      (hsubject : ∀ review ∈ s.reviews, review.subject ≠ request.subject)
      (hid : ∀ review ∈ s.reviews, review.id ≠ request.id) :
      OtherCheckpointWriters s { s with reviews := s.reviews ++ [request] }

/-- Any number of evaluations and decisions at once. -/
def checkpointCrew (rule : LatestDecision) (notifies : Bool) :
    Async.Crew CheckpointOp.Answer TopologyError Unit CheckpointTables where
  Exec := CheckpointExecutes rule
  Starts := fun p => (∃ request, p = serveEvaluate request) ∨ ∃ command, p = serveRecord notifies command
  Environment := OtherCheckpointWriters

/-- Nothing has been asked or decided. -/
structure CheckpointTables.Undecided (s : CheckpointTables) : Prop where
  reviews : s.reviews = []
  decisions : s.decisions = []
  looked : ∀ i, s.looked i = {}
  notifierRaised : ∀ i, s.notifierRaised i = false
  evaluations : s.evaluations = []
  recordings : s.recordings = []

end Project
end RepoMesh
