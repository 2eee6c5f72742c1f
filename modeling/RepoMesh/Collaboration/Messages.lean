/-
# Collaboration messages

`SendCollaborationMessage`: a command is authorized, routed to a room of the project's topology,
stored under its idempotency key with the fingerprint of the command, and handed to the messenger.
`CollaborationDeliveryRetryWorker` sends again what was stored as failed.
-/
import RepoMesh.Orchestration.Contracts
import RepoMesh.Foundation.Threads
import RepoMesh.Foundation.Keyed
import RepoMesh.Foundation.Sha256
import RepoMesh.Foundation.JsonCompact

namespace RepoMesh
namespace Collaboration

open Text
open Async (Prog)
open Delivery (UUID uuidStr)
open Orchestration (AgentRole AgentPrincipalStatus)

/-! ## Contracts -/

/-- What a message is for. -/
inductive CollaborationMessageKind where
  | taskAssignment | taskReport | question | answer | progress | decision
  deriving DecidableEq

/-- The wire value of a kind. -/
def CollaborationMessageKind.value : CollaborationMessageKind → String
  | .taskAssignment => "task_assignment"
  | .taskReport => "task_report"
  | .question => "question"
  | .answer => "answer"
  | .progress => "progress"
  | .decision => "decision"

/-- How far the delivery of a message has come. -/
inductive CollaborationDeliveryStatus where
  | pending | delivered | failed
  deriving DecidableEq

/-- `SendCollaborationMessageCommand`. -/
structure SendCollaborationMessageCommand where
  organizationId : UUID
  projectId : UUID
  senderAgentId : UUID
  recipientAgentId : UUID
  kind : CollaborationMessageKind
  subject : String
  body : String
  repositoryId : Option UUID := none
  taskId : Option UUID := none
  correlationId : Option UUID := none
  deriving DecidableEq

/-- `AgentPrincipalView`, as far as messages depend on it. -/
structure AgentPrincipalView where
  id : UUID
  organizationId : UUID
  role : AgentRole
  leaderAgentId : Option UUID
  repositoryId : Option UUID
  agentteamsResourceName : String
  status : AgentPrincipalStatus
  deriving DecidableEq

/-- `RepositoryTeamView`, as far as messages depend on it. -/
structure RepositoryTeamView where
  repositoryId : UUID
  leaderAgentId : UUID
  workerAgentIds : List UUID
  roomId : Option String
  leaderRoomId : Option String
  deriving DecidableEq

/-- `ProjectAgentTopologyView`, as far as messages depend on it. -/
structure ProjectAgentTopologyView where
  organizationId : UUID
  projectId : UUID
  organizationLeaderId : UUID
  repositoryTeams : List RepositoryTeamView
  deriving DecidableEq

/-- The exceptions of the calls; `other` stands for whatever else a port raises. -/
inductive CollaborationError where
  | valueError (message : String)
  | denied (message : String)
  | conflict (message : String)
  | routeUnavailable (message : String)
  | deliveryDeferred (messageId : UUID) (message : String)
  | other (message : String)
  deriving DecidableEq

/-- `str(error)`. -/
def CollaborationError.text : CollaborationError → String
  | .valueError message | .denied message | .conflict message | .routeUnavailable message
  | .deliveryDeferred _ message | .other message => message

/-- `isinstance(error, CollaborationRouteUnavailable)`: a deferred delivery is one, too. -/
def CollaborationError.isRouteUnavailable : CollaborationError → Bool
  | .routeUnavailable _ | .deliveryDeferred .. => true
  | _ => false

/-! ## Messages -/

/-- `CollaborationMessage`. Its three texts are required. -/
structure CollaborationMessage where
  organizationId : UUID
  projectId : UUID
  senderAgentId : UUID
  recipientAgentId : UUID
  kind : CollaborationMessageKind
  subject : String
  body : String
  roomId : String
  repositoryId : Option UUID
  taskId : Option UUID
  correlationId : UUID
  id : UUID
  status : CollaborationDeliveryStatus := .pending
  eventId : Option String := none
  worded : strip subject ≠ "" ∧ strip body ≠ "" ∧ strip roomId ≠ ""
  deriving DecidableEq

namespace CollaborationMessage

/-- `delivered`. -/
def delivered (message : CollaborationMessage) (eventId : String) :
    Except CollaborationError CollaborationMessage :=
  if strip eventId = "" then
    .error (.valueError "Matrix event_id is required for delivered messages")
  else .ok { message with status := .delivered, eventId := some (strip eventId) }

/-- `failed`. -/
def failed (message : CollaborationMessage) : CollaborationMessage :=
  { message with status := .failed }

/-- What a delivery does not change. -/
def frozen (message : CollaborationMessage) : CollaborationMessage :=
  { message with status := .pending, eventId := none }

@[simp] theorem frozen_id (message : CollaborationMessage) : message.frozen.id = message.id := rfl

end CollaborationMessage

/-! ## Authorization -/

/-- `_project_membership`: no team for the organization leader, the team of another member. -/
def projectMembership (profile : AgentPrincipalView) (organizationId projectId : UUID)
    (topology : ProjectAgentTopologyView) : Except String (Option RepositoryTeamView) :=
  if topology.projectId ≠ projectId then .error "project_topology_missing"
  else if topology.organizationId ≠ organizationId then .error "project_organization_mismatch"
  else if profile.id = topology.organizationLeaderId then .ok none
  else
    match topology.repositoryTeams.find? fun team =>
      profile.id == team.leaderAgentId || team.workerAgentIds.contains profile.id with
    | some team => .ok (some team)
    | none => .error "project_membership_denied"

/-- `_authorize_repository`, for an action that touches no code. -/
def authorizeRepository (profile : AgentPrincipalView) (repositoryId : UUID)
    (team : Option RepositoryTeamView) : Except String Unit :=
  if profile.role = .organizationLeader then .ok ()
  else if profile.repositoryId ≠ some repositoryId then .error "repository_mismatch"
  else if ∃ t ∈ team, t.repositoryId ≠ repositoryId then
    .error "project_repository_membership_denied"
  else .ok ()

/-- `_authorize_agent_reachability`. -/
def authorizeAgentReachability (profile : AgentPrincipalView) (target : UUID)
    (topology : ProjectAgentTopologyView) (team : Option RepositoryTeamView) :
    Except String Unit :=
  let allowed : List UUID :=
    match profile.role, team with
    | .organizationLeader, _ => topology.repositoryTeams.map (·.leaderAgentId)
    | .repositoryLeader, some team => topology.organizationLeaderId :: team.workerAgentIds
    | .worker, some team => [team.leaderAgentId]
    | _, none => []
  if target ∈ allowed then .ok () else .error "agent_reachability_denied"

/-- `authorize_agent` for `collaboration.message`, an action every role has. -/
def authorizeMessage (profile : AgentPrincipalView) (organizationId projectId : UUID)
    (repositoryId : Option UUID) (target : UUID) (topology : ProjectAgentTopologyView) :
    Except String Unit := do
  if profile.status ≠ .active then throw "agent_disabled"
  if profile.organizationId ≠ organizationId then throw "organization_mismatch"
  let team ← projectMembership profile organizationId projectId topology
  match repositoryId with
  | some repositoryId => authorizeRepository profile repositoryId team
  | none => pure ()
  authorizeAgentReachability profile target topology team

/-! ## Routing -/

/-- `_validate_message_direction`. -/
def validateMessageDirection (kind : CollaborationMessageKind)
    (sender recipient : AgentPrincipalView) : Except CollaborationError Unit := do
  let downward := recipient.leaderAgentId = some sender.id
  let upward := sender.leaderAgentId = some recipient.id
  if kind = .taskAssignment ∧ ¬ downward then
    throw (.denied "tasks can only be assigned to a direct subordinate")
  if kind ∈ [.taskReport, .progress, .question] ∧ ¬ upward then
    throw (.denied (kind.value ++ " must be sent to the direct leader"))
  if kind ∈ [.answer, .decision] ∧ ¬ downward then
    throw (.denied (kind.value ++ " must be sent to a direct subordinate"))
  if sender.role = .worker ∧ recipient.role = .worker then
    throw (.denied "workers cannot communicate directly")

/-- `_shared_team`: the first team both agents take part in; with the organization leader, only its
leader does. -/
def sharedTeam (senderId recipientId : UUID) (topology : ProjectAgentTopologyView) :
    Option RepositoryTeamView :=
  topology.repositoryTeams.find? fun team =>
    let participants := topology.organizationLeaderId :: team.leaderAgentId :: team.workerAgentIds
    let other := if senderId = topology.organizationLeaderId then recipientId else senderId
    participants.contains senderId && participants.contains recipientId &&
      !((senderId == topology.organizationLeaderId ||
        recipientId == topology.organizationLeaderId) && other != team.leaderAgentId)

/-- `_route`: the room and the repository of the shared team. -/
def route (sender recipient : AgentPrincipalView) (topology : ProjectAgentTopologyView) :
    Except CollaborationError (String × UUID) :=
  match sharedTeam sender.id recipient.id topology with
  | none => .error (.routeUnavailable "agents do not share a project route")
  | some team =>
    let room :=
      if sender.role = .organizationLeader ∨ recipient.role = .organizationLeader then
        team.leaderRoomId
      else team.roomId
    match room with
    | none => .error (.routeUnavailable "AgentTeams room is not ready")
    | some roomId =>
      if roomId = "" then .error (.routeUnavailable "AgentTeams room is not ready")
      else .ok (roomId, team.repositoryId)

/-! ## Texts -/

/-- A value that may be absent, as JSON. -/
def optionalId : Option UUID → Json
  | some id => .str (uuidStr id)
  | none => .null

/-- `asdict(command)`, as `json.dumps` writes it with `default=str`. -/
def SendCollaborationMessageCommand.document (c : SendCollaborationMessageCommand) : Json :=
  .obj [("organization_id", .str (uuidStr c.organizationId)),
    ("project_id", .str (uuidStr c.projectId)),
    ("sender_agent_id", .str (uuidStr c.senderAgentId)),
    ("recipient_agent_id", .str (uuidStr c.recipientAgentId)),
    ("kind", .str c.kind.value),
    ("subject", .str c.subject),
    ("body", .str c.body),
    ("repository_id", optionalId c.repositoryId),
    ("task_id", optionalId c.taskId),
    ("correlation_id", optionalId c.correlationId)]

/-- `hashlib.sha256(encoded).hexdigest()` of a document's dump, which is ASCII. -/
def digest (document : Json) : String := Sha256.hexdigest (document.dumps.map Char.toNat)

/-- `command_fingerprint`. -/
def commandFingerprint (command : SendCollaborationMessageCommand) : String :=
  "sha256:" ++ digest command.document

/-- The fields of `_wire_payload`. -/
def wireDocument (m : CollaborationMessage) : Json :=
  .obj [("schema", .str "repomesh.collaboration.v1"),
    ("message_id", .str (uuidStr m.id)),
    ("correlation_id", .str (uuidStr m.correlationId)),
    ("project_id", .str (uuidStr m.projectId)),
    ("repository_id", match m.repositoryId with
      | some id => .str (uuidStr id)
      | none => .str "None"),
    ("task_id", optionalId m.taskId),
    ("sender_agent_id", .str (uuidStr m.senderAgentId)),
    ("recipient_agent_id", .str (uuidStr m.recipientAgentId)),
    ("kind", .str m.kind.value),
    ("subject", .str m.subject),
    ("body", .str m.body)]

/-- `_wire_payload`. -/
def wirePayload (m : CollaborationMessage) : String :=
  String.ofList (Json.compactLayout.dumps (wireDocument m))

@[simp] theorem wirePayload_frozen (m : CollaborationMessage) :
    wirePayload m.frozen = wirePayload m := rfl

/-! ## Calls -/

/-- What `send_task` is given. -/
structure RoomTask where
  roomId : String
  body : String
  transactionId : String
  recipientResourceName : String
  recipientRole : AgentRole
  deriving DecidableEq

/-- The operations a call performs on its collaborators. -/
inductive CollaborationOp where
  | getByIdempotencyKey (key : String)
  | getAgent (agentId : UUID)
  | getTopology (projectId : UUID)
  | newId
  | add (message : CollaborationMessage) (key fingerprint : String)
  | sendTask (task : RoomTask)
  | update (message : CollaborationMessage)
  | listFailed
  deriving DecidableEq

/-- What they are answered with. -/
@[reducible] def CollaborationAnswer : CollaborationOp → Type
  | .getByIdempotencyKey _ => Option (CollaborationMessage × String)
  | .getAgent _ => Option AgentPrincipalView
  | .getTopology _ => Option ProjectAgentTopologyView
  | .newId => UUID
  | .add .. => Unit
  | .sendTask _ => String
  | .update _ => Unit
  | .listFailed => List (CollaborationMessage × String)

/-- A call of the module. -/
abbrev Call (α : Type) := Prog CollaborationAnswer CollaborationError α

/-- One operation of a call. -/
abbrev perform (op : CollaborationOp) : Call (CollaborationAnswer op) := Prog.perform op

namespace SendCollaborationMessage

/-- `_required_agent`. -/
def requiredAgent (agentId : UUID) : Call AgentPrincipalView := do
  let profile ← perform (.getAgent agentId)
  match profile with
  | none => throw (.denied ("agent does not exist: " ++ uuidStr agentId))
  | some profile =>
    if profile.status ≠ .active then throw (.denied "agent_disabled")
    else pure profile

/-- `_deliver`. -/
def deliver (message : CollaborationMessage) (transactionId : String) :
    Call CollaborationMessage := do
  let recipient ← requiredAgent message.recipientAgentId
  let delivered ← tryCatch
    (do
      let eventId ← perform (.sendTask
        { roomId := message.roomId
          body := wirePayload message
          transactionId := transactionId
          recipientResourceName := recipient.agentteamsResourceName
          recipientRole := recipient.role })
      Prog.lift (message.delivered eventId))
    fun error => do
      perform (.update message.failed)
      if error.isRouteUnavailable then throw (.deliveryDeferred message.id error.text)
      else throw error
  perform (.update delivered)
  pure delivered

/-- The message a command is stored as. -/
def toMessage (command : SendCollaborationMessageCommand) (sender : AgentPrincipalView)
    (recipient : AgentPrincipalView) (room : String × UUID) (id : UUID) :
    Except CollaborationError CollaborationMessage :=
  if h : strip (strip command.subject) ≠ "" ∧ strip (strip command.body) ≠ "" ∧
      strip room.1 ≠ "" then
    .ok
      { organizationId := command.organizationId
        projectId := command.projectId
        repositoryId := some room.2
        taskId := command.taskId
        senderAgentId := sender.id
        recipientAgentId := recipient.id
        kind := command.kind
        subject := strip command.subject
        body := strip command.body
        roomId := room.1
        correlationId := command.correlationId.getD (command.taskId.getD sender.id)
        id := id
        worded := h }
  else .error (.valueError "subject, body and room_id are required")

/-- `send` where no message is stored under the key: authorize, route, store and deliver. -/
def sendNew (command : SendCollaborationMessageCommand) (key : String) :
    Call CollaborationMessage := do
  let sender ← requiredAgent command.senderAgentId
  let recipient ← requiredAgent command.recipientAgentId
  let topology ← perform (.getTopology command.projectId)
  match topology with
  | none => throw (.denied "project topology does not exist")
  | some topology =>
    match authorizeMessage sender command.organizationId command.projectId command.repositoryId
      recipient.id topology with
    | .error reason => throw (.denied reason)
    | .ok () =>
      Prog.lift (validateMessageDirection command.kind sender recipient)
      let room ← Prog.lift (route sender recipient topology)
      if command.repositoryId ≠ none ∧ command.repositoryId ≠ some room.2 then
        throw (.denied "message repository does not match routed team")
      else
        let id ← perform .newId
        let message ← Prog.lift (toMessage command sender recipient room id)
        perform (.add message key (commandFingerprint command))
        deliver message key

/-- `send`, once the store has said what it holds under the key. -/
def sendFound (command : SendCollaborationMessageCommand) (key : String) :
    Option (CollaborationMessage × String) → Call CollaborationMessage
  | some (message, previousFingerprint) =>
    if commandFingerprint command ≠ previousFingerprint then
      throw (.conflict "idempotency key was used for a different collaboration message")
    else if message.status = .delivered then pure message
    else deliver message key
  | none => sendNew command key

/-- `send`. -/
def send (command : SendCollaborationMessageCommand) (idempotencyKey : String) :
    Call CollaborationMessage :=
  if strip idempotencyKey = "" then throw (.valueError "idempotency_key is required")
  else perform (.getByIdempotencyKey (strip idempotencyKey)) >>=
    sendFound command (strip idempotencyKey)

-- A call whose key is unknown must not be run by unification.
attribute [irreducible] send

end SendCollaborationMessage

namespace CollaborationDeliveryRetryWorker

/-- The command the worker rebuilds from a stored message. -/
def rebuilt (message : CollaborationMessage) : SendCollaborationMessageCommand :=
  { organizationId := message.organizationId
    projectId := message.projectId
    repositoryId := message.repositoryId
    taskId := message.taskId
    senderAgentId := message.senderAgentId
    recipientAgentId := message.recipientAgentId
    kind := message.kind
    subject := message.subject
    body := message.body
    correlationId := some message.correlationId }

@[simp] theorem rebuilt_frozen (message : CollaborationMessage) :
    rebuilt message.frozen = rebuilt message := rfl

/-- One failed message is sent again; an exception is logged and left. -/
def retry (failed : CollaborationMessage × String) : Call Unit :=
  tryCatch (do
    let _ ← SendCollaborationMessage.send (rebuilt failed.1) failed.2
    pure ()) fun _ => pure ()

/-- One round of `_run`. -/
def round : Call Unit := do
  let failed ← perform .listFailed
  let _ ← Prog.each retry failed
  pure ()

end CollaborationDeliveryRetryWorker

/-! ## The store -/

/-- A row of `collaboration.messages`. -/
structure MessageRow where
  message : CollaborationMessage
  key : String
  fingerprint : String
  deriving DecidableEq

/-- What a delivery does not change of a row. -/
def MessageRow.frozen (r : MessageRow) : MessageRow := { r with message := r.message.frozen }

/-- The table, and what the other collaborators answer. -/
structure CollaborationWorld where
  rows : List MessageRow
  agents : List AgentPrincipalView
  topologies : List ProjectAgentTopologyView
  messenger : RoomTask → Except CollaborationError String
  nextId : UUID

namespace PostgresCollaborationMessageStore

/-- `get_by_idempotency_key`. -/
def getByIdempotencyKey (rows : List MessageRow) (key : String) :
    Option (CollaborationMessage × String) :=
  (Keyed.find MessageRow.key rows key).map fun r => (r.message, r.fingerprint)

/-- `add`: the primary key and the unique idempotency key refuse a second row. -/
def add (rows : List MessageRow) (message : CollaborationMessage) (key fingerprint : String) :
    Except CollaborationError (List MessageRow) :=
  if ∃ r ∈ rows, r.message.id = message.id ∨ r.key = key then
    .error (.conflict "collaboration message already exists")
  else .ok (rows ++ [⟨message, key, fingerprint⟩])

/-- The status and the event of a row are written. -/
def written (message : CollaborationMessage) (r : MessageRow) : MessageRow :=
  { r with message := { r.message with status := message.status, eventId := message.eventId } }

/-- `update`. -/
def update (rows : List MessageRow) (message : CollaborationMessage) :
    Except CollaborationError (List MessageRow) :=
  if ∃ r ∈ rows, r.message.id = message.id then
    .ok (Keyed.write (·.message.id) rows message.id (written message))
  else .error (.conflict "collaboration message does not exist")

/-- `list_failed`, a hundred at most. -/
def listFailed (rows : List MessageRow) : List (CollaborationMessage × String) :=
  ((rows.filter fun r => r.message.status = .failed).take 100).map fun r => (r.message, r.key)

end PostgresCollaborationMessageStore

open PostgresCollaborationMessageStore in
/-- How the collaborators answer. A fresh identifier has 128 bits. -/
def serve : (op : CollaborationOp) → CollaborationWorld →
    Except CollaborationError (CollaborationAnswer op) × CollaborationWorld
  | .getByIdempotencyKey key, w => (.ok (getByIdempotencyKey w.rows key), w)
  | .getAgent agentId, w => (.ok (w.agents.find? fun a => a.id == agentId), w)
  | .getTopology projectId, w => (.ok (w.topologies.find? fun t => t.projectId == projectId), w)
  | .newId, w => (.ok (w.nextId % 2 ^ 128), w)
  | .add message key fingerprint, w =>
    match add w.rows message key fingerprint with
    | .ok rows => (.ok (), { w with rows := rows })
    | .error e => (.error e, w)
  | .sendTask task, w => (w.messenger task, w)
  | .update message, w =>
    match update w.rows message with
    | .ok rows => (.ok (), { w with rows := rows })
    | .error e => (.error e, w)
  | .listFailed, w => (.ok (listFailed w.rows), w)

end Collaboration
end RepoMesh
