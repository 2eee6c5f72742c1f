/-
# The projection of the decision chain

`DecisionChainProjectionService.drain` reads the oldest chain events that have no node yet, skips
those without an organization or project, and turns each other one into a node of its project's
chain. The payload of an event may be any JSON document, and what reading it raises ends the drain.
-/
import RepoMesh.Execution.UuidText
import RepoMesh.Foundation.JsonValues

namespace RepoMesh
namespace DecisionChain

open Delivery (UUID Instant uuidStr)
open Json (Fault)

/-- `CHAIN_EVENT_TYPES`. -/
inductive ChainEventType where
  | classificationDecided | confirmationDecided | integrationDecided | tasksPlanned
  | pullRequestObserved
  deriving DecidableEq

/-- `DecisionStep`. -/
inductive DecisionStep where
  | classification | confirmation | integration | task | pr
  deriving DecidableEq

/-- `DecisionStep.chain_order`. -/
def DecisionStep.chainOrder : DecisionStep → ℕ
  | classification => 0
  | confirmation => 1
  | integration => 2
  | task => 3
  | pr => 4

/-- `DecisionStatus`. -/
inductive DecisionStatus where
  | proposed | adjusted | confirmed | rejected | changesRequested | blocked | superseded | merged
  | closed
  deriving DecidableEq

/-- `NodeActor`. -/
structure NodeActor where
  type : String
  agentId : Option UUID
  deriving DecidableEq

/-- `EventEnvelope`, as far as the projection reads it. -/
structure EventEnvelope where
  eventId : UUID
  eventType : ChainEventType
  actorId : String
  payload : List (String × Json)
  occurredAt : Instant
  organizationId : Option UUID
  projectId : Option UUID

/-- `evidence_refs`. -/
structure EvidenceRefs where
  result : List Json
  process : List Json

/-- `DecisionNodeInput`. -/
structure DecisionNodeInput where
  eventId : UUID
  projectId : UUID
  organizationId : UUID
  step : DecisionStep
  status : DecisionStatus
  actor : NodeActor
  businessTime : Instant
  eventType : ChainEventType
  evidenceRefs : EvidenceRefs
  payloadSummary : List (String × Json)
  affectedRepositoryIds : List Json
  upstreamRefHint : Option UUID

/-- `DecisionNodeView`. -/
structure DecisionNodeView where
  decisionId : UUID
  eventId : UUID
  projectId : UUID
  organizationId : UUID
  step : DecisionStep
  version : ℕ
  status : DecisionStatus
  actor : NodeActor
  upstreamRef : Option UUID
  evidenceRefs : EvidenceRefs
  payloadSummary : List (String × Json)
  affectedRepositoryIds : List Json
  businessTime : Instant
  eventType : ChainEventType

/-- The nodes of all projects, in the order they were appended. -/
abbrev Chain : Type := List DecisionNodeView

/-! ## Reading an event -/

/-- `_as_uuid`. Only texts and integers have a `str` that is a UUID. -/
def asUuid : Json → Option UUID
  | .str s => (Execution.uuidOf s).map (·.value)
  | .int n => (Execution.uuidOf (toString n)).map (·.value)
  | _ => none

namespace EventEnvelope

variable (event : EventEnvelope)

/-- `event.payload.get(key, default)`. -/
def payloadOr (key : String) (default : Json) : Json :=
  ((Json.obj event.payload).get? key).getD default

/-- `_step_for`. -/
def step : DecisionStep :=
  match event.eventType with
  | .classificationDecided => .classification
  | .confirmationDecided => .confirmation
  | .integrationDecided => .integration
  | .tasksPlanned => .task
  | .pullRequestObserved => .pr

/-- The status of an approval's state. -/
def statusOf : Json → DecisionStatus
  | .str "approved" => .confirmed
  | .str "rejected" => .rejected
  | .str "changes_requested" => .changesRequested
  | _ => .proposed

/-- `_status_for`. -/
def status : Except Fault DecisionStatus :=
  match event.eventType with
  | .confirmationDecided => do
    let state ← (event.payloadOr "approval" (.obj [])).getOr "state" .null
    if state.hashable then .ok (statusOf state) else .error .typeError
  | _ => .ok .proposed

/-- `_actor_for`. -/
def actor : Except Fault NodeActor :=
  match event.eventType with
  | .pullRequestObserved => .ok ⟨"service", none⟩
  | .confirmationDecided => do
    let decidedBy ← (event.payloadOr "approval" (.obj [])).getOr "decided_by_agent_id" .null
    .ok ⟨"human", (asUuid decidedBy).or (asUuid (.str event.actorId))⟩
  | _ => .ok ⟨"llm", asUuid (.str event.actorId)⟩

/-- The evidence of an event, if there is any. -/
def resultRefs (evidence : Json) : EvidenceRefs :=
  ⟨if evidence.truthy then [evidence] else [], []⟩

/-- `_evidence_refs_for`. -/
def evidenceRefs : Except Fault EvidenceRefs :=
  match event.eventType with
  | .classificationDecided => do
    let evidence ← (event.payloadOr "classification" (.obj [])).getOr "evidence_version" .null
    .ok (resultRefs evidence)
  | .confirmationDecided => .ok (resultRefs (event.payloadOr "evidence_version" .null))
  | _ => .ok ⟨[], []⟩

/-- `list(value.get(key, []))`. -/
def listUnder (value : Json) (key : String) : Except Fault Json := do
  let items ← (← value.getOr key (.arr [])).listOf
  .ok (.arr items)

/-- `_payload_summary_for`. -/
def payloadSummary : Except Fault (List (String × Json)) :=
  let payload := Json.obj event.payload
  match event.eventType with
  | .classificationDecided => do
    let classification := event.payloadOr "classification" (.obj [])
    let required ← listUnder classification "required"
    let maybe ← listUnder classification "maybe"
    let excluded ← listUnder classification "excluded"
    let effective ← (← classification.getOr "effective_tiers" (.obj [])).dictOf
    let supplemented ← listUnder classification "supplemented_repository_ids"
    .ok [("required", required), ("maybe", maybe), ("excluded", excluded),
      ("effective_tiers", .obj effective), ("supplemented_repository_ids", supplemented)]
  | .confirmationDecided => do
    let approval ← (event.payloadOr "approval" (.obj [])).dictOf
    let adjustments ← listUnder payload "adjustments"
    .ok [("approval", .obj approval), ("adjustments", adjustments)]
  | .integrationDecided => do
    let batches ← listUnder payload "execution_batches"
    let contracts ← listUnder payload "contracts"
    .ok [("execution_batches", batches), ("contracts", contracts)]
  | .tasksPlanned => do
    let task := event.payloadOr "task" (.obj [])
    let taskId ← task.getOr "task_id" .null
    let repositoryId ← task.getOr "repository_id" .null
    let title ← task.getOr "title" .null
    let parent ← task.getOr "parent_task_id" .null
    .ok [("task_id", taskId), ("repository_id", repositoryId), ("title", title),
      ("parent_task_id", parent)]
  | .pullRequestObserved => do
    let taskIds ← listUnder payload "task_ids"
    .ok [("change_set_id", event.payloadOr "change_set_id" .null),
      ("repository_id", event.payloadOr "repository_id" .null),
      ("pull_request_number", event.payloadOr "pull_request_number" .null),
      ("pull_request_url", event.payloadOr "pull_request_url" .null), ("task_ids", taskIds)]

/-- `_affected_repositories_for`. -/
def affectedRepositories : Except Fault (List Json) :=
  (event.payloadOr "affected_repository_ids" (.arr [])).listOf

/-- `_upstream_ref_hint_for`. -/
def upstreamRefHint : Except Fault (Option UUID) :=
  match event.eventType with
  | .pullRequestObserved =>
    let taskIds := event.payloadOr "task_ids" (.arr [])
    if taskIds.truthy then do
      let first ← taskIds.item0
      .ok (asUuid first)
    else .ok none
  | _ => .ok none

end EventEnvelope

/-! ## The store -/

/-- `max(nodes, key=lambda n: n.version)`: the first of the newest. -/
def newest (nodes : List DecisionNodeView) : Option DecisionNodeView :=
  nodes.foldl (fun best n => match best with
    | none => some n
    | some b => if b.version < n.version then some n else some b) none

/-- `latest_node`. -/
def latestNode (chain : Chain) (projectId : UUID) (step : DecisionStep) : Option DecisionNodeView :=
  newest (chain.filter fun n => n.projectId = projectId && n.step = step)

/-- A node that a hint is for: by its own id, or by the task it names. -/
def isHinted (hint : UUID) (n : DecisionNodeView) : Bool :=
  n.decisionId = hint ||
    match (Json.obj n.payloadSummary).get? "task_id" with
    | some (.str s) => s = uuidStr hint
    | _ => false

/-- `resolve_chain_links`: the version and the `upstream_ref` of a node. -/
def resolveChainLinks (existing : List DecisionNodeView) (node : DecisionNodeInput) :
    ℕ × Option UUID :=
  let version := ((existing.filter fun n => n.step = node.step).map (·.version)).foldl max 0 + 1
  let hinted := node.upstreamRefHint.bind fun hint => existing.find? fun n =>
    n.step.chainOrder < node.step.chainOrder && isHinted hint n
  let previous := newest (existing.filter fun n => n.step.chainOrder + 1 = node.step.chainOrder)
  (version, if node.step.chainOrder = 0 then none else (hinted.or previous).map (·.decisionId))

/-- `append`. The `ids` are those that `uuid4` yields, one for each node. -/
def append (ids : ℕ → UUID) (chain : Chain) (node : DecisionNodeInput) : Chain :=
  if chain.any fun n => n.eventId = node.eventId then chain
  else
    let links := resolveChainLinks (chain.filter fun n => n.projectId = node.projectId) node
    chain ++ [{
      decisionId := ids chain.length, eventId := node.eventId, projectId := node.projectId
      organizationId := node.organizationId, step := node.step, version := links.1
      status := node.status, actor := node.actor, upstreamRef := links.2
      evidenceRefs := node.evidenceRefs, payloadSummary := node.payloadSummary
      affectedRepositoryIds := node.affectedRepositoryIds, businessTime := node.businessTime
      eventType := node.eventType }]

/-- `platform.audit_events`, as far as it holds chain events. -/
structure AuditLog where
  events : List EventEnvelope
  ids_nodup : (events.map (·.eventId)).Nodup

/-- `ORDER BY occurred_at, event_id`. -/
def isOlder (a b : EventEnvelope) : Bool :=
  a.occurredAt < b.occurredAt || (a.occurredAt = b.occurredAt && a.eventId ≤ b.eventId)

/-- The event has a node. -/
def isProjected (chain : Chain) (event : EventEnvelope) : Bool :=
  chain.any fun n => n.eventId = event.eventId

/-- `list_chain_events`. -/
def listChainEvents (log : AuditLog) (chain : Chain) (limit : ℕ) : List EventEnvelope :=
  ((log.events.filter fun e => !isProjected chain e).insertionSort fun a b => isOlder a b).take limit

/-! ## The projector -/

/-- One turn of the loop over the adjustments. -/
def adjust (effective : List (String × Json)) (adjustment : Json) :
    Except Fault (List (String × Json)) := do
  let repository ← adjustment.getOr "repository" .null
  let target ← adjustment.getOr "to" .null
  if repository.truthy && target.truthy then
    if repository.hashable then .ok (Json.store effective (repository.keyText, target))
    else .error .typeError
  else .ok effective

/-- `_with_effective_tiers`. -/
def withEffectiveTiers (chain : Chain) (event : EventEnvelope) (projectId : UUID)
    (payloadSummary : List (String × Json)) : Except Fault (List (String × Json)) :=
  match latestNode chain projectId .classification with
  | none => .ok payloadSummary
  | some classification => do
    let tiers ←
      (((Json.obj classification.payloadSummary).get? "effective_tiers").getD (.obj [])).dictOf
    let adjustments ← (event.payloadOr "adjustments" (.arr [])).listOf
    let effective ← adjustments.foldlM adjust tiers
    .ok (Json.store payloadSummary ("effective_tiers", .obj effective))

/-- `_project_node`. -/
def projectNode (chain : Chain) (event : EventEnvelope) (organizationId projectId : UUID) :
    Except Fault DecisionNodeInput := do
  let status ← event.status
  let actor ← event.actor
  let evidenceRefs ← event.evidenceRefs
  let summary ← event.payloadSummary
  let hint ← event.upstreamRefHint
  let payloadSummary ←
    if event.step = .confirmation then withEffectiveTiers chain event projectId summary
    else .ok summary
  let affected ← event.affectedRepositories
  .ok {
    eventId := event.eventId, projectId := projectId, organizationId := organizationId
    step := event.step, status := status, actor := actor, businessTime := event.occurredAt
    eventType := event.eventType, evidenceRefs := evidenceRefs, payloadSummary := payloadSummary
    affectedRepositoryIds := affected, upstreamRefHint := hint }

/-- The loop of `drain`: how many nodes it hands to the store or what it raises, and the chain that
is left. -/
def drainEvents (ids : ℕ → UUID) : List EventEnvelope → ℕ → Chain → Except Fault ℕ × Chain
  | [], projected, chain => (.ok projected, chain)
  | event :: events, projected, chain =>
    match event.organizationId, event.projectId with
    | some organizationId, some projectId =>
      match projectNode chain event organizationId projectId with
      | .error fault => (.error fault, chain)
      | .ok node => drainEvents ids events (projected + 1) (append ids chain node)
    | _, _ => drainEvents ids events projected chain

/-- `DecisionChainProjectionService.drain`. -/
def drain (ids : ℕ → UUID) (log : AuditLog) (limit : ℕ) (chain : Chain) : Except Fault ℕ × Chain :=
  drainEvents ids (listChainEvents log chain limit) 0 chain

/-- The chain after some drains. -/
def chainAfter (ids : ℕ → UUID) (log : AuditLog) (limit n : ℕ) : Chain :=
  (fun chain => (drain ids log limit chain).2)^[n] []

end DecisionChain
end RepoMesh
