/-
# Topology calls

`PostgresProjectTopologyStore` and its two writers: a person's control of the project, and the
reconciliation of its teams with the controller. Each reads the topology, and later saves it whole.
-/
import RepoMesh.Foundation.Threads
import RepoMesh.Project.Topology

namespace RepoMesh
namespace Project

open Text
open Async (Prog Threaded)
open Orchestration (AgentPrincipalView)
open Delivery (UUID uuidStr)

/-! ## The store -/

/-- `ProjectAgentTopologyRecord`, with the rows of its teams. -/
structure ProjectAgentTopologyRecord where
  id : UUID
  organizationId : UUID
  projectId : UUID
  organizationLeaderId : UUID
  humanGrants : List HumanProjectGrant
  operationalStatus : ProjectOperationalStatus
  teams : List RepositoryTeam
  deriving DecidableEq

namespace ProjectAgentTopologyRecord

/-- `_to_domain`, of the teams in the order of their repositories. -/
def toDomain (r : ProjectAgentTopologyRecord) : Except TopologyError ProjectAgentTopology :=
  ProjectAgentTopology.make r.id r.organizationId r.projectId r.organizationLeaderId
    (r.teams.insertionSort fun a b => a.repositoryId ≤ b.repositoryId) r.humanGrants
    r.operationalStatus

/-- What `save` writes: the status, and all teams. -/
def saved (r : ProjectAgentTopologyRecord) (topology : ProjectAgentTopology) :
    ProjectAgentTopologyRecord :=
  { r with
    operationalStatus := topology.operationalStatus
    teams := topology.repositoryTeams }

end ProjectAgentTopologyRecord

/-- The topology table. -/
abbrev TopologyRows := List ProjectAgentTopologyRecord

namespace TopologyRows

/-- `session.get(ProjectAgentTopologyRecord, id)`. -/
def find (rows : TopologyRows) (id : UUID) : Option ProjectAgentTopologyRecord :=
  Keyed.find (·.id) rows id

/-- `get`. -/
def get (rows : TopologyRows) (projectId : UUID) :
    Except TopologyError (Option ProjectAgentTopology) :=
  match Keyed.find (·.projectId) rows projectId with
  | none => .ok none
  | some record => record.toDomain.map some

/-- `save`. -/
def save (rows : TopologyRows) (topology : ProjectAgentTopology) :
    Except TopologyError TopologyRows :=
  match rows.find topology.id with
  | none => .error (.conflict "project topology does not exist")
  | some _ => .ok (Keyed.write (·.id) rows topology.id fun r => r.saved topology)

end TopologyRows

/-! ## Operations -/

/-- `TeamRole`. -/
inductive TeamRole where
  | leader | worker
  deriving DecidableEq

/-- `TeamProjection`. -/
structure TeamProjection where
  name : String
  members : List (String × TeamRole)
  description : String
  deriving DecidableEq

/-- `TeamRuntimeRef`. -/
structure TeamRuntimeRef where
  phase : String
  teamRoomId : Option String
  leaderRoomId : Option String
  deriving DecidableEq

/-- `WorkerRuntimeRef`: the team the controller has a worker in, and whether it owns its
container. -/
structure WorkerRuntimeRef where
  team : Option String
  containerManaged : Option Bool
  deriving DecidableEq

/-- Which call saves. -/
inductive TopologyWriter where
  | control | reconcile
  deriving DecidableEq

/-- One await of a topology call. A `save` names its caller, and the topology it read. -/
inductive TopologyOp where
  | get (projectId : UUID)
  | save (writer : TopologyWriter) (read topology : ProjectAgentTopology)
  | agent (agentId : UUID)
  | getWorker (name : String)
  | ensureTeam (projection : TeamProjection) (idempotencyKey : String)

/-- What it is answered. -/
@[reducible] def TopologyAnswer : TopologyOp → Type
  | .get _ => Option ProjectAgentTopology
  | .save .. => Unit
  | .agent _ => Option AgentPrincipalView
  | .getWorker _ => Option WorkerRuntimeRef
  | .ensureTeam .. => TeamRuntimeRef

/-- A call on a project topology. -/
abbrev TopologyCall (α : Type) := Prog TopologyAnswer TopologyError α

namespace TopologyCall

abbrev get (projectId : UUID) : TopologyCall (Option ProjectAgentTopology) :=
  Prog.perform (TopologyOp.get projectId)

abbrev save (writer : TopologyWriter) (read topology : ProjectAgentTopology) : TopologyCall Unit :=
  Prog.perform (TopologyOp.save writer read topology)

abbrev agent (agentId : UUID) : TopologyCall (Option AgentPrincipalView) :=
  Prog.perform (TopologyOp.agent agentId)

abbrev getWorker (name : String) : TopologyCall (Option WorkerRuntimeRef) :=
  Prog.perform (TopologyOp.getWorker name)

abbrev ensureTeam (projection : TeamProjection) (idempotencyKey : String) :
    TopologyCall TeamRuntimeRef :=
  Prog.perform (TopologyOp.ensureTeam projection idempotencyKey)

end TopologyCall

/-! ## `ProjectLifecycleService.control` -/

/-- `_STATUS_BY_ACTION`. -/
def statusByAction : HumanControlAction → Option ProjectOperationalStatus
  | .pauseProject => some .paused
  | .resumeProject => some .active
  | .cancelProject => some .cancelled
  | _ => none

/-- `control`, once the topology is read. -/
def controlRead (topology : ProjectAgentTopology) (humanPrincipalId : UUID)
    (action : HumanControlAction) (status : ProjectOperationalStatus) :
    TopologyCall ProjectAgentTopology :=
  match authorizeHuman topology humanPrincipalId action with
  | .error reason => throw (.violation reason)
  | .ok () => do
    let updated ← Prog.lift (topology.withOperationalStatus status)
    TopologyCall.save .control topology updated
    pure updated

/-- `control`. -/
def control (projectId humanPrincipalId : UUID) (action : HumanControlAction) :
    TopologyCall ProjectAgentTopology :=
  match statusByAction action with
  | none => throw (.violation "unsupported project lifecycle action")
  | some status => do
    match ← TopologyCall.get projectId with
    | none => throw (.violation "project topology does not exist")
    | some topology => controlRead topology humanPrincipalId action status

/-! ## `ReconcileProjectAgentTopology.execute` -/

/-- One member of a team projection. -/
def memberOf (member : UUID × TeamRole) : TopologyCall (String × TeamRole) := do
  match ← TopologyCall.agent member.1 with
  | none => throw (.violation ("agent binding does not exist: " ++ uuidStr member.1))
  | some principal => pure (principal.agentteamsResourceName, member.2)

/-- `_adopt_leader`: the name of the team, and whether its leader runs outside the cluster. -/
def adoptLeader (team : RepositoryTeam) (leader : String) : TopologyCall (String × Bool) := do
  let existing ← TopologyCall.getWorker leader
  let found := (existing.bind (·.team)).getD ""
  pure
    (if found = "" then RepositoryTeam.canonicalAgentteamsTeamName team.repositoryId else found,
      (existing.bind (·.containerManaged)) == some false)

/-- `TeamProjection(...)`, with the check of `__post_init__`; the leader is the one first member. -/
def teamProjection (name : String) (members : List (String × TeamRole)) (description : String) :
    Except TopologyError TeamProjection :=
  if (members.map (·.1)).Nodup then .ok { name, members, description }
  else .error (.valueError "AgentTeams team members must be unique")

/-- What the controller gave a team. -/
def projected (team : RepositoryTeam) (runtime : TeamRuntimeRef) (name : String)
    (external : Bool) : RepositoryTeam :=
  (team.withRuntime
    (if ["ready", "active", "running"].contains (lower runtime.phase) then .ready else .pending)
    runtime.teamRoomId runtime.leaderRoomId name).withAdoptedLeader external

/-- One team of the loop in `execute`. -/
def reconcileTeam (projectId : UUID) (team : RepositoryTeam) : TopologyCall RepositoryTeam := do
  let members ← Prog.each memberOf
    ((team.leaderAgentId, .leader) :: team.workerAgentIds.map fun worker => (worker, .worker))
  let (name, external) ← adoptLeader team ((members.head?.map (·.1)).getD "")
  let projection ← Prog.lift (teamProjection name members
    ("RepoMesh project " ++ uuidStr projectId ++ " repository " ++ uuidStr team.repositoryId))
  let runtime ← TopologyCall.ensureTeam projection
    ("project:" ++ uuidStr projectId ++ ":repository:" ++ uuidStr team.repositoryId ++ ":team")
  pure (projected team runtime name external)

/-- `execute`, once the topology is read. -/
def reconcileRead (projectId : UUID) (topology : ProjectAgentTopology) :
    TopologyCall ProjectAgentTopology := do
  match ← TopologyCall.agent topology.organizationLeaderId with
  | none => throw (.violation "organization leader binding does not exist")
  | some _ => do
    let teams ← Prog.each (reconcileTeam projectId) topology.repositoryTeams
    let reconciled ← Prog.lift (topology.replaceTeams teams)
    TopologyCall.save .reconcile topology reconciled
    pure reconciled

/-- `execute`. -/
def reconcile (projectId : UUID) : TopologyCall ProjectAgentTopology := do
  match ← TopologyCall.get projectId with
  | none => throw (.violation ("project topology does not exist: " ++ uuidStr projectId))
  | some topology => reconcileRead projectId topology

/-! ## The system -/

/-- How an operation is answered: the store as it does, a port as it likes; any may raise. -/
inductive TopologyExec : (op : TopologyOp) → TopologyRows →
    Except TopologyError (TopologyAnswer op) → TopologyRows → Prop
  | get {projectId rows} : TopologyExec (.get projectId) rows (rows.get projectId) rows
  | save {writer read topology rows rows'} (saved : rows.save topology = .ok rows') :
      TopologyExec (.save writer read topology) rows (.ok ()) rows'
  | agent {agentId rows} (r) : TopologyExec (.agent agentId) rows r rows
  | getWorker {name rows} (r) : TopologyExec (.getWorker name) rows r rows
  | ensureTeam {projection key rows} (r) : TopologyExec (.ensureTeam projection key) rows r rows
  | raises (op rows e) : TopologyExec op rows (.error e) rows

/-- Any number of control and reconcile calls, interleaved at their awaits, while topologies are
added. -/
def topologySystem : Threaded TopologyAnswer TopologyError ProjectAgentTopology TopologyRows where
  Exec := TopologyExec
  Starts p := (∃ projectId human action, p = control projectId human action) ∨
    ∃ projectId, p = reconcile projectId
  Environment rows rows' := ∃ record topology, rows.find record.id = none ∧
    record.toDomain = .ok topology ∧ rows' = rows ++ [record]

end Project
end RepoMesh
