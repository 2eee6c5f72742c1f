/-
# Project topologies

`ProjectAgentTopology`: the repository teams of a project, its human grants and its operational
status. Teams and topologies carry the checks of their `__post_init__`.
-/
import RepoMesh.Orchestration.Contracts
import RepoMesh.Foundation.Keyed

namespace RepoMesh
namespace Project

open Text
open Orchestration (TeamDecompositionMode)
open Delivery (UUID uuidStr)

/-! ## Contracts -/

/-- Whether a team runs. -/
inductive ProjectTeamRuntimeStatus where
  | pending | ready | failed
  deriving DecidableEq

/-- Whether the project runs. -/
inductive ProjectOperationalStatus where
  | active | paused | cancelled
  deriving DecidableEq

/-- What a person may be granted to do. -/
inductive HumanControlAction where
  | viewDecisions | approveCheckpoint | requestChanges | pauseProject | resumeProject
  | cancelProject | editSpecification
  deriving DecidableEq

/-- How far a person may reach into the code. -/
inductive CodeAccessLevel where
  | none | read | write
  deriving DecidableEq

/-- `_access_rank`. -/
def CodeAccessLevel.rank : CodeAccessLevel → ℕ
  | .none => 0
  | .read => 1
  | .write => 2

/-- `HumanProjectGrant`. -/
structure HumanProjectGrant where
  humanPrincipalId : UUID
  codeAccess : CodeAccessLevel
  controlActions : List HumanControlAction
  repositoryId : Option UUID := none
  deriving DecidableEq

/-- The exceptions of the topology calls; `unavailable` stands for whatever else a port raises. -/
inductive TopologyError where
  | violation (message : String)
  | conflict (message : String)
  | valueError (message : String)
  | unavailable (message : String)
  deriving DecidableEq

/-! ## Teams -/

/-- `RepositoryTeam`. -/
structure RepositoryTeam where
  id : UUID
  projectId : UUID
  repositoryId : UUID
  leaderAgentId : UUID
  workerAgentIds : List UUID
  agentteamsTeamName : String
  runtimeStatus : ProjectTeamRuntimeStatus := .pending
  roomId : Option String := none
  leaderRoomId : Option String := none
  decompositionMode : TeamDecompositionMode := .server
  workers_ne_nil : workerAgentIds ≠ []
  workers_nodup : workerAgentIds.Nodup
  leader_not_worker : leaderAgentId ∉ workerAgentIds
  deriving DecidableEq

namespace RepositoryTeam

/-- `canonical_agentteams_team_name`: the prefix, and the hexadecimal digits of the repository. -/
def canonicalAgentteamsTeamName (repositoryId : UUID) : String :=
  "repomesh-team-" ++ String.ofList (hexDigits 32 repositoryId)

/-- `with_runtime`. -/
def withRuntime (team : RepositoryTeam) (status : ProjectTeamRuntimeStatus)
    (roomId leaderRoomId : Option String) (agentteamsTeamName : String) : RepositoryTeam :=
  { team with
    runtimeStatus := status
    roomId := roomId
    leaderRoomId := leaderRoomId
    agentteamsTeamName := if agentteamsTeamName = "" then team.agentteamsTeamName
      else agentteamsTeamName }

/-- `with_adopted_leader`. -/
def withAdoptedLeader (team : RepositoryTeam) (external : Bool) : RepositoryTeam :=
  if external = false ∨ team.decompositionMode = .leader then team
  else { team with decompositionMode := .leader }

/-- The agents of a team. -/
def agents (team : RepositoryTeam) : List UUID := team.leaderAgentId :: team.workerAgentIds

@[simp] theorem withRuntime_repositoryId (team : RepositoryTeam) (status : ProjectTeamRuntimeStatus)
    (roomId leaderRoomId : Option String) (name : String) :
    (team.withRuntime status roomId leaderRoomId name).repositoryId = team.repositoryId := rfl

@[simp] theorem withRuntime_decompositionMode (team : RepositoryTeam)
    (status : ProjectTeamRuntimeStatus) (roomId leaderRoomId : Option String) (name : String) :
    (team.withRuntime status roomId leaderRoomId name).decompositionMode =
      team.decompositionMode := rfl

@[simp] theorem withAdoptedLeader_repositoryId (team : RepositoryTeam) (external : Bool) :
    (team.withAdoptedLeader external).repositoryId = team.repositoryId := by
  unfold withAdoptedLeader
  split <;> rfl

theorem withAdoptedLeader_leader {team : RepositoryTeam} (external : Bool)
    (h : team.decompositionMode = .leader) :
    (team.withAdoptedLeader external).decompositionMode = .leader := by
  unfold withAdoptedLeader
  rw [if_pos (.inr h)]
  exact h

end RepositoryTeam

/-! ## Topologies -/

/-- What the teams of a topology have to meet. -/
structure TeamsFit (projectId : UUID) (grants : List HumanProjectGrant)
    (teams : List RepositoryTeam) : Prop where
  ne_nil : teams ≠ []
  repositories_nodup : (teams.map (·.repositoryId)).Nodup
  agents_nodup : (teams.flatMap RepositoryTeam.agents).Nodup
  project_eq : ∀ team ∈ teams, team.projectId = projectId
  grants_known : ∀ grant ∈ grants, ∀ repositoryId, grant.repositoryId = some repositoryId →
    repositoryId ∈ teams.map (·.repositoryId)

/-- `ProjectAgentTopology`. -/
structure ProjectAgentTopology where
  id : UUID
  organizationId : UUID
  projectId : UUID
  organizationLeaderId : UUID
  repositoryTeams : List RepositoryTeam
  humanGrants : List HumanProjectGrant := []
  operationalStatus : ProjectOperationalStatus := .active
  fit : TeamsFit projectId humanGrants repositoryTeams

namespace ProjectAgentTopology

/-- The repositories of the project. -/
def repositories (t : ProjectAgentTopology) : List UUID := t.repositoryTeams.map (·.repositoryId)

/-- `with_operational_status`. -/
def withOperationalStatus (t : ProjectAgentTopology) (status : ProjectOperationalStatus) :
    Except TopologyError ProjectAgentTopology :=
  if t.operationalStatus = .cancelled ∧ status ≠ .cancelled then
    .error (.violation "cancelled project cannot be resumed")
  else .ok { t with operationalStatus := status }

/-- `ProjectAgentTopology(...)`, with the checks of `__post_init__` that read the teams. -/
def make (id organizationId projectId organizationLeaderId : UUID) (teams : List RepositoryTeam)
    (grants : List HumanProjectGrant) (status : ProjectOperationalStatus) :
    Except TopologyError ProjectAgentTopology :=
  if hne : teams ≠ [] then
    if hrepositories : (teams.map (·.repositoryId)).Nodup then
      if hagents : (teams.flatMap RepositoryTeam.agents).Nodup then
        if hproject : ∀ team ∈ teams, team.projectId = projectId then
          if hgrants : ∀ grant ∈ grants, ∀ repositoryId ∈ grant.repositoryId,
              repositoryId ∈ teams.map (·.repositoryId) then
            .ok
              { id
                organizationId
                projectId
                organizationLeaderId
                repositoryTeams := teams
                humanGrants := grants
                operationalStatus := status
                fit := ⟨hne, hrepositories, hagents, hproject, fun grant hgrant repositoryId hid =>
                  hgrants grant hgrant repositoryId hid⟩ }
          else .error (.violation "human grant references an unknown project repository")
        else .error (.violation "repository team project must match topology project")
      else .error (.violation "an agent cannot join multiple repository teams")
    else .error (.violation "a project can have only one team per repository")
  else .error (.violation "a project topology requires repository teams")

/-- `replace(topology, repository_teams=teams)`. -/
def replaceTeams (t : ProjectAgentTopology) (teams : List RepositoryTeam) :
    Except TopologyError ProjectAgentTopology :=
  make t.id t.organizationId t.projectId t.organizationLeaderId teams t.humanGrants
    t.operationalStatus

theorem withOperationalStatus_ok {t t' : ProjectAgentTopology} {status : ProjectOperationalStatus}
    (h : t.withOperationalStatus status = .ok t') :
    (t.operationalStatus = .cancelled → status = .cancelled) ∧
      t' = { t with operationalStatus := status } := by
  unfold withOperationalStatus at h
  split at h
  · cases h
  · rename_i hallowed
    refine ⟨fun hcancelled => ?_, (Except.ok.inj h).symm⟩
    by_contra hstatus
    exact hallowed ⟨hcancelled, hstatus⟩

theorem make_ok {id organizationId projectId organizationLeaderId : UUID}
    {teams : List RepositoryTeam} {grants : List HumanProjectGrant}
    {status : ProjectOperationalStatus} {t : ProjectAgentTopology}
    (h : make id organizationId projectId organizationLeaderId teams grants status = .ok t) :
    t.id = id ∧ t.repositoryTeams = teams ∧ t.operationalStatus = status := by
  unfold make at h
  split at h
  · split at h
    · split at h
      · split at h
        · split at h
          · obtain rfl := Except.ok.inj h
            exact ⟨rfl, rfl, rfl⟩
          · cases h
        · cases h
      · cases h
    · cases h
  · cases h

end ProjectAgentTopology

/-! ## Authorization -/

/-- `authorize_human` for an action, without a path: the reason for which it is refused. -/
def authorizeHuman (t : ProjectAgentTopology) (humanPrincipalId : UUID)
    (action : HumanControlAction) : Except String Unit :=
  let grants := t.humanGrants.filter fun item => item.humanPrincipalId == humanPrincipalId
  let inScope := grants.filter fun grant => grant.repositoryId.isNone
  if grants = [] then .error "human_project_membership_denied"
  else if inScope = [] then .error "human_repository_scope_denied"
  else if inScope.any fun grant =>
      grant.controlActions.contains action &&
        CodeAccessLevel.rank .none ≤ grant.codeAccess.rank then .ok ()
  else .error "human_grant_does_not_allow_request"

end Project
end RepoMesh
