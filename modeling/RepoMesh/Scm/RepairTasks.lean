/-
# When a failing candidate gets its repair task

The creators choose assigner, parent, text and key; `assign` checks the parent's assignee and the
command's fingerprint. The module says for which parents and which evidence they agree.
-/
import RepoMesh.Orchestration.AssignRuns
import RepoMesh.Scm.Rework

namespace RepoMesh
namespace Scm

open Text
open Async (Prog)
open Async.Prog
open Delivery hiding Raised
open Orchestration

/-- A call of one of the three creators. -/
inductive RepairRequest where
  | failedCandidate (changeSet : ChangeSet) (repositoryId : UUID)
  | revertConflict (changeSet : ChangeSet) (action : RecoveryAction) (error : String)
  | branchConflict (changeSet : ChangeSet) (candidate : RepositoryDelivery)
      (case : DeliveryConflictCase)

namespace RepairRequest

/-- The ChangeSet the request is about. -/
def changeSet : RepairRequest → ChangeSet
  | failedCandidate cs _ | revertConflict cs _ _ | branchConflict cs _ _ => cs

/-- The repository to repair, where the request names one. -/
def repositoryId? : RepairRequest → Option UUID
  | failedCandidate _ repositoryId => some repositoryId
  | revertConflict _ action _ => action.repositoryId
  | branchConflict _ candidate _ => some candidate.repositoryId

/-- The candidate to repair. -/
def candidate? : RepairRequest → Option RepositoryDelivery
  | failedCandidate cs repositoryId => candidateOf cs repositoryId
  | revertConflict cs action _ => action.repositoryId.bind (candidateOf cs)
  | branchConflict _ candidate _ => some candidate

/-- The assignment the request leads to. -/
def command (r : RepairRequest) (candidate : RepositoryDelivery) (repositoryId leaderAgentId
    workerAgentId : UUID) : AssignTaskCommand :=
  match r with
  | failedCandidate cs _ =>
    ciReworkAssignment (ciReworkCommand cs candidate repositoryId leaderAgentId workerAgentId)
      (normalize candidate.commitSha)
  | revertConflict cs action error =>
    revertConflictAssignment cs action (some candidate) repositoryId error leaderAgentId
      workerAgentId
  | branchConflict cs _ case =>
    branchConflictAssignment cs candidate case leaderAgentId workerAgentId

/-- The key of the failed head, the recovery action or the conflict case. -/
def key (r : RepairRequest) (candidate : RepositoryDelivery) : String :=
  match r with
  | failedCandidate cs repositoryId =>
    ciReworkKey cs.id repositoryId (normalize candidate.commitSha)
  | revertConflict cs action _ => revertConflictKey cs.id action.id
  | branchConflict _ _ case => branchConflictKey case.id

/-- The origin of the repair task. -/
def origin : RepairRequest → TaskOrigin
  | failedCandidate _ _ | branchConflict _ _ _ => .rework
  | revertConflict _ _ _ => .planned

section Create

variable [Codecs]

/-- The creator the request calls. -/
def create : RepairRequest → Call UUID
  | failedCandidate cs repositoryId => createForFailedCandidate cs repositoryId
  | revertConflict cs action error => createForConflict cs action error
  | branchConflict cs candidate case => createForBranchConflict cs candidate case

end Create

/-! ## The assignment of a request -/

variable (r : RepairRequest) (candidate : RepositoryDelivery)
  (repositoryId leaderAgentId workerAgentId : UUID)

theorem command_agents :
    (r.command candidate repositoryId leaderAgentId workerAgentId).assignedByAgentId =
        leaderAgentId ∧
      (r.command candidate repositoryId leaderAgentId workerAgentId).assigneeAgentId =
        workerAgentId := by
  cases r <;> exact ⟨rfl, rfl⟩

theorem command_parentTaskId :
    (r.command candidate repositoryId leaderAgentId workerAgentId).parentTaskId =
      some candidate.taskId := by
  cases r <;> rfl

theorem command_scope (h : r.repositoryId? = some repositoryId)
    (hcandidate : r.candidate? = some candidate) :
    (r.command candidate repositoryId leaderAgentId workerAgentId).organizationId =
        r.changeSet.organizationId ∧
      (r.command candidate repositoryId leaderAgentId workerAgentId).projectId =
        r.changeSet.projectId ∧
      (r.command candidate repositoryId leaderAgentId workerAgentId).repositoryId =
        repositoryId := by
  cases r with
  | failedCandidate cs id => exact ⟨rfl, rfl, rfl⟩
  | revertConflict cs action error => exact ⟨rfl, rfl, rfl⟩
  | branchConflict cs c case =>
    obtain rfl := Option.some.inj hcandidate
    exact ⟨rfl, rfl, Option.some.inj h⟩

theorem command_texts :
    isBlank (strip (r.command candidate repositoryId leaderAgentId workerAgentId).title) = false ∧
      isBlank (strip (r.command candidate repositoryId leaderAgentId workerAgentId).instruction) =
        false ∧
      (r.command candidate repositoryId leaderAgentId workerAgentId).acceptance ≠ [] ∧
      ∀ item ∈ (r.command candidate repositoryId leaderAgentId workerAgentId).acceptance,
        isBlank (strip item) = false := by
  have hR : isSpace 'R' = false := by decide
  have hH : isSpace 'H' = false := by decide
  have he : isSpace 'e' = false := by decide
  cases r with
  | failedCandidate cs id =>
    refine ⟨isBlank_strip_of_mem (c := 'R') ?_ hR, isBlank_strip_of_mem (c := 'R') ?_ hR, ?_, ?_⟩
    · simp [command, ciReworkAssignment]
    · simp [command, ciReworkAssignment]
    · simp [command, ciReworkAssignment, ciReworkCommand]
    · intro item hitem
      refine isBlank_strip_of_mem (c := 'e') ?_ he
      simp only [command, ciReworkAssignment, ciReworkCommand, List.mem_cons, List.not_mem_nil,
        or_false] at hitem
      rcases hitem with rfl | rfl <;> exact mem_literal rfl (by simp)
  | revertConflict cs action error =>
    refine ⟨isBlank_strip_of_mem (c := 'R') ?_ hR, isBlank_strip_of_mem (c := 'R') ?_ hR, ?_, ?_⟩
    · simp [command, revertConflictAssignment]
    · simp [command, revertConflictAssignment]
    · simp [command, revertConflictAssignment]
    · intro item hitem
      refine isBlank_strip_of_mem (c := 'e') ?_ he
      simp only [command, revertConflictAssignment, List.mem_cons, List.not_mem_nil,
        or_false] at hitem
      rcases hitem with rfl | rfl <;> exact mem_literal rfl (by simp)
  | branchConflict cs c case =>
    refine ⟨isBlank_strip_of_mem (c := 'R') ?_ hR, isBlank_strip_of_mem (c := 'H') ?_ hH, ?_, ?_⟩
    · simp [command, branchConflictAssignment]
    · simp only [command, branchConflictAssignment, String.toList_append, List.mem_append]
      exact .inr (mem_literal rfl (by simp))
    · simp [command, branchConflictAssignment]
    · intro item hitem
      refine isBlank_strip_of_mem (c := 'e') ?_ he
      simp only [command, branchConflictAssignment, List.mem_cons, List.not_mem_nil,
        or_false] at hitem
      rcases hitem with rfl | rfl | rfl <;> exact mem_literal rfl (by simp)

theorem key_ne_blank : strip (r.key candidate) ≠ "" := by
  have hc : isSpace 'c' = false := by decide
  have hmem : 'c' ∈ (r.key candidate).toList := by
    cases r with
    | failedCandidate cs id =>
      unfold key ciReworkKey
      iterate 5 refine mem_toList_append ?_
      decide
    | revertConflict cs action error =>
      unfold key revertConflictKey
      iterate 3 refine mem_toList_append ?_
      decide
    | branchConflict cs c case =>
      unfold key branchConflictKey
      refine mem_toList_append ?_
      decide
  intro hempty
  have hstrip := mem_strip hmem hc
  rw [hempty] at hstrip
  cases hstrip

end RepairRequest

/-! ## Repair in a ready team -/

section Ready

variable [Codecs]

/-- The state a creator may rely on: the candidate comes from plan delivery, so it names the
repository's successful worker task under a leader task; the repository's team has an active
leader and that leader's active worker; the project gate is open; the team can be told about a
task of its workers; and `new_id` draws an unused identifier. -/
structure RepairReady (w : World) (r : RepairRequest) (candidate : RepositoryDelivery)
    (repositoryId : UUID) (topology : ProjectAgentTopologyView) (team : RepositoryTeamView)
    (leader worker : AgentPrincipalView) (parent leaderTask : Task) : Prop where
  repository : r.repositoryId? = some repositoryId
  candidate_found : r.candidate? = some candidate
  parent_found : w.getTask candidate.taskId = some parent
  parent_succeeded : parent.status = .succeeded
  parent_scope : parent.projectId = r.changeSet.projectId ∧ parent.repositoryId = repositoryId
  parent_child : parent.parentTaskId = some leaderTask.id
  leaderTask_found : w.getTask leaderTask.id = some leaderTask
  topology_view : w.ports.topology r.changeSet.projectId = .ok (some topology)
  organization : topology.organizationId = r.changeSet.organizationId
  team_found : topology.team repositoryId = some team
  worker_first : team.workerAgentIds.head? = some worker.id
  leader_view : w.ports.agent team.leaderAgentId = .ok (some leader)
  leader_id : leader.id = team.leaderAgentId
  leader_active : leader.status = .active
  leader_role : leader.role = .repositoryLeader
  leader_not_organization : leader.id ≠ topology.organizationLeaderId
  worker_view : w.ports.agent worker.id = .ok (some worker)
  worker_active : worker.status = .active
  worker_role : worker.role = .worker
  worker_leader : worker.leaderAgentId = some leader.id
  gate : ∃ reason, w.ports.operationalGate r.changeSet.projectId = .ok ⟨true, reason⟩
  announced : ∀ task key, task.projectId = r.changeSet.projectId →
    task.repositoryId = repositoryId → task.assigneeAgentId ∈ team.workerAgentIds →
      ((deliverTo task key none).run exec w).1 = .ok ()
  id_unused : w.getTask w.nextId = none

/-- The identifier of the task a call returns, and the world it leaves. -/
def taskIdOf (result : Except Raised Task × World) : Except Raised UUID × World :=
  (result.1.map (·.id), result.2)

variable {w : World} {r : RepairRequest} {candidate : RepositoryDelivery} {repositoryId : UUID}
  {topology : ProjectAgentTopologyView} {team : RepositoryTeamView}
  {leader worker : AgentPrincipalView} {parent leaderTask : Task}

namespace RepairReady

variable (h : RepairReady w r candidate repositoryId topology team leader worker parent leaderTask)

include h

theorem repairTeam_eq : repairTeam topology repositoryId = some (team, worker.id) := by
  simp [repairTeam, h.team_found, h.worker_first]

theorem worker_mem : worker.id ∈ team.workerAgentIds := List.mem_of_head? h.worker_first

theorem leader_ne_worker : leader.id ≠ worker.id := by
  intro hid
  have hview : w.ports.agent leader.id = .ok (some leader) := by
    rw [h.leader_id]
    exact h.leader_view
  rw [hid, h.worker_view] at hview
  have hrole := h.leader_role
  rw [← Option.some.inj (Except.ok.inj hview), h.worker_role] at hrole
  cases hrole

theorem create_run :
    r.create.run exec w =
      taskIdOf ((assign (r.command candidate repositoryId leader.id worker.id) (r.key candidate)
        r.origin true).run exec w) := by
  have hask : exec (.topology r.changeSet.projectId) w = (.ok (some topology), w) := by
    simp only [exec, answered, h.topology_view]
  have hlast : ∀ p : Call Task, (p >>= fun task => (pure task.id : Call UUID)).run exec w =
      taskIdOf (p.run exec w) := by
    intro p
    rw [run_bind]
    cases hp : p.run exec w with
    | mk result w' => cases result <;> rfl
  have hteam := h.repairTeam_eq
  have hrepository := h.repository
  have hcandidate := h.candidate_found
  rw [h.leader_id]
  cases r with
  | failedCandidate cs id =>
    simp only [RepairRequest.changeSet] at hask
    obtain rfl := Option.some.inj hrepository
    have hfound : candidateOf cs id = some candidate := hcandidate
    have hsha : isFullSha candidate.commitSha = true := candidate.shas_full.1
    show (createForFailedCandidate cs id).run exec w = _
    unfold createForFailedCandidate
    rw [hfound]
    dsimp only
    rw [run_perform_ok exec hask]
    dsimp only
    rw [hteam]
    dsimp only
    rw [hlast]
    unfold createCIRework
    rw [if_pos (by exact hsha)]
    rfl
  | revertConflict cs action error =>
    simp only [RepairRequest.changeSet] at hask
    have hid : action.repositoryId = some repositoryId := hrepository
    have hfound : candidateOf cs repositoryId = some candidate := by
      simpa [RepairRequest.candidate?, hid] using hcandidate
    show (createForConflict cs action error).run exec w = _
    unfold createForConflict
    rw [hid]
    dsimp only
    rw [run_perform_ok exec hask]
    dsimp only
    rw [hteam]
    dsimp only
    rw [hlast, hfound]
    rfl
  | branchConflict cs c case =>
    simp only [RepairRequest.changeSet] at hask
    obtain rfl := Option.some.inj hcandidate
    obtain rfl := Option.some.inj hrepository
    show (createForBranchConflict cs c case).run exec w = _
    unfold createForBranchConflict
    rw [run_perform_ok exec hask]
    dsimp only [Option.bind_some]
    rw [hteam]
    dsimp only
    rw [hlast]
    rfl

theorem admission : Admission w (r.command candidate repositoryId leader.id worker.id) leader worker
    topology := by
  obtain ⟨hassigner, hassignee⟩ := r.command_agents candidate repositoryId leader.id worker.id
  obtain ⟨horganization, hproject, hrepository⟩ :=
    r.command_scope candidate repositoryId leader.id worker.id h.repository h.candidate_found
  refine
    { assigner_view := ?_, assigner_id := hassigner.symm, assigner_active := h.leader_active
      assignee_view := ?_, assignee_id := hassignee.symm, assignee_active := h.worker_active
      subordinate := h.worker_leader, topology_view := ?_, organization := ?_, gate := ?_
      member := ?_ }
  · rw [hassigner, h.leader_id]
    exact h.leader_view
  · rw [hassignee]
    exact h.worker_view
  · rw [hproject]
    exact h.topology_view
  · rw [horganization]
    exact h.organization
  · rw [hproject]
    exact h.gate
  · rw [hrepository]
    have hmem : team ∈ topology.repositoryTeams := List.mem_of_find?_eq_some h.team_found
    have hteam : team.repositoryId = repositoryId := by simpa using List.find?_some h.team_found
    unfold validateMembership
    rw [if_neg h.leader_not_organization, if_pos]
    rw [List.any_eq_true]
    refine ⟨team, hmem, ?_⟩
    simp [hteam, h.leader_id, h.worker_mem]

/-- **What the parent decides.** -/
theorem checkAdmission_run :
    (checkAdmission (r.command candidate repositoryId leader.id worker.id)).run exec w =
      if parent.assigneeAgentId = leader.id then (.ok (leader, worker), w)
      else
        (.error (.taskDenied "only the parent task assignee can create a child task"), w) := by
  obtain ⟨-, hproject, hrepository⟩ :=
    r.command_scope candidate repositoryId leader.id worker.id h.repository h.candidate_found
  rw [run_checkAdmission h.admission (r.command_parentTaskId candidate repositoryId leader.id worker.id)
    h.parent_found]
  unfold validateParent
  by_cases hassignee : parent.assigneeAgentId = leader.id
  · rw [if_neg (not_not.mpr hassignee), if_pos hassignee, if_neg]
    · rfl
    · rw [hproject, hrepository, h.parent_scope.1, h.parent_scope.2]
      simp
  · rw [if_pos hassignee, if_neg hassignee]
    rfl

theorem create_run_refused (hfree : w.taskByKey (strip (r.key candidate)) = none)
    (hparent : parent.assigneeAgentId ≠ leader.id) :
    r.create.run exec w =
      (.error (.taskDenied "only the parent task assignee can create a child task"), w) := by
  have hadmission := h.checkAdmission_run
  rw [if_neg hparent] at hadmission
  rw [h.create_run, run_assign_free (r.key_ne_blank candidate) hfree]
  unfold assignNew
  rw [run_bind_error exec hadmission]
  rfl

theorem create_run_admitted (hfree : w.keyEntry (strip (r.key candidate)) = none)
    (hparent : parent.assigneeAgentId = leader.id) :
    ∃ task w', r.create.run exec w = (.ok task.id, w') ∧
      w'.taskByKey (strip (r.key candidate)) = some (task,
        commandFingerprint (r.command candidate repositoryId leader.id worker.id)) ∧
      task.projectId = r.changeSet.projectId ∧ task.repositoryId = repositoryId ∧
      task.assigneeAgentId = worker.id := by
  have hadmission := h.checkAdmission_run
  rw [if_pos hparent] at hadmission
  obtain ⟨htitle, hinstruction, hne, hacceptance⟩ :=
    r.command_texts candidate repositoryId leader.id worker.id
  obtain ⟨hassigner, hassignee⟩ := r.command_agents candidate repositoryId leader.id worker.id
  obtain ⟨-, hproject, hrepository⟩ :=
    r.command_scope candidate repositoryId leader.id worker.id h.repository h.candidate_found
  obtain ⟨task, htask⟩ := Task.create_isOk w.nextId
    { r.command candidate repositoryId leader.id worker.id with
      assignedByAgentId := leader.id, assigneeAgentId := worker.id }
    r.origin htitle hinstruction hne hacceptance h.leader_ne_worker
  obtain ⟨hid, -, -, -, htaskProject, htaskRepository, htaskAssignee, -, -, -⟩ :=
    Task.create_ok htask
  have hunused : ({ w with nextId := w.nextId + 1 } : World).getTask task.id = none := by
    rw [hid]
    exact h.id_unused
  obtain ⟨w', hadd⟩ : ∃ w', ({ w with nextId := w.nextId + 1 } : World).addTask task
      (strip (r.key candidate))
      (commandFingerprint (r.command candidate repositoryId leader.id worker.id)) = .ok w' := by
    refine ⟨_, if_neg ?_⟩
    rintro (hsome | hbound)
    · rw [hunused] at hsome
      cases hsome
    · obtain ⟨e, he, hkey⟩ := List.any_eq_true.mp hbound
      unfold World.keyEntry at hfree
      rw [Option.map_eq_none_iff, List.find?_eq_none] at hfree
      exact hfree e he hkey
  have hnone : w.taskByKey (strip (r.key candidate)) = none := by
    rw [World.taskByKey_eq, hfree]
    rfl
  have hports : w'.ports = w.ports := by
    obtain ⟨-, -, rfl⟩ := World.addTask_ok hadd
    rfl
  have htold : ((deliverTo task (strip (r.key candidate)) none).run exec w').1 = .ok () := by
    rw [(asksPorts_deliverTo task _ none).run_fst hports]
    refine h.announced task _ (htaskProject.trans hproject) (htaskRepository.trans hrepository) ?_
    rw [htaskAssignee]
    exact h.worker_mem
  refine ⟨task, w', ?_, ?_, htaskProject.trans hproject, htaskRepository.trans hrepository,
    htaskAssignee⟩
  · rw [h.create_run, run_assign_free (r.key_ne_blank candidate) hnone,
      run_assignNew hadmission htask hadd, if_pos rfl, htold]
    rfl
  · rw [World.taskByKey_eq, World.keyEntry_addTask hadd, if_pos rfl]
    simp [World.getTask_addTask hadd]

theorem create_run_bound {task : Task} {fingerprint : String}
    (hbound : w.taskByKey (strip (r.key candidate)) = some (task, fingerprint))
    (hproject : task.projectId = r.changeSet.projectId)
    (hrepository : task.repositoryId = repositoryId)
    (hassignee : task.assigneeAgentId ∈ team.workerAgentIds) :
    (r.create.run exec w).1 =
      if commandFingerprint (r.command candidate repositoryId leader.id worker.id) = fingerprint
      then .ok task.id
      else .error (.taskConflict "idempotency key was used for a different task") := by
  rw [h.create_run, run_assign_bound (r.key_ne_blank candidate) hbound]
  split
  · rw [if_pos rfl, h.announced task _ hproject hrepository hassignee]
    rfl
  · rfl

end RepairReady

/-- A later call asks about the same failed head, recovery action or conflict case: its key is
the same, and so are project and repository. -/
structure SameSubject (r r' : RepairRequest) (candidate candidate' : RepositoryDelivery) : Prop where
  key : r'.key candidate' = r.key candidate
  project : r'.changeSet.projectId = r.changeSet.projectId
  repository : r'.repositoryId? = r.repositoryId?

/-- **Repair tasks.** A first call for a candidate of plan delivery returns a task, and a later
call for the same subject returns that same task, exactly when the candidate's task is assigned
to the agent who leads the team and the later command has the fingerprint of the first. -/
theorem repair_task_iff {w' : World} {r' : RepairRequest} {candidate' : RepositoryDelivery}
    {repositoryId' : UUID} {topology' : ProjectAgentTopologyView} {team' : RepositoryTeamView}
    {leader' worker' : AgentPrincipalView} {parent' leaderTask' : Task}
    (hready : RepairReady w r candidate repositoryId topology team leader worker parent leaderTask)
    (hfirst : w.keyEntry (strip (r.key candidate)) = none)
    (hlater : (r.create.run exec w).2.Evolves w')
    (hready' : RepairReady w' r' candidate' repositoryId' topology' team' leader' worker' parent'
      leaderTask')
    (hsubject : SameSubject r r' candidate candidate')
    (hmember : worker.id ∈ team'.workerAgentIds) :
    (∃ taskId, (r.create.run exec w).1 = .ok taskId ∧ (r'.create.run exec w').1 = .ok taskId) ↔
      parent.assigneeAgentId = leader.id ∧
        commandFingerprint (r'.command candidate' repositoryId' leader'.id worker'.id) =
          commandFingerprint (r.command candidate repositoryId leader.id worker.id) := by
  by_cases hparent : parent.assigneeAgentId = leader.id
  · obtain ⟨task, w₁, hrun, hbound, hproject, hrepository, hassignee⟩ :=
      hready.create_run_admitted hfirst hparent
    rw [hrun] at hlater ⊢
    obtain ⟨task', hbound', hrow⟩ := hlater.taskByKey hbound
    have hsame : repositoryId' = repositoryId := by
      have hids := hsubject.repository
      rw [hready.repository, hready'.repository] at hids
      exact Option.some.inj hids
    have hlaterRun := hready'.create_run_bound (by rw [hsubject.key]; exact hbound')
      (by rw [hrow.projectId_eq, hproject, hsubject.project])
      (by rw [hrow.repositoryId_eq, hrepository, hsame])
      (by rw [hrow.assigneeAgentId_eq, hassignee]; exact hmember)
    rw [hlaterRun, hrow.id_eq]
    constructor
    · rintro ⟨taskId, -, hok⟩
      refine ⟨hparent, ?_⟩
      by_contra hfp
      rw [if_neg hfp] at hok
      cases hok
    · rintro ⟨-, hfp⟩
      exact ⟨task.id, rfl, if_pos hfp⟩
  · have hnone : w.taskByKey (strip (r.key candidate)) = none := by
      rw [World.taskByKey_eq, hfirst]
      rfl
    rw [hready.create_run_refused hnone hparent]
    constructor
    · rintro ⟨taskId, hok, -⟩
      cases hok
    · rintro ⟨hassigned, -⟩
      exact absurd hassigned hparent

end Ready

/-! ## A team with a failing candidate -/

/-- Organization leader 1, repository leader 2 and worker 3, project 2, repository 10. -/
def repairTopology : ProjectAgentTopologyView :=
  { organizationId := 1
    organizationLeaderId := 1
    repositoryTeams :=
      [{ repositoryId := 10
         leaderAgentId := 2
         workerAgentIds := [3]
         agentteamsTeamName := "team"
         roomId := some "!room" }] }

/-- The repository leader of `repairTopology`. -/
def repairLeader : AgentPrincipalView :=
  { id := 2
    role := .repositoryLeader
    leaderAgentId := some 1
    responsibilityPaths := []
    agentteamsResourceName := "leader"
    status := .active }

/-- The worker of `repairTopology`. -/
def repairWorker : AgentPrincipalView :=
  { id := 3
    role := .worker
    leaderAgentId := some 2
    responsibilityPaths := []
    agentteamsResourceName := "worker"
    status := .active }

/-- Collaborators that all answer, with one team. -/
def repairPorts : Ports :=
  { agent := fun id =>
      .ok (if id = 2 then some repairLeader else if id = 3 then some repairWorker else none)
    topology := fun projectId => .ok (if projectId = 2 then some repairTopology else none)
    operationalGate := fun _ => .ok ⟨true, "automatic_project"⟩
    evaluateCheckpoint := fun _ => .ok ⟨true, "automatic_project"⟩
    decompositionMode := fun _ _ => .ok .server
    publish := fun _ _ _ _ _ => .ok ⟨"task", "hash"⟩
    send := fun _ _ => .ok ()
    ensureApproved := fun _ _ _ _ => .ok ()
    databaseAutomation := fun _ => .ok ()
    onBatchDeliver := fun _ delivery => (.ok (), delivery) }

/-- The leader task of repository 10, and under it the worker task that succeeded. -/
def repairTask (id : UUID) (parentTaskId : Option UUID) (assigner assignee : UUID)
    (hne : assigner ≠ assignee) : Task :=
  { id
    organizationId := 1
    projectId := 2
    repositoryId := 10
    parentTaskId
    assignedByAgentId := assigner
    assigneeAgentId := assignee
    title := "Ship it"
    instruction := "Change the code"
    acceptance := ["It works"]
    status := .succeeded
    resultSummary := some "done"
    version := 3
    origin := .planned
    databaseChange := {}
    title_nonblank := Orchestration.shipIt_title
    instruction_nonblank := Orchestration.shipIt_instruction
    acceptance_ne_nil := Orchestration.shipIt_acceptance
    acceptance_nonblank := Orchestration.shipIt_criteria
    assigner_ne_assignee := hne }

/-- The state in which CI fails on the delivered candidate. -/
def repairWorld : World :=
  { tasks :=
      [repairTask 0 none 1 2 Orchestration.organization_ne_leader,
        repairTask 1 (some 0) 2 3 Orchestration.leader_ne_member]
    nextId := 2
    ports := repairPorts }

/-- The candidate that plan delivery made of the worker task, after a failed check. -/
def repairCandidate : RepositoryDelivery :=
  { sampleCandidate with
    taskId := 1
    status := .ciFailed
    ciChecks := [⟨"tests", "run-1", false, "two tests failed"⟩] }

/-- Its ChangeSet. -/
def repairChangeSet : ChangeSet :=
  { id := 0
    organizationId := 1
    projectId := 2
    createdByAgentId := 1
    title := "RepoMesh delivery"
    validationSnapshotId := none
    repositories := [repairCandidate]
    titled := by decide
    nonempty := by decide
    ids_nodup := by decide }

/-- The request that CI makes. -/
def repairRequest : RepairRequest := .failedCandidate repairChangeSet 10

theorem repairWorld_announced [Codecs] (task : Task) (key : String)
    (hproject : task.projectId = 2) (hrepository : task.repositoryId = 10)
    (hassignee : task.assigneeAgentId ∈ [3]) :
    ((deliverTo task key none).run exec repairWorld).1 = .ok () := by
  have hthree : task.assigneeAgentId = 3 := by simpa using hassignee
  have hagent : repairWorld.ports.agent task.assigneeAgentId = .ok (some repairWorker) := by
    rw [hthree]
    rfl
  have htopology : exec (.topology task.projectId) repairWorld =
      (.ok (some repairTopology), repairWorld) := by
    rw [hproject]
    rfl
  have hteam : readyTeam (some repairTopology) task =
      some (repairTopology.repositoryTeams.head (by decide), "!room") := by
    simp [readyTeam, repairTopology, hrepository, hthree]
  unfold deliverTo
  rw [run_bind_ok exec (run_requiredAgent hagent rfl),
    if_pos (show repairWorker.role = .worker from rfl), run_perform_ok exec htopology, hteam]
  rfl

theorem repairWorld_ready [Codecs] :
    RepairReady repairWorld repairRequest repairCandidate 10 repairTopology
      (repairTopology.repositoryTeams.head (by decide)) repairLeader repairWorker
      (repairTask 1 (some 0) 2 3 Orchestration.leader_ne_member)
      (repairTask 0 none 1 2 Orchestration.organization_ne_leader) where
  repository := rfl
  candidate_found := rfl
  parent_found := rfl
  parent_succeeded := rfl
  parent_scope := ⟨rfl, rfl⟩
  parent_child := rfl
  leaderTask_found := rfl
  topology_view := rfl
  organization := rfl
  team_found := rfl
  worker_first := rfl
  leader_view := rfl
  leader_id := rfl
  leader_active := rfl
  leader_role := rfl
  leader_not_organization := by decide
  worker_view := rfl
  worker_active := rfl
  worker_role := rfl
  worker_leader := rfl
  gate := ⟨_, rfl⟩
  announced := repairWorld_announced
  id_unused := rfl

/-- The failing candidate of `repairWorld` is as plan delivery made it, and its repair task is
denied. -/
theorem failing_candidate_denied :
    letI := proseCodecs
    RepairReady repairWorld repairRequest repairCandidate 10 repairTopology
        (repairTopology.repositoryTeams.head (by decide)) repairLeader repairWorker
        (repairTask 1 (some 0) 2 3 Orchestration.leader_ne_member)
        (repairTask 0 none 1 2 Orchestration.organization_ne_leader) ∧
      (repairRequest.create.run exec repairWorld).1 =
        .error (.taskDenied "only the parent task assignee can create a child task") := by
  let _ : Codecs := proseCodecs
  refine ⟨repairWorld_ready, ?_⟩
  rw [repairWorld_ready.create_run_refused rfl (by decide)]

/-- `repair_task_iff` where nothing happens between the two calls. -/
theorem repair_task_iff_repairWorld :
    letI := proseCodecs
    (∃ taskId, (repairRequest.create.run exec repairWorld).1 = .ok taskId ∧
        (repairRequest.create.run exec repairWorld).1 = .ok taskId) ↔
      (3 : UUID) = 2 ∧
        commandFingerprint (repairRequest.command repairCandidate 10 2 3) =
          commandFingerprint (repairRequest.command repairCandidate 10 2 3) := by
  let _ : Codecs := proseCodecs
  have hlater : (repairRequest.create.run exec repairWorld).2.Evolves repairWorld := by
    rw [repairWorld_ready.create_run_refused rfl (by decide)]
    exact .refl _
  exact repair_task_iff repairWorld_ready rfl hlater repairWorld_ready ⟨rfl, rfl, rfl⟩ (by decide)

end Scm
end RepoMesh
