/-
# Assigning without interruption

What `assign` and the calls it is made of answer when nothing happens between their awaits, and
what they ask without writing.
-/
import RepoMesh.Orchestration.Evolution
import RepoMesh.Orchestration.Orchestrator

namespace RepoMesh
namespace Orchestration

open Text
open Async (Prog)
open Async.Prog
open Delivery (UUID uuidStr)

/-! ## Calls that only ask -/

/-- The call only asks, whatever it is answered. -/
abbrev Asks {α : Type} (p : Call α) : Prop := p.Only fun op => op.isRead = true

theorem Asks.run_snd {α : Type} {p : Call α} (h : Asks p) (w : World) : (p.run exec w).2 = w :=
  Only.run_eq (fun op w hop => exec_of_isRead hop w) h w

/-- The call asks other modules only. -/
abbrev AsksPorts {α : Type} (p : Call α) : Prop := p.Only fun op => op.isPort = true

theorem AsksPorts.asks {α : Type} {p : Call α} (h : AsksPorts p) : Asks p :=
  Only.mono h fun _ hop => Op.isRead_of_isPort hop

theorem AsksPorts.run_fst {α : Type} {p : Call α} (h : AsksPorts p) {w w' : World}
    (hports : w.ports = w'.ports) : (p.run exec w).1 = (p.run exec w').1 := by
  refine Only.run_congr (R := fun w w' => w.ports = w'.ports) ?_ h hports
  intro op s t hop hst
  refine ⟨exec_of_isPort hop hst, ?_⟩
  rw [exec_of_isRead (Op.isRead_of_isPort hop), exec_of_isRead (Op.isRead_of_isPort hop)]
  exact hst

theorem asksPorts_requiredAgent (agentId : UUID) : AsksPorts (requiredAgent agentId) := by
  refine only_bind ((only_perform _).mpr rfl) ?_
  rintro (_ | profile)
  · exact only_done _
  · dsimp only
    split <;> exact only_done _

theorem asks_requiredAgent (agentId : UUID) : Asks (requiredAgent agentId) :=
  (asksPorts_requiredAgent agentId).asks

theorem asks_requiredTask (taskId : UUID) : Asks (requiredTask taskId) := by
  refine only_bind ((only_perform _).mpr rfl) ?_
  rintro (_ | task) <;> exact only_done _

theorem asks_requireParent (assignerId : UUID) (command : AssignTaskCommand) :
    Asks (requireParent assignerId command) := by
  unfold requireParent
  split
  · exact only_done _
  · refine only_bind ((only_perform _).mpr rfl) ?_
    rintro (_ | parent)
    · exact only_done _
    · exact only_lift _

theorem asks_checkAdmission (command : AssignTaskCommand) : Asks (checkAdmission command) := by
  refine only_bind (asks_requiredAgent _) fun assigner => ?_
  refine only_bind (asks_requiredAgent _) fun assignee => ?_
  split
  · exact only_done _
  · refine only_bind ((only_perform _).mpr rfl) ?_
    rintro (_ | topology)
    · exact only_done _
    · dsimp only
      split
      · exact only_done _
      · refine only_bind ((only_perform _).mpr rfl) fun gate => ?_
        split
        · exact only_done _
        · refine only_bind (only_lift _) fun _ => ?_
          exact only_bind (asks_requireParent _ _) fun _ => only_done _

/-! ## What they answer -/

theorem run_requiredAgent {w : World} {agentId : UUID} {v : AgentPrincipalView}
    (h : w.ports.agent agentId = .ok (some v)) (hactive : v.status = .active) :
    (requiredAgent agentId).run exec w = (.ok v, w) := by
  have hask : exec (.agent agentId) w = (.ok (some v), w) := by simp only [exec, answered, h]
  unfold requiredAgent
  rw [run_perform_ok exec hask]
  simp [hactive]

theorem run_requiredTask {w : World} {taskId : UUID} {t : Task} (h : w.getTask taskId = some t) :
    (requiredTask taskId).run exec w = (.ok t, w) := by
  have hask : exec (.getTask taskId) w = (.ok (some t), w) := by simp only [exec, answered, h]
  unfold requiredTask
  rw [run_perform_ok exec hask]
  rfl

/-- The directory, the topology and the gate admit the command: what is left to `assign` is the
condition on the parent task. -/
structure Admission (w : World) (command : AssignTaskCommand)
    (assigner assignee : AgentPrincipalView) (topology : ProjectAgentTopologyView) : Prop where
  assigner_view : w.ports.agent command.assignedByAgentId = .ok (some assigner)
  assigner_id : assigner.id = command.assignedByAgentId
  assigner_active : assigner.status = .active
  assignee_view : w.ports.agent command.assigneeAgentId = .ok (some assignee)
  assignee_id : assignee.id = command.assigneeAgentId
  assignee_active : assignee.status = .active
  subordinate : assignee.leaderAgentId = some assigner.id
  topology_view : w.ports.topology command.projectId = .ok (some topology)
  organization : topology.organizationId = command.organizationId
  gate : ∃ reason, w.ports.operationalGate command.projectId = .ok ⟨true, reason⟩
  member : validateMembership assigner assignee command.repositoryId topology = .ok ()

/-- **Admission.** An admitted command with a stored parent is refused exactly when the parent
refuses it. -/
theorem run_checkAdmission {w : World} {command : AssignTaskCommand} {assigner assignee : AgentPrincipalView}
    {topology : ProjectAgentTopologyView} (h : Admission w command assigner assignee topology)
    {parentTaskId : UUID} {parent : Task} (hparentId : command.parentTaskId = some parentTaskId)
    (hparent : w.getTask parentTaskId = some parent) :
    (checkAdmission command).run exec w =
      ((validateParent parent assigner.id command).map fun _ => (assigner, assignee), w) := by
  obtain ⟨reason, hgate⟩ := h.gate
  have htopology : exec (.topology command.projectId) w = (.ok (some topology), w) := by
    simp only [exec, answered, h.topology_view]
  have hasked : exec (.operationalGate command.projectId) w = (.ok ⟨true, reason⟩, w) := by
    simp only [exec, answered, hgate]
  have hmember : (Prog.lift (validateMembership assigner assignee command.repositoryId topology) :
      Call Unit).run exec w = (.ok (), w) := by
    rw [run_lift, h.member]
  have hrow : exec (.getTask parentTaskId) w = (.ok (some parent), w) := by
    simp only [exec, answered, hparent]
  have hrun : (requireParent assigner.id command).run exec w =
      (validateParent parent assigner.id command, w) := by
    unfold requireParent
    rw [hparentId]
    dsimp only
    rw [run_perform_ok exec hrow]
    rfl
  unfold checkAdmission
  rw [run_bind_ok exec (run_requiredAgent h.assigner_view h.assigner_active),
    run_bind_ok exec (run_requiredAgent h.assignee_view h.assignee_active),
    if_neg (by simp [h.subordinate]), run_perform_ok exec htopology]
  dsimp only
  rw [if_neg (by simp [h.organization]), run_perform_ok exec hasked, if_neg (by simp),
    run_bind_ok exec hmember, run_bind, hrun]
  cases validateParent parent assigner.id command <;> rfl

/-! ## Announcing and assigning -/

section Assign

variable [Codecs]

theorem asksPorts_deliverTo (task : Task) (key : String) (attempt : Option String) :
    AsksPorts (deliverTo task key attempt) := by
  refine only_bind (asksPorts_requiredAgent _) fun assignee => ?_
  split
  · refine only_bind ((only_perform _).mpr rfl) fun topology => ?_
    split
    · exact only_done _
    · refine only_bind ((only_perform _).mpr rfl) fun published => ?_
      exact (only_perform _).mpr rfl
  · exact (only_perform _).mpr rfl

theorem asks_deliverTo (task : Task) (key : String) (attempt : Option String) :
    Asks (deliverTo task key attempt) := (asksPorts_deliverTo task key attempt).asks

theorem asks_deliverAssignment (taskId : UUID) : Asks (deliverAssignment taskId) := by
  refine only_bind (asks_requiredTask _) fun task => ?_
  refine only_bind ((only_perform _).mpr rfl) ?_
  rintro (_ | key)
  · exact only_done _
  · exact asks_deliverTo _ _ _

theorem run_assignNew {w : World} {command : AssignTaskCommand} {key : String}
    {origin : TaskOrigin} {deliver : Bool} {assigner assignee : AgentPrincipalView} {task : Task}
    {w' : World} (hadmission : (checkAdmission command).run exec w = (.ok (assigner, assignee), w))
    (hcreate : Task.create w.nextId
      { command with assignedByAgentId := assigner.id, assigneeAgentId := assignee.id } origin =
        .ok task)
    (hadd : { w with nextId := w.nextId + 1 }.addTask task key (commandFingerprint command) =
      .ok w') :
    (assignNew command key origin deliver).run exec w =
      if deliver then
        ((((deliverTo task key none).run exec w').1).map fun _ => task, w')
      else (.ok task, w') := by
  have hid : exec .newId w = (.ok w.nextId, { w with nextId := w.nextId + 1 }) := rfl
  have htask : (Prog.lift (Task.create w.nextId
      { command with assignedByAgentId := assigner.id, assigneeAgentId := assignee.id } origin) :
        Call Task).run exec { w with nextId := w.nextId + 1 } =
          (.ok task, { w with nextId := w.nextId + 1 }) := by
    rw [run_lift, hcreate]
  have hrow : exec (.addTask task key (commandFingerprint command))
      { w with nextId := w.nextId + 1 } = (.ok (), w') := by
    simp only [exec, hadd, written_ok]
  unfold assignNew
  rw [run_bind_ok exec hadmission]
  dsimp only
  rw [run_perform_ok exec hid, run_bind_ok exec htask, run_perform_ok exec hrow]
  cases deliver with
  | false => rfl
  | true =>
    simp only [if_true]
    rw [run_bind]
    have hw := (asks_deliverTo task key none).run_snd w'
    cases hrun : (deliverTo task key none).run exec w' with
    | mk r w'' =>
      rw [hrun] at hw
      obtain rfl : w'' = w' := hw
      cases r <;> rfl

theorem run_assign_bound {w : World} {command : AssignTaskCommand} {idempotencyKey : String}
    {origin : TaskOrigin} {deliver : Bool} (hkey : strip idempotencyKey ≠ "") {task : Task}
    {fingerprint : String} (h : w.taskByKey (strip idempotencyKey) = some (task, fingerprint)) :
    (assign command idempotencyKey origin deliver).run exec w =
      if commandFingerprint command = fingerprint then
        if deliver then
          ((((deliverTo task (strip idempotencyKey) none).run exec w).1).map fun _ => task, w)
        else (.ok task, w)
      else (.error (.taskConflict "idempotency key was used for a different task"), w) := by
  have hask : exec (.taskByKey (strip idempotencyKey)) w = (.ok (some (task, fingerprint)), w) := by
    simp only [exec, answered, h]
  unfold assign
  rw [if_neg hkey, run_perform_ok exec hask]
  dsimp only
  unfold assignReplay
  by_cases hfp : commandFingerprint command = fingerprint
  · rw [if_neg (not_not.mpr hfp), if_pos hfp]
    cases deliver with
    | false => rfl
    | true =>
      simp only [if_true]
      rw [run_bind]
      have hw := (asks_deliverTo task (strip idempotencyKey) none).run_snd w
      cases hrun : (deliverTo task (strip idempotencyKey) none).run exec w with
      | mk r w'' =>
        rw [hrun] at hw
        obtain rfl : w'' = w := hw
        cases r <;> rfl
  · rw [if_pos hfp, if_neg hfp]
    rfl

theorem run_assign_free {w : World} {command : AssignTaskCommand} {idempotencyKey : String}
    {origin : TaskOrigin} {deliver : Bool} (hkey : strip idempotencyKey ≠ "")
    (h : w.taskByKey (strip idempotencyKey) = none) :
    (assign command idempotencyKey origin deliver).run exec w =
      (assignNew command (strip idempotencyKey) origin deliver).run exec w := by
  have hask : exec (.taskByKey (strip idempotencyKey)) w = (.ok none, w) := by
    simp only [exec, answered, h]
  unfold assign
  rw [if_neg hkey, run_perform_ok exec hask]

end Assign

end Orchestration
end RepoMesh
