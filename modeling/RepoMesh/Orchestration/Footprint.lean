/-
# Footprints

Which kinds of operation each orchestration call performs, whatever it is answered, and what a
call leaves alone for that reason.
-/
import RepoMesh.Orchestration.AssignRuns
import RepoMesh.Orchestration.LeaderReview

namespace RepoMesh
namespace Orchestration

open Async (Prog)
open Async.Prog
open Delivery (UUID uuidStr)

/-- What an operation does: ask, draw an identifier, or write one of the stores. -/
inductive OpKind where
  | ask | newId | addTask | updateTask | addPlan | updatePlan | ensureAssignment
  | saveAssignment | deliverBatch
  deriving DecidableEq

/-- The kind of an operation. -/
def Op.kind : Op → OpKind
  | .newId => .newId
  | .addTask .. => .addTask
  | .updateTask .. => .updateTask
  | .addPlan .. => .addPlan
  | .updatePlan .. => .updatePlan
  | .ensureAssignment _ => .ensureAssignment
  | .saveAssignment .. => .saveAssignment
  | .deliverBatch _ => .deliverBatch
  | _ => .ask

theorem Op.kind_eq_ask {op : Op} : op.kind = .ask ↔ op.isRead = true := by
  cases op <;> simp [Op.kind, Op.isRead]

/-- The call performs operations of these kinds only. -/
abbrev Within {α : Type} (kinds : List OpKind) (p : Call α) : Prop :=
  p.Only fun op => op.kind ∈ kinds

theorem Within.mono {α : Type} {kinds kinds' : List OpKind} {p : Call α} (h : Within kinds p)
    (hsub : kinds ⊆ kinds') : Within kinds' p :=
  Only.mono h fun _ hop => hsub hop

theorem Asks.within {α : Type} {kinds : List OpKind} {p : Call α} (h : Asks p)
    (hask : OpKind.ask ∈ kinds) : Within kinds p :=
  Only.mono h fun _ hop => by
    rw [Op.kind_eq_ask.mpr hop]
    exact hask

theorem within_perform {kinds : List OpKind} {op : Op} (kind : OpKind) (hkind : op.kind = kind)
    (h : kind ∈ kinds) : Within kinds (Prog.perform op) :=
  (only_perform op).mpr (hkind ▸ h)

theorem exec_assignments {op : Op} (h : op.kind ≠ .saveAssignment)
    (h' : op.kind ≠ .ensureAssignment) (w : World) :
    (exec op w).2.assignments = w.assignments := by
  cases op with
  | addTask task key fp =>
    simp only [exec, World.addTask]
    split <;> rfl
  | updateTask task v =>
    simp only [exec, World.updateTask]
    split
    · rfl
    · split <;> rfl
  | addPlan plan key =>
    simp only [exec, World.addPlan]
    split <;> rfl
  | updatePlan plan v =>
    simp only [exec, World.updatePlan]
    split
    · rfl
    · split <;> rfl
  | ensureAssignment a => exact absurd rfl h'
  | saveAssignment read new => exact absurd rfl h
  | _ => rfl

theorem Within.run_assignments {α : Type} {kinds : List OpKind} {p : Call α} (h : Within kinds p)
    (hsave : OpKind.saveAssignment ∉ kinds) (hensure : OpKind.ensureAssignment ∉ kinds)
    (w : World) : (p.run exec w).2.assignments = w.assignments := by
  refine Only.run_rel (R := fun w w' => w'.assignments = w.assignments) (fun _ => rfl)
    ?trans ?_ h w
  case trans => exact fun _ _ _ hab hbc => hbc.trans hab
  intro op s hop
  refine exec_assignments ?_ ?_ s
  · rintro hk
    exact hsave (hk ▸ hop)
  · rintro hk
    exact hensure (hk ▸ hop)

section Footprints

variable [Codecs]

/-! ## The orchestrator -/

theorem within_assign (command : AssignTaskCommand) (key : String) (origin : TaskOrigin)
    (deliver : Bool) : Within [.ask, .newId, .addTask] (assign command key origin deliver) := by
  unfold assign
  split
  · exact only_done _
  · refine only_bind (within_perform .ask rfl (by decide)) ?_
    rintro (_ | ⟨task, fingerprint⟩)
    · refine only_bind ((asks_checkAdmission command).within (by decide)) ?_
      rintro ⟨assigner, assignee⟩
      dsimp only
      refine only_bind (within_perform .newId rfl (by decide)) fun id => ?_
      refine only_bind (only_lift _) fun task => ?_
      refine only_bind (within_perform .addTask rfl (by decide)) fun _ => ?_
      split
      · exact only_bind ((asks_deliverTo _ _ _).within (by decide)) fun _ => only_done _
      · exact only_done _
    · dsimp only
      unfold assignReplay
      split
      · exact only_done _
      · split
        · exact only_bind ((asks_deliverTo _ _ _).within (by decide)) fun _ => only_done _
        · exact only_done _

theorem within_recordReport (task : Task) (command : ReportTaskCommand) :
    Within [.updateTask] (recordReport task command) := by
  unfold recordReport
  split
  · exact only_done _
  · split
    · exact only_done _
    · refine only_bind (only_lift _) fun updated => ?_
      split
      · exact only_done _
      · exact only_bind (within_perform .updateTask rfl (by decide)) fun _ => only_done _

theorem asksPorts_followReport (reporter : AgentPrincipalView) (task updated : Task)
    (command : ReportTaskCommand) (key : String) :
    AsksPorts (followReport reporter task updated command key) := by
  refine only_bind (only_tryCatch ((only_perform _).mpr rfl) fun e => ?_) fun _ => ?_
  · unfold ignoreDeferred
    split <;> exact only_done _
  refine only_bind ?_ fun _ => ?_
  · unfold escalateReport
    split
    · exact only_bind ((only_perform _).mpr rfl) fun _ => only_done _
    · exact only_done _
  · unfold requestValidation
    split
    · exact (only_perform _).mpr rfl
    · exact only_done _

theorem within_report (command : ReportTaskCommand) (key : String) :
    Within [.ask, .updateTask] (report command key) := by
  refine only_bind ((asks_requiredAgent _).within (by decide)) fun reporter => ?_
  refine only_bind ((asks_requiredTask _).within (by decide)) fun task => ?_
  split
  · exact only_done _
  · refine only_bind ((within_recordReport _ _).mono (by decide)) fun updated => ?_
    refine only_bind ((asksPorts_followReport _ _ _ _ _).asks.within (by decide)) fun _ => only_done _

/-! ## Decomposing and parking -/

omit [Codecs] in
theorem asks_repositoryTeam (projectId repositoryId : UUID) :
    Asks (repositoryTeam projectId repositoryId) := by
  refine only_bind ((only_perform _).mpr rfl) fun topology => ?_
  split <;> exact only_done _

omit [Codecs] in
theorem asks_activeWorker (agentId : UUID) : Asks (activeWorker agentId) := by
  refine only_bind ((only_perform _).mpr rfl) ?_
  rintro (_ | worker)
  · exact only_done _
  · dsimp only
    split <;> exact only_done _

omit [Codecs] in
theorem asks_ensureSpecification (workerTask : Task) (tests testPaths : List String)
    (key : String) : Asks (ensureSpecification workerTask tests testPaths key) :=
  only_bind (asks_activeWorker _) fun _ => (only_perform _).mpr rfl

omit [Codecs] in
theorem asks_workerRoster (team : RepositoryTeamView) : Asks (workerRoster team) := by
  unfold workerRoster
  split
  · exact only_done _
  · exact only_each fun _ _ => only_bind (asks_activeWorker _) fun _ => only_done _

omit [Codecs] in
theorem asks_decomposingTeam (task : Task) : Asks (decomposingTeam task) := by
  refine only_bind ((only_perform _).mpr rfl) ?_
  rintro (_ | leader)
  · exact only_done _
  · dsimp only
    split
    · exact only_done _
    · split
      · exact only_done _
      · refine only_bind (asks_repositoryTeam _ _) fun team => ?_
        split
        · exact only_done _
        · split <;> exact only_done _

theorem within_decompose (taskId : UUID) (key : String) (tests testPaths : List String) :
    Within [.ask, .newId, .addTask] (decompose taskId key tests testPaths) := by
  unfold decompose
  split
  · exact only_done _
  refine only_bind ((asks_requiredTask _).within (by decide)) fun task => ?_
  refine only_bind ((asks_decomposingTeam _).within (by decide)) fun workerAgentId => ?_
  refine only_bind (within_perform .ask rfl (by decide)) fun children => ?_
  refine only_bind (within_perform .ask rfl (by decide)) fun owned => ?_
  split
  · refine only_bind (only_each fun child _ => ?_) fun _ => only_done _
    exact (asks_ensureSpecification _ _ _ _).within (by decide)
  · unfold decomposeTo
    refine only_bind (within_assign _ _ _ _) fun workerTask => ?_
    refine only_bind ((asks_ensureSpecification _ _ _ _).within (by decide)) fun _ => ?_
    exact only_bind ((asks_deliverAssignment _).within (by decide)) fun _ => only_done _

omit [Codecs] in
theorem within_parkForLeader (plan : ExecutionPlan) (planned : PlannedRepositoryTask)
    (leaderTaskId : UUID) (team : RepositoryTeamView) (key : String) :
    Within [.ask, .ensureAssignment] (parkForLeader plan planned leaderTaskId team key) := by
  refine only_bind ((asks_workerRoster _).within (by decide)) fun roster => ?_
  refine only_bind (within_perform .ensureAssignment rfl (by decide)) fun _ => ?_
  exact within_perform .ask rfl (by decide)

/-! ## Rolling up -/

omit [Codecs] in
theorem asks_notifyReviewDue (parent : Task) (assignment : LeaderAssignmentView)
    (evidence : LeaderReviewEvidenceView) : Asks (notifyReviewDue parent assignment evidence) :=
  (only_perform _).mpr rfl

omit [Codecs] in
theorem within_settleRollUp (parent updated : Task) :
    Within [.ask, .updateTask] (settleRollUp parent updated) := by
  refine only_bind (only_tryCatch ?_ fun e => ?_) ?_
  · exact only_bind (within_perform .updateTask rfl (by decide)) fun _ => only_done _
  · split
    · exact only_bind (within_perform .ask rfl (by decide)) fun _ => only_done _
    · exact only_done _
  · rintro (_ | persisted) <;> exact only_done _

/-! ## Driving a plan -/

theorem within_assignBatch (plan : ExecutionPlan) (batchIndex : ℕ) (keyPrefix : String) :
    Within [.ask, .newId, .addTask, .updatePlan, .ensureAssignment]
      (assignBatch plan batchIndex keyPrefix) := by
  unfold assignBatch
  refine only_bind (only_each fun planned _ => ?_) fun leaders => ?_
  · unfold assignLeaderTask
    refine only_bind ((asks_repositoryTeam _ _).within (by decide)) fun team => ?_
    exact only_bind ((within_assign _ _ _ _).mono (by decide)) fun _ => only_done _
  refine only_bind (only_lift _) fun assigned => ?_
  refine only_bind (within_perform .updatePlan rfl (by decide)) fun _ => ?_
  refine only_bind (only_each fun item _ => ?_) fun _ => only_done _
  unfold expandLeaderTask
  refine only_bind (within_perform .ask rfl (by decide)) fun mode => ?_
  split
  · exact (within_parkForLeader _ _ _ _ _).mono (by decide)
  · exact only_bind ((within_decompose _ _ _ _).mono (by decide)) fun _ => only_done _

omit [Codecs] in
theorem within_settle (plan updated : ExecutionPlan) : Within [.updatePlan] (settle plan updated) := by
  refine only_tryCatch ?_ fun e => ?_
  · exact only_bind (within_perform .updatePlan rfl (by decide)) fun _ => only_done _
  · split <;> exact only_done _

omit [Codecs] in
theorem asks_allSucceeded (items : List PlannedRepositoryTask) : Asks (allSucceeded items) := by
  induction items with
  | nil => exact only_done _
  | cons planned rest ih =>
    unfold allSucceeded
    split
    · exact only_done _
    · refine only_bind ((only_perform _).mpr rfl) ?_
      rintro (_ | task)
      · exact only_done _
      · dsimp only
        split
        · exact ih
        · exact only_done _

omit [Codecs] in
theorem within_deliverBatch (plan : ExecutionPlan) :
    Within [.updatePlan, .deliverBatch] (deliverBatch plan) := by
  refine only_bind (only_tryCatch ?_ fun e => ?_) ?_
  · exact only_bind (within_perform .deliverBatch rfl (by decide)) fun _ => only_done _
  · split <;> exact only_done _
  rintro (_ | ⟨reason, repositoryId, taskId⟩)
  · dsimp only
    split
    · exact only_done _
    · refine only_bind ((within_settle _ _).mono (by decide)) fun moved => ?_
      split <;> exact only_done _
  · dsimp only
    split
    · exact only_done _
    · exact only_bind ((within_settle _ _).mono (by decide)) fun _ => only_done _

theorem within_leaveBatch (plan : ExecutionPlan) :
    Within [.ask, .newId, .addTask, .updatePlan, .ensureAssignment] (leaveBatch plan) := by
  unfold leaveBatch
  split
  · refine only_bind (only_lift _) fun completed => ?_
    exact only_bind ((within_settle _ _).mono (by decide)) fun _ => only_done _
  · refine only_bind (only_lift _) fun advanced => ?_
    refine only_bind ((within_settle _ _).mono (by decide)) fun moved => ?_
    split
    · exact only_bind (within_assignBatch _ _ _) fun _ => only_done _
    · exact only_done _

/-- The kinds of operation that drive a plan. -/
def planKinds : List OpKind :=
  [.ask, .newId, .addTask, .updatePlan, .ensureAssignment, .deliverBatch]

theorem within_advanceIfReady (deliveryAuto : Bool) (plan : ExecutionPlan) :
    Within planKinds (advanceIfReady deliveryAuto plan) := by
  refine only_bind ((asks_allSucceeded _).within (by decide)) fun succeeded => ?_
  split
  · split
    · refine only_bind ((within_deliverBatch _).mono (by decide)) ?_
      rintro (_ | delivered)
      · exact only_done _
      · refine only_bind ?_ fun merged => ?_
        · exact only_bind (within_perform .ask rfl (by decide)) fun _ => only_done _
        · split
          · exact (within_leaveBatch _).mono (by decide)
          · exact only_done _
    · exact (within_leaveBatch _).mono (by decide)
  · exact only_done _

theorem within_onLeaderTerminal (deliveryAuto : Bool) (leaderTask : Task) :
    Within planKinds (onLeaderTerminal deliveryAuto leaderTask) := by
  refine only_bind (within_perform .ask rfl (by decide)) ?_
  rintro (_ | plan)
  · exact only_done _
  · dsimp only
    split
    · exact only_done _
    · split
      · exact only_done _
      · split
        · refine only_bind (only_lift _) fun failed => ?_
          exact only_bind ((within_settle _ _).mono (by decide)) fun _ => only_done _
        · exact within_advanceIfReady _ _

/-! ## The leader lane -/

omit [Codecs] in
theorem asks_resolve (leaderTaskId callerAgentId : UUID) : Asks (resolve leaderTaskId callerAgentId) := by
  refine only_bind ((only_perform _).mpr rfl) fun caller => ?_
  split
  · refine only_bind ((only_perform _).mpr rfl) fun found => ?_
    refine only_bind ((only_perform _).mpr rfl) fun row => ?_
    split
    · split
      · exact only_done _
      · refine only_bind ((only_perform _).mpr rfl) fun mode => ?_
        split <;> exact only_done _
    · exact only_done _
  · exact only_done _

theorem within_dispatchRework (assignment : LeaderAssignmentView) (task : Task) (revision : ℕ)
    (item : (LeaderReviewFinding × String) × ℕ) :
    Within [.ask, .newId, .addTask] (dispatchRework assignment task revision item) := by
  unfold dispatchRework
  refine only_bind ?_ fun reviewed => ?_
  · unfold reviewedTask
    split
    · exact only_done _
    · refine only_bind (within_perform .ask rfl (by decide)) ?_
      rintro (_ | original) <;> exact only_done _
  obtain ⟨workerAgentId, original⟩ := reviewed
  dsimp only
  refine only_bind (within_assign _ _ _ _) fun workerTask => ?_
  refine only_bind ?_ fun _ => ?_
  · refine only_bind ((asks_activeWorker _).within (by decide)) fun _ => ?_
    exact within_perform .ask rfl (by decide)
  · exact only_bind ((asks_deliverAssignment _).within (by decide)) fun _ => only_done _

theorem within_createRework (assignment : LeaderAssignmentView) (task : Task)
    (decision : RepositoryReviewDecision) (revision : ℕ) :
    Within [.ask, .newId, .addTask] (createRework assignment task decision revision) :=
  only_each fun _ _ => within_dispatchRework _ _ _ _

theorem within_settleLeaderTask (leaderTaskId : UUID) (assignment : LeaderAssignmentView)
    (task : Task) (decision : RepositoryReviewDecision) (revision : ℕ) :
    Within [.ask, .updateTask] (settleLeaderTask leaderTaskId assignment task decision revision) := by
  unfold settleLeaderTask
  split
  · split <;> exact only_done _
  · exact only_bind (within_report _ _) fun _ => only_done _

end Footprints

end Orchestration
end RepoMesh
