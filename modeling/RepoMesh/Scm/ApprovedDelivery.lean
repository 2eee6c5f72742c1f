/-
# Which approved rounds can be delivered

A leader-approved round keeps every worker task of its plan and of its reworks; delivery asks for
the one that succeeded. The module says for which rounds the two agree.
-/
import RepoMesh.Scm.RepairTasks
import RepoMesh.Scm.PlanDelivery

namespace RepoMesh
namespace Scm

open Async (Prog)
open Async.Prog
open Delivery (UUID uuidStr RepositoryCandidateInput ContractView)
open Orchestration
open Text

/-- Exactly one worker task of the repository, over the plan and all its reworks, succeeded. -/
def HasUniqueSuccess (w : World) (leaderTaskId : UUID) : Prop :=
  (succeededTasks (w.tasksByParent leaderTaskId)).length = 1

instance (w : World) (leaderTaskId : UUID) : Decidable (HasUniqueSuccess w leaderTaskId) :=
  inferInstanceAs (Decidable (_ = _))

theorem run_successfulWorker {w : World} {repositoryId leaderTaskId : UUID} {worker : Task}
    (h : succeededTasks (w.tasksByParent leaderTaskId) = [worker]) :
    (successfulWorker repositoryId leaderTaskId).run exec w = (.ok worker, w) := by
  have hask : exec (.tasksByParent leaderTaskId) w = (.ok (w.tasksByParent leaderTaskId), w) := rfl
  unfold successfulWorker
  rw [run_perform_ok exec hask, h]
  rfl

theorem run_successfulWorker_refused {w : World} (repositoryId : UUID) {leaderTaskId : UUID}
    (h : ¬ HasUniqueSuccess w leaderTaskId) :
    ∃ e, (successfulWorker repositoryId leaderTaskId).run exec w = (.error e, w) := by
  have hask : exec (.tasksByParent leaderTaskId) w = (.ok (w.tasksByParent leaderTaskId), w) := rfl
  unfold successfulWorker
  rw [run_perform_ok exec hask]
  split
  · rename_i worker hone
    exact absurd (by rw [HasUniqueSuccess, hone]; rfl) h
  · exact ⟨_, rfl⟩

section Approved

variable [Codecs]

/-- Runner evidence that delivery can publish: full commit and base, an existing workspace, and
test results none of which was dropped as malformed. -/
def DeliverableEvidence (finalizer : PlanDeliveryFinalizer) (worker : Task) : Prop :=
  ∃ evidence, worker.evidence = some evidence ∧
    fullSha (lower (evidence.commitSha.getD "")) = true ∧
    fullSha (lower (evidence.baseSha.getD "")) = true ∧
    evidence.workspacePath.getD "" ≠ "" ∧
    finalizer.isDir (evidence.workspacePath.getD "") = true ∧
    evidence.testResults ≠ [] ∧
    rawTestCount worker = .ok evidence.testResults.length

/-- A repository of the batch whose leader approved the round, with deliverable evidence on each
worker task that succeeded. -/
structure ApprovedRound (w : World) (finalizer : PlanDeliveryFinalizer)
    (planned : PlannedRepositoryTask) (leaderTaskId : UUID) : Prop where
  assigned : planned.leaderTaskId = some leaderTaskId
  approved : ∃ a plan review, w.getAssignment leaderTaskId = some a ∧ a.phase = .closed ∧
    a.acceptedPlan = some plan ∧ a.acceptedReview a.reviewRevision = some review ∧
    review.verdict = .approve
  settled : ∃ task, w.getTask leaderTaskId = some task ∧ task.status = .succeeded
  evidence : ∀ worker ∈ w.tasksByParent leaderTaskId, worker.status = .succeeded →
    DeliverableEvidence finalizer worker

variable {w : World} {finalizer : PlanDeliveryFinalizer} (plan : ExecutionPlan)

theorem candidateOfWorker_ok {worker : Task} (h : DeliverableEvidence finalizer worker)
    (earlier : List UUID) (repositoryId : UUID) (gathered : BatchCandidates) :
    ∃ gathered' candidate, candidateOfWorker finalizer plan earlier repositoryId worker gathered =
        .ok gathered' ∧
      gathered'.candidates = gathered.candidates ++ [candidate] ∧
      candidate.repositoryId = repositoryId := by
  obtain ⟨evidence, hevidence, hcommit, hbase, hpath, hdir, htests, hcount⟩ := h
  unfold candidateOfWorker
  rw [hevidence]
  dsimp only
  rw [if_neg (by simp [hcommit, hbase]), if_neg (by simp [hpath, hdir]), hcount]
  dsimp only
  rw [if_neg htests, if_neg (not_not.mpr rfl)]
  exact ⟨_, _, rfl, rfl, rfl⟩

/-- **Loop, forward.** With a unique success everywhere the loop gathers a candidate for every
repository. -/
theorem run_gatherCandidates_ok {items : List PlannedRepositoryTask}
    (hround : ∀ planned ∈ items, ∃ id, ApprovedRound w finalizer planned id)
    (hunique : ∀ planned ∈ items, ∀ id, planned.leaderTaskId = some id → HasUniqueSuccess w id)
    (earlier : List UUID) (gathered : BatchCandidates) :
    ∃ result, (gatherCandidates finalizer plan items earlier gathered).run exec w =
        (.ok result, w) ∧
      (∀ c ∈ gathered.candidates, c ∈ result.candidates) ∧
      ∀ planned ∈ items, ∃ c ∈ result.candidates, c.repositoryId = planned.repositoryId := by
  induction items generalizing earlier gathered with
  | nil => exact ⟨gathered, rfl, fun c hc => hc, by simp⟩
  | cons planned rest ih =>
    obtain ⟨leaderTaskId, hthis⟩ := hround planned (by simp)
    obtain ⟨worker, hworker⟩ :=
      List.length_eq_one_iff.mp (hunique planned (by simp) leaderTaskId hthis.assigned)
    have hmem : worker ∈ w.tasksByParent leaderTaskId ∧ worker.status = .succeeded := by
      have hin : worker ∈ succeededTasks (w.tasksByParent leaderTaskId) := by simp [hworker]
      simpa [succeededTasks] using hin
    obtain ⟨gathered', candidate, hok, hcandidates, hrepository⟩ :=
      candidateOfWorker_ok plan (hthis.evidence worker hmem.1 hmem.2) earlier
        planned.repositoryId gathered
    obtain ⟨result, hrun, hkept, hall⟩ := ih (fun p hp => hround p (by simp [hp]))
      (fun p hp => hunique p (by simp [hp])) (earlier ++ [planned.repositoryId]) gathered'
    have hlift : (Prog.lift (candidateOfWorker finalizer plan earlier planned.repositoryId worker
        gathered) : Call BatchCandidates).run exec w = (.ok gathered', w) := by
      rw [run_lift, hok]
    refine ⟨result, ?_, fun c hc => hkept c (by simp [hcandidates, hc]), ?_⟩
    · unfold gatherCandidates
      rw [hthis.assigned]
      dsimp only
      rw [run_bind_ok exec (run_successfulWorker hworker), run_bind_ok exec hlift]
      exact hrun
    · intro p hp
      rcases List.mem_cons.mp hp with rfl | hp
      · exact ⟨candidate, hkept candidate (by simp [hcandidates]), hrepository⟩
      · exact hall p hp

/-- **Loop, backward.** One repository without a unique success refuses the whole batch. -/
theorem run_gatherCandidates_refused {items : List PlannedRepositoryTask}
    (hround : ∀ planned ∈ items, ∃ id, ApprovedRound w finalizer planned id)
    {planned : PlannedRepositoryTask} (hplanned : planned ∈ items) {leaderTaskId : UUID}
    (hassigned : planned.leaderTaskId = some leaderTaskId)
    (hnot : ¬ HasUniqueSuccess w leaderTaskId) (earlier : List UUID) (gathered : BatchCandidates) :
    ∃ e, (gatherCandidates finalizer plan items earlier gathered).run exec w = (.error e, w) := by
  induction items generalizing earlier gathered with
  | nil => cases hplanned
  | cons first rest ih =>
    obtain ⟨id, hfirst⟩ := hround first (by simp)
    unfold gatherCandidates
    rw [hfirst.assigned]
    dsimp only
    by_cases hunique : HasUniqueSuccess w id
    · obtain ⟨worker, hworker⟩ := List.length_eq_one_iff.mp hunique
      have hmem : worker ∈ w.tasksByParent id ∧ worker.status = .succeeded := by
        have hin : worker ∈ succeededTasks (w.tasksByParent id) := by simp [hworker]
        simpa [succeededTasks] using hin
      obtain ⟨gathered', -, hok, -, -⟩ :=
        candidateOfWorker_ok plan (hfirst.evidence worker hmem.1 hmem.2) earlier
          first.repositoryId gathered
      have hlift : (Prog.lift (candidateOfWorker finalizer plan earlier first.repositoryId worker
          gathered) : Call BatchCandidates).run exec w = (.ok gathered', w) := by
        rw [run_lift, hok]
      have hrest : planned ∈ rest := by
        rcases List.mem_cons.mp hplanned with rfl | hrest
        · rw [hfirst.assigned] at hassigned
          obtain rfl := Option.some.inj hassigned
          exact absurd hunique hnot
        · exact hrest
      rw [run_bind_ok exec (run_successfulWorker hworker), run_bind_ok exec hlift]
      exact ih (fun p hp => hround p (by simp [hp])) hrest _ _
    · obtain ⟨e, he⟩ := run_successfulWorker_refused first.repositoryId hunique
      exact ⟨e, run_bind_error exec he⟩

end Approved

/-! ## A round of two worker tasks -/

/-- A Runner document on disk. -/
def runnerDocument : Json :=
  .obj
    [("commitSha", .str "aaaaaaaaaaaaaaaaaaaaaaaaaaaaaaaaaaaaaaaa"),
      ("baseSha", .str "bbbbbbbbbbbbbbbbbbbbbbbbbbbbbbbbbbbbbbbb"),
      ("workspacePath", .str "/work"),
      ("testResults", .arr [.obj [("command", .str "pytest"), ("exitCode", .int 0)]])]

/-- Its text. -/
def runnerText : String :=
  "\x7b\"commitSha\": \"aaaaaaaaaaaaaaaaaaaaaaaaaaaaaaaaaaaaaaaa\", " ++
  "\"baseSha\": \"bbbbbbbbbbbbbbbbbbbbbbbbbbbbbbbbbbbbbbbb\", \"workspacePath\": \"/work\", " ++
  "\"testResults\": [\x7b\"command\": \"pytest\", \"exitCode\": 0\x7d]\x7d"

/-- Codecs that know this one document. -/
@[reducible] def runnerCodecs : Codecs :=
  { proseCodecs with jsonLoads := fun text => if text = runnerText then some runnerDocument else none }

/-- The worker task of one node, done. -/
def nodeTask (id : UUID) : Task :=
  { repairTask id (some 0) 2 3 Orchestration.leader_ne_member with resultSummary := some runnerText }

/-- The round that `nodeTasks` came from, approved. -/
def approvedAssignment (nodeTasks : List UUID) : LeaderAssignmentView :=
  { leaderTaskId := 0
    organizationId := 1
    projectId := 2
    repositoryId := 10
    leaderAgentId := 2
    phase := .closed
    safetyEnvelope := ⟨["src"], [], []⟩
    workerRoster := [⟨3, "worker", []⟩]
    acceptedPlan := some ⟨"sha256:plan", 1, nodeTasks, .null⟩
    acceptedReviews := [⟨"sha256:review", .approve, 1, .succeeded, []⟩] }

/-- The state after the leader approved a plan of these nodes. -/
def approvedWorld (nodeTasks : List UUID) : World :=
  { tasks := repairTask 0 none 1 2 Orchestration.organization_ne_leader :: nodeTasks.map nodeTask
    assignments := [approvedAssignment nodeTasks]
    nextId := 9
    ports := repairPorts }

/-- The plan, standing on the batch of the repository. -/
def approvedPlan : ExecutionPlan :=
  { id := 7
    organizationId := 1
    projectId := 2
    createdByAgentId := 1
    batches :=
      [[{ repositoryId := 10
          title := "Ship it"
          instruction := "Change the code"
          acceptance := ["It works"]
          leaderTaskId := some 0
          title_nonblank := Orchestration.shipIt_title
          instruction_nonblank := Orchestration.shipIt_instruction
          acceptance_ne_nil := Orchestration.shipIt_acceptance
          acceptance_nonblank := Orchestration.shipIt_criteria }]] }

/-- Delivery on a machine with the one workspace. -/
def approvedFinalizer : PlanDeliveryFinalizer :=
  { policy := {}
    isDir := fun path => path == "/work"
    contracts := none }

theorem nodeTask_deliverable (id : UUID) :
    letI := runnerCodecs
    DeliverableEvidence approvedFinalizer (nodeTask id) := by
  let _ : Codecs := runnerCodecs
  have hloads : Codecs.jsonLoads runnerText = some runnerDocument := if_pos rfl
  have hne : runnerText ≠ "" := by decide
  have htests : parseTestResults (runnerDocument.get "testResults") = [⟨"pytest", 0, ""⟩] := by
    decide
  have hresult : (nodeTask id).resultSummary = some runnerText := rfl
  have hraw : rawTestCount (nodeTask id) = .ok 1 := by
    unfold rawTestCount evidenceDocument
    rw [hresult]
    dsimp only
    rw [if_neg hne, hloads]
    rfl
  refine ⟨evidenceOfDocument runnerDocument, ?_, ?_, ?_, ?_, ?_, ?_, ?_⟩
  · unfold Task.evidence parseEvidence
    rw [hresult]
    dsimp only
    rw [if_neg hne, hloads]
    rfl
  · decide
  · decide
  · decide
  · decide
  · unfold evidenceOfDocument
    dsimp only
    rw [htests]
    decide
  · unfold evidenceOfDocument
    dsimp only
    rw [hraw, htests]
    rfl

theorem approvedWorld_round (nodeTasks : List UUID) :
    letI := runnerCodecs
    ∀ planned ∈ approvedPlan.batch 0,
      ∃ id, ApprovedRound (approvedWorld nodeTasks) approvedFinalizer planned id := by
  let _ : Codecs := runnerCodecs
  intro planned hplanned
  obtain rfl := List.mem_singleton.mp hplanned
  refine ⟨0, rfl, ⟨_, _, _, rfl, rfl, rfl, rfl, rfl⟩, ⟨_, rfl, rfl⟩, ?_⟩
  intro worker hworker hsucceeded
  obtain ⟨hmem, hparent⟩ := List.mem_filter.mp hworker
  rcases List.mem_cons.mp hmem with rfl | hmem
  · cases hparent
  · obtain ⟨id, -, rfl⟩ := List.mem_map.mp hmem
    exact nodeTask_deliverable id

end Scm
end RepoMesh
