/-
# Tasks

The task aggregate: what a task row holds, its four transitions, the evidence read off it and
the database gate on its result.
-/
import Mathlib.Data.List.Dedup
import Mathlib.Data.List.Sort
import RepoMesh.Orchestration.Evidence

namespace RepoMesh
namespace Orchestration

open Text
open Delivery (UUID uuidStr)

/-- `Task`, with the checks of its `__post_init__`. It stands for its `TaskView` too, whose
only further field is `Task.evidence`. -/
structure Task where
  id : UUID
  organizationId : UUID
  projectId : UUID
  repositoryId : UUID
  parentTaskId : Option UUID
  assignedByAgentId : UUID
  assigneeAgentId : UUID
  title : String
  instruction : String
  acceptance : List String
  status : TaskStatus
  resultSummary : Option String
  version : ℕ
  origin : TaskOrigin
  databaseChange : DatabaseChangeRequirement
  title_nonblank : isBlank title = false
  instruction_nonblank : isBlank instruction = false
  acceptance_ne_nil : acceptance ≠ []
  acceptance_nonblank : ∀ item ∈ acceptance, isBlank item = false
  assigner_ne_assignee : assignedByAgentId ≠ assigneeAgentId

theorem Task.eq_iff {a b : Task} : a = b ↔
    a.id = b.id ∧ a.organizationId = b.organizationId ∧ a.projectId = b.projectId ∧
    a.repositoryId = b.repositoryId ∧ a.parentTaskId = b.parentTaskId ∧ a.assignedByAgentId = b.assignedByAgentId ∧
    a.assigneeAgentId = b.assigneeAgentId ∧ a.title = b.title ∧ a.instruction = b.instruction ∧
    a.acceptance = b.acceptance ∧ a.status = b.status ∧ a.resultSummary = b.resultSummary ∧
    a.version = b.version ∧ a.origin = b.origin ∧ a.databaseChange = b.databaseChange := by
  cases a
  cases b
  simp only [Task.mk.injEq]

instance : DecidableEq Task := fun _ _ => decidable_of_iff' _ Task.eq_iff

/-! The texts and the agents of the tasks in the sample runs. -/

theorem shipIt_title : isBlank "Ship it" = false := by decide

theorem shipIt_instruction : isBlank "Change the code" = false := by decide

theorem shipIt_acceptance : ["It works"] ≠ [] := by decide

theorem shipIt_criteria : ∀ item ∈ ["It works"], isBlank item = false := by decide

theorem organization_ne_leader : (1 : UUID) ≠ 2 := by decide

theorem leader_ne_member : (2 : UUID) ≠ 3 := by decide

namespace Task

/-- `Task(...)` for a command, under the identifier `new_id` drew. -/
def create (id : UUID) (command : AssignTaskCommand) (origin : TaskOrigin) :
    Except Raised Task :=
  let title := strip command.title
  let instruction := strip command.instruction
  let acceptance := command.acceptance.map strip
  if htitle : isBlank title = false ∧ isBlank instruction = false then
    if hacceptance : acceptance ≠ [] ∧ ∀ item ∈ acceptance, isBlank item = false then
      if hagents : command.assignedByAgentId ≠ command.assigneeAgentId then
        .ok
          { id
            organizationId := command.organizationId
            projectId := command.projectId
            repositoryId := command.repositoryId
            parentTaskId := command.parentTaskId
            assignedByAgentId := command.assignedByAgentId
            assigneeAgentId := command.assigneeAgentId
            title
            instruction
            acceptance
            status := .assigned
            resultSummary := none
            version := 1
            origin
            databaseChange := command.databaseChange
            title_nonblank := htitle.1
            instruction_nonblank := htitle.2
            acceptance_ne_nil := hacceptance.1
            acceptance_nonblank := hacceptance.2
            assigner_ne_assignee := hagents }
      else .error (.valueError "a task must be assigned to another agent")
    else .error (.valueError "at least one non-empty acceptance criterion is required")
  else .error (.valueError "task title and instruction are required")

/-- Status and result replaced, one version on: the `replace` of every transition. -/
def moved (t : Task) (status : TaskStatus) (resultSummary : Option String) : Task :=
  { t with status, resultSummary, version := t.version + 1 }

/-- `start`. -/
def start (t : Task) : Except Raised Task :=
  if t.status = .assigned ∨ t.status = .blocked then .ok (t.moved .inProgress none)
  else .error (.taskConflict ("cannot start task from " ++ t.status.value))

/-- `report`. -/
def report (t : Task) (status : TaskStatus) (summary : String) : Except Raised Task :=
  if t.status.isFinal then .error (.taskConflict "a final task cannot be reported again")
  else if status = .blocked ∨ status = .succeeded ∨ status = .failed then
    if isBlank summary then .error (.valueError "task report summary is required")
    else .ok (t.moved status (some (strip summary)))
  else .error (.taskConflict "report status must be blocked, succeeded or failed")

/-- `redo`. -/
def redo (t : Task) : Except Raised Task :=
  if t.status.isRedoable then .ok (t.moved .assigned none)
  else .error (.taskConflict ("a " ++ t.status.value ++
    " task cannot be re-run; only a succeeded or failed task can be sent back to work"))

/-- `supersede`. -/
def supersede (t : Task) (reason : String) : Except Raised Task :=
  if t.status.isFinal then
    .error (.taskConflict ("a " ++ t.status.value ++ " task cannot be superseded"))
  else
    .ok (t.moved .superseded
      (some (if reason = "" then "SUPERSEDED" else "SUPERSEDED: " ++ reason)))

@[simp] theorem moved_id (t : Task) (s : TaskStatus) (r : Option String) :
    (t.moved s r).id = t.id := rfl

@[simp] theorem moved_status (t : Task) (s : TaskStatus) (r : Option String) :
    (t.moved s r).status = s := rfl

@[simp] theorem moved_version (t : Task) (s : TaskStatus) (r : Option String) :
    (t.moved s r).version = t.version + 1 := rfl

theorem create_ok {id : UUID} {command : AssignTaskCommand} {origin : TaskOrigin} {t : Task}
    (h : create id command origin = .ok t) :
    t.id = id ∧ t.parentTaskId = command.parentTaskId ∧ t.status = .assigned ∧ t.version = 1 ∧
      t.projectId = command.projectId ∧ t.repositoryId = command.repositoryId ∧
      t.assigneeAgentId = command.assigneeAgentId ∧
      t.assignedByAgentId = command.assignedByAgentId ∧ t.resultSummary = none ∧
      t.origin = origin := by
  unfold create at h
  simp only at h
  split at h
  · split at h
    · split at h
      · obtain rfl := Except.ok.inj h
        exact ⟨rfl, rfl, rfl, rfl, rfl, rfl, rfl, rfl, rfl, rfl⟩
      · cases h
    · cases h
  · cases h

theorem create_isOk (id : UUID) (command : AssignTaskCommand) (origin : TaskOrigin)
    (htitle : isBlank (strip command.title) = false)
    (hinstruction : isBlank (strip command.instruction) = false)
    (hne : command.acceptance ≠ [])
    (hacceptance : ∀ item ∈ command.acceptance, isBlank (strip item) = false)
    (hagents : command.assignedByAgentId ≠ command.assigneeAgentId) :
    ∃ t, create id command origin = .ok t := by
  have hmap : command.acceptance.map strip ≠ [] ∧
      ∀ item ∈ command.acceptance.map strip, isBlank item = false := by
    refine ⟨by simpa using hne, ?_⟩
    intro item hitem
    obtain ⟨raw, hraw, rfl⟩ := List.mem_map.mp hitem
    exact hacceptance raw hraw
  unfold create
  rw [dif_pos ⟨htitle, hinstruction⟩, dif_pos hmap, dif_pos hagents]
  exact ⟨_, rfl⟩

theorem start_ok {t t' : Task} (h : t.start = .ok t') :
    (t.status = .assigned ∨ t.status = .blocked) ∧ t' = t.moved .inProgress none := by
  unfold start at h
  split at h
  · exact ⟨‹_›, (Except.ok.inj h).symm⟩
  · cases h

theorem report_ok {t t' : Task} {status : TaskStatus} {summary : String}
    (h : t.report status summary = .ok t') :
    t.status.isFinal = false ∧ (status = .blocked ∨ status = .succeeded ∨ status = .failed) ∧
      t' = t.moved status (some (strip summary)) := by
  unfold report at h
  split at h
  · cases h
  · rename_i hfinal
    split at h
    · rename_i hstatus
      split at h
      · cases h
      · exact ⟨by simpa using hfinal, hstatus, (Except.ok.inj h).symm⟩
    · cases h

theorem redo_ok {t t' : Task} (h : t.redo = .ok t') :
    t.status.isRedoable = true ∧ t' = t.moved .assigned none := by
  unfold redo at h
  split at h
  · exact ⟨‹_›, (Except.ok.inj h).symm⟩
  · cases h

theorem supersede_ok {t t' : Task} {reason : String} (h : t.supersede reason = .ok t') :
    t.status.isFinal = false ∧ t' = t.moved .superseded
      (some (if reason = "" then "SUPERSEDED" else "SUPERSEDED: " ++ reason)) := by
  unfold supersede at h
  split at h
  · cases h
  · rename_i hfinal
    exact ⟨by simpa using hfinal, (Except.ok.inj h).symm⟩

section Evidence

variable [Codecs]

/-- `to_view().evidence`. -/
def evidence (t : Task) : Option TaskEvidenceView := parseEvidence t.resultSummary

/-- `_worker_evidence`. -/
def workerEvidence (t : Task) : WorkerEvidenceView :=
  match t.evidence with
  | some e =>
    { workerTaskId := t.id
      workerAgentId := t.assigneeAgentId
      status := t.status
      runId := e.runId
      commitSha := e.commitSha
      changedFiles := e.changedFiles
      testResults := e.testResults
      diffStat := none
      summary := e.summaryText }
  | none =>
    { workerTaskId := t.id
      workerAgentId := t.assigneeAgentId
      status := t.status
      runId := none
      commitSha := none
      changedFiles := []
      testResults := []
      diffStat := none
      summary := t.resultSummary }

/-- The reasons for which the declared requirement is not met by the database evidence. -/
def requiredCheckReasons (requirement : DatabaseChangeRequirement)
    (database : DatabaseChangeEvidence) : List String :=
  (if requirement.migrationRequired && database.migrationFiles.isEmpty then
    ["migration_artifact_missing"] else []) ++
  (if requirement.backfillRequired && database.backfillFiles.isEmpty then
    ["backfill_artifact_missing"] else []) ++
  requirement.requiredChecks.filterMap fun required =>
    match database.checks.reverse.find? fun item => item.command == required with
    | none => some ("required_check_missing:" ++ required)
    | some item =>
      if item.exitCode = 0 then none else some ("required_check_failed:" ++ required)

/-- `evaluate_database_automation`. -/
def evaluateDatabaseAutomation (t : Task) : DatabaseAutomationDecision :=
  let requirement := t.databaseChange
  let detected := (t.evidence.map (·.changedFiles)).getD [] |>.any isDatabasePath
  if requirement.declared = false then
    { disposition := .managerReview
      reasons := [if detected then "undeclared_database_change"
        else "database_impact_not_declared"] }
  else if requirement.required = false then
    if detected then
      { disposition := .managerReview
        reasons := ["database_diff_conflicts_with_manager_declaration"] }
    else { disposition := .notRequired }
  else
    let commitSha := (t.evidence.bind (·.commitSha)).getD ""
    let missingCommit : List String :=
      if t.status ≠ .succeeded ∨ commitSha = "" then ["candidate_commit_missing"] else []
    match t.evidence.bind (·.databaseChange) with
    | none =>
      { disposition := .workerRework
        reasons := missingCommit ++ ["worker_database_evidence_missing"] }
    | some database =>
      let undeclared := (database.affectedTables.filter fun table =>
        !requirement.affectedTables.contains table).dedup
      if undeclared ≠ [] then
        { disposition := .managerReview
          reasons := (undeclared.insertionSort (· ≤ ·)).map ("undeclared_table:" ++ ·) }
      else
        let reasons := missingCommit ++ requiredCheckReasons requirement database
        if reasons ≠ [] then { disposition := .workerRework, reasons }
        else
          { disposition := .requestValidation
            intent := some
              { taskId := uuidStr t.id
                organizationId := uuidStr t.organizationId
                projectId := uuidStr t.projectId
                repositoryId := uuidStr t.repositoryId
                candidateSha := commitSha
                migrationFiles := database.migrationFiles
                backfillFiles := database.backfillFiles
                checks := database.checks.map (·.command)
                idempotencyKey :=
                  "database-validation:" ++ uuidStr t.id ++ ":" ++ commitSha } }

end Evidence

end Task
end Orchestration
end RepoMesh
