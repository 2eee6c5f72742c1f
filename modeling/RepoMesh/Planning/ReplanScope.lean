/-
# The scope of a replan

What a committed replan does to the tasks of its project, against the repositories it reports as
affected, and what its preview had reported.
-/
import RepoMesh.Planning.Replan

namespace RepoMesh
namespace Planning

open Text
open Async (Prog)
open Delivery (UUID)
open Orchestration (Task TaskStatus)

/-! ## The project -/

/-- `start_plan`, as far as the bridge sees it: the tasks it answers for the batches of a key are
tasks of repositories of these batches. -/
structure PlanStarter where
  start : List (List PlannedRepositoryTaskView) → String → List Task → List Task
  of_batches : ∀ batches key tasks, ∀ t ∈ start batches key tasks,
    ∃ batch ∈ batches, ∃ planned ∈ batch, t.repositoryId = planned.repositoryId

/-- The tasks of a project, under distinct identifiers. -/
structure TaskTable where
  rows : List Task
  ids_nodup : (rows.map (·.id)).Nodup

/-- The catalog, under distinct identifiers. -/
structure Catalog where
  profiles : List RepositoryProfile
  ids_nodup : (profiles.map (·.id)).Nodup

/-- A project and its collaborators; a refused operation does nothing. -/
structure ReplanWorld where
  planGraph : Option PlanGraph
  version : {version : ℤ // 1 ≤ version}
  catalog : Catalog
  topology : Option ProjectTeams
  tasks : TaskTable
  starter : PlanStarter
  started : List (List (List PlannedRepositoryTaskView)) := []
  snapshots : List SnapshotFields := []
  snapshotId : UUID := 0
  documents : List UUID := []
  refuses : ReplanOp → Option ReplanError := fun _ => none

/-- The result of a superseded task. -/
def supersedeSummary (reason : String) : String :=
  if reason = "" then "SUPERSEDED" else "SUPERSEDED: " ++ reason

namespace TaskTable

/-- A row written by `supersede`, if its status is not final. -/
def superseded (reason : String) (t : Task) : Task :=
  if t.status.isFinal then t
  else t.moved .superseded (some (supersedeSummary reason))

@[simp] theorem superseded_id (reason : String) (t : Task) : (superseded reason t).id = t.id := by
  unfold superseded
  split <;> rfl

@[simp] theorem superseded_repositoryId (reason : String) (t : Task) :
    (superseded reason t).repositoryId = t.repositoryId := by
  unfold superseded
  split <;> rfl

theorem superseded_isFinal (reason : String) (t : Task) :
    (superseded reason t).status.isFinal = true := by
  unfold superseded
  split
  · assumption
  · rfl

/-- The table with the row of an identifier superseded. -/
def supersede (table : TaskTable) (taskId : UUID) (reason : String) : TaskTable where
  rows := Keyed.write (·.id) table.rows taskId (superseded reason)
  ids_nodup := by
    rw [Keyed.keys_write fun t ht => (superseded_id reason t).trans ht]
    exact table.ids_nodup

/-- The table with the tasks that are new to it. -/
def insertAll (table : TaskTable) (tasks : List Task) : TaskTable where
  rows := tasks.foldl (Keyed.insertNew (·.id)) table.rows
  ids_nodup := Keyed.nodup_foldl_insertNew table.ids_nodup

end TaskTable

/-- `supersede` of the task gateway. -/
def serveSupersede (w : ReplanWorld) (taskId : UUID) (reason : String) :
    Except ReplanError Task × ReplanWorld :=
  match w.tasks.rows.find? fun t => t.id == taskId with
  | none => (.error (.raised "task does not exist"), w)
  | some t =>
    if t.status = .superseded ∧ t.resultSummary = some (supersedeSummary (strip reason)) then
      (.ok t, w)
    else if t.status.isFinal then (.error (.raised "the task cannot be superseded"), w)
    else (.ok (TaskTable.superseded (strip reason) t),
      { w with tasks := w.tasks.supersede taskId (strip reason) })

/-- How the collaborators answer what they do not refuse. -/
def answer : (op : ReplanOp) → ReplanWorld → Except ReplanError (ReplanAnswer op) × ReplanWorld
  | .getLatestGraph, w => (.ok w.planGraph, w)
  | .nextVersion, w => (.ok w.version, w)
  | .listProfiles, w => (.ok w.catalog.profiles, w)
  | .getTopology, w => (.ok w.topology, w)
  | .listProjectTasks, w => (.ok w.tasks.rows, w)
  | .supersede taskId reason _, w => serveSupersede w taskId reason
  | .startPlan _ _ batches key, w =>
    let tasks := w.starter.start batches key w.tasks.rows
    (.ok tasks, { w with tasks := w.tasks.insertAll tasks, started := w.started ++ [batches] })
  | .save fields, w => (.ok w.snapshotId, { w with snapshots := w.snapshots ++ [fields] })
  | .generateForPlan .., w => (.ok w.documents, w)
  | .supersedeForRepos .., w => (.ok (), w)

/-- How the collaborators answer. -/
def replanExec (op : ReplanOp) (w : ReplanWorld) :
    Except ReplanError (ReplanAnswer op) × ReplanWorld :=
  match w.refuses op with
  | some e => (.error e, w)
  | none => answer op w

/-- The run of a call. -/
abbrev runReplan {α : Type} (p : ReplanCall α) (w : ReplanWorld) :
    Except ReplanError α × ReplanWorld :=
  p.run replanExec w

/-! ## What the claim asks -/

/-- The repositories of the reported names. -/
def affectedIds (w : ReplanWorld) (result : ReplanResult) : List UUID :=
  affectedRepositoryIds w.catalog.profiles result.affectedRepos

/-- **Exactly the affected repositories** are touched: the tasks of the others stay, what is left
active in the affected ones is of the new plan, and the plan that is started is theirs. -/
structure TouchesAffected (w w' : ReplanWorld) (result : ReplanResult) : Prop where
  others_kept : ∀ repositoryId, repositoryId ∉ affectedIds w result →
    (w'.tasks.rows.filter fun t => t.repositoryId == repositoryId) =
      w.tasks.rows.filter fun t => t.repositoryId == repositoryId
  active_new : ∀ t ∈ w'.tasks.rows, t.repositoryId ∈ affectedIds w result →
    t.status.isFinal = false → t.id ∈ result.newTasks.map (·.id)
  started_affected : ∃ started, w'.started = w.started ++ started ∧
    ∀ batches ∈ started, ∀ batch ∈ batches, ∀ planned ∈ batch,
      planned.repositoryId ∈ affectedIds w result

/-- What a preview of the same request reports. -/
def PreviewAgrees (request : ReplanRequest) (w : ReplanWorld) (result : ReplanResult) : Prop :=
  ∃ previewed, runReplan (replanPreview request) w = (.ok previewed, w) ∧
    previewed.affectedRepos = result.affectedRepos ∧
    previewed.newPlanVersion = result.newPlanVersion ∧ previewed.diff = result.diff

/-! ## Reading -/

theorem replanExec_ok (op : ReplanOp) {w w' : ReplanWorld} {a : ReplanAnswer op}
    (h : replanExec op w = (.ok a, w')) : w.refuses op = none ∧ answer op w = (.ok a, w') := by
  unfold replanExec at h
  cases hrefuses : w.refuses op with
  | some e =>
    rw [hrefuses] at h
    cases congrArg Prod.fst h
  | none =>
    rw [hrefuses] at h
    exact ⟨rfl, h⟩

/-- The graph that the impact analysis reads. -/
def readGraph (w : ReplanWorld) : Option PlanGraph :=
  if w.refuses .getLatestGraph = none then w.planGraph else none

/-- What the impact analysis finds. -/
def foundImpact (request : ReplanRequest) (w : ReplanWorld) : Impact :=
  let affected := computeAffectedRepos request.changeSourceRepo request.allRepos (readGraph w)
    request.graph
  ⟨readGraph w, affected, localReplan request affected, w.version⟩

theorem run_getLatestGraph (w : ReplanWorld) :
    runReplan (tryCatch (askFor .getLatestGraph) fun _ => pure none) w = (.ok (readGraph w), w) := by
  rw [runReplan, Prog.run_tryCatch, Prog.run_perform, replanExec, readGraph]
  cases w.refuses .getLatestGraph <;> rfl

theorem run_impactAnalysis (request : ReplanRequest) (w : ReplanWorld)
    (hversion : w.refuses .nextVersion = none) :
    runReplan (impactAnalysis request) w = (.ok (foundImpact request w), w) := by
  have hserved : replanExec .nextVersion w = (.ok w.version, w) := by
    rw [replanExec, hversion]
    rfl
  rw [impactAnalysis, runReplan, Prog.run_bind_ok replanExec (run_getLatestGraph w),
    Prog.run_perform_ok replanExec hserved]
  rfl

theorem impactAnalysis_ok {request : ReplanRequest} {w w' : ReplanWorld} {impact : Impact}
    (h : runReplan (impactAnalysis request) w = (.ok impact, w')) :
    w.refuses .nextVersion = none ∧ impact = foundImpact request w ∧ w' = w := by
  have hversion : w.refuses .nextVersion = none := by
    rw [impactAnalysis, runReplan, Prog.run_bind_ok replanExec (run_getLatestGraph w)] at h
    obtain ⟨version, w₁, hrun, -⟩ := Prog.exists_of_run_bind replanExec h
    exact (replanExec_ok _ hrun).1
  rw [run_impactAnalysis request w hversion] at h
  obtain ⟨himpact, hw⟩ := Prod.mk.inj h
  exact ⟨hversion, (Except.ok.inj himpact).symm, hw.symm⟩

theorem only_replanPreview (request : ReplanRequest) :
    (replanPreview request).Only fun op => op.isRead = true := by
  refine Prog.only_bind (Prog.only_bind (Prog.only_tryCatch ?_ fun e => ?_) fun g => ?_) fun i => ?_
  · exact (Prog.only_perform _).mpr rfl
  · exact Prog.only_done _
  · exact Prog.only_bind ((Prog.only_perform _).mpr rfl) fun version => Prog.only_done _
  · exact Prog.only_done _

/-! ## Superseding -/

theorem TaskTable.eq_of_find (table : TaskTable) {taskId : UUID} {t r : Task}
    (h : table.rows.find? (fun t => t.id == taskId) = some t) (hr : r ∈ table.rows)
    (hid : r.id = taskId) : r = t := by
  have hfind : Keyed.find Task.id table.rows taskId = some t := h
  obtain ⟨ht, htid⟩ := Keyed.mem_of_find hfind
  exact List.inj_on_of_nodup_map table.ids_nodup hr ht (hid.trans htid.symm)

theorem TaskTable.supersede_final {table : TaskTable} {taskId : UUID} {t : Task} {reason : String}
    (h : table.rows.find? (fun t => t.id == taskId) = some t) (hfinal : t.status.isFinal = true) :
    table.supersede taskId reason = table := by
  obtain ⟨rows, hnodup⟩ := table
  rw [TaskTable.supersede, TaskTable.mk.injEq, Keyed.write]
  refine (List.map_congr_left fun r hr => ?_).trans (List.map_id _)
  show (if r.id = taskId then superseded reason r else r) = r
  split
  · rename_i hid
    rw [TaskTable.eq_of_find ⟨rows, hnodup⟩ h hr hid, superseded, if_pos hfinal]
  · rfl

theorem run_supersede {w w' : ReplanWorld} {taskId : UUID} {reason key : String} {t : Task}
    (h : runReplan (askFor (.supersede taskId reason key)) w = (.ok t, w')) :
    w' = { w with tasks := w.tasks.supersede taskId (strip reason) } := by
  obtain ⟨-, hserved⟩ := replanExec_ok (.supersede taskId reason key) h
  have hrun : serveSupersede w taskId reason = (.ok t, w') := hserved
  unfold serveSupersede at hrun
  cases hfind : w.tasks.rows.find? fun t => t.id == taskId with
  | none =>
    rw [hfind] at hrun
    cases congrArg Prod.fst hrun
  | some row =>
    rw [hfind] at hrun
    simp only at hrun
    split at hrun
    · rename_i hdone
      rw [TaskTable.supersede_final hfind (by rw [hdone.1]; rfl)]
      exact (congrArg Prod.snd hrun).symm
    · split at hrun
      · cases congrArg Prod.fst hrun
      · exact (congrArg Prod.snd hrun).symm

/-- The table with the rows of several identifiers superseded. -/
def TaskTable.supersedeAll (table : TaskTable) (taskIds : List UUID) (reason : String) : TaskTable :=
  taskIds.foldl (fun table taskId => table.supersede taskId reason) table

theorem TaskTable.rows_supersedeAll (table : TaskTable) (taskIds : List UUID) (reason : String) :
    (table.supersedeAll taskIds reason).rows =
      table.rows.map fun r => if r.id ∈ taskIds then superseded reason r else r := by
  have hrows : ∀ table : TaskTable, (table.supersedeAll taskIds reason).rows =
      taskIds.foldl (fun rows k => Keyed.write (·.id) rows k (superseded reason)) table.rows := by
    induction taskIds with
    | nil => exact fun table => rfl
    | cons taskId taskIds ih => exact fun table => ih (table.supersede taskId reason)
  rw [hrows]
  refine Keyed.foldl_write (superseded_id reason) (fun t => ?_) taskIds
  exact if_pos (superseded_isFinal reason t)

theorem run_each_supersede {reason : String} {key : Task → String} {tasks answers : List Task}
    {w w' : ReplanWorld}
    (h : runReplan (Prog.each (fun t : Task => askFor (.supersede t.id reason (key t))) tasks) w =
      (.ok answers, w')) :
    w' = { w with tasks := w.tasks.supersedeAll (tasks.map (·.id)) (strip reason) } := by
  induction tasks generalizing w w' answers with
  | nil => exact (congrArg Prod.snd h).symm
  | cons t tasks ih =>
    obtain ⟨answered, w₁, hfirst, hrest⟩ := Prog.exists_of_run_bind replanExec h
    obtain ⟨answers', w₂, hothers, hdone⟩ := Prog.exists_of_run_bind replanExec hrest
    have hw₁ := run_supersede hfirst
    have hw₂ := ih hothers
    have hw' : w₂ = w' := congrArg Prod.snd hdone
    rw [← hw', hw₂, hw₁]
    rfl

/-- The tasks that are superseded. -/
def candidates (request : ReplanRequest) (w : ReplanWorld) (affectedRepos : List String) :
    List Task :=
  w.tasks.rows.filter
    (isCandidate request (affectedRepositoryIds w.catalog.profiles affectedRepos))

theorem supersedeAffectedTasks_ok {request : ReplanRequest} {affectedRepos : List String}
    {w w' : ReplanWorld} {answers : List Task}
    (h : runReplan (supersedeAffectedTasks request affectedRepos) w = (.ok answers, w')) :
    w' = { w with
      tasks := w.tasks.supersedeAll ((candidates request w affectedRepos).map (·.id))
        (strip (supersedeReason request)) } := by
  obtain ⟨profiles, w₁, hprofiles, hrest⟩ := Prog.exists_of_run_bind replanExec h
  obtain ⟨tasks, w₂, htasks, heach⟩ := Prog.exists_of_run_bind replanExec hrest
  obtain ⟨-, hprofiles⟩ := replanExec_ok .listProfiles hprofiles
  obtain ⟨hfirst, rfl⟩ := Prod.mk.inj hprofiles
  obtain ⟨-, htasks⟩ := replanExec_ok .listProjectTasks htasks
  obtain ⟨hsecond, rfl⟩ := Prod.mk.inj htasks
  rw [← Except.ok.inj hfirst, ← Except.ok.inj hsecond] at heach
  exact run_each_supersede heach

/-! ## Starting and saving -/

/-- The batches of the new plan that are started. -/
def reachedBatches (w : ReplanWorld) (affectedRepos : List String) (plan : IntegratedPlan) :
    List (List PlannedRepositoryTaskView) :=
  match w.topology with
  | none => []
  | some teams => scopedBatches plan w.catalog.profiles teams affectedRepos

theorem startReplanBatch_ok {request : ReplanRequest} {impact : Impact} {plan : IntegratedPlan}
    {w w' : ReplanWorld} {tasks : List Task}
    (h : runReplan (startReplanBatch request impact plan) w = (.ok tasks, w')) :
    let batches := reachedBatches w impact.affectedRepos plan
    (batches = [] ∧ tasks = [] ∧ w' = w) ∨
      (batches ≠ [] ∧ (∀ t ∈ tasks, ∃ batch ∈ batches, ∃ planned ∈ batch,
          t.repositoryId = planned.repositoryId) ∧
        w' = { w with tasks := w.tasks.insertAll tasks, started := w.started ++ [batches] }) := by
  obtain ⟨topology, w₁, htopology, hrest⟩ := Prog.exists_of_run_bind replanExec h
  obtain ⟨-, htopology⟩ := replanExec_ok .getTopology htopology
  obtain ⟨hfirst, rfl⟩ := Prod.mk.inj htopology
  have hfirst : w.topology = topology := Except.ok.inj hfirst
  cases topology with
  | none =>
    obtain ⟨htasks, hw⟩ := Prod.mk.inj (hrest : _ = _)
    exact .inl ⟨by rw [reachedBatches, hfirst], (Except.ok.inj htasks).symm, hw.symm⟩
  | some teams =>
    obtain ⟨profiles, w₂, hprofiles, hstart⟩ := Prog.exists_of_run_bind replanExec hrest
    obtain ⟨-, hprofiles⟩ := replanExec_ok .listProfiles hprofiles
    obtain ⟨hsecond, rfl⟩ := Prod.mk.inj hprofiles
    have hsecond : w.catalog.profiles = profiles := Except.ok.inj hsecond
    have hreached : reachedBatches w impact.affectedRepos plan =
        scopedBatches plan w.catalog.profiles teams impact.affectedRepos := by
      rw [reachedBatches, hfirst]
    rw [← hsecond] at hstart
    simp only at hstart
    rw [hreached]
    by_cases hbatches : scopedBatches plan w.catalog.profiles teams impact.affectedRepos = []
    · rw [if_pos hbatches] at hstart
      obtain ⟨htasks, hw⟩ := Prod.mk.inj hstart
      exact .inl ⟨hbatches, (Except.ok.inj htasks).symm, hw.symm⟩
    · rw [if_neg hbatches] at hstart
      obtain ⟨-, hstarted⟩ := replanExec_ok (.startPlan ..) hstart
      obtain ⟨htasks, hw⟩ := Prod.mk.inj hstarted
      obtain rfl := Except.ok.inj htasks
      exact .inr ⟨hbatches, w.starter.of_batches _ _ _, hw.symm⟩

/-- What `save` is asked for. -/
def savedFields (request : ReplanRequest) (impact : Impact) (plan : IntegratedPlan)
    (graph : PlanGraph) : SnapshotFields where
  planVersion := impact.newPlanVersion.1
  columns := replanColumns plan graph
  createdByAgentId := request.leaderAgentId
  requirementText := request.requirement

theorem run_saveSnapshot (request : ReplanRequest) (impact : Impact) (plan : IntegratedPlan)
    (w : ReplanWorld) :
    ∃ planId w', runReplan (saveSnapshot request impact plan) w =
        (.ok (planId, if ∀ g ∈ impact.graph, w.refuses (.save (savedFields request impact plan g)) =
          none then diffPlanGraphs impact.planGraph impact.graph else none), w') ∧
      w'.tasks = w.tasks ∧ w'.started = w.started := by
  rw [saveSnapshot, runReplan]
  cases hgraph : impact.graph with
  | none =>
    refine ⟨none, w, ?_, rfl, rfl⟩
    rw [if_pos (by simp), diffPlanGraphs_eq_none.mpr (.inr rfl)]
    rfl
  | some g =>
    cases hrefuses : w.refuses (.save (savedFields request impact plan g)) with
    | none =>
      have hserved : replanExec (.save (savedFields request impact plan g)) w = (.ok w.snapshotId,
          { w with snapshots := w.snapshots ++ [savedFields request impact plan g] }) := by
        rw [replanExec, hrefuses]
        rfl
      rw [if_pos (by simpa using hrefuses)]
      exact ⟨_, _, Prog.run_tryCatch_ok replanExec (Prog.run_perform_ok replanExec hserved), rfl, rfl⟩
    | some e =>
      have hserved : replanExec (.save (savedFields request impact plan g)) w = (.error e, w) := by
        rw [replanExec, hrefuses]
      rw [if_neg (by simp [hrefuses])]
      exact ⟨_, _, Prog.run_tryCatch_error replanExec (Prog.run_perform_error replanExec hserved),
        rfl, rfl⟩

theorem replanExec_docs {op : ReplanOp} {w w' : ReplanWorld}
    {r : Except ReplanError (ReplanAnswer op)}
    (hop : (∃ version names, op = .generateForPlan version names) ∨
      ∃ version names, op = .supersedeForRepos version names) (h : replanExec op w = (r, w')) :
    w' = w := by
  have hkept : (replanExec op w).2 = w := by
    rcases hop with ⟨version, names, rfl⟩ | ⟨version, names, rfl⟩ <;>
      · unfold replanExec
        cases w.refuses _ <;> rfl
  rw [← hkept, h]

theorem run_regenerateDocs (impact : Impact) (w : ReplanWorld) :
    ∃ docIds, runReplan (regenerateDocs impact) w = (.ok docIds, w) := by
  rw [regenerateDocs, runReplan]
  split
  · exact ⟨[], rfl⟩
  · cases impact.newPlan with
    | none =>
      cases hserved : replanExec (.supersedeForRepos impact.newPlanVersion.1 impact.affectedRepos) w with
      | mk r w' =>
        obtain rfl := replanExec_docs (.inr ⟨_, _, rfl⟩) hserved
        cases r with
        | error e =>
          exact ⟨_, Prog.run_tryCatch_error replanExec (Prog.run_perform_error replanExec hserved)⟩
        | ok a => exact ⟨_, Prog.run_tryCatch_ok replanExec (Prog.run_perform_ok replanExec hserved)⟩
    | some plan =>
      cases hserved : replanExec (.generateForPlan impact.newPlanVersion.1 impact.affectedRepos) w with
      | mk r w' =>
        obtain rfl := replanExec_docs (.inl ⟨_, _, rfl⟩) hserved
        cases r with
        | error e => exact ⟨_, Prog.run_tryCatch_error replanExec hserved⟩
        | ok docIds => exact ⟨docIds, Prog.run_tryCatch_ok replanExec hserved⟩

/-! ## A committed replan -/

/-- The plans that are started: none, or one. -/
def startedPlans (w : ReplanWorld) (impact : Impact) :
    List (List (List PlannedRepositoryTaskView)) :=
  match impact.newPlan with
  | none => []
  | some plan => [reachedBatches w impact.affectedRepos plan].filter (· ≠ [])

/-- The diff a commit reports. -/
def committedDiff (request : ReplanRequest) (w : ReplanWorld) (impact : Impact) : Option PlanDiff :=
  if ∀ plan ∈ impact.newPlan, ∀ g ∈ impact.graph,
    w.refuses (.save (savedFields request impact plan g)) = none
  then diffPlanGraphs impact.planGraph impact.graph else none

theorem commitPlan_ok {request : ReplanRequest} {impact : Impact} {w w' : ReplanWorld}
    {newTasks : List Task} {planId : Option UUID} {diff : Option PlanDiff}
    (h : runReplan (commitPlan request impact) w = (.ok (newTasks, planId, diff), w')) :
    diff = committedDiff request w impact ∧ w'.tasks = w.tasks.insertAll newTasks ∧
      w'.started = w.started ++ startedPlans w impact ∧
      ∀ t ∈ newTasks, ∃ batches ∈ startedPlans w impact, ∃ batch ∈ batches,
        ∃ planned ∈ batch, t.repositoryId = planned.repositoryId := by
  unfold commitPlan at h
  unfold startedPlans committedDiff
  cases hplan : impact.newPlan with
  | none =>
    rw [hplan] at h
    obtain ⟨hanswer, rfl⟩ := Prod.mk.inj h
    obtain ⟨rfl, hsaved⟩ := Prod.mk.inj (Except.ok.inj hanswer)
    obtain ⟨-, rfl⟩ := Prod.mk.inj hsaved
    have hgraph : impact.graph = none := by rw [Impact.graph, hplan]; rfl
    refine ⟨?_, rfl, by simp, fun t ht => by cases ht⟩
    rw [if_pos (by simp), hgraph, diffPlanGraphs_eq_none.mpr (.inr rfl)]
  | some plan =>
    rw [hplan] at h
    obtain ⟨tasks, w₁, hstart, hrest⟩ := Prog.exists_of_run_bind replanExec h
    obtain ⟨saved, w₂, hsave, hend⟩ := Prog.exists_of_run_bind replanExec hrest
    obtain ⟨planId', w₃, hsave', htasks, hstarted⟩ := run_saveSnapshot request impact plan w₁
    obtain ⟨hanswer, rfl⟩ := Prod.mk.inj (hsave'.symm.trans hsave)
    obtain rfl := Except.ok.inj hanswer
    obtain ⟨hlast, rfl⟩ := Prod.mk.inj hend
    obtain ⟨rfl, hsaved⟩ := Prod.mk.inj (Except.ok.inj hlast)
    obtain ⟨-, rfl⟩ := Prod.mk.inj hsaved
    have hdiff : ∀ w : ReplanWorld, (if ∀ g ∈ impact.graph,
        w.refuses (.save (savedFields request impact plan g)) = none then
        diffPlanGraphs impact.planGraph impact.graph else none) =
        if ∀ p ∈ some plan, ∀ g ∈ impact.graph,
          w.refuses (.save (savedFields request impact p g)) = none then
        diffPlanGraphs impact.planGraph impact.graph else none := by
      intro w
      simp
    rcases startReplanBatch_ok hstart with ⟨hnone, rfl, rfl⟩ | ⟨hsome, hscoped, rfl⟩
    · refine ⟨hdiff _, htasks, ?_, fun t ht => by cases ht⟩
      rw [hstarted]
      simp [hnone]
    · refine ⟨hdiff _, htasks, ?_, fun t ht => ?_⟩
      · rw [hstarted]
        simp [hsome]
      · exact ⟨_, by simp [hsome], hscoped t ht⟩

/-- What a commit that ends leaves and answers. -/
structure Committed (request : ReplanRequest) (w w' : ReplanWorld) (result : ReplanResult) : Prop where
  version_answered : w.refuses .nextVersion = none
  affectedRepos : result.affectedRepos = (foundImpact request w).affectedRepos
  newPlanVersion : result.newPlanVersion = w.version.1
  diff : result.diff = committedDiff request w (foundImpact request w)
  tasks : w'.tasks = (w.tasks.supersedeAll ((candidates request w result.affectedRepos).map (·.id))
    (strip (supersedeReason request))).insertAll result.newTasks
  started : w'.started = w.started ++ startedPlans w (foundImpact request w)
  newTasks : ∀ t ∈ result.newTasks, ∃ batches ∈ startedPlans w (foundImpact request w),
    ∃ batch ∈ batches, ∃ planned ∈ batch, t.repositoryId = planned.repositoryId

theorem committed_of_run {request : ReplanRequest} {w w' : ReplanWorld} {result : ReplanResult}
    (h : runReplan (replanCommit request) w = (.ok result, w')) : Committed request w w' result := by
  obtain ⟨impact, w₁, himpact, hrest⟩ := Prog.exists_of_run_bind replanExec h
  obtain ⟨hversion, rfl, rfl⟩ := impactAnalysis_ok himpact
  obtain ⟨superseded, w₂, hsuperseded, hrest⟩ := Prog.exists_of_run_bind replanExec hrest
  obtain rfl := supersedeAffectedTasks_ok hsuperseded
  obtain ⟨⟨newTasks, planId, diff⟩, w₃, hplan, hrest⟩ := Prog.exists_of_run_bind replanExec hrest
  obtain ⟨docIds, w₄, hdocs, hend⟩ := Prog.exists_of_run_bind replanExec hrest
  obtain ⟨docIds', hdocs'⟩ := run_regenerateDocs (foundImpact request w₁) w₃
  obtain rfl : w₃ = w₄ := congrArg Prod.snd (hdocs'.symm.trans hdocs)
  obtain ⟨hresult, rfl⟩ := Prod.mk.inj hend
  obtain rfl := Except.ok.inj hresult
  obtain ⟨hdiff, htasks, hstarted, hnew⟩ := commitPlan_ok hplan
  exact ⟨hversion, rfl, rfl, hdiff, htasks, hstarted, hnew⟩

/-! ## Exactly the affected repositories -/

/-- Every batch of the new plan that touches an affected repository is of affected repositories
only. -/
def BatchesContained (request : ReplanRequest) (w : ReplanWorld) : Prop :=
  ∀ batches ∈ startedPlans w (foundImpact request w), ∀ batch ∈ batches, ∀ planned ∈ batch,
    planned.repositoryId ∈
      affectedRepositoryIds w.catalog.profiles (foundImpact request w).affectedRepos

/-- The change source is one of the known repositories, if any are known. -/
def SourceKnown (request : ReplanRequest) : Prop :=
  request.allRepos = [] ∨ request.changeSourceRepo ∈ request.allRepos

/-- The snapshot store accepts the new version, or there is nothing to compare. -/
def SnapshotAccepted (request : ReplanRequest) (w : ReplanWorld) : Prop :=
  (∀ plan ∈ (foundImpact request w).newPlan, ∀ g ∈ (foundImpact request w).graph,
    w.refuses (.save (savedFields request (foundImpact request w) plan g)) = none) ∨
  readGraph w = none

theorem isFinal_false_iff {status : TaskStatus} :
    status.isFinal = false ↔ status ∈ [TaskStatus.assigned, .inProgress, .blocked] := by
  cases status <;> decide

theorem mem_candidates {request : ReplanRequest} {w : ReplanWorld} {affectedRepos : List String}
    {t : Task} (ht : t ∈ w.tasks.rows)
    (haffected : t.repositoryId ∈ affectedRepositoryIds w.catalog.profiles affectedRepos)
    (hactive : t.status.isFinal = false) : t ∈ candidates request w affectedRepos := by
  refine List.mem_filter.mpr ⟨ht, ?_⟩
  simp only [isCandidate, Bool.and_eq_true, Bool.or_eq_true, List.contains_iff_mem]
  exact ⟨haffected, .inl (decide_eq_true (isFinal_false_iff.mp hactive))⟩

theorem filter_supersedeAll (request : ReplanRequest) (w : ReplanWorld) {affectedRepos : List String}
    {repositoryId : UUID} (reason : String)
    (hother : repositoryId ∉ affectedRepositoryIds w.catalog.profiles affectedRepos) :
    ((w.tasks.supersedeAll ((candidates request w affectedRepos).map (·.id)) reason).rows.filter
        fun t => t.repositoryId == repositoryId) =
      w.tasks.rows.filter fun t => t.repositoryId == repositoryId := by
  rw [TaskTable.rows_supersedeAll, List.filter_map]
  have hsame : ((fun t : Task => t.repositoryId == repositoryId) ∘ fun r : Task =>
      if r.id ∈ (candidates request w affectedRepos).map (·.id) then TaskTable.superseded reason r
      else r) = fun t => t.repositoryId == repositoryId := by
    funext r
    show (Task.repositoryId (if _ then _ else _) == repositoryId) = _
    split
    · rw [TaskTable.superseded_repositoryId]
    · rfl
  rw [hsame]
  refine (List.map_congr_left fun r hr => ?_).trans (List.map_id _)
  obtain ⟨hmem, hrepository⟩ := List.mem_filter.mp hr
  have hnot : r.id ∉ (candidates request w affectedRepos).map (·.id) := by
    intro hid
    obtain ⟨t, ht, htid⟩ := List.mem_map.mp hid
    obtain ⟨htmem, hcandidate⟩ := List.mem_filter.mp ht
    obtain rfl := List.inj_on_of_nodup_map w.tasks.ids_nodup htmem hmem htid
    simp only [isCandidate, Bool.and_eq_true, List.contains_iff_mem] at hcandidate
    have heq : t.repositoryId = repositoryId := by simpa using hrepository
    exact hother (heq ▸ hcandidate.1)
  exact if_neg hnot

/-- **The tasks.** A commit touches exactly the affected repositories where the batches it starts
are contained. -/
theorem touchesAffected_iff {request : ReplanRequest} {w w' : ReplanWorld} {result : ReplanResult}
    (h : Committed request w w' result) :
    TouchesAffected w w' result ↔ BatchesContained request w := by
  have hids : affectedIds w result =
      affectedRepositoryIds w.catalog.profiles (foundImpact request w).affectedRepos := by
    rw [affectedIds, h.affectedRepos]
  constructor
  · rintro ⟨-, -, started, hstarted, hall⟩ batches hbatches batch hbatch planned hplanned
    have heq : started = startedPlans w (foundImpact request w) :=
      List.append_cancel_left (hstarted.symm.trans h.started)
    rw [← hids]
    exact hall batches (heq ▸ hbatches) batch hbatch planned hplanned
  · intro hcontained
    have hnew : ∀ t ∈ result.newTasks, t.repositoryId ∈ affectedIds w result := by
      intro t ht
      obtain ⟨batches, hbatches, batch, hbatch, planned, hplanned, heq⟩ := h.newTasks t ht
      rw [heq, hids]
      exact hcontained batches hbatches batch hbatch planned hplanned
    refine ⟨fun repositoryId hother => ?_, fun t ht haffected hactive => ?_, _, h.started, ?_⟩
    · rw [h.tasks]
      refine (Keyed.filter_foldl_insertNew fun t ht => ?_).trans
        (filter_supersedeAll request w _ hother)
      rw [beq_eq_false_iff_ne]
      rintro rfl
      exact hother (hnew t ht)
    · rw [h.tasks] at ht
      rcases Keyed.mem_foldl_insertNew ht with hold | hnew
      · rw [TaskTable.rows_supersedeAll] at hold
        obtain ⟨r, hr, rfl⟩ := List.mem_map.mp hold
        split at hactive
        · rw [TaskTable.superseded_isFinal] at hactive
          cases hactive
        · rename_i hnot
          rw [if_neg hnot] at haffected
          exact absurd (List.mem_map_of_mem (mem_candidates hr haffected hactive)) hnot
      · exact List.mem_map_of_mem hnew
    · intro batches hbatches batch hbatch planned hplanned
      rw [hids]
      exact hcontained batches hbatches batch hbatch planned hplanned

/-- **The change source** is affected where it is known. -/
theorem source_affected_iff (request : ReplanRequest) (w : ReplanWorld) :
    request.changeSourceRepo ∈ (foundImpact request w).affectedRepos ↔ SourceKnown request := by
  show request.changeSourceRepo ∈ computeAffectedRepos _ _ _ _ ↔ _
  simp only [computeAffectedRepos, mem_sortedSet, List.mem_filter, List.mem_cons, true_or, true_and,
    Bool.or_eq_true, List.isEmpty_iff, List.contains_iff_mem, SourceKnown]

/-- **The preview** reports what the commit reports where the snapshot is accepted. -/
theorem previewAgrees_iff {request : ReplanRequest} {w w' : ReplanWorld} {result : ReplanResult}
    (h : Committed request w w' result) :
    PreviewAgrees request w result ↔ SnapshotAccepted request w := by
  have hpreview : runReplan (replanPreview request) w = (.ok
      { newPlanVersion := w.version.1
        affectedRepos := (foundImpact request w).affectedRepos
        feedbackSummary := truncated request.feedback 200
        diff := diffPlanGraphs (readGraph w) (foundImpact request w).graph }, w) := by
    rw [replanPreview, runReplan,
      Prog.run_bind_ok replanExec (run_impactAnalysis request w h.version_answered)]
    rfl
  have hagrees : PreviewAgrees request w result ↔
      diffPlanGraphs (readGraph w) (foundImpact request w).graph =
        committedDiff request w (foundImpact request w) := by
    rw [← h.diff]
    constructor
    · rintro ⟨previewed, hrun, -, -, hdiff⟩
      obtain ⟨heq, -⟩ := Prod.mk.inj (hpreview.symm.trans hrun)
      rw [← hdiff, ← Except.ok.inj heq]
    · intro hdiff
      exact ⟨_, hpreview, h.affectedRepos.symm, h.newPlanVersion.symm, hdiff⟩
  rw [hagrees, committedDiff, SnapshotAccepted]
  show diffPlanGraphs (readGraph w) _ = (if _ then diffPlanGraphs (readGraph w) _ else none) ↔ _
  split
  · rename_i haccepted
    exact ⟨fun _ => .inl haccepted, fun _ => rfl⟩
  · rename_i hrefused
    rw [diffPlanGraphs_eq_none]
    constructor
    · rintro (hnone | hnone)
      · exact .inr hnone
      · exact absurd (fun plan _ g hg => by rw [hnone] at hg; cases hg) hrefused
    · rintro (haccepted | hnone)
      · exact absurd haccepted hrefused
      · exact .inl hnone

/-- **The scope of a replan.** A committed replan touches exactly the affected repositories, with
the change source among them, and its preview writes nothing and reports the same, if and only if
every batch it starts is of affected repositories only, the change source is known, and the snapshot
of the new version is accepted. -/
theorem replan_scoped_iff {request : ReplanRequest} {w w' : ReplanWorld} {result : ReplanResult}
    (h : runReplan (replanCommit request) w = (.ok result, w')) :
    (TouchesAffected w w' result ∧ request.changeSourceRepo ∈ result.affectedRepos ∧
        ((replanPreview request).Only fun op => op.isRead = true) ∧
        PreviewAgrees request w result) ↔
      BatchesContained request w ∧ SourceKnown request ∧ SnapshotAccepted request w := by
  have hcommitted := committed_of_run h
  rw [touchesAffected_iff hcommitted, previewAgrees_iff hcommitted, hcommitted.affectedRepos,
    source_affected_iff]
  exact ⟨fun ⟨ha, hb, _, hc⟩ => ⟨ha, hb, hc⟩, fun ⟨ha, hb, hc⟩ =>
    ⟨ha, hb, only_replanPreview request, hc⟩⟩

/-! ### Two repositories in one batch -/

namespace Replanned

/-- A plan of two repositories that do not depend on each other, in given batches. -/
def plan (batches : List (List String)) : IntegratedPlan where
  engineeringSpec := "Rename the field."
  contracts := []
  taskDag := [{ repository := "api", instruction := .text "Rename it." },
    { repository := "web", instruction := .text "Keep it." }]
  executionBatches := batches

/-- A change of the first one. -/
def request (batches : List (List String)) : ReplanRequest where
  leaderAgentId := 3
  feedback := "The field is called otherwise."
  changeSourceRepo := "api"
  requirement := "Rename the field."
  idempotencyPrefix := "r1"
  allRepos := ["api", "web"]
  integrator := some fun _ => .ok (plan batches)

/-- A leader task of a repository. -/
def task (id repositoryId : UUID) (instruction : String) (h : isBlank instruction = false) : Task where
  id := id
  organizationId := 1
  projectId := 2
  repositoryId := repositoryId
  parentTaskId := none
  assignedByAgentId := 3
  assigneeAgentId := 4
  title := "Implement changes"
  instruction := instruction
  acceptance := ["Tests pass."]
  status := .assigned
  resultSummary := none
  version := 1
  origin := .planned
  databaseChange := {}
  title_nonblank := by decide +kernel
  instruction_nonblank := h
  acceptance_ne_nil := by simp
  acceptance_nonblank := by decide +kernel
  assigner_ne_assignee := by decide

/-- Each repository of the first batch is assigned a task. -/
def starter : PlanStarter where
  start batches _ tasks :=
    batches.head?.toList.flatten.map fun planned =>
      task (100 + tasks.length + planned.repositoryId) planned.repositoryId "Do it." (by decide +kernel)
  of_batches := by
    intro batches key tasks t ht
    obtain ⟨planned, hplanned, rfl⟩ := List.mem_map.mp ht
    obtain ⟨batch, hbatch, hmem⟩ := List.mem_flatten.mp hplanned
    exact ⟨batch, List.mem_of_head? (Option.mem_toList.mp hbatch), planned, hmem, rfl⟩

/-- Both repositories are at work. -/
def world : ReplanWorld where
  planGraph := none
  version := ⟨2, by decide⟩
  catalog := ⟨[{ id := 11, name := "api" }, { id := 12, name := "web" }], by decide⟩
  topology := some ⟨1, [11, 12]⟩
  tasks := ⟨[task 21 11 "Do it." (by decide +kernel), task 22 12 "Do it." (by decide +kernel)],
    by decide +kernel⟩
  starter := starter

theorem ends (batches : List (List String))
    (h : (runReplan (replanCommit (request batches)) world).1.isOk = true) :
    ∃ result w', runReplan (replanCommit (request batches)) world = (.ok result, w') := by
  cases hrun : runReplan (replanCommit (request batches)) world with
  | mk r w' =>
    rw [hrun] at h
    cases r with
    | error e => cases h
    | ok result => exact ⟨result, w', rfl⟩

end Replanned

open Replanned in
/-- In batches of their own, the replan of one leaves the other alone. -/
theorem replan_scoped_iff_sample :
    ∃ result w', runReplan (replanCommit (request [["api"], ["web"]])) world = (.ok result, w') ∧
      TouchesAffected world w' result := by
  obtain ⟨result, w', hrun⟩ := ends [["api"], ["web"]] (by decide +kernel)
  have hcontained : BatchesContained (request [["api"], ["web"]]) world := by
    unfold BatchesContained
    decide +kernel
  have hscoped := (replan_scoped_iff hrun).mpr ⟨hcontained, .inr (by decide), .inr rfl⟩
  exact ⟨result, w', hrun, hscoped.1⟩

open Replanned in
/-- In one batch, the other is started once more beside the task it has. -/
theorem unaffected_started :
    ¬ ∀ (request : ReplanRequest) (w w' : ReplanWorld) (result : ReplanResult),
      runReplan (replanCommit request) w = (.ok result, w') → TouchesAffected w w' result := by
  intro h
  obtain ⟨result, w', hrun⟩ := ends [["api", "web"]] (by decide +kernel)
  have hcontained := (touchesAffected_iff (committed_of_run hrun)).mp (h _ _ _ _ hrun)
  revert hcontained
  unfold BatchesContained
  decide +kernel

end Planning
end RepoMesh
