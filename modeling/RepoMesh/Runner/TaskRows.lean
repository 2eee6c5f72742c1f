/-
# What runner calls do to task rows

Three operations write a task row that exists: a compare-and-set of task orchestration, and the two
writes of the assignment store, which look at the version but not at the status.
-/
import RepoMesh.Foundation.Versioned
import RepoMesh.Orchestration.Footprint
import RepoMesh.Runner.Gateway
import RepoMesh.Runner.Recovery

namespace RepoMesh
namespace Runner

open Async (Prog)
open Orchestration
open Orchestration.World
open Delivery (UUID)

/-! ## Looking up rows that were rewritten -/

theorem getTask_map {w : World} {f : Task → Task} (hid : ∀ t, (f t).id = t.id) (id : UUID) :
    ({ w with tasks := w.tasks.map f } : World).getTask id = (w.getTask id).map f := by
  unfold World.getTask
  rw [List.find?_map]
  have hkey : ((fun t : Task => t.id == id) ∘ f) = fun t => t.id == id := by
    funext t
    simp [hid]
  rw [hkey]

theorem exec_tasks {op : Op} (hadd : op.kind ≠ .addTask) (hupdate : op.kind ≠ .updateTask)
    (w : World) : (exec op w).2.tasks = w.tasks := by
  cases op with
  | addTask task key fp => exact absurd rfl hadd
  | updateTask task v => exact absurd rfl hupdate
  | addPlan plan key =>
    simp only [exec, World.addPlan]
    split <;> rfl
  | updatePlan plan v =>
    simp only [exec, World.updatePlan]
    split
    · rfl
    · split <;> rfl
  | ensureAssignment a =>
    simp only [exec, World.ensureAssignment]
    split <;> rfl
  | saveAssignment read new =>
    simp only [exec, World.saveAssignment]
    split <;> rfl
  | _ => rfl

theorem getTask_congr {w w' : World} (h : w'.tasks = w.tasks) (id : UUID) :
    w'.getTask id = w.getTask id := by
  unfold World.getTask
  rw [h]

theorem lockAssignment_ok {w : World} {rows : Attempts} {taskId : UUID} {version : ℕ}
    {generation : ℤ} {task : Task} {active : TaskAssignmentAttempt}
    (h : lockAssignment w rows taskId version generation = .ok (task, active)) :
    w.getTask taskId = some task ∧ rows.active taskId = some active ∧ task.version = version ∧
      active.generation = generation := by
  unfold lockAssignment at h
  split at h
  · rename_i htask hactive
    split_ifs at h with hchanged
    cases h
    simp only [not_or, not_not] at hchanged
    exact ⟨htask, hactive, hchanged.1, hchanged.2⟩
  · cases h

/-- The attempt `reassign` adds. -/
def replacementAttempt (task : Task) (active : TaskAssignmentAttempt) (c : ReassignCommand)
    (id : UUID) (now : Delivery.Instant) : TaskAssignmentAttempt :=
  { id := id
    organizationId := task.organizationId
    projectId := task.projectId
    repositoryId := task.repositoryId
    taskId := task.id
    workerAgentId := c.replacementWorkerId
    generation := active.generation + 1
    reason := c.reason
    assignedBy := c.assignedBy
    assignedById := c.assignedById
    previousAttemptId := some active.id
    createdAt := now }

/-- **Reassigning.** -/
theorem reassign_ok {w w' : World} {rows rows' : Attempts} {c : ReassignCommand} {id : UUID}
    {now : Delivery.Instant} {attempt : TaskAssignmentAttempt}
    (h : reassign w rows c id now = .ok (attempt, w', rows')) :
    ∃ task active, w.getTask c.taskId = some task ∧ rows.active c.taskId = some active ∧
      task.version = c.expectedTaskVersion ∧ active.generation = c.expectedGeneration ∧
      active.workerAgentId ≠ c.replacementWorkerId ∧
      task.assignedByAgentId ≠ c.replacementWorkerId ∧
      w' = reassignTask w c.taskId c.replacementWorkerId ∧
      attempt = replacementAttempt task active c id now ∧
      rows' = Keyed.write (·.id) rows active.id
        (fun a => { a with state := .superseded, finishedAt := some now }) ++ [attempt] := by
  obtain ⟨⟨task, active⟩, hlock, h⟩ := Fallible.bind_ok h
  obtain ⟨htask, hactive, hversion, hgeneration⟩ := lockAssignment_ok hlock
  dsimp only at h
  split_ifs at h with hsame hassigner
  cases h
  exact ⟨task, active, htask, hactive, hversion, hgeneration, hsame, hassigner, rfl, rfl, rfl⟩

/-- **Reopening.** -/
theorem reopenSameAssignment_ok {w w' : World} {rows : Attempts} {taskId : UUID} {version : ℕ}
    {generation : ℤ} {attempt : TaskAssignmentAttempt}
    (h : reopenSameAssignment w rows taskId version generation = .ok (attempt, w')) :
    ∃ task, w.getTask taskId = some task ∧ rows.active taskId = some attempt ∧
      task.version = version ∧ attempt.generation = generation ∧
      w' = w.writeTask (task.moved .assigned none) := by
  obtain ⟨⟨task, active⟩, hlock, h⟩ := Fallible.bind_ok h
  obtain ⟨htask, hactive, hversion, hgeneration⟩ := lockAssignment_ok hlock
  cases h
  exact ⟨task, htask, hactive, hversion, hgeneration, rfl⟩

theorem getTask_reassignTask (w : World) (taskId worker id : UUID) :
    (reassignTask w taskId worker).getTask id = (w.getTask id).map fun t =>
      if h : t.id = taskId ∧ t.assignedByAgentId ≠ worker then reassigned t worker h.2 else t := by
  refine getTask_map (fun t => ?_) id
  split <;> rfl

/-! ## The effect of one operation on one row -/

/-- What an operation that is answered with a result may make of a task row. -/
inductive TaskEffect : RunnerCallOp → Task → Task → Prop
  | updated {task t : Task} (same : task.id = t.id) :
      TaskEffect (.task (.updateTask task t.version)) t (rewritten task t)
  | reassigned {c : ReassignCommand} {t : Task} (same : t.id = c.taskId)
      (version : t.version = c.expectedTaskVersion)
      (h : t.assignedByAgentId ≠ c.replacementWorkerId) :
      TaskEffect (.reassign c) t (reassigned t c.replacementWorkerId h)
  | reopened {generation : ℤ} {t : Task} :
      TaskEffect (.reopenSameAssignment t.id t.version generation) t (t.moved .assigned none)

/-- The operations that write a task row. -/
def WritesTask : RunnerCallOp → Prop
  | .task (.addTask ..) | .task (.updateTask ..) | .reassign _ | .reopenSameAssignment .. => True
  | _ => False

/-- A row, after an operation that answered `r`: it is what it was, or what the operation made of
it. -/
def RowAfter (op : RunnerCallOp) (r : Except Raised (RunnerAnswer op)) (t t' : Task) : Prop :=
  t' = t ∨ (∃ a, r = .ok a) ∧ TaskEffect op t t'

/-- **No other writes.** An operation that is refused, and one that writes no task row, leave the
rows. -/
theorem tasks_of_exec {op : RunnerCallOp} {st st' : RunnerWorld}
    {r : Except Raised (RunnerAnswer op)} (h : RunnerExec op st r st')
    (hop : ¬ WritesTask op ∨ ∃ e, r = .error e) : st'.world.tasks = st.world.tasks := by
  cases h with
  | raises => rfl
  | port => rfl
  | store answered =>
    cases op with
    | task op =>
      cases answered
      rcases hop with hop | ⟨e, he⟩
      · refine exec_tasks (fun hadd => ?_) (fun hupdate => ?_) st.world
        · cases op <;> first | exact hop trivial | cases hadd
        · cases op <;> first | exact hop trivial | cases hupdate
      · cases op with
        | addTask task key fp =>
          simp only [exec] at he ⊢
          cases hadd : st.world.addTask task key fp with
          | error e' => rfl
          | ok w' => rw [hadd] at he; cases he
        | updateTask task v =>
          simp only [exec] at he ⊢
          cases hupdate : st.world.updateTask task v with
          | error e' => rfl
          | ok w' => rw [hupdate] at he; cases he
        | _ => exact exec_tasks (fun hk => by cases hk) (fun hk => by cases hk) st.world
    | recordEvent event worker allowed =>
      simp only [perform] at answered
      split at answered <;> cases answered <;> rfl
    | ensureRecoveryForRun runId reason session =>
      cases answered
      unfold ensureRecovery
      split <;> rfl
    | completeCurrent taskId attemptId generation =>
      simp only [perform] at answered
      split at answered <;> cases answered <;> rfl
    | ensureInitial taskId =>
      simp only [perform] at answered
      split at answered <;> cases answered <;> rfl
    | reassign c =>
      rcases hop with hop | ⟨e, rfl⟩
      · exact absurd trivial hop
      · simp only [perform] at answered
        split at answered <;> cases answered
        rfl
    | reopenSameAssignment taskId version generation =>
      rcases hop with hop | ⟨e, rfl⟩
      · exact absurd trivial hop
      · simp only [perform] at answered
        split at answered <;> cases answered
        rfl
    | healthy worker => cases answered
    | recentFailures worker => cases answered
    | resume operation => cases answered
    | startReplacement taskId worker => cases answered
    | escalate operation reason => cases answered
    | onTerminal taskId => cases answered
    | _ => cases answered; rfl

theorem rows_of_task {op : Op} {st : RunnerWorld} (id : UUID) (t : Task)
    (ht : st.getTask id = some t) :
    ∃ t', (exec op st.world).2.getTask id = some t' ∧
      RowAfter (.task op) (exec op st.world).1 t t' := by
  by_cases hadd : op.kind = .addTask
  · cases op with
    | addTask task key fp =>
      simp only [exec]
      cases haddTask : st.world.addTask task key fp with
      | error e => exact ⟨t, ht, .inl rfl⟩
      | ok w' =>
        refine ⟨t, ?_, .inl rfl⟩
        rw [written_ok, getTask_addTask haddTask]
        split
        · rename_i hid
          subst hid
          cases (addTask_ok haddTask).1.symm.trans ht
        · exact ht
    | _ => cases hadd
  by_cases hupdate : op.kind = .updateTask
  · cases op with
    | updateTask task v =>
      simp only [exec]
      cases hwrite : st.world.updateTask task v with
      | error e => exact ⟨t, ht, .inl rfl⟩
      | ok w' =>
        obtain ⟨current, hcurrent, rfl, rfl⟩ := updateTask_ok hwrite
        refine ⟨rewritten task t, ?_, ?_⟩
        · rw [written_ok, getTask_writeTask]
          exact congrArg _ ht
        · by_cases hid : t.id = task.id
          · have hid' : task.id = id := hid.symm.trans (getTask_eq_some ht).2
            rw [hid'] at hcurrent
            obtain rfl := Option.some.inj (hcurrent.symm.trans ht)
            exact .inr ⟨⟨_, rfl⟩, .updated hid.symm⟩
          · exact .inl (if_neg hid)
    | _ => cases hupdate
  · refine ⟨t, ?_, .inl rfl⟩
    rw [getTask_congr (exec_tasks hadd hupdate st.world)]
    exact ht

/-- **One operation.** Every row that was there is still there, as it was or as the operation made
it. -/
theorem rows_of_exec {op : RunnerCallOp} {st st' : RunnerWorld} {r : Except Raised (RunnerAnswer op)}
    (h : RunnerExec op st r st') (id : UUID) (t : Task) (ht : st.getTask id = some t) :
    ∃ t', st'.getTask id = some t' ∧ RowAfter op r t t' := by
  by_cases hop : ¬ WritesTask op ∨ ∃ e, r = .error e
  · have hsame : st'.getTask id = st.getTask id := getTask_congr (tasks_of_exec h hop) id
    exact ⟨t, hsame.trans ht, .inl rfl⟩
  obtain ⟨hwrites, hanswer⟩ := not_or.mp hop
  cases h with
  | raises => exact absurd ⟨_, rfl⟩ hanswer
  | port r isPort =>
    cases op with
    | task op => cases isPort
    | reassign c =>
      simp only [perform] at isPort
      split at isPort <;> cases isPort
    | reopenSameAssignment taskId version generation =>
      simp only [perform] at isPort
      split at isPort <;> cases isPort
    | _ => exact absurd (fun h => h) hwrites
  | store answered =>
    cases op with
    | task op =>
      cases answered
      exact rows_of_task id t ht
    | reassign c =>
      simp only [perform] at answered
      split at answered
      · rename_i attempt world attempts hreassign
        cases answered
        obtain ⟨task, active, htask, -, hversion, -, -, hassigner, rfl, -⟩ := reassign_ok hreassign
        have hrow : (reassignTask st.world c.taskId c.replacementWorkerId).getTask id = _ :=
          (getTask_reassignTask st.world c.taskId c.replacementWorkerId id).trans
            (congrArg _ ht)
        refine ⟨_, hrow, ?_⟩
        have hid := (getTask_eq_some ht).2
        dsimp only
        split
        · rename_i hsame
          rw [← hid, hsame.1] at ht
          obtain rfl := Option.some.inj (htask.symm.trans ht)
          exact .inr ⟨⟨_, rfl⟩, .reassigned hsame.1 hversion hassigner⟩
        · exact .inl rfl
      · cases answered
        exact absurd ⟨_, rfl⟩ hanswer
    | reopenSameAssignment taskId version generation =>
      simp only [perform] at answered
      split at answered
      · rename_i attempt world hreopen
        cases answered
        obtain ⟨task, htask, -, rfl, -, rfl⟩ := reopenSameAssignment_ok hreopen
        have hrow : (st.world.writeTask (task.moved .assigned none)).getTask id = _ :=
          (getTask_writeTask st.world (task.moved .assigned none) id).trans (congrArg _ ht)
        refine ⟨_, hrow, ?_⟩
        by_cases hid : t.id = (task.moved .assigned none).id
        · have htaskId : task.id = taskId := (getTask_eq_some htask).2
          have hsame : id = taskId :=
            ((getTask_eq_some ht).2.symm.trans hid).trans htaskId
          rw [hsame] at ht
          obtain rfl := Option.some.inj (htask.symm.trans ht)
          rw [← htaskId, Orchestration.World.rewritten, if_pos hid]
          exact .inr ⟨⟨_, rfl⟩, .reopened⟩
        · exact .inl (if_neg hid)
      · cases answered
        exact absurd ⟨_, rfl⟩ hanswer
    | _ => exact absurd (fun h => h) hwrites

theorem getTask_answered {taskId : UUID} {st st' : RunnerWorld} {a : Option Task}
    (h : RunnerExec (.task (.getTask taskId)) st (.ok a) st') :
    st.getTask taskId = a ∧ st' = st := by
  cases h with
  | port r isPort => cases isPort
  | store answered =>
    have hpair := Option.some.inj answered
    exact ⟨Except.ok.inj (congrArg Prod.fst hpair), (congrArg Prod.snd hpair).symm⟩

theorem updateTask_writes {task : Task} {version : ℕ} {st st' : RunnerWorld} {a : Unit}
    (h : RunnerExec (.task (.updateTask task version)) st (.ok a) st') :
    ∃ t, st.getTask task.id = some t ∧ t.version = version ∧
      st'.getTask task.id = some (rewritten task t) := by
  cases h with
  | port r isPort => cases isPort
  | store answered =>
    have hpair := Option.some.inj answered
    have hresult : (exec (.updateTask task version) st.world).1 = .ok a := congrArg Prod.fst hpair
    have hstate : ({ st with world := (exec (.updateTask task version) st.world).2 } : RunnerWorld) =
        st' := congrArg Prod.snd hpair
    simp only [exec] at hresult hstate
    cases hupdate : st.world.updateTask task version with
    | error e =>
      rw [hupdate] at hresult
      cases hresult
    | ok w' =>
      obtain ⟨t, ht, hversion, rfl⟩ := updateTask_ok hupdate
      refine ⟨t, ht, hversion, ?_⟩
      rw [← hstate, hupdate]
      exact (getTask_writeTask st.world task task.id).trans (congrArg _ ht)

theorem reassign_writes {c : ReassignCommand} {st st' : RunnerWorld} {a : TaskAssignmentAttempt}
    (h : RunnerExec (.reassign c) st (.ok a) st') {t : Task} (ht : st.getTask c.taskId = some t) :
    ∃ t', st'.getTask c.taskId = some t' ∧ t'.version = t.version + 1 := by
  cases h with
  | port r isPort =>
    simp only [perform] at isPort
    split at isPort <;> cases isPort
  | store answered =>
    simp only [perform] at answered
    split at answered
    · rename_i attempt world attempts hreassign
      cases answered
      obtain ⟨task, active, htask, -, -, -, -, hassigner, rfl, -⟩ := reassign_ok hreassign
      obtain rfl := Option.some.inj (htask.symm.trans ht)
      have hrow : (reassignTask st.world c.taskId c.replacementWorkerId).getTask c.taskId = _ :=
        (getTask_reassignTask st.world c.taskId c.replacementWorkerId c.taskId).trans
          (congrArg _ ht)
      refine ⟨_, hrow, ?_⟩
      have hlocked : task.id = c.taskId ∧ task.assignedByAgentId ≠ c.replacementWorkerId :=
        ⟨(getTask_eq_some ht).2, hassigner⟩
      dsimp only
      rw [dif_pos hlocked]
      rfl
    · cases answered

theorem reopenSameAssignment_writes {taskId : UUID} {version : ℕ} {generation : ℤ}
    {st st' : RunnerWorld} {a : TaskAssignmentAttempt}
    (h : RunnerExec (.reopenSameAssignment taskId version generation) st (.ok a) st') {t : Task}
    (ht : st.getTask taskId = some t) :
    ∃ t', st'.getTask taskId = some t' ∧ t'.version = t.version + 1 := by
  cases h with
  | port r isPort =>
    simp only [perform] at isPort
    split at isPort <;> cases isPort
  | store answered =>
    simp only [perform] at answered
    split at answered
    · rename_i attempt world hreopen
      cases answered
      obtain ⟨task, htask, -, -, -, rfl⟩ := reopenSameAssignment_ok hreopen
      obtain rfl := Option.some.inj (htask.symm.trans ht)
      have hrow : (st.world.writeTask (task.moved .assigned none)).getTask taskId = _ :=
        (getTask_writeTask st.world (task.moved .assigned none) taskId).trans (congrArg _ ht)
      refine ⟨_, hrow, ?_⟩
      rw [Orchestration.World.rewritten, if_pos (by rfl)]
      rfl
    · cases answered

end Runner
end RepoMesh
