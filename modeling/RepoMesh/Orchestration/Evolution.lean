/-
# Rows that last

No operation deletes a task row, rebinds an idempotency key or touches the columns that say what
a task is. The module states this as one relation between an earlier and a later world and
proves it of every operation, hence of every call.
-/
import RepoMesh.Foundation.Threads
import RepoMesh.Orchestration.World

namespace RepoMesh
namespace Orchestration

open Async (Prog Threaded Pool)
open Delivery (UUID)

/-- Two states of one task row: everything but status, result and version agrees. -/
def Task.SameRow (t t' : Task) : Prop :=
  t' = { t with status := t'.status, resultSummary := t'.resultSummary, version := t'.version }

namespace Task

theorem SameRow.refl (t : Task) : t.SameRow t := rfl

theorem SameRow.trans {a b c : Task} (hab : a.SameRow b) (hbc : b.SameRow c) : a.SameRow c := by
  unfold SameRow at hab hbc ⊢
  rw [hbc, hab]

theorem SameRow.id_eq {t t' : Task} (h : t.SameRow t') : t'.id = t.id := by
  rw [SameRow] at h; rw [h]

theorem SameRow.assigneeAgentId_eq {t t' : Task} (h : t.SameRow t') :
    t'.assigneeAgentId = t.assigneeAgentId := by
  rw [SameRow] at h; rw [h]

theorem SameRow.projectId_eq {t t' : Task} (h : t.SameRow t') : t'.projectId = t.projectId := by
  rw [SameRow] at h; rw [h]

theorem SameRow.repositoryId_eq {t t' : Task} (h : t.SameRow t') :
    t'.repositoryId = t.repositoryId := by
  rw [SameRow] at h; rw [h]

end Task

namespace World

variable {w w' : World} {task : Task} {key fp : String} {id : UUID}

/-! ## Looking up rows -/

theorem getTask_eq_some {t : Task} (h : w.getTask id = some t) : t ∈ w.tasks ∧ t.id = id := by
  refine ⟨List.mem_of_find?_eq_some h, ?_⟩
  simpa using List.find?_some h

theorem getAssignment_eq_some {a : LeaderAssignmentView} (h : w.getAssignment id = some a) :
    a ∈ w.assignments ∧ a.leaderTaskId = id := by
  refine ⟨List.mem_of_find?_eq_some h, ?_⟩
  simpa using List.find?_some h

/-- What a key is bound to. -/
def keyEntry (w : World) (key : String) : Option (UUID × String) :=
  (w.taskKeys.find? fun e => e.1 == key).map (·.2)

theorem taskByKey_eq (w : World) (key : String) :
    w.taskByKey key =
      (w.keyEntry key).bind fun e => (w.getTask e.1).map fun task => (task, e.2) := by
  unfold taskByKey keyEntry
  cases w.taskKeys.find? fun e => e.1 == key with
  | none => rfl
  | some e => cases h : w.getTask e.2.1 <;> simp [h]

/-! ## Writing rows -/

/-- The columns of one row after an update. -/
def rewritten (task t : Task) : Task :=
  if t.id = task.id then
    { t with status := task.status, resultSummary := task.resultSummary, version := task.version }
  else t

theorem writeTask_tasks (w : World) (task : Task) :
    (w.writeTask task).tasks = w.tasks.map (rewritten task) := rfl

theorem sameRow_rewritten (task t : Task) : t.SameRow (rewritten task t) := by
  unfold rewritten
  split
  · rfl
  · exact Task.SameRow.refl t

theorem rewritten_id (task t : Task) : (rewritten task t).id = t.id :=
  (sameRow_rewritten task t).id_eq

theorem getTask_writeTask (w : World) (task : Task) (id : UUID) :
    (w.writeTask task).getTask id = (w.getTask id).map (rewritten task) := by
  unfold getTask
  rw [writeTask_tasks, List.find?_map]
  have hid : ((fun t : Task => t.id == id) ∘ rewritten task) = fun t => t.id == id := by
    funext t
    simp [rewritten_id]
  rw [hid]

theorem getTask_addTask (h : w.addTask task key fp = .ok w') (id : UUID) :
    w'.getTask id = if id = task.id then some task else w.getTask id := by
  unfold addTask at h
  split at h
  · cases h
  · rename_i hfresh
    obtain rfl := Except.ok.inj h
    have hnone : w.getTask task.id = none := by
      by_contra hsome
      exact hfresh (.inl (Option.isSome_iff_ne_none.mpr hsome))
    simp only [getTask, List.find?_append]
    by_cases hid : id = task.id
    · subst hid
      have hfind : w.tasks.find? (fun t => t.id == task.id) = none := hnone
      simp [hfind]
    · simp [hid, Ne.symm hid]

theorem keyEntry_addTask (h : w.addTask task key fp = .ok w') (key' : String) :
    w'.keyEntry key' = if key' = key then some (task.id, fp) else w.keyEntry key' := by
  unfold addTask at h
  split at h
  · cases h
  · rename_i hfresh
    obtain rfl := Except.ok.inj h
    have hnone : w.taskKeys.find? (fun e => e.1 == key) = none := by
      rw [List.find?_eq_none]
      intro e he hkey
      exact hfresh (.inr (List.any_eq_true.mpr ⟨e, he, hkey⟩))
    simp only [keyEntry, List.find?_append]
    by_cases hkey : key' = key
    · subst hkey
      simp [hnone]
    · simp [hkey, Ne.symm hkey]

theorem addTask_ok (h : w.addTask task key fp = .ok w') :
    w.getTask task.id = none ∧ w.keyEntry key = none ∧
      w' = { w with
        tasks := w.tasks ++ [task]
        taskKeys := w.taskKeys ++ [(key, task.id, fp)] } := by
  unfold addTask at h
  split at h
  · cases h
  · rename_i hfresh
    rw [not_or] at hfresh
    refine ⟨by simpa using hfresh.1, ?_, (Except.ok.inj h).symm⟩
    unfold keyEntry
    rw [Option.map_eq_none_iff, List.find?_eq_none]
    intro e he hkey
    exact hfresh.2 (List.any_eq_true.mpr ⟨e, he, hkey⟩)

theorem updateTask_ok {v : ℕ} (h : w.updateTask task v = .ok w') :
    ∃ current, w.getTask task.id = some current ∧ current.version = v ∧ w' = w.writeTask task := by
  unfold updateTask at h
  split at h
  · cases h
  · rename_i current hcurrent
    split at h
    · cases h
    · rename_i hversion
      exact ⟨current, hcurrent, not_not.mp hversion, (Except.ok.inj h).symm⟩

theorem updatePlan_ok {plan : ExecutionPlan} {v : ℕ} (h : w.updatePlan plan v = .ok w') :
    ∃ current, w.getPlan plan.id = some current ∧ current.version = v ∧ w' = w.writePlan plan := by
  unfold updatePlan at h
  split at h
  · cases h
  · rename_i current hcurrent
    split at h
    · cases h
    · rename_i hversion
      exact ⟨current, hcurrent, not_not.mp hversion, (Except.ok.inj h).symm⟩

theorem saveAssignment_ok {a : LeaderAssignmentView} (h : w.saveAssignment a = .ok w') :
    (∃ stored, w.getAssignment a.leaderTaskId = some stored) ∧ w' = w.writeAssignment a := by
  unfold saveAssignment at h
  split at h
  · cases h
  · rename_i stored hstored
    exact ⟨⟨stored, hstored⟩, (Except.ok.inj h).symm⟩

theorem getAssignment_writeAssignment (w : World) (a : LeaderAssignmentView) (id : UUID) :
    (w.writeAssignment a).getAssignment id =
      (w.getAssignment id).map fun b => if b.leaderTaskId = a.leaderTaskId then a else b := by
  unfold getAssignment writeAssignment
  simp only
  rw [List.find?_map]
  have hid : ((fun b : LeaderAssignmentView => b.leaderTaskId == id) ∘
      fun b => if b.leaderTaskId = a.leaderTaskId then a else b) =
        fun b => b.leaderTaskId == id := by
    funext b
    simp only [Function.comp]
    split
    · rename_i h; rw [h]
    · rfl
  rw [hid]

theorem getAssignment_writeAssignment_self {a stored : LeaderAssignmentView}
    (h : w.getAssignment a.leaderTaskId = some stored) :
    (w.writeAssignment a).getAssignment a.leaderTaskId = some a := by
  rw [getAssignment_writeAssignment, h]
  simp [(getAssignment_eq_some h).2]

theorem getAssignment_writeAssignment_of_ne {a : LeaderAssignmentView} (h : id ≠ a.leaderTaskId) :
    (w.writeAssignment a).getAssignment id = w.getAssignment id := by
  rw [getAssignment_writeAssignment]
  cases hget : w.getAssignment id with
  | none => rfl
  | some b =>
    have hb : b.leaderTaskId = id := (getAssignment_eq_some hget).2
    rw [Option.map_some, if_neg (by rw [hb]; exact h)]

/-! ## Evolution -/

/-- Every task row and every key binding of `w` is still there in `w'`. -/
structure Evolves (w w' : World) : Prop where
  row : ∀ id t, w.getTask id = some t → ∃ t', w'.getTask id = some t' ∧ t.SameRow t'
  key : ∀ key e, w.keyEntry key = some e → w'.keyEntry key = some e

theorem Evolves.refl (w : World) : w.Evolves w :=
  ⟨fun _ t h => ⟨t, h, .refl t⟩, fun _ _ h => h⟩

theorem Evolves.trans {a b c : World} (hab : a.Evolves b) (hbc : b.Evolves c) : a.Evolves c := by
  refine ⟨fun id t h => ?_, fun key e h => hbc.key key e (hab.key key e h)⟩
  obtain ⟨t', ht', hrow⟩ := hab.row id t h
  obtain ⟨t'', ht'', hrow'⟩ := hbc.row id t' ht'
  exact ⟨t'', ht'', hrow.trans hrow'⟩

theorem Evolves.of_eq (htasks : w'.tasks = w.tasks) (hkeys : w'.taskKeys = w.taskKeys) :
    w.Evolves w' := by
  refine ⟨fun id t h => ⟨t, ?_, .refl t⟩, fun key e h => ?_⟩
  · rwa [getTask, htasks]
  · rwa [keyEntry, hkeys]

theorem Evolves.taskByKey (h : w.Evolves w') {t : Task} (ht : w.taskByKey key = some (t, fp)) :
    ∃ t', w'.taskByKey key = some (t', fp) ∧ t.SameRow t' := by
  rw [taskByKey_eq] at ht
  obtain ⟨⟨id, fp'⟩, hentry, hrow⟩ := Option.bind_eq_some_iff.mp ht
  obtain ⟨t₀, ht₀, heq⟩ := Option.map_eq_some_iff.mp hrow
  obtain ⟨rfl, rfl⟩ := Prod.mk.inj heq
  obtain ⟨t', ht', hsame⟩ := h.row id t₀ ht₀
  refine ⟨t', ?_, hsame⟩
  rw [taskByKey_eq, h.key key _ hentry]
  simp [ht']

end World

open World

/-- **Every operation keeps the rows.** -/
theorem exec_evolves (op : Op) (w : World) : w.Evolves (exec op w).2 := by
  cases op with
  | addTask task key fp =>
    cases h : w.addTask task key fp with
    | error e => simp only [exec, h, written_error]; exact .refl w
    | ok w' =>
      simp only [exec, h, written_ok]
      obtain ⟨hnone, hunbound, -⟩ := addTask_ok h
      refine ⟨fun id t ht => ⟨t, ?_, .refl t⟩, fun k e he => ?_⟩
      · rw [getTask_addTask h, if_neg, ht]
        rintro rfl
        rw [hnone] at ht
        cases ht
      · rw [keyEntry_addTask h, if_neg, he]
        rintro rfl
        rw [hunbound] at he
        cases he
  | updateTask task v =>
    cases h : w.updateTask task v with
    | error e => simp only [exec, h, written_error]; exact .refl w
    | ok w' =>
      simp only [exec, h, written_ok]
      obtain ⟨-, -, -, rfl⟩ := updateTask_ok h
      refine ⟨fun id t ht => ?_, fun k e he => he⟩
      exact ⟨rewritten task t, by rw [getTask_writeTask, ht]; rfl, sameRow_rewritten task t⟩
  | addPlan plan key =>
    simp only [exec, World.addPlan]
    split <;> exact .of_eq rfl rfl
  | updatePlan plan v =>
    cases h : w.updatePlan plan v with
    | error e => simp only [exec, h, written_error]; exact .refl w
    | ok w' =>
      simp only [exec, h, written_ok]
      obtain ⟨-, -, -, rfl⟩ := updatePlan_ok h
      exact .of_eq rfl rfl
  | ensureAssignment a =>
    simp only [exec, World.ensureAssignment]
    split <;> exact .of_eq rfl rfl
  | saveAssignment read new =>
    cases h : w.saveAssignment new with
    | error e => simp only [exec, h, written_error]; exact .refl w
    | ok w' =>
      simp only [exec, h, written_ok]
      obtain ⟨-, rfl⟩ := saveAssignment_ok h
      exact .of_eq rfl rfl
  | _ => exact .of_eq rfl rfl

/-! ## Interleaved calls -/

/-- Any number of calls of the module, of whatever kind, interrupted at every `await`. -/
def orchestration : Threaded Op.Answer Raised Unit World where
  Exec := fun op w r w' => exec op w = (r, w')
  Starts := fun _ => True
  Environment := fun _ _ => False

/-- Ports that allow everything and know nobody. -/
def quietPorts : Ports where
  agent := fun _ => .ok none
  topology := fun _ => .ok none
  operationalGate := fun _ => .ok ⟨true, "automatic_project"⟩
  evaluateCheckpoint := fun _ => .ok ⟨true, "automatic_project"⟩
  decompositionMode := fun _ _ => .ok .server
  publish := fun _ _ _ _ _ => .ok ⟨"task", "hash"⟩
  send := fun _ _ => .ok ()
  ensureApproved := fun _ _ _ _ => .ok ()
  databaseAutomation := fun _ => .ok ()
  onBatchDeliver := fun _ delivery => (.ok (), delivery)

end Orchestration
end RepoMesh
