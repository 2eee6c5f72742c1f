/-
# The lineage of an assignment

The attempts of one task, in the order of their rows: numbered from one, each linked to the one
before, and only the last can be active. Every call of the runner integration keeps this, whatever
it is interleaved with.
-/
import RepoMesh.Runner.TaskRows

namespace RepoMesh
namespace Runner

open Runs
open Orchestration
open Orchestration.World
open Delivery (UUID)

/-- `bind_execution`. -/
def Attempts.bindExecution (rows : Attempts) (taskId : UUID) (expectedGeneration : ℤ)
    (executionId : UUID) : Except Raised Attempts :=
  match rows.active taskId with
  | none => .error (.taskConflict "task assignment generation changed")
  | some active =>
    if active.generation ≠ expectedGeneration then
      .error (.taskConflict "task assignment generation changed")
    else .ok (Keyed.write (·.id) rows active.id fun a => { a with executionId := some executionId })

/-- `history`: the attempts of a task. -/
def Attempts.history (rows : Attempts) (taskId : UUID) : Attempts :=
  rows.filter fun a => a.taskId == taskId

/-- A call of a store, or what happens to the other tables and the clock. -/
inductive LineageOp where
  | call (op : RunnerCallOp)
  | bindExecution (taskId : UUID) (expectedGeneration : ℤ) (executionId : UUID)
  | later (runtime : AgentRuntime.RuntimeState) (recoveries : Recoveries)

/-- The world after it. -/
def RunnerWorld.next (st : RunnerWorld) : LineageOp → RunnerWorld
  | .call op =>
    match perform op st with
    | some answered => answered.2
    | none => st
  | .bindExecution taskId generation executionId =>
    match st.attempts.bindExecution taskId generation executionId with
    | .ok attempts => { st with attempts := attempts }
    | .error _ => st
  | .later runtime recoveries => { st with runtime := runtime, recoveries := recoveries }

/-! ## A lineage -/

/-- The attempts of one task. -/
structure Lineage (l : Attempts) : Prop where
  numbered : ∀ (i : ℕ) a, l[i]? = some a → a.generation = (i : ℤ) + 1
  linked : ∀ (i : ℕ) a, l[i]? = some a → a.previousAttemptId = (l.take i).getLast?.map (·.id)
  last : ∀ (i : ℕ) a, l[i]? = some a → a.state = .active → i + 1 = l.length

/-- What an attempt may become: it stays the attempt it is, and once ended it keeps its state. -/
structure TaskAssignmentAttempt.Becomes (a b : TaskAssignmentAttempt) : Prop where
  id : b.id = a.id
  taskId : b.taskId = a.taskId
  worker : b.workerAgentId = a.workerAgentId
  generation : b.generation = a.generation
  previous : b.previousAttemptId = a.previousAttemptId
  state : a.state ≠ .active → b.state = a.state

open TaskAssignmentAttempt (Becomes)

theorem TaskAssignmentAttempt.Becomes.refl (a : TaskAssignmentAttempt) : a.Becomes a :=
  ⟨rfl, rfl, rfl, rfl, rfl, fun _ => rfl⟩

theorem TaskAssignmentAttempt.Becomes.trans {a b c : TaskAssignmentAttempt} (h : a.Becomes b)
    (h' : b.Becomes c) : a.Becomes c := by
  refine ⟨h'.id.trans h.id, h'.taskId.trans h.taskId, h'.worker.trans h.worker,
    h'.generation.trans h.generation, h'.previous.trans h.previous, fun hstate => ?_⟩
  have hb := h.state hstate
  exact (h'.state (hb ▸ hstate)).trans hb

theorem TaskAssignmentAttempt.Becomes.active {a b : TaskAssignmentAttempt} (h : a.Becomes b)
    (hb : b.state = .active) : a.state = .active := by
  by_contra hstate
  exact hstate ((h.state hstate).symm.trans hb)

section Attempts

variable {l : Attempts} {f : TaskAssignmentAttempt → TaskAssignmentAttempt} {taskId : UUID}
  {a : TaskAssignmentAttempt}

theorem Lineage.map (h : Lineage l) (hf : ∀ a, Becomes a (f a)) : Lineage (l.map f) := by
  have hid : ∀ xs : Attempts, (xs.map f).getLast?.map (·.id) = xs.getLast?.map (·.id) := by
    intro xs
    rw [List.getLast?_map, Option.map_map]
    exact congrArg (Option.map · _) (funext fun a => (hf a).id)
  refine ⟨fun i b hb => ?_, fun i b hb => ?_, fun i b hb hactive => ?_⟩ <;>
    rw [List.getElem?_map] at hb <;> obtain ⟨a, ha, rfl⟩ := Option.map_eq_some_iff.mp hb
  · rw [(hf a).generation, h.numbered i a ha]
  · rw [(hf a).previous, h.linked i a ha, ← List.map_take, hid]
  · rw [List.length_map, h.last i a ha ((hf a).active hactive)]

theorem Lineage.snoc (h : Lineage l) {r : TaskAssignmentAttempt}
    (hended : ∀ a ∈ l, a.state ≠ .active) (hgeneration : r.generation = l.length + 1)
    (hprevious : r.previousAttemptId = l.getLast?.map (·.id)) : Lineage (l ++ [r]) := by
  have hcases : ∀ {i a}, (l ++ [r])[i]? = some a →
      l[i]? = some a ∧ i < l.length ∨ i = l.length ∧ a = r := by
    intro i a hi
    rw [List.getElem?_append, List.getElem?_singleton] at hi
    split_ifs at hi with hlt hlast
    · exact .inl ⟨hi, hlt⟩
    · exact .inr ⟨by omega, (Option.some.inj hi).symm⟩
  refine ⟨fun i a hi => ?_, fun i a hi => ?_, fun i a hi hactive => ?_⟩ <;>
    rcases hcases hi with ⟨hl, hlt⟩ | ⟨heq, rfl⟩
  · exact h.numbered i a hl
  · rw [hgeneration, heq]
  · rw [h.linked i a hl, List.take_append_of_le_length hlt.le]
  · rw [hprevious, heq, List.take_left]
  · exact absurd hactive (hended a (List.mem_of_getElem? hl))
  · rw [heq, List.length_append, List.length_singleton]

theorem Lineage.getLast?_of_active (h : Lineage l) (ha : a ∈ l) (hactive : a.state = .active) :
    l.getLast? = some a ∧ a.generation = l.length := by
  obtain ⟨i, hi⟩ := List.getElem?_of_mem ha
  have hlength := h.last i a hi hactive
  have hnumber := h.numbered i a hi
  have hpos : l.length - 1 = i := by omega
  refine ⟨by rw [List.getLast?_eq_getElem?, hpos, hi], ?_⟩
  rw [hnumber, ← hlength]
  push_cast
  rfl

theorem Lineage.nextGeneration (h : Lineage l) :
    (l.getLast?.map (·.generation + 1)).getD 1 = (l.length : ℤ) + 1 := by
  cases hlast : l.getLast? with
  | none =>
    rw [List.getLast?_eq_none_iff] at hlast
    rw [hlast]
    rfl
  | some a =>
    rw [List.getLast?_eq_getElem?] at hlast
    have hpos := (List.getElem?_eq_some_iff.mp hlast).1
    have hnumber := h.numbered _ a hlast
    show a.generation + 1 = _
    omega

/-- `order_by(generation.desc()).limit(1)` finds the last row. -/
theorem Lineage.latest_eq (h : Lineage (l.history taskId)) :
    l.latest taskId = (l.history taskId).getLast? := by
  have htotal : Std.Total fun a b : TaskAssignmentAttempt => b.generation ≤ a.generation :=
    ⟨fun a b => le_total _ _⟩
  have htrans : IsTrans TaskAssignmentAttempt fun a b => b.generation ≤ a.generation :=
    ⟨fun a b c hab hbc => hbc.trans hab⟩
  have hsorted := List.pairwise_insertionSort
    (fun a b : TaskAssignmentAttempt => b.generation ≤ a.generation) (l.history taskId)
  have hperm := List.perm_insertionSort
    (fun a b : TaskAssignmentAttempt => b.generation ≤ a.generation) (l.history taskId)
  unfold Attempts.latest
  rw [show l.filter (fun a => a.taskId == taskId) = l.history taskId from rfl]
  cases hsort : (l.history taskId).insertionSort (fun a b => b.generation ≤ a.generation) with
  | nil =>
    rw [hsort] at hperm
    rw [← hperm.nil_eq]
    rfl
  | cons a rest =>
    rw [hsort] at hperm hsorted
    obtain ⟨i, hi⟩ := List.getElem?_of_mem (hperm.subset List.mem_cons_self)
    have hlt : i < (l.history taskId).length := (List.getElem?_eq_some_iff.mp hi).1
    obtain ⟨b, hend⟩ : ∃ b, (l.history taskId)[(l.history taskId).length - 1]? = some b :=
      ⟨_, List.getElem?_eq_getElem (by omega)⟩
    have hle : b.generation ≤ a.generation := by
      rcases List.mem_cons.mp (hperm.symm.subset (List.mem_of_getElem? hend)) with heq | hmem
      · rw [heq]
      · exact List.rel_of_pairwise_cons hsorted hmem
    rw [h.numbered _ _ hend, h.numbered i a hi] at hle
    have hpos : (l.history taskId).length - 1 = i := by omega
    rw [List.head?_cons, List.getLast?_eq_getElem?, hpos, hi]

theorem history_map (hf : ∀ a, Becomes a (f a)) (taskId : UUID) :
    Attempts.history (l.map f) taskId = (l.history taskId).map f := by
  unfold Attempts.history
  rw [List.filter_map]
  exact congrArg (List.map f) (List.filter_congr fun a _ => by simp [(hf a).taskId])

theorem mem_history : a ∈ l.history taskId ↔ a ∈ l ∧ a.taskId = taskId := by
  simp [Attempts.history]

theorem active_eq_some (h : l.active taskId = some a) :
    a ∈ l ∧ a.taskId = taskId ∧ a.state = .active := by
  refine ⟨List.mem_of_find?_eq_some h, ?_⟩
  simpa using List.find?_some h

end Attempts

/-! ## The stores -/

/-- The attempts of every task are a lineage, their identifiers have been drawn, and an active
attempt names the assignee of its task. -/
structure RunnerWorld.AttemptsWF (st : RunnerWorld) : Prop where
  drawn : ∀ a ∈ st.attempts, a.id < st.world.nextId
  ids : (st.attempts.map (·.id)).Nodup
  lineage : ∀ taskId, Lineage (st.attempts.history taskId)
  assigned : ∀ a ∈ st.attempts, a.state = .active →
    ∃ t, st.getTask a.taskId = some t ∧ t.assigneeAgentId = a.workerAgentId

/-- An attempt that continues the lineage of its task. -/
structure NewAttempt (st st' : RunnerWorld) (f : TaskAssignmentAttempt → TaskAssignmentAttempt)
    (r : TaskAssignmentAttempt) : Prop where
  id : r.id = st.world.nextId
  drawn : st.world.nextId < st'.world.nextId
  ended : ∀ a ∈ st.attempts, a.taskId = r.taskId → (f a).state ≠ .active
  generation : r.generation = (st.attempts.history r.taskId).length + 1
  previous : r.previousAttemptId = (st.attempts.history r.taskId).getLast?.map (·.id)
  assigned : ∃ t, st'.getTask r.taskId = some t ∧ t.assigneeAgentId = r.workerAgentId

/-- What a step does to the attempts. -/
structure Continues (st st' : RunnerWorld) (f : TaskAssignmentAttempt → TaskAssignmentAttempt)
    (new : Attempts) : Prop where
  rows : st'.attempts = st.attempts.map f ++ new
  becomes : ∀ a, Becomes a (f a)
  nextId : st.world.nextId ≤ st'.world.nextId
  assignee : ∀ a ∈ st.attempts, (f a).state = .active → ∀ t, st.getTask a.taskId = some t →
    ∃ t', st'.getTask a.taskId = some t' ∧ t'.assigneeAgentId = t.assigneeAgentId
  new : ∀ r ∈ new, new = [r] ∧ NewAttempt st st' f r

section Steps

variable {st st' : RunnerWorld} {f : TaskAssignmentAttempt → TaskAssignmentAttempt} {new : Attempts}

theorem Continues.lineage (hc : Continues st st' f new) (h : st.AttemptsWF) (taskId : UUID) :
    Lineage (st'.attempts.history taskId) := by
  have hmap := (h.lineage taskId).map hc.becomes
  have hrows : st'.attempts.history taskId =
      (st.attempts.history taskId).map f ++ Attempts.history new taskId := by
    rw [hc.rows, ← history_map hc.becomes]
    exact List.filter_append _ _
  rw [hrows]
  cases hnew : Attempts.history new taskId with
  | nil => rwa [List.append_nil]
  | cons r rest =>
    have hfirst : r ∈ Attempts.history new taskId := hnew ▸ List.mem_cons_self
    obtain ⟨hmem, rfl⟩ := mem_history.mp hfirst
    obtain ⟨hsingle, hr⟩ := hc.new r hmem
    have hrest : r :: rest = [r] := by
      rw [← hnew, hsingle]
      simp [Attempts.history]
    rw [hrest]
    refine hmap.snoc (fun a ha => ?_) (by rw [List.length_map, hr.generation]) ?_
    · obtain ⟨x, hx, rfl⟩ := List.mem_map.mp ha
      obtain ⟨hx, htask⟩ := mem_history.mp hx
      exact hr.ended x hx htask
    · rw [hr.previous, List.getLast?_map, Option.map_map]
      exact congrArg (Option.map · _) (funext fun a => (hc.becomes a).id.symm)

/-- **One step** keeps the attempts well formed. -/
theorem Continues.wf (hc : Continues st st' f new) (h : st.AttemptsWF) : st'.AttemptsWF := by
  have hmem : ∀ a ∈ st'.attempts, (∃ x ∈ st.attempts, f x = a) ∨ a ∈ new := by
    intro a ha
    rw [hc.rows] at ha
    exact (List.mem_append.mp ha).imp_left List.mem_map.mp
  have hids : (st.attempts.map f).map (·.id) = st.attempts.map (·.id) := by
    rw [List.map_map]
    exact List.map_congr_left fun a _ => (hc.becomes a).id
  refine ⟨fun a ha => ?_, ?_, hc.lineage h, fun a ha hactive => ?_⟩
  · rcases hmem a ha with ⟨x, hx, rfl⟩ | hnew
    · rw [(hc.becomes x).id]
      exact (h.drawn x hx).trans_le hc.nextId
    · obtain ⟨-, hr⟩ := hc.new a hnew
      exact hr.id ▸ hr.drawn
  · rw [hc.rows]
    cases hnew : new with
    | nil => rw [List.append_nil, hids]; exact h.ids
    | cons r rest =>
      obtain ⟨hsingle, hr⟩ := hc.new r (hnew ▸ List.mem_cons_self)
      rw [← hnew, hsingle, List.map_append, hids]
      refine List.nodup_append.mpr ⟨h.ids, List.nodup_singleton _, fun a ha b hb hab => ?_⟩
      obtain ⟨x, hx, rfl⟩ := List.mem_map.mp ha
      have hnext : x.id = st.world.nextId := hab.trans ((List.mem_singleton.mp hb).trans hr.id)
      have hdrawn := h.drawn x hx
      rw [hnext] at hdrawn
      exact lt_irrefl _ hdrawn
  · rcases hmem a ha with ⟨x, hx, rfl⟩ | hnew
    · obtain ⟨t, ht, hworker⟩ := h.assigned x hx ((hc.becomes x).active hactive)
      obtain ⟨t', ht', hsame⟩ := hc.assignee x hx hactive t ht
      rw [(hc.becomes x).taskId, (hc.becomes x).worker]
      exact ⟨t', ht', hsame.trans hworker⟩
    · exact (hc.new a hnew).2.assigned

/-! ## Every operation -/

theorem exec_nextId_le (op : Op) (w : World) : w.nextId ≤ (exec op w).2.nextId := by
  cases op with
  | newId => exact Nat.le_succ _
  | _ =>
    simp only [exec, World.addTask, World.updateTask, World.addPlan, World.updatePlan,
      World.ensureAssignment, World.saveAssignment]
    repeat' split
    all_goals exact le_rfl

/-- A step that leaves the attempts. -/
theorem Continues.quiet (hattempts : st'.attempts = st.attempts)
    (hnext : st.world.nextId ≤ st'.world.nextId) (hevolves : st.world.Evolves st'.world) :
    Continues st st' id [] := by
  refine ⟨by rw [hattempts, List.map_id, List.append_nil], Becomes.refl,
    hnext, fun a _ _ t ht => ?_, fun r hr => absurd hr List.not_mem_nil⟩
  obtain ⟨t', ht', hsame⟩ := hevolves.row _ t ht
  exact ⟨t', ht', hsame.assigneeAgentId_eq⟩

/-- A step that writes one attempt. -/
theorem Continues.write {k : UUID} {update : TaskAssignmentAttempt → TaskAssignmentAttempt}
    (hattempts : st'.attempts = Keyed.write (·.id) st.attempts k update)
    (hworld : st'.world = st.world) (hup : ∀ a, Becomes a (update a)) :
    Continues st st' (fun a => if a.id = k then update a else a) [] := by
  refine ⟨by rw [hattempts, List.append_nil]; rfl, fun a => ?_, by rw [hworld],
    fun a _ _ t ht => ⟨t, ?_, rfl⟩, fun r hr => absurd hr List.not_mem_nil⟩
  · split
    · exact hup a
    · exact .refl a
  · rwa [RunnerWorld.getTask, hworld]

/-- `ensure_initial`, where no attempt is active. -/
theorem Continues.ensureInitial (h : st.AttemptsWF) {taskId : UUID}
    {attempt : TaskAssignmentAttempt} {rows : Attempts}
    (hensure : st.attempts.ensureInitial (st.getTask taskId) taskId st.world.nextId st.now =
      .ok (attempt, rows)) :
    ∃ f new, Continues st { st.drawn with attempts := rows } f new := by
  unfold Attempts.ensureInitial at hensure
  cases hactive : st.attempts.active taskId with
  | some active =>
    rw [hactive] at hensure
    cases hensure
    exact ⟨_, _, .quiet rfl (Nat.le_succ _) (.of_eq rfl rfl)⟩
  | none =>
    rw [hactive] at hensure
    cases htask : st.getTask taskId with
    | none => rw [htask] at hensure; cases hensure
    | some task =>
      rw [htask] at hensure
      cases hensure
      obtain ⟨-, hid⟩ := getTask_eq_some htask
      have hlatest := (h.lineage taskId).latest_eq
      refine ⟨id, _, by rw [List.map_id], Becomes.refl, Nat.le_succ _,
        fun a _ _ t ht => ⟨t, ht, rfl⟩, fun r hr => ?_⟩
      obtain rfl := List.mem_singleton.mp hr
      refine ⟨rfl, rfl, Nat.lt_succ_self _, fun a ha hsame hstate => ?_, ?_, ?_, ?_⟩
      · have hnone := List.find?_eq_none.mp hactive a ha
        have htaskId : a.taskId = taskId := hsame.trans hid
        simp only [id] at hstate
        simp [htaskId, hstate] at hnone
      · show ((st.attempts.latest taskId).map (·.generation + 1)).getD 1 =
          ((st.attempts.history task.id).length : ℤ) + 1
        rw [hid, hlatest, (h.lineage taskId).nextGeneration]
      · show (st.attempts.latest taskId).map (·.id) =
          (st.attempts.history task.id).getLast?.map (·.id)
        rw [hid, hlatest]
      · exact ⟨task, by rw [← htask, ← hid]; rfl, rfl⟩

/-- `reassign`. -/
theorem Continues.reassign (h : st.AttemptsWF) {c : ReassignCommand}
    {attempt : TaskAssignmentAttempt} {world : World} {rows : Attempts}
    (hreassign : Runner.reassign st.world st.attempts c st.world.nextId st.now =
      .ok (attempt, world, rows)) :
    ∃ f new, Continues st
      { st with world := { world with nextId := world.nextId + 1 }, attempts := rows } f new := by
  obtain ⟨task, active, htask, hactive, -, -, -, hassigner, rfl, rfl, rfl⟩ := reassign_ok hreassign
  obtain ⟨-, hid⟩ := getTask_eq_some htask
  obtain ⟨hmem, htaskId, hstate⟩ := active_eq_some hactive
  have hhistory : active ∈ st.attempts.history c.taskId := mem_history.mpr ⟨hmem, htaskId⟩
  obtain ⟨hlast, hgeneration⟩ := (h.lineage c.taskId).getLast?_of_active hhistory hstate
  -- Only the active row has its identifier, so the write ends an attempt that is active.
  have hended : ∀ a ∈ st.attempts, a.taskId = c.taskId → a.state = .active → a.id = active.id := by
    intro a ha hsame hactive'
    have hother := mem_history.mpr ⟨ha, hsame⟩
    obtain ⟨hlast', -⟩ := (h.lineage c.taskId).getLast?_of_active hother hactive'
    rw [Option.some.inj (hlast'.symm.trans hlast)]
  have hnone : ∀ a ∈ st.attempts, a.taskId = c.taskId →
      (if a.id = active.id ∧ a.state = .active then
        { a with state := .superseded, finishedAt := some st.now } else a).state ≠ .active := by
    intro a ha hsame
    by_cases hactive' : a.state = .active
    · simp [hended a ha hsame hactive', hactive']
    · simp [hactive']
  refine ⟨fun a => if a.id = active.id ∧ a.state = .active then
    { a with state := .superseded, finishedAt := some st.now } else a,
    [replacementAttempt task active c st.world.nextId st.now], ?_, fun a => ?_, Nat.le_succ _,
    fun a ha hstill t ht => ?_, fun r hr => ?_⟩
  · refine congrArg (· ++ _) (List.map_congr_left fun a ha => ?_)
    by_cases haid : a.id = active.id
    · obtain rfl := List.inj_on_of_nodup_map h.ids ha hmem haid
      simp [hstate]
    · simp [haid]
  · split
    · rename_i hends
      exact ⟨rfl, rfl, rfl, rfl, rfl, fun hne => absurd hends.2 hne⟩
    · exact .refl a
  · have hne : a.taskId ≠ c.taskId := fun hsame => hnone a ha hsame hstill
    refine ⟨t, ?_, rfl⟩
    show (reassignTask st.world c.taskId c.replacementWorkerId).getTask a.taskId = some t
    rw [getTask_reassignTask, show st.world.getTask a.taskId = some t from ht, Option.map_some,
      dif_neg fun hboth => hne ((getTask_eq_some ht).2.symm.trans hboth.1)]
  · obtain rfl := List.mem_singleton.mp hr
    refine ⟨rfl, rfl, Nat.lt_succ_self _, fun a ha hsame => ?_, ?_, ?_, ?_⟩
    · exact hnone a ha (hsame.trans hid)
    · show active.generation + 1 = ((st.attempts.history task.id).length : ℤ) + 1
      rw [hid, hgeneration]
    · show some active.id = (st.attempts.history task.id).getLast?.map (·.id)
      rw [hid, hlast]
      rfl
    · refine ⟨reassigned task c.replacementWorkerId hassigner, ?_, rfl⟩
      show (reassignTask st.world c.taskId c.replacementWorkerId).getTask task.id = _
      rw [getTask_reassignTask, hid, htask, Option.map_some, dif_pos ⟨hid, hassigner⟩]

/-- **Every step continues the lineages.** -/
theorem next_continues (h : st.AttemptsWF) (op : LineageOp) :
    ∃ f new, Continues st (st.next op) f new := by
  have hsame : ∃ f new, Continues st st f new := ⟨_, _, .quiet rfl le_rfl (.refl _)⟩
  cases op with
  | later runtime recoveries => exact ⟨_, _, .quiet rfl le_rfl (.refl _)⟩
  | bindExecution taskId generation executionId =>
    simp only [RunnerWorld.next]
    cases hbind : st.attempts.bindExecution taskId generation executionId with
    | error e => exact hsame
    | ok rows =>
      unfold Attempts.bindExecution at hbind
      cases hactive : st.attempts.active taskId with
      | none => rw [hactive] at hbind; cases hbind
      | some active =>
        rw [hactive] at hbind
        dsimp only at hbind
        split_ifs at hbind
        cases hbind
        exact ⟨_, _, .write rfl rfl fun a => ⟨rfl, rfl, rfl, rfl, rfl, fun _ => rfl⟩⟩
  | call op =>
    cases op with
    | task op => exact ⟨_, _, .quiet rfl (exec_nextId_le op st.world) (exec_evolves op st.world)⟩
    | recordEvent event worker allowed =>
      simp only [RunnerWorld.next, perform]
      cases st.runtime.gateway.recordEvent event worker allowed st.now with
      | error e => exact hsame
      | ok taken => exact ⟨_, _, .quiet rfl le_rfl (.refl _)⟩
    | ensureRecoveryForRun runId reason session =>
      show ∃ f new, Continues st (ensureRecovery st runId reason session) f new
      unfold ensureRecovery
      cases st.runtime.rows.find? fun r => r.runId == runId with
      | none => exact hsame
      | some reservation => exact ⟨_, _, .quiet rfl (Nat.le_succ _) (.of_eq rfl rfl)⟩
    | completeCurrent taskId attemptId generation =>
      simp only [RunnerWorld.next, perform]
      cases hcomplete : st.attempts.completeCurrent taskId attemptId generation st.now with
      | error e => exact hsame
      | ok rows =>
        unfold Attempts.completeCurrent at hcomplete
        split_ifs at hcomplete
        cases hcomplete
        refine ⟨_, _, .write rfl rfl fun a => ?_⟩
        split
        · rename_i hactive
          exact ⟨rfl, rfl, rfl, rfl, rfl, fun hne => absurd hactive hne⟩
        · exact .refl a
    | ensureInitial taskId =>
      simp only [RunnerWorld.next, perform]
      cases hensure : st.attempts.ensureInitial (st.getTask taskId) taskId st.world.nextId
          st.now with
      | error e => exact hsame
      | ok taken => exact Continues.ensureInitial h hensure
    | reassign command =>
      simp only [RunnerWorld.next, perform]
      cases hreassign : Runner.reassign st.world st.attempts command st.world.nextId st.now with
      | error e => exact hsame
      | ok taken => exact Continues.reassign h hreassign
    | reopenSameAssignment taskId version generation =>
      simp only [RunnerWorld.next, perform]
      cases hreopen : Runner.reopenSameAssignment st.world st.attempts taskId version
          generation with
      | error e => exact hsame
      | ok taken =>
        obtain ⟨attempt, world⟩ := taken
        obtain ⟨task, -, -, -, -, rfl⟩ := reopenSameAssignment_ok hreopen
        exact ⟨_, _, .quiet rfl le_rfl ⟨fun id t ht =>
          ⟨_, by rw [getTask_writeTask, ht]; rfl, sameRow_rewritten _ t⟩, fun _ _ he => he⟩⟩
    | _ => exact hsame

/-- Later attempts are the earlier ones, continued. -/
def RunnerWorld.Keeps (a b : RunnerWorld) : Prop :=
  ∀ x ∈ a.attempts, ∃ y ∈ b.attempts, x.Becomes y

theorem RunnerWorld.Keeps.of_continues (hc : Continues st st' f new) : st.Keeps st' := by
  intro x hx
  refine ⟨f x, ?_, hc.becomes x⟩
  rw [hc.rows]
  exact List.mem_append_left _ (List.mem_map_of_mem hx)

theorem RunnerWorld.Keeps.trans {a b c : RunnerWorld} (hab : a.Keeps b) (hbc : b.Keeps c) :
    a.Keeps c := by
  intro x hx
  obtain ⟨y, hy, hxy⟩ := hab x hx
  obtain ⟨z, hz, hyz⟩ := hbc y hy
  exact ⟨z, hz, hxy.trans hyz⟩

end Steps

/-- How the stores answer an operation; a port raises. -/
def RunnerWorld.answer (op : RunnerCallOp) (st : RunnerWorld) :
    Except Raised (RunnerAnswer op) × RunnerWorld :=
  (perform op st).getD (.error (.collaborator "port"), st)

/-- A run bound to a superseded attempt is not projected. -/
theorem RunnerWorld.AttemptsWF.refuses {st : RunnerWorld} (h : st.AttemptsWF)
    {a : TaskAssignmentAttempt} (ha : a ∈ st.attempts) (hstate : a.state = .superseded)
    {dispatch : AgentRuntime.RunnerDispatchRecord}
    (hbound : dispatch.task.assignmentAttemptId = some a.id) :
    (assignmentAllows (some dispatch)).run RunnerWorld.answer st = (.ok false, st) := by
  unfold assignmentAllows
  dsimp only
  rw [hbound]
  cases dispatch.task.assignmentGeneration with
  | none => rfl
  | some generation =>
    have hget : st.attempts.get a.id = some a := (Keyed.find_eq_some h.ids).mpr ⟨ha, rfl⟩
    show (Except.ok (st.attempts.allowsProjection dispatch.task.taskId a.id generation), st) = _
    unfold Attempts.allowsProjection
    rw [hget]
    simp [hstate]

/-- **Assignment lineage.** Whatever sequence of store calls the runner integration makes: the
attempts of each task are numbered from one without gap, each linked to the one before, only the
last can be active, and it names the assignee of its task; the events of a run that is bound to a
superseded attempt are not allowed to project; and an attempt that has ended stays ended. -/
theorem attempts_lineage (st : RunnerWorld) (ops : List LineageOp) :
    (∀ s ∈ states RunnerWorld.next { st with attempts := [] } ops, s.AttemptsWF ∧
      ∀ a ∈ s.attempts, a.state = .superseded → ∀ dispatch : AgentRuntime.RunnerDispatchRecord,
        dispatch.task.assignmentAttemptId = some a.id →
          (assignmentAllows (some dispatch)).run RunnerWorld.answer s = (.ok false, s)) ∧
      (states RunnerWorld.next { st with attempts := [] } ops).Pairwise RunnerWorld.Keeps := by
  have hempty : RunnerWorld.AttemptsWF { st with attempts := [] } :=
    ⟨by simp, List.nodup_nil, fun _ => ⟨by simp [Attempts.history], by simp [Attempts.history],
      by simp [Attempts.history]⟩, by simp⟩
  have hstep : ∀ s op, RunnerWorld.AttemptsWF s → RunnerWorld.AttemptsWF (s.next op) := by
    intro s op h
    obtain ⟨f, new, hc⟩ := next_continues h op
    exact hc.wf h
  have hkeep : ∀ s op, RunnerWorld.AttemptsWF s → (s.Keeps (s.next op) ↔ True) := by
    intro s op h
    obtain ⟨f, new, hc⟩ := next_continues h op
    exact iff_true_intro (.of_continues hc)
  have hwf := states_invariant hstep hempty ops
  refine ⟨fun s hs => ⟨hwf s hs, fun a ha hstate dispatch => (hwf s hs).refuses ha hstate⟩, ?_⟩
  exact (states_pairwise_iff (R := RunnerWorld.Keeps) (fun _ _ _ => .trans) hstep hkeep hempty
    ops).mpr fun _ _ => trivial

end Runner
end RepoMesh
