/-
# The life of a dispatch

Which calls a terminal dispatch survives. Events are told apart by identifier and by their place
in the run alone, so a late event is projected like any other.
-/
import RepoMesh.AgentRuntime.RunnerStore

namespace RepoMesh
namespace AgentRuntime

open Fallible Runs
open Delivery (UUID Instant)

/-- The Runner has stopped working on the run. -/
def RunnerDispatchRecord.IsTerminal (d : RunnerDispatchRecord) : Prop :=
  d.status ∈ terminalDispatchStatuses

instance (d : RunnerDispatchRecord) : Decidable d.IsTerminal :=
  inferInstanceAs (Decidable (d.status ∈ terminalDispatchStatuses))

namespace RunnerGatewayStore

/-- The run is the primary key of the dispatches. -/
def RunsDistinct (st : RunnerGatewayStore) : Prop := (st.dispatches.map (·.runId)).Nodup

/-- Neither `lease_next` nor `get_active_dispatch_for_task` answers with the run. -/
def NotReturned (st : RunnerGatewayStore) (runId : UUID) : Prop :=
  (∀ worker leaseSeconds locked now d,
    (st.leaseNext worker leaseSeconds locked now).1 = some d → d.runId ≠ runId) ∧
  ∀ taskId worker d, st.getActiveDispatchForTask taskId worker = some d → d.runId ≠ runId

/-- Every dispatch that is terminal in `a` has the same status in `b`, where no call returns
it. -/
def Settled (a b : RunnerGatewayStore) : Prop :=
  ∀ d ∈ a.dispatches, d.IsTerminal →
    (∃ d' ∈ b.dispatches, d'.runId = d.runId ∧ d'.status = d.status) ∧ b.NotReturned d.runId

/-- The call records a new event that gives a terminal dispatch another status. -/
def Reopens (st : RunnerGatewayStore) : RunnerOp → Prop
  | .recordEvent e worker projectionAllowed _ =>
    ∃ d body status, st.checkEvent e worker = .ok (d, body) ∧ st.isFresh e body = true ∧
      d.IsTerminal ∧ eventStatus body.eventType projectionAllowed = some status ∧
      status ≠ d.status
  | _ => False

/-! ## Rows -/

theorem runId_leaseDispatch (leaseSeconds : ℤ) (now : Instant) (d : RunnerDispatchRecord) :
    (leaseDispatch leaseSeconds now d).runId = d.runId := rfl

theorem runId_projectDispatch (eventType : String) (projectionAllowed : Bool) (now : Instant)
    (d : RunnerDispatchRecord) :
    (projectDispatch eventType projectionAllowed now d).runId = d.runId := by
  unfold projectDispatch
  split_ifs
  · rfl
  · split <;> rfl

theorem status_projectDispatch (eventType : String) (projectionAllowed : Bool) (now : Instant)
    (d : RunnerDispatchRecord) :
    (projectDispatch eventType projectionAllowed now d).status =
      (eventStatus eventType projectionAllowed).getD d.status := by
  unfold projectDispatch eventStatus
  split_ifs
  · rfl
  · cases terminalStatusOf eventType <;> rfl

theorem leasable_of_oldest {st : RunnerGatewayStore} {p : RunnerDispatchRecord → Bool}
    {d : RunnerDispatchRecord} (h : oldest (st.dispatches.filter p) = some d) :
    d ∈ st.dispatches ∧ p d = true := by
  have hmem : d ∈ (st.dispatches.filter p).insertionSort fun a b => a.createdAt ≤ b.createdAt :=
    List.mem_of_head? h
  rw [List.mem_insertionSort] at hmem
  exact List.mem_filter.mp hmem

theorem leaseNext_some {st : RunnerGatewayStore} {worker : Option UUID} {leaseSeconds : ℤ}
    {locked : List UUID} {now : Instant} {d : RunnerDispatchRecord}
    (h : (st.leaseNext worker leaseSeconds locked now).1 = some d) :
    d ∈ st.dispatches ∧ d.status ∈ [DispatchStatus.queued, .leased] := by
  unfold leaseNext at h
  split at h
  · cases h
  · rename_i record hrecord
    obtain rfl := Option.some.inj h
    obtain ⟨hmem, hp⟩ := leasable_of_oldest hrecord
    simp only [leasable, Bool.and_eq_true] at hp
    exact ⟨hmem, List.contains_iff_mem.mp hp.1.1.1⟩

theorem getActiveDispatchForTask_some {st : RunnerGatewayStore} {taskId worker : UUID}
    {d : RunnerDispatchRecord} (h : st.getActiveDispatchForTask taskId worker = some d) :
    d ∈ st.dispatches ∧ d.status ∈ activeDispatchStatuses := by
  have hmem := List.mem_of_head? h
  rw [List.mem_insertionSort] at hmem
  obtain ⟨hd, hp⟩ := List.mem_filter.mp hmem
  simp only [Bool.and_eq_true] at hp
  exact ⟨hd, List.contains_iff_mem.mp hp.2⟩

theorem notReturned_of_terminal {st : RunnerGatewayStore} (hw : st.RunsDistinct)
    {d : RunnerDispatchRecord} (hd : d ∈ st.dispatches) (ht : d.IsTerminal) :
    st.NotReturned d.runId := by
  have hlease : ∀ status ∈ [DispatchStatus.queued, .leased], status ∉ terminalDispatchStatuses := by
    decide
  have hactive : ∀ status ∈ activeDispatchStatuses, status ∉ terminalDispatchStatuses := by decide
  constructor
  · intro worker leaseSeconds locked now d' h hid
    obtain ⟨hd', hstatus⟩ := leaseNext_some h
    obtain rfl := List.inj_on_of_nodup_map hw hd' hd hid
    exact hlease _ hstatus ht
  · intro taskId worker d' h hid
    obtain ⟨hd', hstatus⟩ := getActiveDispatchForTask_some h
    obtain rfl := List.inj_on_of_nodup_map hw hd' hd hid
    exact hactive _ hstatus ht

/-! ## Calls -/

theorem enqueue_ok {st st' : RunnerGatewayStore} {payload : TaskPayload} {now : Instant}
    (h : st.enqueue payload now = .ok st') :
    st' = st ∨ ∃ row : RunnerDispatchRecord, (∀ d ∈ st.dispatches, d.runId ≠ row.runId) ∧
      st'.dispatches = st.dispatches ++ [row] := by
  unfold enqueue at h
  dsimp only at h
  split_ifs at h
  split at h
  · split_ifs at h
    exact Or.inl (Except.ok.inj h).symm
  · split at h
    · cases h
    · rename_i task _
      split_ifs at h with hany
      obtain rfl := Except.ok.inj h
      refine Or.inr ⟨_, fun d hd heq => hany ?_, rfl⟩
      have hrun : d.runId = task.runId := heq
      exact List.any_eq_true.mpr ⟨d, hd, by simpa using hrun⟩

theorem recordEvent_ok {st st' : RunnerGatewayStore} {e : RunnerEvent} {worker : Option UUID}
    {projectionAllowed answer : Bool} {now : Instant}
    (h : st.recordEvent e worker projectionAllowed now = .ok (answer, st')) :
    ∃ d body, st.checkEvent e worker = .ok (d, body) ∧
      ((st.isFresh e body = false ∧ answer = false ∧ st' = st) ∨
        (st.isFresh e body = true ∧ answer = true ∧
          st'.dispatches = (st.writeDispatch e.runId
            (projectDispatch body.eventType projectionAllowed now)).dispatches)) := by
  obtain ⟨⟨d, body⟩, hcheck, h⟩ := bind_ok h
  refine ⟨d, body, hcheck, ?_⟩
  dsimp only at h
  split_ifs at h with hfresh
  · obtain ⟨rfl, rfl⟩ := Prod.mk.inj (Except.ok.inj h)
    exact Or.inr ⟨hfresh, rfl, rfl⟩
  · obtain ⟨rfl, rfl⟩ := Prod.mk.inj (Except.ok.inj h)
    exact Or.inl ⟨by simpa using hfresh, rfl, rfl⟩

theorem checkEvent_ok {st : RunnerGatewayStore} {e : RunnerEvent} {worker : Option UUID}
    {d : RunnerDispatchRecord} {body : EventBody} (h : st.checkEvent e worker = .ok (d, body)) :
    st.getDispatch e.runId = some d := by
  unfold checkEvent at h
  split at h
  · cases h
  · rename_i dispatch hget
    split_ifs at h
    obtain ⟨⟨⟩, -, h⟩ := bind_ok h
    split at h
    · cases h
    · rw [hget, (Prod.mk.inj (Except.ok.inj h)).1]

/-- **One call keeps the runs distinct.** -/
theorem runsDistinct_run {st : RunnerGatewayStore} (op : RunnerOp) (hw : st.RunsDistinct) :
    (op.run st).RunsDistinct := by
  cases op with
  | enqueue payload now =>
    simp only [RunnerOp.run]
    split
    · rename_i st' h
      rcases enqueue_ok h with rfl | ⟨row, hfresh, hrows⟩
      · exact hw
      · rw [RunsDistinct, hrows]
        exact Keyed.nodup_append hw hfresh
    · exact hw
  | leaseNext worker leaseSeconds locked now =>
    simp only [RunnerOp.run, leaseNext]
    split
    · exact hw
    · show ((st.writeDispatch _ (leaseDispatch leaseSeconds now)).dispatches.map (·.runId)).Nodup
      rw [writeDispatch, Keyed.keys_write fun d h => (runId_leaseDispatch _ _ d).trans h]
      exact hw
  | recordEvent e worker projectionAllowed now =>
    simp only [RunnerOp.run]
    split
    · rename_i result h
      obtain ⟨d, body, -, ⟨-, -, hst⟩ | ⟨-, -, hrows⟩⟩ := recordEvent_ok h
      · rw [hst]; exact hw
      · rw [RunsDistinct, hrows, writeDispatch,
          Keyed.keys_write fun d h => (runId_projectDispatch _ _ _ d).trans h]
        exact hw
    · exact hw
  | getActiveDispatchForTask taskId worker => exact hw
  | reservations rows => exact hw

theorem kept_writeDispatch {st : RunnerGatewayStore} {runId : UUID}
    {update : RunnerDispatchRecord → RunnerDispatchRecord} (hup : ∀ d, (update d).runId = d.runId)
    {d : RunnerDispatchRecord} (hd : d ∈ st.dispatches)
    (hkeep : d.runId = runId → (update d).status = d.status) :
    ∃ d' ∈ (st.writeDispatch runId update).dispatches, d'.runId = d.runId ∧
      d'.status = d.status := by
  by_cases h : d.runId = runId
  · exact ⟨update d, Keyed.mem_write.mpr (Or.inl ⟨d, hd, h, rfl⟩), hup d, hkeep h⟩
  · exact ⟨d, Keyed.mem_write.mpr (Or.inr ⟨hd, h⟩), rfl, rfl⟩

theorem kept_of_not_reopens {st : RunnerGatewayStore} (hw : st.RunsDistinct) {op : RunnerOp}
    (hop : ¬ st.Reopens op) {d : RunnerDispatchRecord} (hd : d ∈ st.dispatches)
    (ht : d.IsTerminal) :
    ∃ d' ∈ (op.run st).dispatches, d'.runId = d.runId ∧ d'.status = d.status := by
  cases op with
  | enqueue payload now =>
    simp only [RunnerOp.run]
    split
    · rename_i st' h
      rcases enqueue_ok h with rfl | ⟨row, -, hrows⟩
      · exact ⟨d, hd, rfl, rfl⟩
      · exact ⟨d, by rw [hrows]; exact List.mem_append_left _ hd, rfl, rfl⟩
    · exact ⟨d, hd, rfl, rfl⟩
  | leaseNext worker leaseSeconds locked now =>
    have hnot := (notReturned_of_terminal hw hd ht).1 worker leaseSeconds locked now
    simp only [RunnerOp.run, leaseNext] at hnot ⊢
    split at hnot
    · exact ⟨d, hd, rfl, rfl⟩
    · rename_i record hrecord
      refine kept_writeDispatch (runId_leaseDispatch _ _) hd fun heq => ?_
      exact absurd heq.symm (hnot record rfl)
  | recordEvent e worker projectionAllowed now =>
    simp only [RunnerOp.run]
    split
    · rename_i result h
      obtain ⟨target, body, hcheck, ⟨-, -, hst⟩ | ⟨hfresh, -, hrows⟩⟩ := recordEvent_ok h
      · rw [hst]; exact ⟨d, hd, rfl, rfl⟩
      · rw [hrows]
        refine kept_writeDispatch (runId_projectDispatch _ _ _) hd fun heq => ?_
        have hget : st.getDispatch e.runId = some d := (Keyed.find_eq_some hw).mpr ⟨hd, heq⟩
        obtain rfl : target = d := Option.some.inj ((checkEvent_ok hcheck).symm.trans hget)
        rw [status_projectDispatch]
        cases hstatus : eventStatus body.eventType projectionAllowed with
        | none => rfl
        | some status =>
          show status = target.status
          by_contra hne
          exact hop ⟨target, body, status, hcheck, hfresh, ht, hstatus, hne⟩
    · exact ⟨d, hd, rfl, rfl⟩
  | getActiveDispatchForTask taskId worker => exact ⟨d, hd, rfl, rfl⟩
  | reservations rows => exact ⟨d, hd, rfl, rfl⟩

theorem not_kept_of_reopens {st : RunnerGatewayStore} (hw : st.RunsDistinct) {op : RunnerOp}
    (hop : st.Reopens op) :
    ∃ d ∈ st.dispatches, d.IsTerminal ∧
      ∀ d' ∈ (op.run st).dispatches, d'.runId = d.runId → d'.status ≠ d.status := by
  cases op with
  | recordEvent e worker projectionAllowed now =>
    obtain ⟨d, body, status, hcheck, hfresh, ht, hstatus, hne⟩ := hop
    obtain ⟨hd, hid⟩ := (Keyed.find_eq_some hw).mp (checkEvent_ok hcheck)
    refine ⟨d, hd, ht, fun d' hd' heq => ?_⟩
    have hrun : (RunnerOp.run st (.recordEvent e worker projectionAllowed now)).dispatches =
        (st.writeDispatch e.runId
          (projectDispatch body.eventType projectionAllowed now)).dispatches := by
      simp only [RunnerOp.run, recordEvent, hcheck, ok_bind, hfresh, if_true]
    rw [hrun] at hd'
    rcases Keyed.mem_write.mp hd' with ⟨d₀, hd₀, hid₀, rfl⟩ | ⟨-, hother⟩
    · obtain rfl := List.inj_on_of_nodup_map hw hd₀ hd (hid₀.trans hid.symm)
      rw [status_projectDispatch, hstatus]
      exact hne
    · exact absurd (heq.trans hid) hother
  | enqueue payload now => exact hop.elim
  | leaseNext worker leaseSeconds locked now => exact hop.elim
  | getActiveDispatchForTask taskId worker => exact hop.elim
  | reservations rows => exact hop.elim

/-- **One call.** Terminal dispatches are settled by exactly the calls that do not reopen one. -/
theorem settled_run_iff {st : RunnerGatewayStore} (hw : st.RunsDistinct) (op : RunnerOp) :
    Settled st (op.run st) ↔ ¬ st.Reopens op := by
  constructor
  · intro h hop
    obtain ⟨d, hd, ht, hlost⟩ := not_kept_of_reopens hw hop
    obtain ⟨⟨d', hd', hid, hstatus⟩, -⟩ := h d hd ht
    exact hlost d' hd' hid hstatus
  · intro hop d hd ht
    obtain ⟨d', hd', hid, hstatus⟩ := kept_of_not_reopens hw hop hd ht
    refine ⟨⟨d', hd', hid, hstatus⟩, ?_⟩
    have ht' : d'.IsTerminal := by rw [RunnerDispatchRecord.IsTerminal, hstatus]; exact ht
    exact hid ▸ notReturned_of_terminal (runsDistinct_run op hw) hd' ht'

theorem Settled.trans {a b c : RunnerGatewayStore} (hab : Settled a b) (hbc : Settled b c) :
    Settled a c := by
  intro d hd ht
  obtain ⟨⟨d', hd', hid, hstatus⟩, -⟩ := hab d hd ht
  have ht' : d'.IsTerminal := by rw [RunnerDispatchRecord.IsTerminal, hstatus]; exact ht
  obtain ⟨⟨d'', hd'', hid', hstatus'⟩, hnot⟩ := hbc d' hd' ht'
  exact ⟨⟨d'', hd'', hid'.trans hid, hstatus'.trans hstatus⟩, hid ▸ hnot⟩

/-! ## What a run was dispatched for -/

/-- Every run that was dispatched is still dispatched, for the same task and worker. -/
def TasksKept (a b : RunnerGatewayStore) : Prop :=
  ∀ run d, a.getDispatch run = some d → ∃ d', b.getDispatch run = some d' ∧ d'.task = d.task

theorem TasksKept.refl (a : RunnerGatewayStore) : TasksKept a a := fun _ d h => ⟨d, h, rfl⟩

theorem TasksKept.trans {a b c : RunnerGatewayStore} (hab : TasksKept a b) (hbc : TasksKept b c) :
    TasksKept a c := by
  intro run d hd
  obtain ⟨d', hd', htask⟩ := hab run d hd
  obtain ⟨d'', hd'', htask'⟩ := hbc run d' hd'
  exact ⟨d'', hd'', htask'.trans htask⟩

theorem tasksKept_of_eq {a b : RunnerGatewayStore} (h : b.dispatches = a.dispatches) :
    TasksKept a b := by
  intro run d hd
  refine ⟨d, ?_, rfl⟩
  unfold getDispatch at hd ⊢
  rw [h]
  exact hd

theorem tasksKept_writeDispatch {st : RunnerGatewayStore} (runId : UUID)
    {update : RunnerDispatchRecord → RunnerDispatchRecord} (hup : ∀ d, (update d).task = d.task) :
    TasksKept st (st.writeDispatch runId update) := by
  intro run d hd
  have hrun : ∀ d, d.runId = runId → (update d).runId = runId := fun d h =>
    (congrArg RunnerTask.runId (hup d)).trans h
  by_cases h : run = runId
  · subst h
    refine ⟨update d, ?_, hup d⟩
    show Keyed.find (·.runId) (Keyed.write (·.runId) st.dispatches run update) run = _
    rw [Keyed.find_write_self hrun]
    exact congrArg _ hd
  · refine ⟨d, ?_, rfl⟩
    show Keyed.find (·.runId) (Keyed.write (·.runId) st.dispatches runId update) run = _
    rw [Keyed.find_write_of_ne hrun h]
    exact hd

theorem task_projectDispatch (eventType : String) (projectionAllowed : Bool) (now : Instant)
    (d : RunnerDispatchRecord) :
    (projectDispatch eventType projectionAllowed now d).task = d.task := by
  unfold projectDispatch
  split_ifs
  · rfl
  · split <;> rfl

theorem tasksKept_recordEvent {st st' : RunnerGatewayStore} {e : RunnerEvent}
    {worker : Option UUID} {projectionAllowed answer : Bool} {now : Instant}
    (h : st.recordEvent e worker projectionAllowed now = .ok (answer, st')) :
    TasksKept st st' := by
  obtain ⟨d, body, -, ⟨-, -, rfl⟩ | ⟨-, -, hrows⟩⟩ := recordEvent_ok h
  · exact TasksKept.refl st'
  · have hwritten : TasksKept st (st.writeDispatch e.runId
        (projectDispatch body.eventType projectionAllowed now)) :=
      tasksKept_writeDispatch e.runId (task_projectDispatch body.eventType projectionAllowed now)
    exact hwritten.trans (tasksKept_of_eq hrows)

/-- **One call** keeps what every run was dispatched for. -/
theorem tasksKept_run (st : RunnerGatewayStore) (op : RunnerOp) : TasksKept st (op.run st) := by
  cases op with
  | enqueue payload now =>
    simp only [RunnerOp.run]
    split
    · rename_i st' h
      rcases enqueue_ok h with rfl | ⟨row, hfresh, hrows⟩
      · exact TasksKept.refl st'
      · intro run d hd
        obtain ⟨hmem, hid⟩ := Keyed.mem_of_find hd
        have hne : row.runId ≠ run := fun heq => hfresh d hmem (hid.trans heq.symm)
        refine ⟨d, ?_, rfl⟩
        unfold getDispatch at hd ⊢
        rw [hrows, Keyed.find_append_of_ne hne]
        exact hd
    · exact TasksKept.refl st
  | leaseNext worker leaseSeconds locked now =>
    simp only [RunnerOp.run, leaseNext]
    split
    · exact TasksKept.refl st
    · exact tasksKept_writeDispatch _ fun d => rfl
  | recordEvent e worker projectionAllowed now =>
    simp only [RunnerOp.run]
    split
    · rename_i result h
      exact tasksKept_recordEvent h
    · exact TasksKept.refl st
  | getActiveDispatchForTask taskId worker => exact TasksKept.refl st
  | reservations rows => exact tasksKept_of_eq rfl

end RunnerGatewayStore

open RunnerGatewayStore

/-- **Terminal dispatches and late events.** In a run of the store every dispatch that was
terminal at some point keeps its status and is returned by no later call exactly when no call
records a new event that gives a terminal dispatch another status: a late `runner.accepted`, or a
second terminal event of another kind. -/
theorem terminal_dispatches_settled_iff (ops : List RunnerOp) :
    (states RunnerOp.run {} ops).Pairwise Settled ↔
      ∀ p ∈ steps RunnerOp.run {} ops, ¬ p.1.Reopens p.2 := by
  refine states_pairwise_iff (W := RunsDistinct) (R := Settled) (fun a b c => Settled.trans)
    (fun s op hw => runsDistinct_run op hw) (fun s op hw => settled_run_iff hw op) ?_ ops
  exact List.nodup_nil

/-! ## An accepted event that arrives after the completion -/

/-- A task of worker 6 on task 5. -/
def sampleTask : RunnerTask :=
  { runId := 1
    organizationId := 2
    projectId := 3
    repositoryId := 4
    taskId := 5
    workerAgentId := 6
    attempt := 1 }

/-- An event of that run. -/
def sampleEvent (eventId : UUID) (sequence : ℤ) (eventType : String) : RunnerEvent :=
  { eventId := eventId
    runId := 1
    binding := [("organizationId", Delivery.uuidStr 2), ("projectId", Delivery.uuidStr 3),
      ("taskId", Delivery.uuidStr 5), ("runId", Delivery.uuidStr 1), ("attempt", "1")]
    body := some { sequence := sequence, eventType := eventType, occurredAt := 0 } }

/-- The run is queued, leased and completed under sequence 2. -/
def completedRun : List RunnerOp :=
  [.enqueue { idempotencyKey := "k", document := "task", task := some sampleTask } 0,
    .leaseNext (some 6) 60 [] 0,
    .recordEvent (sampleEvent 12 2 "runner.completed") (some 6) true 1]

/-- The event of sequence 1 arrives last. -/
def lateAccepted : RunnerOp :=
  .recordEvent (sampleEvent 11 1 "runner.accepted") (some 6) true 2

/-- **A late `runner.accepted` revives a completed dispatch.** The dispatch is completed, the
event of sequence 1 makes it accepted again, and `get_active_dispatch_for_task` returns it. -/
theorem late_accepted_reopens_dispatch :
    (completedRun.foldl RunnerOp.run {}).dispatches.map (·.status) = [.completed] ∧
      ((completedRun ++ [lateAccepted]).foldl RunnerOp.run {}).dispatches.map (·.status) =
        [.accepted] ∧
      (((completedRun ++ [lateAccepted]).foldl RunnerOp.run {}).getActiveDispatchForTask 5
        6).map (·.runId) = some 1 ∧
      ¬ (states RunnerOp.run {} (completedRun ++ [lateAccepted])).Pairwise Settled := by
  obtain ⟨hbefore, hafter, hactive⟩ :
      (completedRun.foldl RunnerOp.run {}).dispatches.map (·.status) = [.completed] ∧
      ((completedRun ++ [lateAccepted]).foldl RunnerOp.run {}).dispatches.map (·.status) =
        [.accepted] ∧
      (((completedRun ++ [lateAccepted]).foldl RunnerOp.run {}).getActiveDispatchForTask 5
        6).map (·.runId) = some 1 := by decide +kernel
  refine ⟨hbefore, hafter, hactive, fun h => ?_⟩
  have hrel := rel_of_states_pairwise completedRun lateAccepted [] h
  have hmem : DispatchStatus.completed ∈
      (completedRun.foldl RunnerOp.run {}).dispatches.map (·.status) := by simp [hbefore]
  obtain ⟨d, hd, hstatus⟩ := List.mem_map.mp hmem
  have ht : d.IsTerminal := by rw [RunnerDispatchRecord.IsTerminal, hstatus]; decide
  obtain ⟨⟨d', hd', -, hkept⟩, -⟩ := hrel d hd ht
  have hmem' : d'.status ∈
      ((completedRun ++ [lateAccepted]).foldl RunnerOp.run {}).dispatches.map (·.status) :=
    List.mem_map_of_mem hd'
  rw [hafter, hkept, hstatus] at hmem'
  simp at hmem'

end AgentRuntime
end RepoMesh
