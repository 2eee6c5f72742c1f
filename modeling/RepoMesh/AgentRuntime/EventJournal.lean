/-
# The journal of runner events

The event rows of the gateway store. An event is taken once, whatever is delivered again or out of
order, and what has been taken stays, in the order in which it was taken.
-/
import RepoMesh.AgentRuntime.DispatchLife

namespace RepoMesh
namespace AgentRuntime

open Fallible Runs

namespace RunnerGatewayStore

/-- Where an event row has its place. -/
def place (row : RunnerEventRecord) : Delivery.UUID × ℤ := (row.runId, row.body.sequence)

/-- No two rows are of one event or have one place, and every row is of a run that was dispatched. -/
structure EventsOnce (st : RunnerGatewayStore) : Prop where
  ids : (st.events.map (·.eventId)).Nodup
  places : (st.events.map place).Nodup
  dispatched : ∀ row ∈ st.events, (st.getDispatch row.runId).isSome = true

/-- What a call leaves of the journal, and what it adds. -/
structure JournalStep (st st' : RunnerGatewayStore) : Prop where
  runs : TasksKept st st'
  rows : st'.events = st.events ∨ ∃ row, st'.events = st.events ++ [row] ∧
    (st.getDispatch row.runId).isSome = true ∧
    ∀ old ∈ st.events, old.eventId ≠ row.eventId ∧ place old ≠ place row

theorem JournalStep.of_same {st : RunnerGatewayStore} (op : RunnerOp)
    (h : (op.run st).events = st.events) : JournalStep st (op.run st) :=
  ⟨tasksKept_run st op, .inl h⟩

/-- **One call** adds one new event to the journal, or nothing. -/
theorem journalStep_run (st : RunnerGatewayStore) (op : RunnerOp) : JournalStep st (op.run st) := by
  cases op with
  | enqueue payload now =>
    refine JournalStep.of_same _ ?_
    simp only [RunnerOp.run]
    split
    · rename_i st' h
      unfold enqueue at h
      dsimp only at h
      split_ifs at h
      split at h
      · split_ifs at h
        rw [← Except.ok.inj h]
      · split at h
        · cases h
        · split_ifs at h
          rw [← Except.ok.inj h]
    · rfl
  | leaseNext worker leaseSeconds locked now =>
    refine JournalStep.of_same _ ?_
    simp only [RunnerOp.run, leaseNext]
    split
    · rfl
    · rfl
  | getActiveDispatchForTask taskId worker => exact JournalStep.of_same _ rfl
  | reservations rows => exact JournalStep.of_same _ rfl
  | recordEvent e worker projectionAllowed now =>
    refine ⟨tasksKept_run st _, ?_⟩
    simp only [RunnerOp.run]
    split
    case h_2 => exact .inl rfl
    rename_i result h
    obtain ⟨⟨d, body⟩, hcheck, h⟩ := bind_ok h
    dsimp only at h
    split_ifs at h with hfresh
    · obtain rfl := Except.ok.inj h
      refine .inr ⟨_, rfl, ?_, fun old hold => ?_⟩
      · show (st.getDispatch e.runId).isSome = true
        rw [checkEvent_ok hcheck]
        rfl
      · have hnew := hfresh
        rw [isFresh, Bool.not_eq_true', List.any_eq_false] at hnew
        have hold := hnew old hold
        rw [Bool.or_eq_true, not_or, Bool.and_eq_true] at hold
        exact ⟨fun heq => hold.1 (beq_iff_eq.mpr heq), fun heq => hold.2
          ⟨beq_iff_eq.mpr (Prod.mk.inj heq).1, beq_iff_eq.mpr (Prod.mk.inj heq).2⟩⟩
    · obtain rfl := Except.ok.inj h
      exact .inl rfl

theorem EventsOnce.step {st st' : RunnerGatewayStore} (h : EventsOnce st)
    (hstep : JournalStep st st') : EventsOnce st' := by
  have hdispatched : ∀ run, (st.getDispatch run).isSome = true →
      (st'.getDispatch run).isSome = true := by
    intro run hrun
    obtain ⟨d, hd⟩ := Option.isSome_iff_exists.mp hrun
    obtain ⟨d', hd', -⟩ := hstep.runs run d hd
    rw [hd']
    rfl
  rcases hstep.rows with hsame | ⟨row, hrows, hrun, hnew⟩
  · refine ⟨hsame ▸ h.ids, hsame ▸ h.places, fun x hx => ?_⟩
    rw [hsame] at hx
    exact hdispatched _ (h.dispatched x hx)
  · have hfresh : ∀ {β : Type} (f : RunnerEventRecord → β), (∀ old ∈ st.events, f old ≠ f row) →
        (st.events.map f).Nodup → (st'.events.map f).Nodup := by
      intro β f hne hnd
      rw [hrows, List.map_append]
      refine List.nodup_append.mpr ⟨hnd, List.nodup_singleton _, fun a ha b hb hab => ?_⟩
      obtain ⟨old, hold, rfl⟩ := List.mem_map.mp ha
      exact hne old hold (hab.trans (List.mem_singleton.mp hb))
    refine ⟨hfresh _ (fun old hold => (hnew old hold).1) h.ids,
      hfresh _ (fun old hold => (hnew old hold).2) h.places, fun x hx => ?_⟩
    rw [hrows] at hx
    rcases List.mem_append.mp hx with hx | hx
    · exact hdispatched _ (h.dispatched x hx)
    · rw [List.mem_singleton.mp hx]
      exact hdispatched _ hrun

end RunnerGatewayStore

open RunnerGatewayStore

end AgentRuntime
end RepoMesh
