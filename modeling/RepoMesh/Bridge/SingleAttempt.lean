/-
# The messages of a single attempt

A lane of a trigger holds the messages of a single attempt. An answer leaves it so exactly when it
brings no new position, or goes on where the lane ends.
-/
import RepoMesh.Bridge.RoomOrder

namespace RepoMesh
namespace Bridge

/-- The lane holds the messages of a single attempt. -/
def Single (w : World) : Prop :=
  ∀ trigger lane, ∃ attempt, stored trigger lane w = writtenBy attempt trigger lane w

variable [Names] {w w' : World} {rows : List OutboxRow} {attempt : ℕ} {trigger lane : String}

/-- An attempt's messages go on where their lane ends: they take no new position, or the lane holds
exactly what the attempt wrote, or they begin with what it holds. -/
def Continues (attempt : ℕ) (trigger lane : String) (rows : List OutboxRow) (w : World) : Prop :=
  (∀ row ∈ rows, (w.inbox.state.sendAt row.key).isSome = true) ∨
    stored trigger lane w = writtenBy attempt trigger lane w ∨
    stored trigger lane w <+: rows.map OutboxRow.content

/-- The positions of messages. -/
abbrev positions (messages : List Content) : List OutboxKey := messages.map Prod.fst

omit [Names] in
theorem stored_eq (trigger lane : String) (w : World) : stored trigger lane w =
    (w.inbox.state.outbox.map OutboxRow.content).filter fun c => inLane trigger lane c.1 := by
  rw [stored, List.filter_map]
  rfl

omit [Names] in
theorem Single.same (h : Single w)
    (houtbox : w'.inbox.state.outbox.map OutboxRow.content =
      w.inbox.state.outbox.map OutboxRow.content) (hwritten : w'.written = w.written) :
    Single w' := by
  intro trigger lane
  obtain ⟨attempt, hattempt⟩ := h trigger lane
  refine ⟨attempt, ?_⟩
  rw [stored_eq, houtbox, ← stored_eq, hattempt, writtenBy, writtenBy, hwritten]

omit [Names] in
theorem mem_positions_stored {key : OutboxKey} (hlane : inLane trigger lane key = true) :
    key ∈ positions (stored trigger lane w) ↔ key ∈ w.inbox.state.outbox.map (·.key) := by
  simp only [positions, stored, List.mem_map, List.mem_filter]
  constructor
  · rintro ⟨_, ⟨row, ⟨hrow, -⟩, rfl⟩, rfl⟩
    exact ⟨row, hrow, rfl⟩
  · rintro ⟨row, hrow, rfl⟩
    exact ⟨row.content, ⟨row, ⟨hrow, hlane⟩, rfl⟩, rfl⟩

omit [Names] in
theorem mem_positions_writtenBy {key : OutboxKey} (hlane : inLane trigger lane key = true) :
    key ∈ positions (writtenBy attempt trigger lane w) ↔
      (attempt, key) ∈ w.written.map fun x => (x.attempt, x.key) := by
  simp only [positions, writtenBy, List.mem_map, List.mem_filter, Bool.and_eq_true, beq_iff_eq,
    Prod.mk.injEq]
  constructor
  · rintro ⟨_, ⟨x, ⟨hx, hattempt, -⟩, rfl⟩, rfl⟩
    exact ⟨x, hx, hattempt, rfl⟩
  · rintro ⟨x, hx, hattempt, rfl⟩
    exact ⟨x.content, ⟨x, ⟨hx, hattempt, hlane⟩, rfl⟩, rfl⟩

theorem Orderly.positions_writtenBy (h : Orderly w) {key : OutboxKey}
    (hkey : key ∈ positions (writtenBy attempt trigger lane w)) :
    key ∈ positions (stored trigger lane w) := by
  simp only [positions, writtenBy, List.mem_map, List.mem_filter, Bool.and_eq_true] at hkey
  obtain ⟨_, ⟨x, ⟨hx, -, hlane⟩, rfl⟩, rfl⟩ := hkey
  exact (mem_positions_stored hlane).mpr (h.placed x hx)

section

variable (hanswer : Answering trigger lane rows)

include hanswer

theorem stored_wrote (attempt : ℕ) (hinj : Function.Injective Names.digest) (h : Orderly w) :
    stored trigger lane (wrote attempt rows w) = stored trigger lane w ++
      (rows.map OutboxRow.content).filter fun c => c.1 ∉ positions (stored trigger lane w) := by
  have hall : ((rows.filter fun r => r.key ∉ w.inbox.state.outbox.map (·.key)).filter
      fun r => inLane trigger lane r.key) =
      rows.filter fun r => r.key ∉ w.inbox.state.outbox.map (·.key) :=
    List.filter_eq_self.mpr fun r hr => hanswer.inLane r (List.mem_of_mem_filter hr)
  rw [stored, wrote_outbox hinj _ h hanswer, List.filter_append, List.map_append, hall,
    List.filter_map]
  congr 2
  refine List.filter_congr fun r hr => decide_eq_decide.mpr (not_congr ?_)
  exact (mem_positions_stored (hanswer.inLane r hr)).symm

theorem writtenBy_wrote (attempt : ℕ) (w : World) : writtenBy attempt trigger lane (wrote attempt rows w) =
    writtenBy attempt trigger lane w ++ (rows.map OutboxRow.content).filter fun c =>
      c.1 ∉ positions (writtenBy attempt trigger lane w) := by
  have hall : ∀ xs : List OutboxRow, (∀ r ∈ xs, r ∈ rows) →
      (xs.map (entry attempt)).filter
        (fun x => x.attempt == attempt && inLane trigger lane x.key) = xs.map (entry attempt) := by
    intro xs hxs
    refine List.filter_eq_self.mpr fun x hx => ?_
    obtain ⟨r, hr, rfl⟩ := List.mem_map.mp hx
    simp [entry, hanswer.inLane r (hxs r hr)]
  rw [writtenBy, wrote_written hanswer.keys, List.filter_append, List.map_append,
    hall _ fun r hr => List.mem_of_mem_filter hr, List.map_map, List.filter_map]
  congr 1
  show List.map OutboxRow.content _ = _
  congr 1
  refine List.filter_congr fun r hr => decide_eq_decide.mpr (not_congr ?_)
  exact (mem_positions_writtenBy (hanswer.inLane r hr)).symm

theorem writtenBy_wrote_of_ne {a : ℕ} {t l : String}
    (hne : a ≠ attempt ∨ ¬ (t = trigger ∧ l = lane)) :
    writtenBy a t l (wrote attempt rows w) = writtenBy a t l w := by
  rw [writtenBy, wrote_written hanswer.keys, List.filter_append, List.map_append]
  refine List.append_right_eq_self.mpr (List.map_eq_nil_iff.mpr ?_)
  refine List.filter_eq_nil_iff.mpr fun x hx hmatch => ?_
  obtain ⟨r, hr, rfl⟩ := List.mem_map.mp hx
  have hin := hanswer.inLane r (List.mem_of_mem_filter hr)
  simp only [entry, inLane, Bool.and_eq_true, beq_iff_eq] at hmatch hin
  rcases hne with hne | hne
  · exact hne hmatch.1.symm
  · exact hne ⟨hmatch.2.1.symm.trans hin.1, hmatch.2.2.symm.trans hin.2⟩

theorem stored_wrote_of_ne (hinj : Function.Injective Names.digest) (h : Orderly w) {t l : String}
    (hne : ¬ (t = trigger ∧ l = lane)) :
    stored t l (wrote attempt rows w) = stored t l w := by
  rw [stored, wrote_outbox hinj _ h hanswer, List.filter_append, List.map_append]
  refine List.append_right_eq_self.mpr (List.map_eq_nil_iff.mpr ?_)
  refine List.filter_eq_nil_iff.mpr fun r hr hmatch => ?_
  have hin := hanswer.inLane r (List.mem_of_mem_filter hr)
  simp only [inLane, Bool.and_eq_true, beq_iff_eq] at hmatch hin
  exact hne ⟨hmatch.1.symm.trans hin.1, hmatch.2.symm.trans hin.2⟩

theorem positions_nodup : (positions (rows.map OutboxRow.content)).Nodup := by
  rw [positions, List.map_map]
  exact hanswer.keys

/-- **An answer that goes on where its lane ends** leaves the lane to one attempt. -/
theorem single_of_continues (hinj : Function.Injective Names.digest) (h : Orderly w)
    (hnew : writtenBy attempt trigger lane w = [] ∨ rows.length = 1) (hsingle : Single w)
    (hcontinues : Continues attempt trigger lane rows w) : Single (wrote attempt rows w) := by
  intro t l
  by_cases hlane : t = trigger ∧ l = lane
  · obtain ⟨rfl, rfl⟩ := hlane
    have hstored := stored_wrote hanswer attempt hinj h
    have hwritten := writtenBy_wrote hanswer attempt w
    have hnd := positions_nodup hanswer
    -- Nothing new: the messages are still those of the attempt they were of.
    have hnothing : (∀ c ∈ rows.map OutboxRow.content, c.1 ∈ positions (stored t l w)) →
        ∃ a, stored t l (wrote attempt rows w) = writtenBy a t l (wrote attempt rows w) := by
      intro htaken
      have hnone : (rows.map OutboxRow.content).filter
          (fun c => c.1 ∉ positions (stored t l w)) = [] :=
        List.filter_eq_nil_iff.mpr fun c hc => by simpa using htaken c hc
      obtain ⟨a, ha⟩ := hsingle t l
      by_cases hattempt : a = attempt
      · subst hattempt
        exact ⟨a, by rw [hstored, hwritten, ← ha]⟩
      · refine ⟨a, ?_⟩
        rw [hstored, hnone, List.append_nil, ha, writtenBy_wrote_of_ne hanswer (Or.inl hattempt)]
    -- Beginning with the lane: after it the lane holds the answer, which is all the attempt wrote.
    have hbegins : stored t l w <+: rows.map OutboxRow.content → writtenBy attempt t l w = [] →
        ∃ a, stored t l (wrote attempt rows w) = writtenBy a t l (wrote attempt rows w) := by
      intro hprefix hfirst
      refine ⟨attempt, ?_⟩
      rw [hstored, hwritten, hfirst, Keyed.prefix_append_filter hprefix hnd]
      simp
    rcases hcontinues with htaken | hsame | hprefix
    · refine hnothing fun c hc => ?_
      obtain ⟨r, hr, rfl⟩ := List.mem_map.mp hc
      exact (mem_positions_stored (hanswer.inLane r hr)).mpr
        (BridgeState.sendAt_isSome.mp (htaken r hr))
    · exact ⟨attempt, by rw [hstored, hwritten, hsame]⟩
    · rcases hnew with hfirst | hone
      · exact hbegins hprefix hfirst
      · obtain ⟨r, rfl⟩ := List.length_eq_one_iff.mp hone
        rcases List.prefix_cons_iff.mp (show stored t l w <+: [r.content] from hprefix) with
          hempty | ⟨rest, hfull, hrest⟩
        · refine hbegins hprefix (List.eq_nil_iff_forall_not_mem.mpr fun c hc => ?_)
          have hplaced := h.positions_writtenBy (List.mem_map_of_mem (f := Prod.fst) hc)
          rw [hempty] at hplaced
          cases hplaced
        · refine hnothing fun c hc => ?_
          rw [List.mem_singleton.mp hc, hfull]
          simp [positions]
  · obtain ⟨a, ha⟩ := hsingle t l
    refine ⟨a, ?_⟩
    rw [stored_wrote_of_ne hanswer hinj h hlane, ha,
      writtenBy_wrote_of_ne hanswer (Or.inr hlane)]

/-- **Any other answer** mixes two attempts. -/
theorem continues_of_single (hinj : Function.Injective Names.digest) (h : Orderly w)
    (hnew : writtenBy attempt trigger lane w = [] ∨ rows.length = 1)
    (hsingle : Single (wrote attempt rows w)) : Continues attempt trigger lane rows w := by
  by_cases htaken : ∀ row ∈ rows, (w.inbox.state.sendAt row.key).isSome = true
  · exact Or.inl htaken
  push_neg at htaken
  obtain ⟨row, hrow, hfree⟩ := htaken
  have hlane := hanswer.inLane row hrow
  have hfree' : row.key ∉ positions (stored trigger lane w) := fun hmem =>
    hfree (BridgeState.sendAt_isSome.mpr ((mem_positions_stored hlane).mp hmem))
  have hstored := stored_wrote hanswer attempt hinj h
  have hwritten := writtenBy_wrote hanswer attempt w
  obtain ⟨a, ha⟩ := hsingle trigger lane
  -- The new message is on disk, so the attempt it is of is the one that writes.
  have hattempt : a = attempt := by
    by_contra hne
    rw [writtenBy_wrote_of_ne hanswer (Or.inl hne)] at ha
    have hmem : row.key ∈ positions (stored trigger lane (wrote attempt rows w)) := by
      rw [hstored, positions, List.map_append]
      refine List.mem_append_right _ (List.mem_map.mpr ⟨row.content, ?_, rfl⟩)
      exact List.mem_filter.mpr ⟨List.mem_map_of_mem hrow, decide_eq_true hfree'⟩
    rw [ha] at hmem
    exact hfree' (h.positions_writtenBy hmem)
  subst hattempt
  rw [hstored, hwritten] at ha
  rcases hnew with hfirst | hone
  · refine Or.inr (Or.inr ?_)
    rw [hfirst] at ha
    simp only [positions, List.map_nil, List.not_mem_nil, not_false_eq_true, decide_true,
      List.filter_true, List.nil_append] at ha
    exact ⟨_, ha⟩
  · refine Or.inr (Or.inl ?_)
    obtain ⟨r, rfl⟩ := List.length_eq_one_iff.mp hone
    obtain rfl := List.mem_singleton.mp hrow
    have hunwritten : row.key ∉ positions (writtenBy a trigger lane w) := fun hmem =>
      hfree' (h.positions_writtenBy hmem)
    have hleft : [row.content].filter (fun c => c.1 ∉ positions (stored trigger lane w)) =
        [row.content] := List.filter_eq_self.mpr (by simpa [OutboxRow.content] using hfree')
    have hright : [row.content].filter (fun c => c.1 ∉ positions (writtenBy a trigger lane w)) =
        [row.content] := List.filter_eq_self.mpr (by simpa [OutboxRow.content] using hunwritten)
    rw [List.map_singleton, hleft, hright] at ha
    exact List.append_cancel_right ha

end

end Bridge
end RepoMesh
