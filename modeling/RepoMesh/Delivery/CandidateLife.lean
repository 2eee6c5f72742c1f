/-
# The life of one candidate

What the calls of the delivery service do to the candidate of one repository: nothing, or what
the mutator they run on it does. A candidate once listed stays listed.
-/
import RepoMesh.Delivery.WellFormed

namespace RepoMesh
namespace Delivery

open Fallible

/-- The candidate a store holds for a repository of a ChangeSet. -/
def ChangeSetStore.candidate? (st : ChangeSetStore) (changeSetId repositoryId : UUID) :
    Option RepositoryDelivery :=
  (st.get changeSetId).bind fun cs => cs.candidate? repositoryId

theorem candidate?_of_step {cs cs' : ChangeSet} {r r' : UUID} {c : CandidateOp}
    {d : RepositoryDelivery} (hd : cs.candidate? r' = some d)
    (h : List.Forall₂ (CandidateStep r c) cs.repositories cs'.repositories) :
    ∃ d', cs'.candidate? r' = some d' ∧ CandidateStep r c d d' := by
  obtain ⟨hmem, hid⟩ := ChangeSet.candidate?_eq_some.mp hd
  obtain ⟨d', hd', hstep⟩ := forall₂_exists_right h hmem
  exact ⟨d', ChangeSet.candidate?_eq_some.mpr ⟨hd', hstep.frame.1.trans hid⟩, hstep⟩

/-- What a call does to the candidate of a repository: nothing, or what a mutator that the call
runs on it does. -/
def CandidateChange (changeSetId repositoryId : UUID) (op : DeliveryOp)
    (d d' : RepositoryDelivery) : Prop :=
  d' = d ∨ ∃ o c, op = .change o ∧ o.changeSetId = changeSetId ∧
    o.candidateOp? = some (repositoryId, c) ∧ c.apply d = .ok d'

theorem ChangeSetStep.candidate? {nextId : UUID} {cs cs' : ChangeSet} {op : ChangeSetOp}
    (h : ChangeSetStep nextId cs cs' op) {r : UUID} {d : RepositoryDelivery}
    (hd : cs.candidate? r = some d) :
    ∃ d', cs'.candidate? r = some d' ∧
      (d' = d ∨ ∃ c, op.candidateOp? = some (r, c) ∧ c.apply d = .ok d') := by
  have hid := (ChangeSet.candidate?_eq_some.mp hd).2
  have hsteps : ∀ {r' : UUID} {c : CandidateOp}, op.candidateOp? = some (r', c) →
      List.Forall₂ (CandidateStep r' c) cs.repositories cs'.repositories →
      ∃ d', cs'.candidate? r = some d' ∧
        (d' = d ∨ ∃ c, op.candidateOp? = some (r, c) ∧ c.apply d = .ok d') := by
    intro r' c hcall hall
    obtain ⟨d', hd', hstep⟩ := candidate?_of_step hd hall
    refine ⟨d', hd', ?_⟩
    by_cases heq : d.repositoryId = r'
    · obtain rfl : r = r' := hid.symm.trans heq
      exact Or.inr ⟨c, hcall, hstep.of_eq heq⟩
    · exact Or.inl (hstep.of_ne heq)
  have hsame : cs'.repositories = cs.repositories → ∃ d', cs'.candidate? r = some d' ∧
      (d' = d ∨ ∃ c, op.candidateOp? = some (r, c) ∧ c.apply d = .ok d') := fun hrepos =>
    ⟨d, by rw [ChangeSet.candidate?, hrepos]; exact hd, Or.inl rfl⟩
  cases h with
  | candidate call upstream step changed written =>
    rw [← (ChangeSet.withRepositories_ok written).1] at step
    exact hsteps call step
  | append fresh created written =>
    refine ⟨d, ?_, Or.inl rfl⟩
    rw [ChangeSet.candidate?_eq_some, (ChangeSet.appendRepositories_ok written).1]
    exact ⟨List.mem_append_left _ (ChangeSet.candidate?_eq_some.mp hd).1, hid⟩
  | governance created written => exact hsame (ChangeSet.recordGovernance_ok written).1
  | revision written => exact hsteps rfl (ChangeSet.recordCandidateRevision_ok written).2.1
  | recovery written => exact hsame (by rw [written]; rfl)
  | recoveryAction written => exact hsame (ChangeSet.recordRecoveryAction_ok written).2.2.1

theorem candidate?_written {st : ChangeSetStore} {o : ChangeSetOp} {cs cs' : ChangeSet}
    (hget : st.get o.changeSetId = some cs) (hid : cs'.id = cs.id) (id r : UUID) :
    (DeliveryService.written st o cs cs').candidate? id r =
      if id = o.changeSetId then cs'.candidate? r else st.candidate? id r := by
  have hcs' : cs'.id = o.changeSetId := hid.trans (ChangeSetStore.mem_of_get hget).2
  have hread : ∀ i, (DeliveryService.written st o cs cs').get i = (st.write cs').get i :=
    fun _ => rfl
  split_ifs with h
  · rw [ChangeSetStore.candidate?, hread, h, ← hcs', ChangeSetStore.get_write_self (hcs' ▸ hget)]
    rfl
  · rw [ChangeSetStore.candidate?, hread, ChangeSetStore.get_write_of_ne (hcs' ▸ h)]
    rfl

namespace DeliveryService

theorem candidate?_of_apply {fingerprint : PrepareChangeSetCommand → String}
    {st st' : ChangeSetStore} (hw : st.WellFormed) {op : DeliveryOp}
    (h : apply fingerprint op st = .ok st') {id r : UUID} {d : RepositoryDelivery}
    (hd : st.candidate? id r = some d) :
    ∃ d', st'.candidate? id r = some d' ∧ CandidateChange id r op d d' := by
  rcases apply_cases h with rfl | ⟨c, key, cs, -, hcs, hitems, -⟩ |
    ⟨o, cs, cs', rfl, -, hget, happly, rfl⟩
  · exact ⟨d, hd, Or.inl rfl⟩
  · obtain ⟨cs₀, hget, hcand⟩ := Option.bind_eq_some_iff.mp hd
    refine ⟨d, ?_, Or.inl rfl⟩
    have hget' : st'.get id = some cs₀ := by
      rw [ChangeSetStore.get, hitems, List.find?_append]
      rw [ChangeSetStore.get] at hget
      rw [hget, Option.some_or]
    rw [ChangeSetStore.candidate?, hget']
    exact hcand
  · have hid : cs'.id = cs.id :=
      ((hw.each cs (ChangeSetStore.mem_of_get hget).1).step (ChangeSetOp.apply_some happly)).2
    rw [candidate?_written hget hid]
    split_ifs with heq
    · subst heq
      have hcand : cs.candidate? r = some d := by
        rw [ChangeSetStore.candidate?, hget] at hd
        exact hd
      obtain ⟨d', hd', hchange⟩ := (ChangeSetOp.apply_some happly).candidate? hcand
      refine ⟨d', hd', hchange.imp id ?_⟩
      rintro ⟨c, hcall, hc⟩
      exact ⟨o, c, rfl, rfl, hcall, hc⟩
    · exact ⟨d, hd, Or.inl rfl⟩

/-- **One call, one candidate.** -/
theorem candidate?_attempt (fingerprint : PrepareChangeSetCommand → String)
    {st : ChangeSetStore} (hw : st.WellFormed) (op : DeliveryOp) {id r : UUID}
    {d : RepositoryDelivery} (hd : st.candidate? id r = some d) :
    ∃ d', (Runs.attempt (apply fingerprint) st op).candidate? id r = some d' ∧
      CandidateChange id r op d d' := by
  cases h : apply fingerprint op st with
  | ok st' =>
    rw [Runs.attempt_ok h]
    exact candidate?_of_apply hw h hd
  | error e =>
    rw [Runs.attempt_error h]
    exact ⟨d, hd, Or.inl rfl⟩

/-- **Invariant rule for ChangeSets.** What `prepare` builds with and every step keeps, all
ChangeSets of a store have. -/
theorem items_attempt (fingerprint : PrepareChangeSetCommand → String) {P : ChangeSet → Prop}
    (prepared : ∀ c id cs, preparedChangeSet c id = .ok cs → P cs)
    (step : ∀ nextId cs cs' op, P cs → ChangeSetStep nextId cs cs' op → P cs')
    {st : ChangeSetStore} (hst : ∀ cs ∈ st.items, P cs) (op : DeliveryOp) :
    ∀ cs ∈ (Runs.attempt (apply fingerprint) st op).items, P cs := by
  refine Runs.attempt_cases (P := fun s : ChangeSetStore => ∀ cs ∈ s.items, P cs) hst
    fun st' h => ?_
  rcases apply_cases h with rfl | ⟨c, key, cs, -, hcs, hitems, -⟩ |
    ⟨o, cs, cs', -, -, hget, happly, rfl⟩
  · exact hst
  · intro x hx
    rw [hitems] at hx
    rcases List.mem_append.mp hx with hx | hx
    · exact hst x hx
    · rw [List.mem_singleton.mp hx]
      exact prepared c st.nextId cs hcs
  · intro x hx
    rcases ChangeSetStore.mem_write hx with rfl | ⟨hx, -⟩
    · exact step st.nextId cs x o (hst cs (ChangeSetStore.mem_of_get hget).1)
        (ChangeSetOp.apply_some happly)
    · exact hst x hx

theorem items_states (fingerprint : PrepareChangeSetCommand → String) {P : ChangeSet → Prop}
    (prepared : ∀ c id cs, preparedChangeSet c id = .ok cs → P cs)
    (step : ∀ nextId cs cs' op, P cs → ChangeSetStep nextId cs cs' op → P cs')
    (ops : List DeliveryOp) :
    ∀ st ∈ Runs.states (Runs.attempt (apply fingerprint)) {} ops, ∀ cs ∈ st.items, P cs := by
  have hempty : ∀ cs ∈ ({} : ChangeSetStore).items, P cs := fun cs hcs => by cases hcs
  have hstep : ∀ (st : ChangeSetStore) (op : DeliveryOp), (∀ cs ∈ st.items, P cs) →
      ∀ cs ∈ (Runs.attempt (apply fingerprint) st op).items, P cs :=
    fun st op hst => items_attempt fingerprint prepared step hst op
  exact Runs.states_invariant hstep hempty ops

theorem wellFormed_states (fingerprint : PrepareChangeSetCommand → String)
    (ops : List DeliveryOp) :
    ∀ st ∈ Runs.states (Runs.attempt (apply fingerprint)) {} ops, st.WellFormed := by
  have hstep : ∀ (st : ChangeSetStore) (op : DeliveryOp), st.WellFormed →
      (Runs.attempt (apply fingerprint) st op).WellFormed := fun _ op hst => wellFormed_step hst op
  exact Runs.states_invariant hstep ChangeSetStore.wellFormed_empty ops

end DeliveryService

end Delivery
end RepoMesh
