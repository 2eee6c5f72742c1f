/-
# Interrupted calls

A call of the delivery service reads a ChangeSet, computes, and writes under the version it read.
Whatever happens between the read and the write, a write that succeeds is the whole call at that
moment; this module proves it for any relation under which a ChangeSet that was written since has a
larger version.
-/
import RepoMesh.Delivery.CandidateLife

namespace RepoMesh
namespace Delivery

open Fallible

/-! ## Stores between two moments -/

/-- Every ChangeSet of `a` is in `b`, as `K` allows. -/
def StoreKept (K : ChangeSet → ChangeSet → Prop) (a b : ChangeSetStore) : Prop :=
  ∀ id cs, a.get id = some cs → ∃ cs', b.get id = some cs' ∧ K cs cs'

/-- What may become of a ChangeSet: it stays, or it is written with a larger version. -/
structure Keeps (K : ChangeSet → ChangeSet → Prop) : Prop where
  refl : ∀ cs, K cs cs
  trans : ∀ a b c, K a b → K b c → K a c
  version : ∀ cs cs', K cs cs' → cs' = cs ∨ cs.version < cs'.version
  step : ∀ (nextId : UUID) cs cs' (op : ChangeSetOp), op.apply nextId cs = .ok (some cs') → K cs cs'

variable {K : ChangeSet → ChangeSet → Prop}

theorem StoreKept.refl (hK : Keeps K) (a : ChangeSetStore) : StoreKept K a a :=
  fun _ cs hcs => ⟨cs, hcs, hK.refl cs⟩

theorem StoreKept.trans (hK : Keeps K) {a b c : ChangeSetStore} (hab : StoreKept K a b)
    (hbc : StoreKept K b c) : StoreKept K a c := by
  intro id cs hcs
  obtain ⟨cs', hcs', hkept⟩ := hab id cs hcs
  obtain ⟨cs'', hcs'', hkept'⟩ := hbc id cs' hcs'
  exact ⟨cs'', hcs'', hK.trans _ _ _ hkept hkept'⟩

theorem get_written {st : ChangeSetStore} {o : ChangeSetOp} {cs cs' : ChangeSet}
    (hget : st.get o.changeSetId = some cs) (hid : cs'.id = cs.id) (id : UUID) :
    (DeliveryService.written st o cs cs').get id =
      if id = o.changeSetId then some cs' else st.get id := by
  have hcs' : cs'.id = o.changeSetId := hid.trans (ChangeSetStore.mem_of_get hget).2
  have hread : (DeliveryService.written st o cs cs').get id = (st.write cs').get id := rfl
  split_ifs with h
  · rw [hread, h, ← hcs', ChangeSetStore.get_write_self (hcs' ▸ hget)]
  · rw [hread, ChangeSetStore.get_write_of_ne (hcs' ▸ h)]

/-- **One service call keeps every ChangeSet of the store.** -/
theorem storeKept_attempt (hK : Keeps K) (fingerprint : PrepareChangeSetCommand → String)
    {st : ChangeSetStore} (hw : st.WellFormed) (op : DeliveryOp) :
    StoreKept K st (Runs.attempt (DeliveryService.apply fingerprint) st op) := by
  refine Runs.attempt_cases (StoreKept.refl hK st) fun st' h => ?_
  rcases DeliveryService.apply_cases h with rfl | ⟨c, key, cs, -, -, hitems, -⟩ |
    ⟨o, cs, cs', -, -, hget, happly, rfl⟩
  · exact StoreKept.refl hK st'
  · intro id cs₀ hcs₀
    refine ⟨cs₀, ?_, hK.refl cs₀⟩
    rw [ChangeSetStore.get, hitems, List.find?_append]
    rw [ChangeSetStore.get] at hcs₀
    rw [hcs₀, Option.some_or]
  · intro id cs₀ hcs₀
    have hstep := ChangeSetOp.apply_some happly
    have hid : cs'.id = cs.id := ((hw.each cs (ChangeSetStore.mem_of_get hget).1).step hstep).2
    rw [get_written hget hid]
    split_ifs with heq
    · subst heq
      obtain rfl := Option.some.inj (hget.symm.trans hcs₀)
      exact ⟨cs', rfl, hK.step _ _ _ _ happly⟩
    · exact ⟨cs₀, hcs₀, hK.refl cs₀⟩

/-- **Guarded invariant rule.** What `prepare` builds with and this call keeps, all ChangeSets of
the store have after it. -/
theorem items_attempt_guarded (fingerprint : PrepareChangeSetCommand → String)
    {P : ChangeSet → Prop}
    (prepared : ∀ c id cs, DeliveryService.preparedChangeSet c id = .ok cs → P cs)
    {st : ChangeSetStore} {op : DeliveryOp}
    (step : ∀ o cs cs', op = .change o → st.get o.changeSetId = some cs → P cs →
      o.apply st.nextId cs = .ok (some cs') → P cs')
    (hst : ∀ cs ∈ st.items, P cs) :
    ∀ cs ∈ (Runs.attempt (DeliveryService.apply fingerprint) st op).items, P cs := by
  refine Runs.attempt_cases (P := fun s : ChangeSetStore => ∀ cs ∈ s.items, P cs) hst
    fun st' h => ?_
  rcases DeliveryService.apply_cases h with rfl | ⟨c, key, cs, -, hcs, hitems, -⟩ |
    ⟨o, cs, cs', hop, -, hget, happly, rfl⟩
  · exact hst
  · intro x hx
    rw [hitems] at hx
    rcases List.mem_append.mp hx with hx | hx
    · exact hst x hx
    · rw [List.mem_singleton.mp hx]
      exact prepared c st.nextId cs hcs
  · intro x hx
    rcases ChangeSetStore.mem_write hx with rfl | ⟨hx, -⟩
    · exact step o cs x hop hget (hst cs (ChangeSetStore.mem_of_get hget).1) happly
    · exact hst x hx

/-! ## The write of a call -/

/-- The ChangeSet was stored, and what is stored now is what became of it. -/
def Seen (K : ChangeSet → ChangeSet → Prop) (st : ChangeSetStore) (cs : ChangeSet) : Prop :=
  ∃ cs', st.get cs.id = some cs' ∧ K cs cs'

theorem Seen.kept (hK : Keeps K) {a b : ChangeSetStore} {cs : ChangeSet} (h : Seen K a cs)
    (hkept : StoreKept K a b) : Seen K b cs := by
  obtain ⟨cs', hget, hcs'⟩ := h
  obtain ⟨cs'', hget', hcs''⟩ := hkept cs.id cs' hget
  exact ⟨cs'', hget', hK.trans _ _ _ hcs' hcs''⟩

theorem seen_of_get (hK : Keeps K) {st : ChangeSetStore} {id : UUID} {cs : ChangeSet}
    (h : st.get id = some cs) : Seen K st cs := by
  obtain rfl : cs.id = id := (ChangeSetStore.mem_of_get h).2
  exact ⟨cs, h, hK.refl cs⟩

/-- The call draws no identifiers: what it writes does not depend on the supply. -/
def ChangeSetOp.DrawsNothing (call : ChangeSetOp) : Prop := ∀ c, call ≠ .planRecovery c

theorem ChangeSetOp.DrawsNothing.apply_eq {call : ChangeSetOp} (h : call.DrawsNothing)
    (n m : UUID) (cs : ChangeSet) : call.apply n cs = call.apply m cs := by
  cases call with
  | planRecovery c => exact absurd rfl (h c)
  | _ => rfl

theorem get_of_update (hK : Keeps K) {st st' : ChangeSetStore} {cs updated : ChangeSet}
    (hseen : Seen K st cs) (hsame : updated.id = cs.id)
    (h : st.update updated cs.version = .ok st') :
    st.get cs.id = some cs ∧ st' = st.write updated := by
  obtain ⟨current, hget, hkept⟩ := hseen
  rw [ChangeSetStore.update, hsame, hget] at h
  simp only [ne_eq, ite_not] at h
  split at h
  · rename_i hversion
    obtain rfl : current = cs := (hK.version _ _ hkept).resolve_right (by omega)
    exact ⟨hget, (Except.ok.inj h).symm⟩
  · cases h

/-- **Compare-and-set.** A write that succeeds is the whole call, without interruption. -/
theorem attempt_of_update (hK : Keeps K) (fingerprint : PrepareChangeSetCommand → String)
    {st st' : ChangeSetStore} {call : ChangeSetOp} {cs updated : ChangeSet} {n : UUID}
    (hdraws : call.DrawsNothing) (hvalid : call.validate = .ok ()) (hid : cs.id = call.changeSetId)
    (hseen : Seen K st cs) (hsame : updated.id = cs.id)
    (happly : call.apply n cs = .ok (some updated)) (h : st.update updated cs.version = .ok st') :
    DeliveryService.apply fingerprint (.change call) st = .ok st' := by
  obtain ⟨hget, rfl⟩ := get_of_update hK hseen hsame h
  have hget' : st.get call.changeSetId = some cs := hid ▸ hget
  rw [hdraws.apply_eq n st.nextId] at happly
  have hwritten : DeliveryService.written st call cs updated = st.write updated := by
    have hnone : call.idsDrawn st.nextId cs = 0 := by
      cases call with
      | planRecovery c => exact absurd rfl (hdraws c)
      | _ => rfl
    rw [DeliveryService.written, hnone]
    rfl
  rw [DeliveryService.apply_of_written hvalid hget' happly hsame, hwritten]

end Delivery
end RepoMesh
