/-
# What every delivery store keeps

The invariant of the ChangeSet store under all service calls: identifiers are unique and below
the supply, dependencies stay inside their ChangeSet, and only a pending candidate lacks a pull
request.
-/
import RepoMesh.Delivery.Steps

namespace RepoMesh
namespace Delivery

open Fallible

/-! ## Candidates -/

/-- A candidate past `PENDING` has a pull request. -/
def RepositoryDelivery.Opened (d : RepositoryDelivery) : Prop :=
  d.status = .pending ∨ d.pullRequestNumber ≠ none

theorem CandidateOp.apply_opened {c : CandidateOp} {d d' : RepositoryDelivery} (hd : d.Opened)
    (h : c.apply d = .ok d') : d'.Opened := by
  cases c <;> simp only [CandidateOp.apply] at h
  case observePr => rw [(RepositoryDelivery.observePr_ok h).2]; exact Or.inr (by simp)
  case observeCi =>
    obtain ⟨hpr, checks, status, rfl, -⟩ := RepositoryDelivery.observeCi_ok h
    exact Or.inr hpr
  case observeReview =>
    obtain ⟨⟨hpr, -⟩, reviews, status, rfl, -⟩ := RepositoryDelivery.observeReview_ok h
    exact Or.inr hpr
  case requestMerge =>
    obtain ⟨hs, rfl⟩ := RepositoryDelivery.requestMerge_ok h
    refine Or.inr (hd.resolve_left fun hp => ?_)
    rcases hs with hs | hs <;> rw [hp] at hs <;> cases hs
  case observeMerge =>
    obtain ⟨hs, rfl⟩ := RepositoryDelivery.observeMerge_ok h
    refine Or.inr (hd.resolve_left fun hp => ?_)
    rcases hs with hs | hs <;> rw [hp] at hs <;> cases hs
  case attachTraceability =>
    rw [RepositoryDelivery.attachTraceability_ok h]
    exact hd
  case revise =>
    obtain ⟨-, -, -, hstatus, hpr, -⟩ := RepositoryDelivery.revise_ok h
    cases hnum : d.pullRequestNumber with
    | none => exact Or.inl (by rw [hstatus, hnum]; rfl)
    | some n => exact Or.inr (by rw [hpr, hnum]; simp)

theorem RepositoryDelivery.create_ok {item : RepositoryCandidateInput} {order : ℕ}
    {d : RepositoryDelivery} (h : RepositoryDelivery.create item order = .ok d) :
    d.repositoryId = item.repositoryId ∧ d.dependsOn = item.dependsOn ∧ d.taskId = item.taskId ∧
      d.commitSha = item.commitSha ∧ d.status = .pending ∧ d.pullRequestNumber = none := by
  unfold create at h
  dsimp only at h
  split_ifs at h
  rw [← Except.ok.inj h]
  exact ⟨rfl, rfl, rfl, rfl, rfl, rfl⟩

/-- The record stands for the input it was created from. -/
def CreatedFrom (item : RepositoryCandidateInput) (d : RepositoryDelivery) : Prop :=
  ∃ order, RepositoryDelivery.create item order = .ok d

theorem repositoryIds_of_created {items : List RepositoryCandidateInput}
    {ds : List RepositoryDelivery} (h : List.Forall₂ CreatedFrom items ds) :
    repositoryIds ds = items.map (·.repositoryId) := by
  induction h with
  | nil => rfl
  | cons hd _ ih =>
    obtain ⟨order, hd⟩ := hd
    rw [repositoryIds, List.map_cons, (RepositoryDelivery.create_ok hd).1]
    exact congrArg _ ih

theorem ChangeSet.appendedRepositories_ok {cs : ChangeSet} {fresh : List RepositoryCandidateInput}
    {ds : List RepositoryDelivery} (h : cs.appendedRepositories fresh = .ok ds) :
    List.Forall₂ CreatedFrom fresh ds ∧
      dependenciesWithin fresh (repositoryIds cs.repositories ++ fresh.map (·.repositoryId)) := by
  unfold appendedRepositories at h
  dsimp only at h
  split_ifs at h with hwithin
  obtain ⟨order, -, h⟩ := bind_ok h
  exact ⟨(mapM_ok h).imp fun item d hd => ⟨_, hd⟩, hwithin⟩

/-! ## Preparing a ChangeSet -/

theorem dependencyTable_of_nodup {candidates : List RepositoryCandidateInput}
    (h : (candidates.map (·.repositoryId)).Nodup) :
    dependencyTable candidates = candidates.map fun c => (c.repositoryId, c.dependsOn) := by
  have fold : ∀ (cs : List RepositoryCandidateInput) (table : List (UUID × List UUID)),
      (table.map (·.1) ++ cs.map (·.repositoryId)).Nodup →
      cs.foldl (fun table c =>
        if table.any (fun e => e.1 == c.repositoryId) then
          table.map fun e => if e.1 = c.repositoryId then (e.1, c.dependsOn) else e
        else table ++ [(c.repositoryId, c.dependsOn)]) table =
      table ++ cs.map fun c => (c.repositoryId, c.dependsOn) := by
    intro cs
    induction cs with
    | nil => intro table _; simp
    | cons c cs ih =>
      intro table hnd
      have hnew : table.any (fun e => e.1 == c.repositoryId) = false := by
        rw [List.any_eq_false]
        intro e he heq
        have hmem : c.repositoryId ∈ table.map (·.1) :=
          List.mem_map.mpr ⟨e, he, by simpa using heq⟩
        exact (List.nodup_append.mp hnd).2.2 _ hmem c.repositoryId (by simp) rfl
      rw [List.foldl_cons, hnew, if_neg (by simp), ih]
      · simp
      · simpa using hnd
  simpa [dependencyTable] using fold candidates [] (by simpa using h)

theorem DeliveryService.preparedChangeSet_ok {c : PrepareChangeSetCommand} {id : UUID}
    {cs : ChangeSet} (h : preparedChangeSet c id = .ok cs) :
    List.Forall₂ CreatedFrom c.candidates cs.repositories ∧ cs.DependenciesClosed ∧
      cs.id = id ∧ cs.recoveryPlans = [] ∧ cs.status = .ready ∧ cs.projectId = c.projectId ∧
      cs.governanceDecisions = [] := by
  obtain ⟨order, horder, h⟩ := bind_ok h
  obtain ⟨repositories, hrepos, h⟩ := bind_ok h
  split_ifs at h with htitle hne hnd
  obtain rfl := Except.ok.inj h
  have hcreated : List.Forall₂ CreatedFrom c.candidates repositories :=
    (mapM_ok hrepos).imp fun item d hd => ⟨_, hd⟩
  refine ⟨hcreated, ?_, rfl, rfl, rfl, rfl, rfl⟩
  have hids := repositoryIds_of_created hcreated
  have hnd' : (c.candidates.map (·.repositoryId)).Nodup := hids ▸ hnd
  unfold mergeOrder at horder
  dsimp only at horder
  split_ifs at horder with hwithin
  rw [dependencyTable_of_nodup hnd'] at hwithin
  intro d hd dep hdep
  obtain ⟨item, hitem, order', hd'⟩ := forall₂_exists_left hcreated hd
  rw [(RepositoryDelivery.create_ok hd').2.1] at hdep
  rw [hids]
  have hall := List.all_eq_true.mp hwithin (item.repositoryId, item.dependsOn)
    (List.mem_map.mpr ⟨item, hitem, rfl⟩)
  simpa using List.all_eq_true.mp hall dep hdep

/-! ## One ChangeSet -/

/-- What every ChangeSet of a store keeps, relative to the identifiers drawn so far. -/
structure ChangeSet.WellFormed (nextId : UUID) (cs : ChangeSet) : Prop where
  closed : cs.DependenciesClosed
  opened : ∀ d ∈ cs.repositories, d.Opened
  plan_ids : (cs.recoveryPlans.map (·.id)).Nodup
  plan_bound : ∀ p ∈ cs.recoveryPlans, p.id < nextId

namespace ChangeSet

theorem DependenciesClosed.of_step {cs cs' : ChangeSet} {r : UUID} {c : CandidateOp}
    (hcl : cs.DependenciesClosed)
    (h : List.Forall₂ (CandidateStep r c) cs.repositories cs'.repositories) :
    cs'.DependenciesClosed := by
  intro d' hd' dep hdep
  obtain ⟨d, hd, hstep⟩ := forall₂_exists_left h hd'
  rw [repositoryIds_of_step h]
  exact hcl d hd dep (hstep.frame.2.1 ▸ hdep)

theorem opened_of_step {cs cs' : ChangeSet} {r : UUID} {c : CandidateOp}
    (hop : ∀ d ∈ cs.repositories, d.Opened)
    (h : List.Forall₂ (CandidateStep r c) cs.repositories cs'.repositories) :
    ∀ d ∈ cs'.repositories, d.Opened := by
  intro d' hd'
  obtain ⟨d, hd, hstep⟩ := forall₂_exists_left h hd'
  by_cases heq : d.repositoryId = r
  · exact CandidateOp.apply_opened (hop d hd) (hstep.of_eq heq)
  · rw [hstep.of_ne heq]; exact hop d hd

theorem recordAction_id {p p' : RecoveryPlan} {actionId : UUID} {status : RecoveryActionStatus}
    {detail : String} (h : p.recordAction actionId status detail = .ok p') : p'.id = p.id := by
  unfold RecoveryPlan.recordAction at h
  split_ifs at h
  obtain ⟨actions, -, h⟩ := bind_ok h
  rw [← Except.ok.inj h]

theorem planIds_of_recordAction {ps ps' : List RecoveryPlan} {planId actionId : UUID}
    {status : RecoveryActionStatus} {detail : String}
    (h : List.Forall₂ (fun p p' => (if p.id = planId then p.recordAction actionId status detail
      else .ok p) = .ok p') ps ps') : ps'.map (·.id) = ps.map (·.id) := by
  induction h with
  | nil => rfl
  | @cons p p' ps ps' hp _ ih =>
    rw [List.map_cons, List.map_cons, ih]
    refine congrArg (· :: ps.map (·.id)) ?_
    split_ifs at hp
    · exact recordAction_id hp
    · rw [Except.ok.inj hp]

/-- **One call keeps a ChangeSet well formed.** -/
theorem WellFormed.step {nextId : UUID} {cs cs' : ChangeSet} {op : ChangeSetOp}
    (hw : cs.WellFormed nextId) (h : ChangeSetStep nextId cs cs' op) :
    cs'.WellFormed (nextId + op.idsDrawn nextId cs) ∧ cs'.id = cs.id := by
  have hbound : ∀ p ∈ cs.recoveryPlans, p.id < nextId + op.idsDrawn nextId cs := fun p hp =>
    Nat.lt_of_lt_of_le (hw.plan_bound p hp) (Nat.le_add_right _ _)
  cases h with
  | candidate call upstream step changed written =>
    obtain ⟨hrepos, -, hid, hplans, -⟩ := withRepositories_ok written
    rw [← hrepos] at step
    exact ⟨⟨hw.closed.of_step step, opened_of_step hw.opened step, hplans ▸ hw.plan_ids,
      hplans ▸ hbound⟩, hid⟩
  | append fresh created written =>
    obtain ⟨hrepos, -, hid, hplans, -⟩ := appendRepositories_ok written
    obtain ⟨hcreated, hwithin⟩ := appendedRepositories_ok created
    have hids := repositoryIds_of_created hcreated
    refine ⟨⟨?_, ?_, hplans ▸ hw.plan_ids, hplans ▸ hbound⟩, hid⟩
    · intro d hd dep hdep
      rw [hrepos] at hd ⊢
      rw [repositoryIds, List.map_append]
      rcases List.mem_append.mp hd with hd | hd
      · exact List.mem_append_left _ (hw.closed d hd dep hdep)
      · obtain ⟨item, hitem, order, hd⟩ := forall₂_exists_left hcreated hd
        rw [(RepositoryDelivery.create_ok hd).2.1] at hdep
        have hall := List.all_eq_true.mp (List.all_eq_true.mp hwithin item hitem) dep hdep
        rw [← hids] at hall
        exact List.contains_iff_mem.mp hall
    · intro d hd
      rw [hrepos] at hd
      rcases List.mem_append.mp hd with hd | hd
      · exact hw.opened d hd
      · obtain ⟨item, -, order, hd⟩ := forall₂_exists_left hcreated hd
        exact Or.inl (RepositoryDelivery.create_ok hd).2.2.2.2.1
  | governance created written =>
    obtain ⟨hrepos, -, hid, hplans, -⟩ := recordGovernance_ok written
    refine ⟨⟨?_, hrepos ▸ hw.opened, hplans ▸ hw.plan_ids, hplans ▸ hbound⟩, hid⟩
    rw [DependenciesClosed, hrepos]
    exact hw.closed
  | revision written =>
    obtain ⟨-, step, -, hid, hplans, -⟩ := recordCandidateRevision_ok written
    exact ⟨⟨hw.closed.of_step step, opened_of_step hw.opened step, hplans ▸ hw.plan_ids,
      hplans ▸ hbound⟩, hid⟩
  | recovery written =>
    subst written
    refine ⟨⟨hw.closed, hw.opened, ?_, ?_⟩, rfl⟩
    · rw [addRecovery, List.map_append, List.nodup_append]
      refine ⟨hw.plan_ids, by simp, ?_⟩
      rintro a ha b hb rfl
      obtain ⟨p, hp, hpa⟩ := List.mem_map.mp ha
      rw [List.map_singleton, List.mem_singleton] at hb
      have hlt := hw.plan_bound p hp
      rw [hpa, hb] at hlt
      exact Nat.lt_irrefl _ hlt
    · intro p hp
      rcases List.mem_append.mp hp with hp | hp
      · exact hbound p hp
      · rw [List.mem_singleton.mp hp]
        exact Nat.lt_add_of_pos_right (Nat.add_pos_left Nat.one_pos _)
  | recoveryAction written =>
    obtain ⟨hplans, -, hrepos, hid, -⟩ := recordRecoveryAction_ok written
    have hids := planIds_of_recordAction hplans
    refine ⟨⟨?_, hrepos ▸ hw.opened, hids ▸ hw.plan_ids, ?_⟩, hid⟩
    · rw [DependenciesClosed, hrepos]
      exact hw.closed
    · intro p' hp'
      have hmem : p'.id ∈ cs.recoveryPlans.map (·.id) := hids ▸ List.mem_map.mpr ⟨p', hp', rfl⟩
      obtain ⟨p, hp, hpid⟩ := List.mem_map.mp hmem
      exact hpid ▸ hbound p hp

theorem wellFormed_prepared {c : PrepareChangeSetCommand} {id nextId : UUID} {cs : ChangeSet}
    (h : DeliveryService.preparedChangeSet c id = .ok cs) : cs.WellFormed nextId := by
  obtain ⟨hcreated, hcl, -, hplans, -⟩ := DeliveryService.preparedChangeSet_ok h
  refine ⟨hcl, fun d hd => ?_, by simp [hplans], by simp [hplans]⟩
  obtain ⟨item, -, order, hd⟩ := forall₂_exists_left hcreated hd
  exact Or.inl (RepositoryDelivery.create_ok hd).2.2.2.2.1

theorem WellFormed.mono {n m : UUID} {cs : ChangeSet} (hw : cs.WellFormed n) (h : n ≤ m) :
    cs.WellFormed m :=
  ⟨hw.closed, hw.opened, hw.plan_ids, fun p hp => Nat.lt_of_lt_of_le (hw.plan_bound p hp) h⟩

end ChangeSet

/-! ## The store -/

/-- What every store of the delivery service keeps. -/
structure ChangeSetStore.WellFormed (st : ChangeSetStore) : Prop where
  ids_nodup : (st.items.map (·.id)).Nodup
  ids_bound : ∀ cs ∈ st.items, cs.id < st.nextId
  each : ∀ cs ∈ st.items, cs.WellFormed st.nextId

namespace ChangeSetStore

theorem get_eq_some {st : ChangeSetStore} (hnd : (st.items.map (·.id)).Nodup) {id : UUID}
    {cs : ChangeSet} : st.get id = some cs ↔ cs ∈ st.items ∧ cs.id = id := by
  constructor
  · intro h
    exact ⟨List.mem_of_find?_eq_some h, by simpa using List.find?_some h⟩
  · rintro ⟨hcs, rfl⟩
    obtain ⟨cs', hcs'⟩ := Option.isSome_iff_exists.mp
      (List.find?_isSome.mpr ⟨cs, hcs, by simp⟩ : (st.get cs.id).isSome)
    have hid : cs'.id = cs.id := by simpa using List.find?_some hcs'
    have hget : st.get cs.id = some cs' := hcs'
    rw [hget, List.inj_on_of_nodup_map hnd (List.mem_of_find?_eq_some hcs') hcs hid]

theorem mem_of_get {st : ChangeSetStore} {id : UUID} {cs : ChangeSet} (h : st.get id = some cs) :
    cs ∈ st.items ∧ cs.id = id :=
  ⟨List.mem_of_find?_eq_some h, by simpa using List.find?_some h⟩

theorem ids_write (st : ChangeSetStore) (cs : ChangeSet) :
    (st.write cs).items.map (·.id) = st.items.map (·.id) := by
  rw [write, List.map_map]
  refine List.map_congr_left fun c _ => ?_
  by_cases h : c.id = cs.id
  · simp [h]
  · simp [h]

theorem mem_write {st : ChangeSetStore} {cs c : ChangeSet} (h : c ∈ (st.write cs).items) :
    c = cs ∨ (c ∈ st.items ∧ c.id ≠ cs.id) := by
  obtain ⟨c', hc', rfl⟩ := List.mem_map.mp h
  by_cases hid : c'.id = cs.id
  · exact Or.inl (if_pos hid)
  · rw [if_neg hid]
    exact Or.inr ⟨hc', hid⟩

theorem get_write_self {st : ChangeSetStore} {cs : ChangeSet} {old : ChangeSet}
    (h : st.get cs.id = some old) : (st.write cs).get cs.id = some cs := by
  obtain ⟨hold, hid⟩ := mem_of_get h
  have hmem : cs ∈ (st.write cs).items := List.mem_map.mpr ⟨old, hold, if_pos hid⟩
  obtain ⟨c, hc⟩ := Option.isSome_iff_exists.mp
    (List.find?_isSome.mpr ⟨cs, hmem, by simp⟩ : ((st.write cs).get cs.id).isSome)
  rcases mem_write (mem_of_get hc).1 with rfl | ⟨-, hne⟩
  · exact hc
  · exact absurd (mem_of_get hc).2 hne

theorem get_write_of_ne {st : ChangeSetStore} {cs : ChangeSet} {id : UUID} (h : id ≠ cs.id) :
    (st.write cs).get id = st.get id := by
  rw [get, get, write, List.find?_map]
  have hfun : ((fun c : ChangeSet => c.id == id) ∘ fun c => if c.id = cs.id then cs else c) =
      fun c => c.id == id := by
    funext c
    by_cases hc : c.id = cs.id
    · simp [hc]
    · simp [hc]
  rw [hfun]
  cases hfind : st.items.find? fun c => c.id == id with
  | none => rfl
  | some c =>
    have hid : c.id = id := by simpa using List.find?_some hfind
    rw [Option.map_some, if_neg (hid ▸ h)]

end ChangeSetStore

namespace DeliveryService

theorem required_ok {st : ChangeSetStore} {id : UUID} {cs : ChangeSet}
    (h : required st id = .ok cs) : st.get id = some cs := by
  unfold required at h
  split at h
  · rename_i found hfound
    rw [hfound, Except.ok.inj h]
  · cases h

/-- The store after a call on one ChangeSet wrote `updated`. -/
def written (st : ChangeSetStore) (op : ChangeSetOp) (cs updated : ChangeSet) : ChangeSetStore :=
  { st.write updated with nextId := st.nextId + op.idsDrawn st.nextId cs }

/-- **What an accepted service call does**: nothing, adding one prepared ChangeSet, or writing
the one ChangeSet it is for. -/
theorem apply_cases {fingerprint : PrepareChangeSetCommand → String} {op : DeliveryOp}
    {st st' : ChangeSetStore} (h : apply fingerprint op st = .ok st') :
    st' = st ∨
    (∃ c key cs, op = .prepare c key ∧ preparedChangeSet c st.nextId = .ok cs ∧
      st'.items = st.items ++ [cs] ∧ st'.nextId = st.nextId + 1) ∨
    (∃ o cs cs', op = .change o ∧ o.validate = .ok () ∧ st.get o.changeSetId = some cs ∧
      o.apply st.nextId cs = .ok (some cs') ∧ st' = written st o cs cs') := by
  cases op with
  | prepare c key =>
    simp only [apply, prepare] at h
    split_ifs at h
    split at h
    · split_ifs at h
      exact Or.inl (Except.ok.inj h).symm
    · obtain ⟨cs, hcs, h⟩ := bind_ok h
      obtain ⟨st'', hadd, h⟩ := bind_ok h
      rw [ChangeSetStore.add] at hadd
      split_ifs at hadd
      obtain rfl := Except.ok.inj hadd
      obtain rfl := Except.ok.inj h
      exact Or.inr (Or.inl ⟨c, key, cs, rfl, hcs, rfl, rfl⟩)
  | change o =>
    obtain ⟨⟨⟩, hv, h⟩ := bind_ok h
    obtain ⟨cs, hcs, h⟩ := bind_ok h
    obtain ⟨result, hresult, h⟩ := bind_ok h
    cases result with
    | none => exact Or.inl (Except.ok.inj h).symm
    | some cs' =>
      obtain ⟨st'', hupdate, h⟩ := bind_ok h
      rw [ChangeSetStore.update] at hupdate
      split at hupdate
      · cases hupdate
      · split_ifs at hupdate
        obtain rfl := Except.ok.inj hupdate
        obtain rfl := Except.ok.inj h
        exact Or.inr (Or.inr ⟨o, cs, cs', rfl, hv, required_ok hcs, hresult, rfl⟩)

theorem apply_of_written {fingerprint : PrepareChangeSetCommand → String} {o : ChangeSetOp}
    {st : ChangeSetStore} {cs cs' : ChangeSet} (hv : o.validate = .ok ())
    (hget : st.get o.changeSetId = some cs) (h : o.apply st.nextId cs = .ok (some cs'))
    (hid : cs'.id = cs.id) :
    apply fingerprint (.change o) st = .ok (written st o cs cs') := by
  have hcs : cs.id = o.changeSetId := (ChangeSetStore.mem_of_get hget).2
  have hget' : st.get cs'.id = some cs := by rw [hid, hcs, hget]
  rw [apply, change, hv, required, hget]
  simp only [ok_bind, h, ChangeSetStore.update, hget', ne_eq, not_true_eq_false, if_false]
  rfl

/-- **Every call keeps the store well formed.** -/
theorem wellFormed_step {fingerprint : PrepareChangeSetCommand → String} {st : ChangeSetStore}
    (hw : st.WellFormed) (op : DeliveryOp) :
    (Runs.attempt (apply fingerprint) st op).WellFormed := by
  refine Runs.attempt_cases hw fun st' h => ?_
  rcases apply_cases h with rfl | ⟨c, key, cs, -, hcs, hitems, hnext⟩ |
    ⟨o, cs, cs', -, -, hget, happly, rfl⟩
  · exact hw
  · have hid : cs.id = st.nextId := (preparedChangeSet_ok hcs).2.2.1
    refine ⟨?_, ?_, ?_⟩
    · rw [hitems, List.map_append, List.nodup_append]
      refine ⟨hw.ids_nodup, by simp, ?_⟩
      rintro a ha b hb rfl
      obtain ⟨c', hc', hca⟩ := List.mem_map.mp ha
      rw [List.map_singleton, List.mem_singleton, hid] at hb
      have hlt := hw.ids_bound c' hc'
      rw [hca, hb] at hlt
      exact Nat.lt_irrefl _ hlt
    · intro c' hc'
      rw [hitems] at hc'
      rw [hnext]
      rcases List.mem_append.mp hc' with hc' | hc'
      · exact Nat.lt_succ_of_lt (hw.ids_bound c' hc')
      · rw [List.mem_singleton.mp hc', hid]
        exact Nat.lt_succ_self _
    · intro c' hc'
      rw [hitems] at hc'
      rw [hnext]
      rcases List.mem_append.mp hc' with hc' | hc'
      · exact (hw.each c' hc').mono (Nat.le_succ _)
      · rw [List.mem_singleton.mp hc']
        exact ChangeSet.wellFormed_prepared hcs
  · obtain ⟨hmem, -⟩ := ChangeSetStore.mem_of_get hget
    obtain ⟨hcs', hid⟩ := (hw.each cs hmem).step (ChangeSetOp.apply_some happly)
    have hle : st.nextId ≤ st.nextId + o.idsDrawn st.nextId cs := Nat.le_add_right _ _
    refine ⟨?_, ?_, ?_⟩
    · change ((st.write cs').items.map (·.id)).Nodup
      rw [ChangeSetStore.ids_write]
      exact hw.ids_nodup
    · intro c hc
      rcases ChangeSetStore.mem_write hc with rfl | ⟨hc, -⟩
      · exact hid ▸ Nat.lt_of_lt_of_le (hw.ids_bound cs hmem) hle
      · exact Nat.lt_of_lt_of_le (hw.ids_bound c hc) hle
    · intro c hc
      rcases ChangeSetStore.mem_write hc with rfl | ⟨hc, -⟩
      · exact hcs'
      · exact (hw.each c hc).mono hle

end DeliveryService

theorem ChangeSetStore.wellFormed_empty : (({} : ChangeSetStore)).WellFormed :=
  ⟨by simp, by simp, by simp⟩

end Delivery
end RepoMesh
