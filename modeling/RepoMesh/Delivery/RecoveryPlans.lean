/-
# Recovery plans

What `plan_recovery` lists for a ChangeSet: reverse merge order, each candidate's actions side by
side, revalidation last. And what recording into a plan never does: change an action that is done.
-/
import RepoMesh.Delivery.MergeOrder
import RepoMesh.Delivery.Rollback
import RepoMesh.Delivery.Interrupted

namespace RepoMesh
namespace Delivery

open Fallible

/-! ## The generator -/

/-- The actions for one repository. -/
def actionsOf (actions : List RecoveryAction) (repositoryId : UUID) : List RecoveryAction :=
  actions.filter fun a => a.repositoryId == some repositoryId

/-- The plan follows the reverse merge order: numbered from 1, for a merged candidate the creation
of a revert and right after it its merge, for another with a pull request its closing, dependents
before what they depend on, and revalidation at the end. -/
structure ReverseOrdered (cs : ChangeSet) (actions : List RecoveryAction) : Prop where
  sequences : actions.map (·.sequence) = List.range' 1 actions.length
  merged : ∀ d ∈ cs.repositories, d.status = .merged →
    ∃ k, (actionsOf actions d.repositoryId).map (fun a => (a.kind, a.sequence)) =
      [(.createRevertPullRequest, k), (.mergeRevertPullRequest, k + 1)]
  unmerged : ∀ d ∈ cs.repositories, d.status ≠ .merged → d.pullRequestNumber.isSome →
    ∃ k, (actionsOf actions d.repositoryId).map (fun a => (a.kind, a.sequence)) =
      [(.closePullRequest, k)]
  unopened : ∀ d ∈ cs.repositories, d.status ≠ .merged → d.pullRequestNumber = none →
    actionsOf actions d.repositoryId = []
  dependents_first : ∀ d ∈ cs.repositories, ∀ dep ∈ d.dependsOn,
    ∀ a ∈ actionsOf actions d.repositoryId, ∀ b ∈ actionsOf actions dep, a.sequence < b.sequence
  revalidates : ∃ a, actions.getLast? = some a ∧ a.kind = .revalidateChangeset ∧
    a.repositoryId = none

/-- The command covers every repository of the ChangeSet, and is no recovery of a run. -/
def CoversAll (cs : ChangeSet) (c : PlanRecoveryCommand) : Prop :=
  c.trigger ≠ .runnerFailed ∧ c.trigger ≠ .runnerInterrupted ∧
    ∀ d ∈ cs.repositories, c.repositoryId.all (fun r => d.repositoryId == r) = true

/-- What is planned, before it is numbered. -/
abbrev Planned := Option UUID × RecoveryActionKind × String

/-- The action numbered `i + 1`. -/
def plannedAction (firstId : UUID) (i : ℕ) (p : Planned) : RecoveryAction :=
  { id := firstId + i
    sequence := i + 1
    kind := p.2.1
    repositoryId := p.1
    runId := none
    detail := p.2.2 }

/-- What is planned for one candidate. -/
def plannedFor (d : RepositoryDelivery) : List Planned :=
  (ChangeSet.candidateRecovery d).map fun k => (some d.repositoryId, k)

/-- The last of what is planned. -/
def plannedLast : Planned :=
  (none, .revalidateChangeset, "Create a new validation snapshot before delivery resumes.")

/-- The candidates from the last merge order to the first. -/
def reversedCandidates (cs : ChangeSet) : List RepositoryDelivery :=
  cs.repositories.insertionSort fun a b => b.mergeOrder ≤ a.mergeOrder

theorem recoveryActions_eq {cs : ChangeSet} {c : PlanRecoveryCommand} (hc : CoversAll cs c)
    (firstId : UUID) :
    cs.recoveryActions c firstId =
      ((reversedCandidates cs).flatMap plannedFor ++ [plannedLast]).mapIdx
        (plannedAction firstId) := by
  obtain ⟨hfailed, hinterrupted, hall⟩ := hc
  have haffected : (cs.repositories.filter fun d =>
      c.repositoryId.all fun r => d.repositoryId == r) = cs.repositories :=
    List.filter_eq_self.mpr hall
  rw [ChangeSet.recoveryActions, if_neg (by simp [hfailed, hinterrupted]), haffected]
  rfl

theorem sequences_mapIdx (firstId : UUID) (planned : List Planned) :
    (planned.mapIdx (plannedAction firstId)).map (·.sequence) =
      List.range' 1 (planned.mapIdx (plannedAction firstId)).length := by
  refine List.ext_getElem? fun i => ?_
  rw [List.getElem?_map, List.getElem?_mapIdx, List.length_mapIdx]
  by_cases hi : i < planned.length
  · rw [List.getElem?_eq_getElem hi, List.getElem?_range' hi]
    simp [plannedAction, Nat.add_comm]
  · rw [List.getElem?_eq_none (by omega), List.getElem?_eq_none (by simp; omega)]
    rfl

/-- **A block of a plan.** What is planned for a repository in one place only comes out as its
actions, numbered on from what stands before. -/
theorem actionsOf_block (firstId r : UUID) {before block after : List Planned}
    (hbefore : ∀ p ∈ before, p.1 ≠ some r) (hblock : ∀ p ∈ block, p.1 = some r)
    (hafter : ∀ p ∈ after, p.1 ≠ some r) :
    actionsOf ((before ++ block ++ after).mapIdx (plannedAction firstId)) r =
      block.mapIdx fun i => plannedAction firstId (i + before.length) := by
  have hnone : ∀ {l : List Planned} {f : ℕ → ℕ}, (∀ p ∈ l, p.1 ≠ some r) →
      actionsOf (l.mapIdx fun i => plannedAction firstId (f i)) r = [] := by
    intro l f hl
    refine List.filter_eq_nil_iff.mpr fun a ha => ?_
    obtain ⟨i, hi, rfl⟩ := List.mem_mapIdx.mp ha
    simpa [plannedAction] using hl _ (List.getElem_mem hi)
  have hall : actionsOf (block.mapIdx fun i => plannedAction firstId (i + before.length)) r =
      block.mapIdx fun i => plannedAction firstId (i + before.length) := by
    refine List.filter_eq_self.mpr fun a ha => ?_
    obtain ⟨i, hi, rfl⟩ := List.mem_mapIdx.mp ha
    simpa [plannedAction] using hblock _ (List.getElem_mem hi)
  rw [List.mapIdx_append, List.mapIdx_append]
  have hsplit : ∀ xs ys : List RecoveryAction,
      actionsOf (xs ++ ys) r = actionsOf xs r ++ actionsOf ys r := fun xs ys =>
    List.filter_append xs ys
  rw [hsplit, hsplit, hall, hnone hafter, List.append_nil]
  have hfirst : actionsOf (before.mapIdx (plannedAction firstId)) r = [] :=
    hnone (f := fun i => i) hbefore
  rw [hfirst, List.nil_append]

theorem fst_of_mem_plannedFor {d : RepositoryDelivery} {p : Planned} (hp : p ∈ plannedFor d) :
    p.1 = some d.repositoryId := by
  obtain ⟨k, -, rfl⟩ := List.mem_map.mp hp
  rfl

theorem actionsOf_candidate {cs : ChangeSet} (firstId : UUID)
    {before after : List RepositoryDelivery} {d : RepositoryDelivery}
    (hsplit : reversedCandidates cs = before ++ d :: after) :
    actionsOf (((reversedCandidates cs).flatMap plannedFor ++ [plannedLast]).mapIdx
        (plannedAction firstId)) d.repositoryId =
      (plannedFor d).mapIdx fun i =>
        plannedAction firstId (i + (before.flatMap plannedFor).length) := by
  have hnodup : ((before ++ d :: after).map (·.repositoryId)).Nodup := by
    rw [← hsplit]
    have hperm : (reversedCandidates cs).Perm cs.repositories := List.perm_insertionSort _ _
    exact (hperm.map _).nodup_iff.mpr cs.ids_nodup
  rw [List.map_append, List.map_cons, List.nodup_append, List.nodup_cons] at hnodup
  obtain ⟨-, ⟨hnotAfter, -⟩, hapart⟩ := hnodup
  have hne : ∀ {l : List RepositoryDelivery}, d.repositoryId ∉ l.map (·.repositoryId) →
      ∀ p ∈ l.flatMap plannedFor, p.1 ≠ some d.repositoryId := by
    intro l hl p hp hd
    obtain ⟨d', hd', hp⟩ := List.mem_flatMap.mp hp
    rw [fst_of_mem_plannedFor hp] at hd
    exact hl (List.mem_map.mpr ⟨d', hd', Option.some.inj hd⟩)
  have hplanned : (reversedCandidates cs).flatMap plannedFor ++ [plannedLast] =
      before.flatMap plannedFor ++ plannedFor d ++ (after.flatMap plannedFor ++ [plannedLast]) := by
    rw [hsplit, List.flatMap_append, List.flatMap_cons]
    simp only [List.append_assoc]
  rw [hplanned]
  refine actionsOf_block firstId d.repositoryId (hne ?_) (fun p hp => fst_of_mem_plannedFor hp) ?_
  · intro hmem
    exact hapart _ hmem d.repositoryId (by simp) rfl
  · intro p hp
    rcases List.mem_append.mp hp with hp | hp
    · exact hne hnotAfter p hp
    · rw [List.mem_singleton.mp hp]
      exact fun h => by cases h

theorem reversedCandidates_split {cs : ChangeSet} {d : RepositoryDelivery}
    (hd : d ∈ cs.repositories) :
    ∃ before after, reversedCandidates cs = before ++ d :: after ∧
      ∀ u ∈ cs.repositories, u.mergeOrder < d.mergeOrder → u ∈ after := by
  obtain ⟨before, after, hsplit⟩ := List.append_of_mem
    ((List.mem_insertionSort fun a b : RepositoryDelivery => b.mergeOrder ≤ a.mergeOrder).mpr hd)
  refine ⟨before, after, hsplit, fun u hu hlt => ?_⟩
  have hmem : u ∈ before ++ d :: after := by
    rw [← hsplit]
    exact (List.mem_insertionSort _).mpr hu
  have hsorted : (before ++ d :: after).Pairwise fun a b => b.mergeOrder ≤ a.mergeOrder := by
    rw [← hsplit]
    exact List.pairwise_insertionSort _ _
  rcases List.mem_append.mp hmem with hbefore | hrest
  · have hle : d.mergeOrder ≤ u.mergeOrder :=
      (List.pairwise_append.mp hsorted).2.2 u hbefore d (by simp)
    omega
  · rcases List.mem_cons.mp hrest with rfl | hafter
    · omega
    · exact hafter

/-- **The generator.** On an ordered ChangeSet a plan that covers all repositories follows the
reverse merge order. -/
theorem reverseOrdered_recoveryActions {cs : ChangeSet} (hcs : cs.MergeOrdered)
    {c : PlanRecoveryCommand} (hc : CoversAll cs c) (firstId : UUID) :
    ReverseOrdered cs (cs.recoveryActions c firstId) := by
  rw [recoveryActions_eq hc]
  have hactions : ∀ d ∈ cs.repositories, ∃ k,
      actionsOf (((reversedCandidates cs).flatMap plannedFor ++ [plannedLast]).mapIdx
        (plannedAction firstId)) d.repositoryId =
      (plannedFor d).mapIdx fun i => plannedAction firstId (i + k) := by
    intro d hd
    obtain ⟨before, after, hsplit, -⟩ := reversedCandidates_split hd
    exact ⟨_, actionsOf_candidate firstId hsplit⟩
  constructor
  · exact sequences_mapIdx firstId _
  · intro d hd hmerged
    obtain ⟨k, hk⟩ := hactions d hd
    refine ⟨k + 1, ?_⟩
    rw [hk, plannedFor, ChangeSet.candidateRecovery, if_pos hmerged]
    simp [plannedAction, Nat.add_comm]
  · intro d hd hmerged hnumber
    obtain ⟨k, hk⟩ := hactions d hd
    refine ⟨k + 1, ?_⟩
    rw [hk, plannedFor, ChangeSet.candidateRecovery, if_neg hmerged, if_pos hnumber]
    simp [plannedAction]
  · intro d hd hmerged hnumber
    obtain ⟨k, hk⟩ := hactions d hd
    rw [hk, plannedFor, ChangeSet.candidateRecovery, if_neg hmerged, hnumber]
    rfl
  · intro d hd dep hdep a ha b hb
    obtain ⟨u, hu, hlt⟩ := hcs.dependencies d hd dep hdep
    obtain ⟨humem, rfl⟩ := ChangeSet.candidate?_eq_some.mp hu
    obtain ⟨before, after, hsplit, hlater⟩ := reversedCandidates_split hd
    obtain ⟨between, rest, hafter⟩ := List.append_of_mem (hlater u humem hlt)
    have hsplit' : reversedCandidates cs = (before ++ d :: between) ++ u :: rest := by
      rw [hsplit, hafter, List.append_assoc, List.cons_append]
    rw [actionsOf_candidate firstId hsplit] at ha
    rw [actionsOf_candidate firstId hsplit'] at hb
    obtain ⟨i, hi, rfl⟩ := List.mem_mapIdx.mp ha
    obtain ⟨j, hj, rfl⟩ := List.mem_mapIdx.mp hb
    have hlength : ((before ++ d :: between).flatMap plannedFor).length =
        (before.flatMap plannedFor).length + (plannedFor d).length +
          (between.flatMap plannedFor).length := by
      rw [List.flatMap_append, List.flatMap_cons, List.length_append, List.length_append]
      omega
    simp only [plannedAction]
    omega
  · rw [List.mapIdx_append]
    refine ⟨plannedAction firstId (0 + ((reversedCandidates cs).flatMap plannedFor).length)
      plannedLast, ?_, rfl, rfl⟩
    simp

/-! ## Recording -/

/-- The action is the same one later on; one that is done has not changed at all. -/
structure ActionKept (a b : RecoveryAction) : Prop where
  id_eq : b.id = a.id
  sequence_eq : b.sequence = a.sequence
  done_eq : a.status.isDone = true → b = a

/-- The plan is the same one later on, with the same actions. -/
def PlanKept (p q : RecoveryPlan) : Prop :=
  q.id = p.id ∧ List.Forall₂ ActionKept p.actions q.actions

/-- The ChangeSet has not changed, or has been written since; its plans are kept. -/
def RecoveryKept (cs cs' : ChangeSet) : Prop :=
  (cs' = cs ∨ cs.version < cs'.version) ∧
    ∀ p ∈ cs.recoveryPlans, ∃ q ∈ cs'.recoveryPlans, PlanKept p q

theorem ActionKept.refl (a : RecoveryAction) : ActionKept a a := ⟨rfl, rfl, fun _ => rfl⟩

theorem ActionKept.trans {a b c : RecoveryAction} (hab : ActionKept a b) (hbc : ActionKept b c) :
    ActionKept a c := by
  refine ⟨hbc.id_eq.trans hab.id_eq, hbc.sequence_eq.trans hab.sequence_eq, fun hdone => ?_⟩
  have hb := hab.done_eq hdone
  rw [hbc.done_eq (by rw [hb]; exact hdone), hb]

theorem PlanKept.refl (p : RecoveryPlan) : PlanKept p p :=
  ⟨rfl, List.forall₂_same.mpr fun a _ => ActionKept.refl a⟩

theorem PlanKept.trans {p q r : RecoveryPlan} (hpq : PlanKept p q) (hqr : PlanKept q r) :
    PlanKept p r := by
  refine ⟨hqr.1.trans hpq.1, ?_⟩
  have hcomp := List.forall₂_iff_get.mp hpq.2
  have hcomp' := List.forall₂_iff_get.mp hqr.2
  refine List.forall₂_iff_get.mpr ⟨hcomp.1.trans hcomp'.1, fun i hp hr => ?_⟩
  exact (hcomp.2 i hp (hcomp.1 ▸ hp)).trans (hcomp'.2 i (hcomp.1 ▸ hp) hr)

theorem RecoveryKept.refl (cs : ChangeSet) : RecoveryKept cs cs :=
  ⟨Or.inl rfl, fun p hp => ⟨p, hp, PlanKept.refl p⟩⟩

theorem RecoveryKept.trans {a b c : ChangeSet} (hab : RecoveryKept a b) (hbc : RecoveryKept b c) :
    RecoveryKept a c := by
  refine ⟨?_, fun p hp => ?_⟩
  · rcases hab.1 with rfl | hab
    · exact hbc.1
    · rcases hbc.1 with rfl | hbc
      · exact Or.inr hab
      · exact Or.inr (hab.trans hbc)
  · obtain ⟨q, hq, hpq⟩ := hab.2 p hp
    obtain ⟨r, hr, hqr⟩ := hbc.2 q hq
    exact ⟨r, hr, hpq.trans hqr⟩

theorem actionKept_of_record {a a' : RecoveryAction} {status : RecoveryActionStatus}
    {detail : String} (h : a.record status detail = .ok a') : ActionKept a a' := by
  by_cases hdone : a.status.isDone = true
  · rw [record_of_done hdone h]
    exact ActionKept.refl a
  · rw [RecoveryAction.record, if_neg hdone] at h
    split at h
    · cases h
    · rw [← Except.ok.inj h]
      exact ⟨rfl, rfl, fun hdone' => absurd hdone' hdone⟩

theorem planKept_of_recordAction {p p' : RecoveryPlan} {actionId : UUID}
    {status : RecoveryActionStatus} {detail : String}
    (h : p.recordAction actionId status detail = .ok p') : PlanKept p p' := by
  refine ⟨ChangeSet.recordAction_id h, ?_⟩
  unfold RecoveryPlan.recordAction at h
  split_ifs at h
  obtain ⟨actions, hmap, h⟩ := bind_ok h
  rw [← Except.ok.inj h]
  refine (mapM_ok hmap).imp fun a a' ha => ?_
  split_ifs at ha
  · exact actionKept_of_record ha
  · rw [Except.ok.inj ha]
    exact ActionKept.refl a'

/-- **One call keeps the plans** of the ChangeSet it writes. -/
theorem ChangeSetStep.recoveryKept {nextId : UUID} {cs cs' : ChangeSet} {op : ChangeSetOp}
    (h : ChangeSetStep nextId cs cs' op) : RecoveryKept cs cs' := by
  have hsame : cs'.version = cs.version + 1 → cs'.recoveryPlans = cs.recoveryPlans →
      RecoveryKept cs cs' := by
    intro hversion hplans
    refine ⟨Or.inr (by omega), fun p hp => ⟨p, ?_, PlanKept.refl p⟩⟩
    rw [hplans]
    exact hp
  cases h with
  | candidate call upstream step changed written =>
    obtain ⟨-, -, -, hplans, -, hversion, -⟩ := ChangeSet.withRepositories_ok written
    exact hsame hversion hplans
  | append fresh created written =>
    obtain ⟨-, -, -, hplans, -, hversion, -⟩ := ChangeSet.appendRepositories_ok written
    exact hsame hversion hplans
  | governance created written =>
    obtain ⟨-, -, -, hplans, -, hversion⟩ := ChangeSet.recordGovernance_ok written
    exact hsame hversion hplans
  | revision written =>
    obtain ⟨-, -, -, -, hplans, -, hversion, -⟩ := ChangeSet.recordCandidateRevision_ok written
    exact hsame hversion hplans
  | recovery written =>
    rw [written]
    exact ⟨Or.inr (Nat.lt_succ_self _),
      fun p hp => ⟨p, List.mem_append_left _ hp, PlanKept.refl p⟩⟩
  | recoveryAction written =>
    obtain ⟨hplans, -, -, -, -, hversion, -⟩ := ChangeSet.recordRecoveryAction_ok written
    refine ⟨Or.inr (by omega), fun p hp => ?_⟩
    obtain ⟨q, hq, hstep⟩ := forall₂_exists_right hplans hp
    refine ⟨q, hq, ?_⟩
    split_ifs at hstep
    · exact planKept_of_recordAction hstep
    · rw [Except.ok.inj hstep]
      exact PlanKept.refl q

theorem ids_of_kept {xs ys : List RecoveryAction} (h : List.Forall₂ ActionKept xs ys) :
    ys.map (·.id) = xs.map (·.id) := by
  induction h with
  | nil => rfl
  | cons hd _ ih => rw [List.map_cons, List.map_cons, hd.id_eq, ih]

/-- The actions of each plan have identifiers of their own. -/
def ChangeSet.ActionsNamed (cs : ChangeSet) : Prop :=
  ∀ p ∈ cs.recoveryPlans, (p.actions.map (·.id)).Nodup

theorem ids_mapIdx_nodup (firstId : UUID) (planned : List Planned) :
    ((planned.mapIdx (plannedAction firstId)).map (·.id)).Nodup := by
  refine List.nodup_iff_getElem?_ne_getElem?.mpr fun i j hij hj => ?_
  rw [List.length_map, List.length_mapIdx] at hj
  rw [List.getElem?_map, List.getElem?_map, List.getElem?_mapIdx, List.getElem?_mapIdx,
    List.getElem?_eq_getElem hj, List.getElem?_eq_getElem (hij.trans hj)]
  intro hsame
  have hid : firstId + i = firstId + j := Option.some.inj hsame
  exact hij.ne (Nat.add_left_cancel hid)

theorem recoveryActions_named (cs : ChangeSet) (c : PlanRecoveryCommand) (firstId : UUID) :
    ((cs.recoveryActions c firstId).map (·.id)).Nodup := by
  by_cases hrunner : c.trigger = .runnerFailed ∨ c.trigger = .runnerInterrupted
  · rw [ChangeSet.recoveryActions, if_pos hrunner]
    exact List.nodup_singleton _
  · rw [ChangeSet.recoveryActions, if_neg hrunner]
    exact ids_mapIdx_nodup firstId _

/-- **One call keeps the names** of the actions. -/
theorem ChangeSetStep.actionsNamed {nextId : UUID} {cs cs' : ChangeSet} {op : ChangeSetOp}
    (hcs : cs.ActionsNamed) (h : ChangeSetStep nextId cs cs' op) : cs'.ActionsNamed := by
  have hsame : cs'.recoveryPlans = cs.recoveryPlans → cs'.ActionsNamed := by
    intro hplans
    rw [ChangeSet.ActionsNamed, hplans]
    exact hcs
  cases h with
  | candidate call upstream step changed written =>
    exact hsame (ChangeSet.withRepositories_ok written).2.2.2.1
  | append fresh created written =>
    exact hsame (ChangeSet.appendRepositories_ok written).2.2.2.1
  | governance created written =>
    exact hsame (ChangeSet.recordGovernance_ok written).2.2.2.1
  | revision written =>
    exact hsame (ChangeSet.recordCandidateRevision_ok written).2.2.2.2.1
  | recovery written =>
    rw [written]
    intro p hp
    rcases List.mem_append.mp hp with hp | hp
    · exact hcs p hp
    · rw [List.mem_singleton.mp hp]
      exact recoveryActions_named _ _ _
  | recoveryAction written =>
    intro q hq
    obtain ⟨hplans, -⟩ := ChangeSet.recordRecoveryAction_ok written
    obtain ⟨p, hp, hstep⟩ := forall₂_exists_left hplans hq
    have hkept : PlanKept p q := by
      split_ifs at hstep
      · exact planKept_of_recordAction hstep
      · rw [Except.ok.inj hstep]
        exact PlanKept.refl q
    rw [ids_of_kept hkept.2]
    exact hcs p hp

/-! ## Stores -/

theorem keeps_recoveryKept : Keeps RecoveryKept where
  refl := RecoveryKept.refl
  trans := fun _ _ _ => RecoveryKept.trans
  version := fun _ _ h => h.1
  step := fun _ _ _ _ h => (ChangeSetOp.apply_some h).recoveryKept

/-- What every store keeps about its recoveries. -/
structure RecoveryWF (st : ChangeSetStore) : Prop where
  store : st.WellFormed
  named : ∀ cs ∈ st.items, cs.ActionsNamed

theorem recoveryWF_attempt (fingerprint : PrepareChangeSetCommand → String) {st : ChangeSetStore}
    (hst : RecoveryWF st) (op : DeliveryOp) :
    RecoveryWF (Runs.attempt (DeliveryService.apply fingerprint) st op) := by
  refine ⟨DeliveryService.wellFormed_step hst.store op, ?_⟩
  refine DeliveryService.items_attempt fingerprint (fun c id cs h => ?_)
    (fun _ _ _ _ hcs h => h.actionsNamed hcs) hst.named op
  intro p hp
  rw [(DeliveryService.preparedChangeSet_ok h).2.2.2.1] at hp
  cases hp

theorem recoveryWF_empty : RecoveryWF {} :=
  ⟨ChangeSetStore.wellFormed_empty, fun cs hcs => by cases hcs⟩

end Delivery
end RepoMesh
