/-
# What one delivery call can do

The inversion lemmas of the delivery service: which ChangeSet a call writes, how its candidates
come out, and the facts every store keeps. The invariants of later modules are derived from
these and unfold no call again.
-/
import RepoMesh.Foundation.Fallible
import RepoMesh.Delivery.MergeGate

namespace RepoMesh
namespace Delivery

open Fallible

/-! ## Candidates -/

/-- The candidate mutator a call runs, and on which repository. -/
def ChangeSetOp.candidateOp? : ChangeSetOp → Option (UUID × CandidateOp)
  | .recordCandidateTraceability c =>
    some (c.repositoryId, .attachTraceability c.taskId c.commitSha c.planId c.runId c.workerAgentId)
  | .observePullRequest c =>
    some (c.repositoryId, .observePr c.pullRequestNumber c.pullRequestUrl c.headSha)
  | .observeCi c => some (c.repositoryId, .observeCi c.passed c.checkRunId c.summary c.checkName)
  | .observeReview c =>
    some (c.repositoryId, .observeReview c.reviewId c.reviewer c.state c.headSha c.summary)
  | .observeMerge c => some (c.repositoryId, .observeMerge c.mergeSha)
  | .recordMergeRequested c => some (c.repositoryId, .requestMerge c.headSha)
  | .recordCandidateRevision c =>
    some (c.repositoryId, .revise c.taskId c.previousHeadSha c.newHeadSha)
  | _ => none

/-- How a candidate comes out of a mutator run on the candidate of one repository. -/
def CandidateStep (repositoryId : UUID) (c : CandidateOp) (d d' : RepositoryDelivery) : Prop :=
  (if d.repositoryId = repositoryId then c.apply d else .ok d) = .ok d'

theorem CandidateStep.of_ne {r : UUID} {c : CandidateOp} {d d' : RepositoryDelivery}
    (h : CandidateStep r c d d') (hne : d.repositoryId ≠ r) : d' = d := by
  rw [CandidateStep, if_neg hne] at h
  exact (Except.ok.inj h).symm

theorem CandidateStep.of_eq {r : UUID} {c : CandidateOp} {d d' : RepositoryDelivery}
    (h : CandidateStep r c d d') (heq : d.repositoryId = r) : c.apply d = .ok d' := by
  rwa [CandidateStep, if_pos heq] at h

theorem CandidateStep.frame {r : UUID} {c : CandidateOp} {d d' : RepositoryDelivery}
    (h : CandidateStep r c d d') :
    d'.repositoryId = d.repositoryId ∧ d'.dependsOn = d.dependsOn ∧
      d'.mergeOrder = d.mergeOrder := by
  by_cases heq : d.repositoryId = r
  · exact CandidateOp.apply_frame (h.of_eq heq)
  · rw [h.of_ne heq]; exact ⟨rfl, rfl, rfl⟩

theorem repositoryIds_of_step {r : UUID} {c : CandidateOp} {ds ds' : List RepositoryDelivery}
    (h : List.Forall₂ (CandidateStep r c) ds ds') : repositoryIds ds' = repositoryIds ds := by
  induction h with
  | nil => rfl
  | cons hd _ ih =>
    rw [repositoryIds, List.map_cons, hd.frame.1]
    exact congrArg _ ih

namespace ChangeSet

theorem candidate?_eq_some {cs : ChangeSet} {r : UUID} {d : RepositoryDelivery} :
    cs.candidate? r = some d ↔ d ∈ cs.repositories ∧ d.repositoryId = r := by
  constructor
  · intro h
    exact ⟨List.mem_of_find?_eq_some h, by simpa using List.find?_some h⟩
  · rintro ⟨hd, rfl⟩
    have hsome : (cs.candidate? d.repositoryId).isSome :=
      List.find?_isSome.mpr ⟨d, hd, by simp⟩
    obtain ⟨d', hd'⟩ := Option.isSome_iff_exists.mp hsome
    have hmem := List.mem_of_find?_eq_some hd'
    have hid : d'.repositoryId = d.repositoryId := by simpa using List.find?_some hd'
    rw [hd', List.inj_on_of_nodup_map cs.ids_nodup hmem hd hid]

theorem updateRepository_some {cs cs' : ChangeSet} {r : UUID} {c : CandidateOp}
    (h : cs.updateRepository r c.apply = .ok (some cs')) :
    ∃ ds, List.Forall₂ (CandidateStep r c) cs.repositories ds ∧ ds ≠ cs.repositories ∧
      cs.withRepositories ds = .ok cs' := by
  obtain ⟨ds, hds, h⟩ := bind_ok h
  obtain ⟨ds', hmap, hds⟩ := bind_ok hds
  split_ifs at hds
  obtain rfl := Except.ok.inj hds
  split_ifs at h with hsame
  · cases h
  · obtain ⟨cs'', hwith, h⟩ := bind_ok h
    obtain rfl := Option.some.inj (Except.ok.inj h)
    exact ⟨ds', mapM_ok hmap, hsame, hwith⟩

theorem updateRepository_of_apply {cs : ChangeSet} {r : UUID} {c : CandidateOp}
    {d d' : RepositoryDelivery} (hd : cs.candidate? r = some d) (hc : c.apply d = .ok d')
    (hne : d' ≠ d) :
    ∃ cs', cs.updateRepository r c.apply = .ok (some cs') ∧ cs'.candidate? r = some d' := by
  obtain ⟨hmem, hid⟩ := candidate?_eq_some.mp hd
  obtain ⟨ds, hmap⟩ : ∃ ds, (cs.repositories.mapM fun x =>
      if x.repositoryId = r then c.apply x else .ok x) = .ok ds := by
    refine exists_mapM_ok fun x hx => ?_
    by_cases hxr : x.repositoryId = r
    · have hxd : x = d := List.inj_on_of_nodup_map cs.ids_nodup hx hmem (hxr.trans hid.symm)
      exact ⟨d', by rw [if_pos hxr, hxd, hc]⟩
    · exact ⟨x, if_neg hxr⟩
  have hstep : List.Forall₂ (CandidateStep r c) cs.repositories ds := mapM_ok hmap
  have hids : repositoryIds ds = repositoryIds cs.repositories := repositoryIds_of_step hstep
  obtain ⟨x, hx, hxd⟩ := forall₂_exists_right hstep hmem
  have hx' : x = d' := Except.ok.inj ((hxd.of_eq hid).symm.trans hc)
  subst hx'
  have hcontains : (repositoryIds cs.repositories).contains r = true := by
    simpa [repositoryIds] using ⟨d, hmem, hid⟩
  have hdiff : ds ≠ cs.repositories := by
    intro heq
    have hx'mem : x ∈ cs.repositories := heq ▸ hx
    exact hne (List.inj_on_of_nodup_map cs.ids_nodup hx'mem hmem (hxd.frame.1))
  have hne' : ds ≠ [] := by
    intro hnil
    rw [hnil] at hx
    cases hx
  have hnd : (repositoryIds ds).Nodup := hids ▸ cs.ids_nodup
  obtain ⟨cs', hcs'⟩ : ∃ cs', cs.withRepositories ds = .ok cs' := by
    rw [withRepositories, dif_pos hne', dif_pos hnd]
    exact ⟨_, rfl⟩
  have hrepos : cs'.repositories = ds := by
    rw [withRepositories, dif_pos hne', dif_pos hnd] at hcs'
    rw [← Except.ok.inj hcs']
  refine ⟨cs', ?_, candidate?_eq_some.mpr ⟨hrepos ▸ hx, hxd.frame.1.trans hid⟩⟩
  rw [updateRepository, updatedRepositories, hmap]
  simp only [ok_bind, hcontains, if_true, if_neg hdiff, hcs']

theorem mem_unmetUpstreams {cs : ChangeSet} {target : RepositoryDelivery} {unmet : List UUID}
    (h : cs.unmetUpstreams target = .ok unmet) {dep : UUID} :
    dep ∈ unmet ↔
      dep ∈ target.dependsOn ∧ ∃ d, cs.candidate? dep = some d ∧ d.status ≠ .merged := by
  obtain ⟨pairs, hmap, h⟩ := bind_ok h
  obtain rfl := Except.ok.inj h
  have hpairs := mapM_ok hmap
  have hshape : ∀ {dep : UUID} {u : UUID × RepositoryDelivery},
      ((cs.repository dep).map fun d => (dep, d)) = .ok u →
        u.1 = dep ∧ cs.candidate? dep = some u.2 := by
    intro dep u hu
    unfold repository at hu
    split at hu
    · rename_i d hd
      obtain rfl := Except.ok.inj hu
      exact ⟨rfl, hd⟩
    · cases hu
  constructor
  · intro hdep
    obtain ⟨u, hu, rfl⟩ := List.mem_map.mp hdep
    rw [List.mem_filter, decide_eq_true_eq] at hu
    obtain ⟨dep', hdep', hr⟩ := forall₂_exists_left hpairs hu.1
    obtain ⟨hid, hd⟩ := hshape hr
    exact ⟨hid ▸ hdep', u.2, hid ▸ hd, hu.2⟩
  · rintro ⟨hdep, d, hd, hstatus⟩
    obtain ⟨u, hu, hr⟩ := forall₂_exists_right hpairs hdep
    obtain ⟨hid, hd'⟩ := hshape hr
    obtain rfl : d = u.2 := Option.some.inj (hd.symm.trans hd')
    exact List.mem_map.mpr ⟨u, List.mem_filter.mpr ⟨hu, by simpa using hstatus⟩, hid⟩

/-- Every dependency of a candidate is itself a candidate. -/
def DependenciesClosed (cs : ChangeSet) : Prop :=
  ∀ d ∈ cs.repositories, ∀ dep ∈ d.dependsOn, dep ∈ repositoryIds cs.repositories

theorem unmetUpstreams_total {cs : ChangeSet} (hcl : cs.DependenciesClosed)
    {target : RepositoryDelivery} (ht : target ∈ cs.repositories) :
    ∃ unmet, cs.unmetUpstreams target = .ok unmet := by
  obtain ⟨pairs, hmap⟩ : ∃ pairs, (target.dependsOn.mapM fun dep =>
      (cs.repository dep).map fun d => (dep, d)) = .ok pairs := by
    refine exists_mapM_ok fun dep hdep => ?_
    obtain ⟨d, hd, hid⟩ := List.mem_map.mp (hcl target ht dep hdep)
    refine ⟨(dep, d), ?_⟩
    rw [repository, candidate?_eq_some.mpr ⟨hd, hid⟩]
    rfl
  exact ⟨_, by rw [unmetUpstreams, hmap]; rfl⟩

theorem withRepositories_ok {cs cs' : ChangeSet} {ds : List RepositoryDelivery}
    (h : cs.withRepositories ds = .ok cs') :
    cs'.repositories = ds ∧ cs'.status = deliveryStatus ds ∧ cs'.id = cs.id ∧
      cs'.recoveryPlans = cs.recoveryPlans ∧ cs'.projectId = cs.projectId ∧
      cs'.version = cs.version + 1 ∧ cs'.governanceDecisions = cs.governanceDecisions := by
  unfold withRepositories at h
  split_ifs at h
  rw [← Except.ok.inj h]
  exact ⟨rfl, rfl, rfl, rfl, rfl, rfl, rfl⟩

theorem appendRepositories_ok {cs cs' : ChangeSet} {ds : List RepositoryDelivery}
    (h : cs.appendRepositories ds = .ok cs') :
    cs'.repositories = cs.repositories ++ ds ∧
      cs'.status = deliveryStatus (cs.repositories ++ ds) ∧ cs'.id = cs.id ∧
      cs'.recoveryPlans = cs.recoveryPlans ∧ cs'.projectId = cs.projectId ∧
      cs'.version = cs.version + 1 ∧ cs'.governanceDecisions = cs.governanceDecisions := by
  unfold appendRepositories at h
  split_ifs at h
  obtain ⟨updated, hwith, h⟩ := bind_ok h
  obtain rfl := Except.ok.inj h
  exact (withRepositories_ok hwith :)

theorem recordGovernance_ok {cs cs' : ChangeSet} {g : GovernanceDecision}
    (h : cs.recordGovernance g = .ok cs') :
    cs'.repositories = cs.repositories ∧ cs'.status = cs.status ∧ cs'.id = cs.id ∧
      cs'.recoveryPlans = cs.recoveryPlans ∧ cs'.projectId = cs.projectId ∧
      cs'.version = cs.version + 1 := by
  unfold recordGovernance at h
  split at h
  · cases h
  · split_ifs at h
    rw [← Except.ok.inj h]
    exact ⟨rfl, rfl, rfl, rfl, rfl, rfl⟩

theorem recordCandidateRevision_ok {cs cs' : ChangeSet} {r taskId : UUID}
    {previousHeadSha newHeadSha reason : String}
    (h : cs.recordCandidateRevision r taskId previousHeadSha newHeadSha reason = .ok cs') :
    (∃ d d', cs.candidate? r = some d ∧ d.revise taskId previousHeadSha newHeadSha = .ok d') ∧
    List.Forall₂ (CandidateStep r (.revise taskId previousHeadSha newHeadSha))
        cs.repositories cs'.repositories ∧
      cs'.status = .delivering ∧ cs'.id = cs.id ∧ cs'.recoveryPlans = cs.recoveryPlans ∧
      cs'.projectId = cs.projectId ∧ cs'.version = cs.version + 1 ∧
      cs'.governanceDecisions = cs.governanceDecisions := by
  unfold recordCandidateRevision at h
  split at h
  · cases h
  rename_i candidate hcand
  split at h
  · cases h
  rename_i revised hrevised
  dsimp only at h
  split at h
  case isFalse => cases h
  split at h
  case isFalse => cases h
  rw [← Except.ok.inj h]
  refine ⟨⟨candidate, revised, hcand, hrevised⟩, ?_, rfl, rfl, rfl, rfl, rfl, rfl⟩
  obtain ⟨hmem, hid⟩ := candidate?_eq_some.mp hcand
  refine List.forall₂_map_right_iff.mpr (List.forall₂_same.mpr fun d hd => ?_)
  rw [CandidateStep]
  split_ifs with hdr
  · have hsame : d = candidate := List.inj_on_of_nodup_map cs.ids_nodup hd hmem (hdr.trans hid.symm)
    rw [hsame]
    exact hrevised
  · rfl

theorem recordCandidateRevision_of_revise {cs : ChangeSet} {r taskId : UUID}
    {previousHeadSha newHeadSha : String} (reason : String) {d d' : RepositoryDelivery}
    (hd : cs.candidate? r = some d) (hrev : d.revise taskId previousHeadSha newHeadSha = .ok d') :
    ∃ cs', cs.recordCandidateRevision r taskId previousHeadSha newHeadSha reason = .ok cs' ∧
      cs'.candidate? r = some d' := by
  obtain ⟨hmem, hid⟩ := candidate?_eq_some.mp hd
  have hid' : d'.repositoryId = d.repositoryId :=
    (RepositoryDelivery.revise_ok hrev).2.2.2.2.2.1
  have hids : repositoryIds (replaceCandidate cs.repositories r d') =
      repositoryIds cs.repositories := by
    rw [repositoryIds, replaceCandidate, List.map_map]
    refine List.map_congr_left fun x _ => ?_
    by_cases hx : x.repositoryId = r
    · simp [hx, hid', hid]
    · simp [hx]
  have hmem' : d' ∈ replaceCandidate cs.repositories r d' :=
    List.mem_map.mpr ⟨d, hmem, if_pos hid⟩
  have hne : replaceCandidate cs.repositories r d' ≠ [] := List.ne_nil_of_mem hmem'
  have hnd : (repositoryIds (replaceCandidate cs.repositories r d')).Nodup := hids ▸ cs.ids_nodup
  unfold recordCandidateRevision
  simp only [hd, hrev, dif_pos hne, dif_pos hnd]
  exact ⟨_, rfl, candidate?_eq_some.mpr ⟨hmem', hid'.trans hid⟩⟩

theorem recordRecoveryAction_ok {cs cs' : ChangeSet} {planId actionId : UUID}
    {status : RecoveryActionStatus} {detail : String}
    (h : cs.recordRecoveryAction planId actionId status detail = .ok cs') :
    List.Forall₂ (fun p p' => (if p.id = planId then p.recordAction actionId status detail
        else .ok p) = .ok p') cs.recoveryPlans cs'.recoveryPlans ∧
      (∃ active ∈ cs'.recoveryPlans, active.id = planId ∧ cs'.status = recoveryStatus active) ∧
      cs'.repositories = cs.repositories ∧ cs'.id = cs.id ∧ cs'.projectId = cs.projectId ∧
      cs'.version = cs.version + 1 ∧ cs'.governanceDecisions = cs.governanceDecisions := by
  unfold recordRecoveryAction at h
  split_ifs at h
  obtain ⟨plans, hplans, h⟩ := bind_ok h
  split at h
  · cases h
  · rename_i active hactive
    rw [← Except.ok.inj h]
    exact ⟨mapM_ok hplans, ⟨active, List.mem_of_find?_eq_some hactive,
      by simpa using List.find?_some hactive, rfl⟩, rfl, rfl, rfl, rfl, rfl⟩

end ChangeSet

/-! ## Calls -/

/-- The extra check of `observe_merge`: the target has no unmet upstream. -/
def ChangeSet.UpstreamsMerged (cs : ChangeSet) (repositoryId : UUID) : CandidateOp → Prop
  | .observeMerge _ =>
    ∃ target, cs.candidate? repositoryId = some target ∧ cs.unmetUpstreams target = .ok []
  | _ => True

theorem ChangeSet.repository_ok {cs : ChangeSet} {r : UUID} {d : RepositoryDelivery} :
    cs.repository r = .ok d ↔ cs.candidate? r = some d := by
  unfold repository
  split
  · rename_i found hfound
    simp [hfound]
  · rename_i hnone
    simp [hnone]

/-- Everything a call can write into a ChangeSet. -/
inductive ChangeSetStep (nextId : UUID) (cs cs' : ChangeSet) : ChangeSetOp → Prop
  | candidate {op : ChangeSetOp} {r : UUID} {c : CandidateOp} {ds : List RepositoryDelivery}
      (call : op.candidateOp? = some (r, c))
      (upstream : cs.UpstreamsMerged r c)
      (step : List.Forall₂ (CandidateStep r c) cs.repositories ds) (changed : ds ≠ cs.repositories)
      (written : cs.withRepositories ds = .ok cs') : ChangeSetStep nextId cs cs' op
  | append {c : AppendCandidatesCommand} {key : String} {ds : List RepositoryDelivery}
      (fresh : cs.freshCandidates c.candidates ≠ [])
      (created : cs.appendedRepositories (cs.freshCandidates c.candidates) = .ok ds)
      (written : cs.appendRepositories ds = .ok cs') :
      ChangeSetStep nextId cs cs' (.appendCandidates c key)
  | governance {c : RecordGovernanceDecisionCommand} {g : GovernanceDecision}
      (created : GovernanceDecision.create c = .ok g) (written : cs.recordGovernance g = .ok cs') :
      ChangeSetStep nextId cs cs' (.recordGovernanceDecision c)
  | revision {c : RecordCandidateRevisionCommand}
      (written : cs.recordCandidateRevision c.repositoryId c.taskId c.previousHeadSha c.newHeadSha
        c.reason = .ok cs') : ChangeSetStep nextId cs cs' (.recordCandidateRevision c)
  | recovery {c : PlanRecoveryCommand} (written : cs' = cs.addRecovery (cs.recoveryPlan c nextId)) :
      ChangeSetStep nextId cs cs' (.planRecovery c)
  | recoveryAction {c : RecordRecoveryActionCommand}
      (written : cs.recordRecoveryAction c.recoveryPlanId c.actionId c.status c.detail = .ok cs') :
      ChangeSetStep nextId cs cs' (.recordRecoveryAction c)

theorem ChangeSetOp.apply_some {op : ChangeSetOp} {nextId : UUID} {cs cs' : ChangeSet}
    (h : op.apply nextId cs = .ok (some cs')) : ChangeSetStep nextId cs cs' op := by
  have hupdate : ∀ {r : UUID} {c : CandidateOp}, op.candidateOp? = some (r, c) →
      cs.UpstreamsMerged r c → cs.updateRepository r c.apply = .ok (some cs') →
      ChangeSetStep nextId cs cs' op := by
    intro r c hcall hup hwrite
    obtain ⟨ds, hstep, hne, hwith⟩ := ChangeSet.updateRepository_some hwrite
    exact .candidate hcall hup hstep hne hwith
  cases op with
  | appendCandidates c key =>
    simp only [apply, ChangeSet.appendCandidates] at h
    split_ifs at h with hfresh
    · cases h
    · obtain ⟨ds, hds, h⟩ := bind_ok h
      obtain ⟨cs'', hcs, h⟩ := bind_ok h
      obtain rfl := Option.some.inj (Except.ok.inj h)
      exact .append hfresh hds hcs
  | recordCandidateTraceability c => exact hupdate rfl trivial h
  | observePullRequest c =>
    obtain ⟨_, -, h⟩ := bind_ok h
    exact hupdate rfl trivial h
  | observeCi c => exact hupdate rfl trivial h
  | observeReview c => exact hupdate rfl trivial h
  | observeMerge c =>
    obtain ⟨target, htarget, h⟩ := bind_ok h
    obtain ⟨unmet, hunmet, h⟩ := bind_ok h
    split_ifs at h with hnone
    rw [not_not] at hnone
    exact hupdate rfl ⟨target, ChangeSet.repository_ok.mp htarget, hnone ▸ hunmet⟩ h
  | recordMergeRequested c => exact hupdate rfl trivial h
  | recordGovernanceDecision c =>
    obtain ⟨g, hg, h⟩ := bind_ok h
    obtain ⟨cs'', hcs, h⟩ := bind_ok h
    obtain rfl := Option.some.inj (Except.ok.inj h)
    exact .governance hg hcs
  | recordCandidateRevision c =>
    obtain ⟨cs'', hcs, h⟩ := bind_ok h
    obtain rfl := Option.some.inj (Except.ok.inj h)
    exact .revision hcs
  | planRecovery c => exact .recovery (Option.some.inj (Except.ok.inj h)).symm
  | recordRecoveryAction c =>
    obtain ⟨cs'', hcs, h⟩ := bind_ok h
    obtain rfl := Option.some.inj (Except.ok.inj h)
    exact .recoveryAction hcs

theorem ChangeSetOp.apply_of_candidateOp {op : ChangeSetOp} {nextId : UUID} {cs : ChangeSet}
    {r : UUID} {c : CandidateOp} {d d' : RepositoryDelivery} (call : op.candidateOp? = some (r, c))
    (upstream : cs.UpstreamsMerged r c) (hd : cs.candidate? r = some d) (hc : c.apply d = .ok d')
    (hne : d' ≠ d) :
    op.validate = .ok () ∧ ∃ cs', op.apply nextId cs = .ok (some cs') ∧
      cs'.candidate? r = some d' := by
  obtain ⟨cs', hcs', hcand⟩ := ChangeSet.updateRepository_of_apply hd hc hne
  cases op with
  | appendCandidates c key => cases call
  | recordCandidateTraceability c =>
    obtain ⟨rfl, rfl⟩ := Prod.mk.inj (Option.some.inj call)
    exact ⟨rfl, cs', hcs', hcand⟩
  | observePullRequest c =>
    obtain ⟨rfl, rfl⟩ := Prod.mk.inj (Option.some.inj call)
    refine ⟨rfl, cs', ?_, hcand⟩
    rw [apply, ChangeSet.observePullRequest, ChangeSet.repository_ok.mpr hd]
    exact hcs'
  | observeCi c =>
    obtain ⟨rfl, rfl⟩ := Prod.mk.inj (Option.some.inj call)
    exact ⟨rfl, cs', hcs', hcand⟩
  | observeReview c =>
    obtain ⟨rfl, rfl⟩ := Prod.mk.inj (Option.some.inj call)
    exact ⟨rfl, cs', hcs', hcand⟩
  | observeMerge c =>
    obtain ⟨rfl, rfl⟩ := Prod.mk.inj (Option.some.inj call)
    obtain ⟨target, htarget, hunmet⟩ := upstream
    refine ⟨rfl, cs', ?_, hcand⟩
    rw [apply, ChangeSet.observeMerge, ChangeSet.repository_ok.mpr htarget, ok_bind, hunmet]
    exact hcs'
  | recordMergeRequested c =>
    obtain ⟨rfl, rfl⟩ := Prod.mk.inj (Option.some.inj call)
    exact ⟨rfl, cs', hcs', hcand⟩
  | recordGovernanceDecision c => cases call
  | recordCandidateRevision c =>
    obtain ⟨rfl, rfl⟩ := Prod.mk.inj (Option.some.inj call)
    have hrev : d.revise c.taskId c.previousHeadSha c.newHeadSha = .ok d' := hc
    obtain ⟨cs'', hcs'', hcand'⟩ := ChangeSet.recordCandidateRevision_of_revise c.reason hd hrev
    refine ⟨rfl, cs'', ?_, hcand'⟩
    rw [apply, hcs'']
    rfl
  | planRecovery c => cases call
  | recordRecoveryAction c => cases call

end Delivery
end RepoMesh
