/-
# Heads and their evidence

Every head a candidate ever had stands in the revision history of its ChangeSet. The checks recorded
for a candidate ran on its current head as long as no result is recorded for another.
-/
import RepoMesh.Delivery.Interrupted
import RepoMesh.Delivery.Readiness

namespace RepoMesh
namespace Delivery

open Text Fallible

/-- The candidate of the repository has or had the head. -/
def ChangeSet.HadHead (cs : ChangeSet) (repositoryId : UUID) (head : String) : Prop :=
  ∃ v ∈ cs.candidateRevisions, v.repositoryId = repositoryId ∧ lower v.headSha = head

/-- The current heads are in the history. -/
def ChangeSet.HeadsRecorded (cs : ChangeSet) : Prop :=
  ∀ d ∈ cs.repositories, cs.HadHead d.repositoryId (lower d.commitSha)

/-- Every check recorded for a candidate ran on its current head. `headOf` is the head a check run
of the provider ran on. -/
def ChangeSet.Attributed (headOf : String → String) (cs : ChangeSet) : Prop :=
  ∀ d ∈ cs.repositories, ∀ c ∈ d.ciChecks, headOf c.checkRunId = lower d.commitSha

/-- The call records no check, or one that ran on the current head of its candidate. -/
def ChangeSetOp.OnHead (headOf : String → String) (call : ChangeSetOp) (cs : ChangeSet) : Prop :=
  ∀ c, call = .observeCi c → ∀ d ∈ cs.repositories, d.repositoryId = c.repositoryId →
    headOf (strip c.checkRunId) = lower d.commitSha

/-- The ChangeSet has not changed, or has been written since; its history has grown. -/
def HistoryKept (cs cs' : ChangeSet) : Prop :=
  (cs' = cs ∨ cs.version < cs'.version) ∧ cs.candidateRevisions ⊆ cs'.candidateRevisions

/-! ## Histories -/

theorem withRepositories_history {cs cs' : ChangeSet} {ds : List RepositoryDelivery}
    (h : cs.withRepositories ds = .ok cs') : cs'.candidateRevisions = cs.candidateRevisions := by
  unfold ChangeSet.withRepositories at h
  split_ifs at h
  rw [← Except.ok.inj h]

theorem appendRepositories_history {cs cs' : ChangeSet} {ds : List RepositoryDelivery}
    (h : cs.appendRepositories ds = .ok cs') :
    cs'.candidateRevisions = cs.candidateRevisions ++ ds.map CandidateRevision.initial := by
  unfold ChangeSet.appendRepositories at h
  split_ifs at h
  obtain ⟨updated, -, h⟩ := bind_ok h
  rw [← Except.ok.inj h]

theorem recordGovernance_history {cs cs' : ChangeSet} {g : GovernanceDecision}
    (h : cs.recordGovernance g = .ok cs') : cs'.candidateRevisions = cs.candidateRevisions := by
  unfold ChangeSet.recordGovernance at h
  split at h
  · cases h
  · split_ifs at h
    rw [← Except.ok.inj h]

theorem recordRecoveryAction_history {cs cs' : ChangeSet} {planId actionId : UUID}
    {status : RecoveryActionStatus} {detail : String}
    (h : cs.recordRecoveryAction planId actionId status detail = .ok cs') :
    cs'.candidateRevisions = cs.candidateRevisions := by
  unfold ChangeSet.recordRecoveryAction at h
  split_ifs at h
  obtain ⟨plans, -, h⟩ := bind_ok h
  split at h
  · cases h
  · rw [← Except.ok.inj h]

theorem recordCandidateRevision_history {cs cs' : ChangeSet} {r taskId : UUID}
    {previousHeadSha newHeadSha reason : String}
    (h : cs.recordCandidateRevision r taskId previousHeadSha newHeadSha reason = .ok cs') :
    ∃ v d', v.repositoryId = r ∧ v.headSha = d'.commitSha ∧
      (∃ d, cs.candidate? r = some d ∧ d.revise taskId previousHeadSha newHeadSha = .ok d') ∧
      cs'.repositories = ChangeSet.replaceCandidate cs.repositories r d' ∧
      cs'.candidateRevisions = cs.candidateRevisions ++ [v] := by
  unfold ChangeSet.recordCandidateRevision at h
  split at h
  · cases h
  rename_i candidate hcand
  split at h
  · cases h
  rename_i revised hrevised
  dsimp only at h
  split at h
  case isFalse => cases h
  split at h
  case isFalse => cases h
  rw [← Except.ok.inj h]
  exact ⟨_, revised, rfl, rfl, ⟨candidate, hcand, hrevised⟩, rfl, rfl⟩

theorem commitSha_of_apply {c : CandidateOp} {d d' : RepositoryDelivery} (h : c.apply d = .ok d')
    (hc : ∀ taskId previous head, c ≠ .revise taskId previous head) :
    d'.commitSha = d.commitSha := by
  cases c with
  | observePr number url headSha =>
    simp only [CandidateOp.apply, RepositoryDelivery.observePr] at h
    split_ifs at h
    rw [← Except.ok.inj h]
  | observeCi passed checkRunId summary checkName =>
    obtain ⟨-, checks, status, rfl, -⟩ := RepositoryDelivery.observeCi_ok h
    rfl
  | observeReview reviewId reviewer state headSha summary =>
    obtain ⟨-, reviews, status, rfl, -⟩ := RepositoryDelivery.observeReview_ok h
    rfl
  | requestMerge headSha =>
    simp only [CandidateOp.apply, RepositoryDelivery.requestMerge] at h
    split_ifs at h <;> rw [← Except.ok.inj h]
  | observeMerge mergeSha =>
    simp only [CandidateOp.apply, RepositoryDelivery.observeMerge] at h
    split_ifs at h
    split at h
    · cases h
    · rw [← Except.ok.inj h]
  | attachTraceability taskId commitSha planId runId workerAgentId =>
    simp only [CandidateOp.apply, RepositoryDelivery.attachTraceability] at h
    split_ifs at h
    rw [← Except.ok.inj h]
  | revise taskId previous head => exact absurd rfl (hc taskId previous head)

theorem candidateOp_ne_revise {op : ChangeSetOp} {r : UUID} {c : CandidateOp}
    (hop : ∀ c, op ≠ .recordCandidateRevision c) (h : op.candidateOp? = some (r, c)) :
    ∀ taskId previous head, c ≠ .revise taskId previous head := by
  rintro taskId previous head rfl
  cases op with
  | recordCandidateRevision c => exact hop c rfl
  | _ => simp [ChangeSetOp.candidateOp?] at h

/-- **One call keeps the heads recorded**, and the history. -/
theorem historyKept_of_apply {nextId : UUID} {cs cs' : ChangeSet} {op : ChangeSetOp}
    (h : op.apply nextId cs = .ok (some cs')) :
    HistoryKept cs cs' ∧ (cs.HeadsRecorded → cs'.HeadsRecorded) := by
  have hmono : ∀ {r : UUID} {head : String}, cs.candidateRevisions ⊆ cs'.candidateRevisions →
      cs.HadHead r head → cs'.HadHead r head := fun hsub ⟨v, hv, hvr⟩ => ⟨v, hsub hv, hvr⟩
  have hsame : cs'.version = cs.version + 1 → cs'.repositories = cs.repositories →
      cs'.candidateRevisions = cs.candidateRevisions →
      HistoryKept cs cs' ∧ (cs.HeadsRecorded → cs'.HeadsRecorded) := by
    intro hversion hrepos hhistory
    have hsub : cs.candidateRevisions ⊆ cs'.candidateRevisions := hhistory ▸ List.Subset.refl _
    refine ⟨⟨Or.inr (by omega), hsub⟩, fun hheads d hd => hmono hsub (hheads d ?_)⟩
    rwa [hrepos] at hd
  by_cases hrevision : ∃ c, op = .recordCandidateRevision c
  · obtain ⟨c, rfl⟩ := hrevision
    obtain ⟨cs'', hwritten, hsome⟩ := bind_ok h
    obtain rfl := Option.some.inj (Except.ok.inj hsome)
    obtain ⟨v, d', hv, hhead, ⟨d₀, hd₀, hrevise⟩, hrepos, hhistory⟩ :=
      recordCandidateRevision_history hwritten
    obtain ⟨-, -, -, -, -, -, hversion, -⟩ := ChangeSet.recordCandidateRevision_ok hwritten
    have hsub : cs.candidateRevisions ⊆ cs''.candidateRevisions :=
      hhistory ▸ List.subset_append_left _ _
    refine ⟨⟨Or.inr (by omega), hsub⟩, fun hheads d hd => ?_⟩
    rw [hrepos, ChangeSet.replaceCandidate] at hd
    obtain ⟨x, hx, rfl⟩ := List.mem_map.mp hd
    split_ifs with hxr
    · have hid : d'.repositoryId = c.repositoryId :=
        (RepositoryDelivery.revise_ok hrevise).2.2.2.2.2.1.trans
          (ChangeSet.candidate?_eq_some.mp hd₀).2
      exact ⟨v, by rw [hhistory]; simp, hv.trans hid.symm, congrArg lower hhead⟩
    · exact hmono hsub (hheads x hx)
  · have hop : ∀ c, op ≠ .recordCandidateRevision c := fun c hc => hrevision ⟨c, hc⟩
    cases ChangeSetOp.apply_some h with
    | @candidate op r c ds call upstream step changed written =>
      obtain ⟨hrepos, -, -, -, -, hversion, -⟩ := ChangeSet.withRepositories_ok written
      have hhistory := withRepositories_history written
      have hsub : cs.candidateRevisions ⊆ cs'.candidateRevisions := hhistory ▸ List.Subset.refl _
      refine ⟨⟨Or.inr (by omega), hsub⟩, fun hheads d hd => ?_⟩
      rw [hrepos] at hd
      obtain ⟨x, hx, hstep⟩ := forall₂_exists_left step hd
      by_cases hxr : x.repositoryId = r
      · rw [hstep.frame.1,
          commitSha_of_apply (hstep.of_eq hxr) (candidateOp_ne_revise hop call)]
        exact hmono hsub (hheads x hx)
      · rw [hstep.of_ne hxr]
        exact hmono hsub (hheads x hx)
    | @append c key ds fresh created written =>
      obtain ⟨hrepos, -, -, -, -, hversion, -⟩ := ChangeSet.appendRepositories_ok written
      have hhistory := appendRepositories_history written
      have hsub : cs.candidateRevisions ⊆ cs'.candidateRevisions :=
        hhistory ▸ List.subset_append_left _ _
      refine ⟨⟨Or.inr (by omega), hsub⟩, fun hheads d hd => ?_⟩
      rw [hrepos] at hd
      rcases List.mem_append.mp hd with hd | hd
      · exact hmono hsub (hheads d hd)
      · refine ⟨CandidateRevision.initial d, ?_, rfl, rfl⟩
        rw [hhistory]
        exact List.mem_append_right _ (List.mem_map_of_mem hd)
    | governance created written =>
      obtain ⟨hrepos, -, -, -, -, hversion⟩ := ChangeSet.recordGovernance_ok written
      exact hsame hversion hrepos (recordGovernance_history written)
    | revision written => exact absurd rfl (hop _)
    | recovery written =>
      subst written
      exact hsame rfl rfl rfl
    | recoveryAction written =>
      obtain ⟨-, -, hrepos, -, -, hversion, -⟩ := ChangeSet.recordRecoveryAction_ok written
      exact hsame hversion hrepos (recordRecoveryAction_history written)

theorem keeps_historyKept : Keeps HistoryKept where
  refl := fun _ => ⟨Or.inl rfl, List.Subset.refl _⟩
  trans := by
    rintro a b c ⟨hab, hsub⟩ ⟨hbc, hsub'⟩
    refine ⟨?_, List.Subset.trans hsub hsub'⟩
    rcases hab with rfl | hab
    · exact hbc
    · rcases hbc with rfl | hbc
      · exact Or.inr hab
      · exact Or.inr (hab.trans hbc)
  version := fun _ _ h => h.1
  step := fun _ _ _ _ h => (historyKept_of_apply h).1

theorem headsRecorded_prepared {c : PrepareChangeSetCommand} {id : UUID} {cs : ChangeSet}
    (h : DeliveryService.preparedChangeSet c id = .ok cs) : cs.HeadsRecorded := by
  unfold DeliveryService.preparedChangeSet at h
  obtain ⟨order, -, h⟩ := bind_ok h
  obtain ⟨repositories, -, h⟩ := bind_ok h
  split_ifs at h
  rw [← Except.ok.inj h]
  exact fun d hd => ⟨CandidateRevision.initial d, List.mem_map_of_mem hd, rfl, rfl⟩

/-! ## Evidence -/

theorem ciChecks_of_apply {c : CandidateOp} {d d' : RepositoryDelivery} (h : c.apply d = .ok d') :
    (d'.ciChecks = d.ciChecks ∧ d'.commitSha = d.commitSha) ∨ d'.ciChecks = [] ∨
      ∃ passed checkRunId summary checkName, c = .observeCi passed checkRunId summary checkName ∧
        d'.commitSha = d.commitSha ∧ ∃ item : CICheckObservation, item.checkRunId = strip checkRunId ∧
          d'.ciChecks = d.ciChecks.filter (fun x => x.checkName ≠ item.checkName) ++ [item] := by
  cases c with
  | observeCi passed checkRunId summary checkName =>
    obtain ⟨-, item, -, -, hrun, e, hchecks, -, -, -, -, hhead, rfl⟩ := observeCi_records h
    exact Or.inr (Or.inr ⟨passed, checkRunId, summary, checkName, rfl, hhead, item, hrun, hchecks⟩)
  | observePr number url headSha =>
    simp only [CandidateOp.apply, RepositoryDelivery.observePr] at h
    split_ifs at h
    rw [← Except.ok.inj h]
    exact Or.inl ⟨rfl, rfl⟩
  | observeReview reviewId reviewer state headSha summary =>
    obtain ⟨-, reviews, status, rfl, -⟩ := RepositoryDelivery.observeReview_ok h
    exact Or.inl ⟨rfl, rfl⟩
  | requestMerge headSha =>
    simp only [CandidateOp.apply, RepositoryDelivery.requestMerge] at h
    split_ifs at h <;> rw [← Except.ok.inj h] <;> exact Or.inl ⟨rfl, rfl⟩
  | observeMerge mergeSha =>
    simp only [CandidateOp.apply, RepositoryDelivery.observeMerge] at h
    split_ifs at h
    split at h
    · cases h
    · rw [← Except.ok.inj h]
      exact Or.inl ⟨rfl, rfl⟩
  | attachTraceability taskId commitSha planId runId workerAgentId =>
    simp only [CandidateOp.apply, RepositoryDelivery.attachTraceability] at h
    split_ifs at h
    rw [← Except.ok.inj h]
    exact Or.inl ⟨rfl, rfl⟩
  | revise taskId previous head =>
    refine Or.inr (Or.inl ?_)
    have hfresh : Unobserved d' := Or.inr ⟨d, taskId, previous, head, h⟩
    exact List.map_eq_nil_iff.mp (recorded_of_unobserved hfresh).checks

/-- **One call.** Recorded on the current head, evidence stays attributed. -/
theorem attributed_of_apply {headOf : String → String} {nextId : UUID} {cs cs' : ChangeSet}
    {op : ChangeSetOp} (h : op.apply nextId cs = .ok (some cs')) (hop : op.OnHead headOf cs)
    (hcs : cs.Attributed headOf) : cs'.Attributed headOf := by
  have hcandidates : ∀ {r : UUID} {c : CandidateOp}, op.candidateOp? = some (r, c) →
      List.Forall₂ (CandidateStep r c) cs.repositories cs'.repositories →
      cs'.Attributed headOf := by
    intro r c hcall hall d' hd'
    obtain ⟨d, hd, hstep⟩ := forall₂_exists_left hall hd'
    by_cases hdr : d.repositoryId = r
    · rcases ciChecks_of_apply (hstep.of_eq hdr) with ⟨hchecks, hhead⟩ | hnil |
        ⟨passed, checkRunId, summary, checkName, rfl, hhead, item, hrun, hchecks⟩
      · rw [hchecks, hhead]
        exact hcs d hd
      · rw [hnil]
        exact fun x hx => by cases hx
      · obtain ⟨c, rfl, rfl, rfl⟩ : ∃ c, op = .observeCi c ∧ c.repositoryId = r ∧
            c.checkRunId = checkRunId := by
          cases op with
          | observeCi c =>
            simp only [ChangeSetOp.candidateOp?, Option.some.injEq, Prod.mk.injEq,
              CandidateOp.observeCi.injEq] at hcall
            exact ⟨c, rfl, hcall.1, hcall.2.2.1⟩
          | _ => simp [ChangeSetOp.candidateOp?] at hcall
        rw [hchecks, hhead]
        intro x hx
        rcases List.mem_append.mp hx with hx | hx
        · exact hcs d hd x (List.mem_of_mem_filter hx)
        · rw [List.mem_singleton.mp hx, hrun]
          exact hop c rfl d hd hdr
    · rw [hstep.of_ne hdr]
      exact hcs d hd
  have hsame : cs'.repositories = cs.repositories → cs'.Attributed headOf := by
    intro hrepos
    rw [ChangeSet.Attributed, hrepos]
    exact hcs
  cases ChangeSetOp.apply_some h with
  | candidate call upstream step changed written =>
    rw [← (ChangeSet.withRepositories_ok written).1] at step
    exact hcandidates call step
  | @append c key ds fresh created written =>
    intro d hd
    rw [(ChangeSet.appendRepositories_ok written).1] at hd
    rcases List.mem_append.mp hd with hd | hd
    · exact hcs d hd
    · obtain ⟨item, -, order, hcreate⟩ :=
        forall₂_exists_left (ChangeSet.appendedRepositories_ok created).1 hd
      have hnil := (recorded_of_unobserved (Or.inl ⟨item, order, hcreate⟩)).checks
      rw [List.map_eq_nil_iff.mp hnil]
      exact fun x hx => by cases hx
  | governance created written => exact hsame (ChangeSet.recordGovernance_ok written).1
  | revision written => exact hcandidates rfl (ChangeSet.recordCandidateRevision_ok written).2.1
  | recovery written => exact hsame (by rw [written]; rfl)
  | recoveryAction written => exact hsame (ChangeSet.recordRecoveryAction_ok written).2.2.1

/-- **One result.** It keeps the evidence attributed exactly when the check ran on the current
head. -/
theorem attributed_observeCi_iff {headOf : String → String} {n : UUID} {cs cs' : ChangeSet}
    {c : CIObservationCommand} (hcs : cs.Attributed headOf)
    (h : (ChangeSetOp.observeCi c).apply n cs = .ok (some cs')) :
    cs'.Attributed headOf ↔ (ChangeSetOp.observeCi c).OnHead headOf cs := by
  refine ⟨fun hcs' c' hc' d hd hdr => ?_, fun hop => attributed_of_apply h hop hcs⟩
  obtain rfl := ChangeSetOp.observeCi.inj hc'
  obtain ⟨ds, hstep, -, hwritten⟩ :=
    ChangeSet.updateRepository_some (c := .observeCi c.passed c.checkRunId c.summary c.checkName) h
  rw [← (ChangeSet.withRepositories_ok hwritten).1] at hstep
  obtain ⟨d', hd', hchange⟩ := forall₂_exists_right hstep hd
  obtain ⟨-, item, -, -, hrun, e, hchecks, -, -, -, -, hhead, rfl⟩ :=
    observeCi_records (hchange.of_eq hdr)
  have hitem : item ∈ e.ciChecks := by
    rw [hchecks]
    exact List.mem_append_right _ (List.mem_singleton_self item)
  have hattributed : headOf item.checkRunId = lower e.commitSha := hcs' _ hd' item hitem
  rw [← hrun, hattributed, hhead]

theorem attributed_prepared {headOf : String → String} {c : PrepareChangeSetCommand} {id : UUID}
    {cs : ChangeSet} (h : DeliveryService.preparedChangeSet c id = .ok cs) :
    cs.Attributed headOf := by
  intro d hd
  obtain ⟨item, -, order, hcreate⟩ := forall₂_exists_left (DeliveryService.preparedChangeSet_ok h).1 hd
  have hnil := (recorded_of_unobserved (Or.inl ⟨item, order, hcreate⟩)).checks
  rw [List.map_eq_nil_iff.mp hnil]
  exact fun x hx => by cases hx

end Delivery
end RepoMesh
