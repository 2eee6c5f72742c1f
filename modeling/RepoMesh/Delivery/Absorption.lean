/-
# Is `MERGED` absorbing?

What the seven mutators do to a merged candidate, alone and inside the ChangeSets of a store.
Late CI results and late reviews recompute the status and are the only calls that lose a merge.
-/
import RepoMesh.Delivery.CandidateLife

namespace RepoMesh
namespace Delivery

open Text Fallible

/-! ## One candidate -/

/-- `b` keeps the merge of `a`: still merged, by the same commit, with the same merge commit. -/
def KeepsMerge (a b : RepositoryDelivery) : Prop :=
  a.status = .merged →
    b.status = .merged ∧ b.mergeSha = a.mergeSha ∧ b.commitSha = a.commitSha

/-- Evidence arriving after the merge that the candidate still accepts: any CI result, and any
review of its head that names the review and the reviewer. -/
def LateEvidence (d : RepositoryDelivery) : CandidateOp → Prop
  | .observeCi _ _ _ _ => d.status = .merged
  | .observeReview reviewId reviewer _ headSha _ =>
    d.status = .merged ∧ normalize headSha = d.commitSha ∧ isBlank reviewId = false ∧
      (normalize reviewer).isEmpty = false
  | _ => False

instance (a b : RepositoryDelivery) : Decidable (KeepsMerge a b) :=
  inferInstanceAs (Decidable (_ → _))

theorem KeepsMerge.trans {a b c : RepositoryDelivery} (hab : KeepsMerge a b)
    (hbc : KeepsMerge b c) : KeepsMerge a c := by
  intro ha
  obtain ⟨hb, hm, hc⟩ := hab ha
  obtain ⟨hc', hm', hcs'⟩ := hbc hb
  exact ⟨hc', hm'.trans hm, hcs'.trans hc⟩

theorem keepsMerge_of_not_late {c : CandidateOp} {d d' : RepositoryDelivery}
    (hlate : ¬ LateEvidence d c) (h : c.apply d = .ok d') : KeepsMerge d d' := by
  intro hd
  cases c <;> simp only [CandidateOp.apply] at h
  case observePr =>
    obtain ⟨⟨-, hs⟩, -⟩ := RepositoryDelivery.observePr_ok h
    rcases hs with hs | hs <;> rw [hd] at hs <;> cases hs
  case observeCi => exact absurd hd hlate
  case observeReview =>
    obtain ⟨⟨-, hhead, hid, hrev⟩, -⟩ := RepositoryDelivery.observeReview_ok h
    exact absurd ⟨hd, hhead, hid, hrev⟩ hlate
  case requestMerge =>
    obtain ⟨hs, -⟩ := RepositoryDelivery.requestMerge_ok h
    rcases hs with hs | hs <;> rw [hd] at hs <;> cases hs
  case observeMerge =>
    obtain ⟨hs, -⟩ := RepositoryDelivery.observeMerge_ok h
    rcases hs with hs | hs <;> rw [hd] at hs <;> cases hs
  case attachTraceability =>
    rw [RepositoryDelivery.attachTraceability_ok h]
    exact ⟨hd, rfl, rfl⟩
  case revise => exact absurd hd (RepositoryDelivery.revise_ok h).1.1

theorem late_evidence_unmerges {c : CandidateOp} {d : RepositoryDelivery} (hd : d.Opened)
    (hlate : LateEvidence d c) :
    d.status = .merged ∧ ∃ d', c.apply d = .ok d' ∧ d'.status ≠ .merged := by
  have hpr : d.status = .merged → d.pullRequestNumber ≠ none := by
    intro hm
    refine hd.resolve_left fun hp => ?_
    rw [hm] at hp
    cases hp
  cases c with
  | observeCi passed checkRunId summary checkName =>
    obtain ⟨d', hok⟩ : ∃ d', d.observeCi passed checkRunId summary checkName = .ok d' := by
      rw [RepositoryDelivery.observeCi, if_neg (hpr hlate)]
      exact ⟨_, rfl⟩
    obtain ⟨-, checks, status, hd', hstatus⟩ := RepositoryDelivery.observeCi_ok hok
    exact ⟨hlate, d', hok, by rw [hd']; exact hstatus⟩
  | observeReview reviewId reviewer state headSha summary =>
    obtain ⟨hm, hhead, hid, hrev⟩ := hlate
    obtain ⟨d', hok⟩ : ∃ d', d.observeReview reviewId reviewer state headSha summary = .ok d' := by
      rw [RepositoryDelivery.observeReview, if_neg (hpr hm), if_neg (not_not.mpr hhead)]
      dsimp only
      rw [if_neg (by simp [hid, hrev])]
      exact ⟨_, rfl⟩
    obtain ⟨-, reviews, status, hd', hstatus⟩ := RepositoryDelivery.observeReview_ok hok
    exact ⟨hm, d', hok, by rw [hd']; exact hstatus⟩
  | observePr number url headSha => exact hlate.elim
  | requestMerge headSha => exact hlate.elim
  | observeMerge mergeSha => exact hlate.elim
  | attachTraceability taskId commitSha planId runId workerAgentId => exact hlate.elim
  | revise taskId previousHeadSha newHeadSha => exact hlate.elim

theorem opened_attempt (d : RepositoryDelivery) (c : CandidateOp) (hd : d.Opened) :
    (Runs.attempt CandidateOp.apply d c).Opened :=
  Runs.attempt_cases hd fun _ h => CandidateOp.apply_opened hd h

/-- **One call on one candidate.** It keeps the merge exactly when it is not late evidence. -/
theorem keepsMerge_attempt_iff {d : RepositoryDelivery} (hd : d.Opened) (c : CandidateOp) :
    KeepsMerge d (Runs.attempt CandidateOp.apply d c) ↔ ¬ LateEvidence d c := by
  constructor
  · intro hkeep hlate
    obtain ⟨hm, d', hok, hd'⟩ := late_evidence_unmerges hd hlate
    rw [Runs.attempt_ok hok] at hkeep
    exact hd' (hkeep hm).1
  · intro hlate
    exact Runs.attempt_cases (fun hm => ⟨hm, rfl, rfl⟩) fun d' h => keepsMerge_of_not_late hlate h

theorem candidate_run_keepsMerge_iff {d : RepositoryDelivery} (hd : d.Opened)
    (ops : List CandidateOp) :
    (Runs.states (Runs.attempt CandidateOp.apply) d ops).Pairwise KeepsMerge ↔
      ∀ p ∈ Runs.steps (Runs.attempt CandidateOp.apply) d ops, ¬ LateEvidence p.1 p.2 := by
  have rel : ∀ (d : RepositoryDelivery) (c : CandidateOp), d.Opened →
      (KeepsMerge d (Runs.attempt CandidateOp.apply d c) ↔ ¬ LateEvidence d c) :=
    fun _ c h => keepsMerge_attempt_iff h c
  exact Runs.states_pairwise_iff (fun _ _ _ hab hbc => hab.trans hbc) opened_attempt rel hd ops

/-! ## The candidates of a store -/

/-- Every candidate merged in `a` is in `b`, and keeps its merge there. -/
def MergesKept (a b : ChangeSetStore) : Prop :=
  ∀ changeSetId repositoryId d, a.candidate? changeSetId repositoryId = some d →
    d.status = .merged → ∃ d', b.candidate? changeSetId repositoryId = some d' ∧ KeepsMerge d d'

/-- A repository of a ChangeSet counts as an unmerged upstream of one of its candidates. -/
def CountsAsUnmet (st : ChangeSetStore) (changeSetId repositoryId : UUID) : Prop :=
  ∃ cs target unmet, st.get changeSetId = some cs ∧ target ∈ cs.repositories ∧
    cs.unmetUpstreams target = .ok unmet ∧ repositoryId ∈ unmet

/-- What follows in `b` for the repositories merged in `a`: the gate does not allow them again,
and no candidate waits for them. -/
def MergesFinal (ports : MergeGatePorts) (a b : ChangeSetStore) : Prop :=
  ∀ changeSetId repositoryId d, a.candidate? changeSetId repositoryId = some d →
    d.status = .merged → gateAllows ports b changeSetId repositoryId = false ∧
      ¬ CountsAsUnmet b changeSetId repositoryId

/-- A service call that hands late evidence to a merged candidate. -/
def LateEvidenceCall (st : ChangeSetStore) : DeliveryOp → Prop
  | .prepare _ _ => False
  | .change op => ∃ r c d, op.candidateOp? = some (r, c) ∧
      st.candidate? op.changeSetId r = some d ∧ LateEvidence d c

theorem MergesKept.trans {a b c : ChangeSetStore} (hab : MergesKept a b) (hbc : MergesKept b c) :
    MergesKept a c := by
  intro id r d hd hm
  obtain ⟨d', hd', hkeep⟩ := hab id r d hd hm
  obtain ⟨d'', hd'', hkeep'⟩ := hbc id r d' hd' (hkeep hm).1
  exact ⟨d'', hd'', hkeep.trans hkeep'⟩

theorem gateAllows_of_merged {ports : MergeGatePorts} {st : ChangeSetStore} {id r : UUID}
    {d : RepositoryDelivery} (hd : st.candidate? id r = some d) (hm : d.status = .merged) :
    gateAllows ports st id r = false := by
  obtain ⟨cs, hget, hcand⟩ := Option.bind_eq_some_iff.mp hd
  cases hgate : DeliveryService.evaluateMergeGate ports st id r with
  | error e => simp only [gateAllows, hgate]
  | ok decision =>
    simp only [gateAllows, hgate]
    simp only [DeliveryService.evaluateMergeGate, DeliveryService.required, hget, ok_bind,
      ChangeSet.mergeGate, ChangeSet.repository, hcand] at hgate
    obtain ⟨upstream, -, hgate⟩ := bind_ok hgate
    rw [← Except.ok.inj hgate]
    simp [ChangeSet.readinessReasons, hm]

theorem not_countsAsUnmet_of_merged {st : ChangeSetStore} {id r : UUID} {d : RepositoryDelivery}
    (hd : st.candidate? id r = some d) (hm : d.status = .merged) : ¬ CountsAsUnmet st id r := by
  rintro ⟨cs, target, unmet, hget, -, hunmet, hr⟩
  obtain ⟨cs', hget', hcand⟩ := Option.bind_eq_some_iff.mp hd
  obtain rfl : cs = cs' := Option.some.inj (hget.symm.trans hget')
  obtain ⟨-, d', hd', hstatus⟩ := (ChangeSet.mem_unmetUpstreams hunmet).mp hr
  obtain rfl : d = d' := Option.some.inj (hcand.symm.trans hd')
  exact hstatus hm

/-- **Merges kept are final**: the gate stays shut for them and nobody waits for them. -/
theorem MergesKept.final {ports : MergeGatePorts} {a b : ChangeSetStore} (h : MergesKept a b) :
    MergesFinal ports a b := by
  intro id r d hd hm
  obtain ⟨d', hd', hkeep⟩ := h id r d hd hm
  exact ⟨gateAllows_of_merged hd' (hkeep hm).1, not_countsAsUnmet_of_merged hd' (hkeep hm).1⟩

/-- **One service call.** It keeps every merge of the store exactly when it is not late
evidence for a merged candidate. -/
theorem mergesKept_attempt_iff (fingerprint : PrepareChangeSetCommand → String)
    {st : ChangeSetStore} (hw : st.WellFormed) (op : DeliveryOp) :
    MergesKept st (Runs.attempt (DeliveryService.apply fingerprint) st op) ↔
      ¬ LateEvidenceCall st op := by
  constructor
  · intro hkept hlate
    cases op with
    | prepare c key => exact hlate
    | change o =>
      obtain ⟨r, c, d, hcall, hd, hev⟩ := hlate
      obtain ⟨cs, hget, hcand⟩ := Option.bind_eq_some_iff.mp hd
      have hwcs := hw.each cs (ChangeSetStore.mem_of_get hget).1
      obtain ⟨hm, d', hd', hstatus⟩ :=
        late_evidence_unmerges (hwcs.opened d (ChangeSet.candidate?_eq_some.mp hcand).1) hev
      have hup : cs.UpstreamsMerged r c := by
        cases c with
        | observeMerge mergeSha => exact hev.elim
        | _ => trivial
      obtain ⟨hvalid, cs', happly, hcand'⟩ := ChangeSetOp.apply_of_candidateOp hcall hup hcand hd'
        (fun heq => hstatus (heq ▸ hm))
      have hid : cs'.id = cs.id := (hwcs.step (ChangeSetOp.apply_some happly)).2
      rw [Runs.attempt_ok (DeliveryService.apply_of_written hvalid hget happly hid)] at hkept
      obtain ⟨d'', hd'', hkeep⟩ := hkept _ _ _ hd hm
      rw [candidate?_written hget hid, if_pos rfl, hcand'] at hd''
      exact hstatus (Option.some.inj hd'' ▸ (hkeep hm).1)
  · intro hlate id r d hd _
    obtain ⟨d', hd', hchange⟩ := DeliveryService.candidate?_attempt fingerprint hw op hd
    refine ⟨d', hd', ?_⟩
    rcases hchange with rfl | ⟨o, c, rfl, rfl, hcall, happly⟩
    · exact fun hm => ⟨hm, rfl, rfl⟩
    · exact keepsMerge_of_not_late (fun hev => hlate ⟨r, c, d, hcall, hd, hev⟩) happly

theorem store_run_mergesKept_iff (fingerprint : PrepareChangeSetCommand → String)
    (ports : MergeGatePorts) (ops : List DeliveryOp) :
    (Runs.states (Runs.attempt (DeliveryService.apply fingerprint)) {} ops).Pairwise
        (fun a b => MergesKept a b ∧ MergesFinal ports a b) ↔
      ∀ p ∈ Runs.steps (Runs.attempt (DeliveryService.apply fingerprint)) {} ops,
        ¬ LateEvidenceCall p.1 p.2 := by
  have rel : ∀ (st : ChangeSetStore) (op : DeliveryOp), st.WellFormed →
      ((MergesKept st (Runs.attempt (DeliveryService.apply fingerprint) st op) ∧
        MergesFinal ports st (Runs.attempt (DeliveryService.apply fingerprint) st op)) ↔
      ¬ LateEvidenceCall st op) := fun st op hw =>
    ⟨fun h => (mergesKept_attempt_iff fingerprint hw op).mp h.1, fun h =>
      have hkept := (mergesKept_attempt_iff fingerprint hw op).mpr h
      ⟨hkept, hkept.final⟩⟩
  have trans : ∀ a b c : ChangeSetStore, MergesKept a b ∧ MergesFinal ports a b →
      MergesKept b c ∧ MergesFinal ports b c → MergesKept a c ∧ MergesFinal ports a c :=
    fun a b c hab hbc => ⟨hab.1.trans hbc.1, (hab.1.trans hbc.1).final⟩
  have hW : ∀ (st : ChangeSetStore) (op : DeliveryOp), st.WellFormed →
      (Runs.attempt (DeliveryService.apply fingerprint) st op).WellFormed :=
    fun st op hw => DeliveryService.wellFormed_step hw op
  exact Runs.states_pairwise_iff trans hW rel ChangeSetStore.wellFormed_empty ops

/-- **`MERGED` is absorbing exactly without late evidence.** From a pending candidate every run
of the seven mutators keeps a merge once it is there, with its commit and merge commit, iff no
CI result and no accepted review reaches the candidate while it is merged. Over the store the
same condition is what keeps every merge, the gate shut for it and its dependents unblocked. -/
theorem merged_absorbing_iff (fingerprint : PrepareChangeSetCommand → String)
    (ports : MergeGatePorts) (d : RepositoryDelivery) (hd : d.status = .pending)
    (candidateOps : List CandidateOp) (serviceOps : List DeliveryOp) :
    ((Runs.states (Runs.attempt CandidateOp.apply) d candidateOps).Pairwise KeepsMerge ↔
      ∀ p ∈ Runs.steps (Runs.attempt CandidateOp.apply) d candidateOps, ¬ LateEvidence p.1 p.2) ∧
    ((Runs.states (Runs.attempt (DeliveryService.apply fingerprint)) {} serviceOps).Pairwise
        (fun a b => MergesKept a b ∧ MergesFinal ports a b) ↔
      ∀ p ∈ Runs.steps (Runs.attempt (DeliveryService.apply fingerprint)) {} serviceOps,
        ¬ LateEvidenceCall p.1 p.2) :=
  ⟨candidate_run_keepsMerge_iff (Or.inl hd) candidateOps,
    store_run_mergesKept_iff fingerprint ports serviceOps⟩

/-- From its pull request to its merge. -/
def mergeRun : List CandidateOp :=
  [.observePr 1 "url" "aaaaaaaaaaaaaaaaaaaaaaaaaaaaaaaaaaaaaaaa", .observeCi true "run" "" "",
    .observeMerge "cccccccccccccccccccccccccccccccccccccccc"]

/-- The same run through the service. -/
def mergeServiceRun : List DeliveryOp :=
  [.prepare samplePrepare "key",
    .change (.observePullRequest ⟨0, 10, 1, "url", "aaaaaaaaaaaaaaaaaaaaaaaaaaaaaaaaaaaaaaaa"⟩),
    .change (.observeCi ⟨0, 10, true, "run", "", ""⟩),
    .change (.observeMerge ⟨0, 10, "cccccccccccccccccccccccccccccccccccccccc"⟩)]

/-- The hypotheses of `merged_absorbing_iff` are satisfiable: a pending candidate, merged by a
run without late evidence. -/
theorem merged_absorbing_iff_sample :
    sampleCandidate.status = .pending ∧
    ((Runs.states (Runs.attempt CandidateOp.apply) sampleCandidate mergeRun).Pairwise KeepsMerge ↔
      ∀ p ∈ Runs.steps (Runs.attempt CandidateOp.apply) sampleCandidate mergeRun,
        ¬ LateEvidence p.1 p.2) ∧
    ((Runs.states (Runs.attempt (DeliveryService.apply fun _ => "")) {} mergeServiceRun).Pairwise
        (fun a b => MergesKept a b ∧ MergesFinal {} a b) ↔
      ∀ p ∈ Runs.steps (Runs.attempt (DeliveryService.apply fun _ => "")) {} mergeServiceRun,
        ¬ LateEvidenceCall p.1 p.2) :=
  ⟨rfl, merged_absorbing_iff (fun _ => "") {} sampleCandidate rfl mergeRun mergeServiceRun⟩

/-- The candidate as it is merged, and after the same CI result. -/
def mergedReported : {run : RepositoryDelivery × RepositoryDelivery //
    run = (mergeRun.foldl (Runs.attempt CandidateOp.apply) sampleCandidate,
      Runs.attempt CandidateOp.apply (mergeRun.foldl (Runs.attempt CandidateOp.apply) sampleCandidate)
        (.observeCi true "run" "" "")) ∧ ¬ KeepsMerge run.1 run.2} :=
  ⟨_, rfl, by decide +kernel⟩

/-- The same through the service: the gate allows the candidate again. -/
def mergedAllowed : {run : ChangeSetStore × ChangeSetStore //
    run = (mergeServiceRun.foldl (Runs.attempt (DeliveryService.apply fun _ => "")) {},
      (mergeServiceRun ++ [DeliveryOp.change (.observeCi ⟨0, 10, true, "run", "", ""⟩)]).foldl
        (Runs.attempt (DeliveryService.apply fun _ => "")) {}) ∧
      (run.1.candidate? 0 10).any (fun d => d.status = .merged) = true ∧
        gateAllows {} run.2 0 10 = true} :=
  ⟨_, rfl, by decide +kernel⟩

/-- `MERGED` is not absorbing: the same CI result arriving again after the merge takes the
candidate back to `READY_TO_MERGE`, and inside a ChangeSet the gate allows it a second time. -/
theorem late_ci_reopens_merged :
    (¬ ∀ d : RepositoryDelivery, d.status = .pending → ∀ ops : List CandidateOp,
      (Runs.states (Runs.attempt CandidateOp.apply) d ops).Pairwise KeepsMerge) ∧
    (¬ ∀ ops : List DeliveryOp,
      (Runs.states (Runs.attempt (DeliveryService.apply fun _ => "")) {} ops).Pairwise
        (MergesFinal {})) := by
  constructor
  · intro h
    have hrun := Runs.rel_of_states_pairwise mergeRun (.observeCi true "run" "" "") []
      (h sampleCandidate rfl _)
    have reported := mergedReported
    obtain ⟨run, hpair, hlost⟩ := reported
    rw [hpair] at hlost
    exact hlost hrun
  · intro h
    have hrun := Runs.rel_of_states_pairwise mergeServiceRun
      (.change (.observeCi ⟨0, 10, true, "run", "", ""⟩)) [] (h _)
    have allowed := mergedAllowed
    obtain ⟨run, hpair, hmerged, hallowed⟩ := allowed
    rw [hpair] at hmerged hallowed
    dsimp only at hmerged hallowed
    obtain ⟨d, hd, hm⟩ := (Option.any_eq_true _ _).mp hmerged
    have hgate := (hrun 0 10 d hd (of_decide_eq_true hm)).1
    rw [hallowed] at hgate
    cases hgate

end Delivery
end RepoMesh
