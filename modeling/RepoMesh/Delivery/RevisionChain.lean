/-
# The revision chain of a candidate

The history of a candidate numbers its heads from zero, each entry naming the head before it, and
ends at the head the candidate has. The decisions of governance are one for each head, and the
merge gate reads those of the current head alone.
-/
import RepoMesh.Delivery.HeadHistory
import RepoMesh.Foundation.Keyed

namespace RepoMesh
namespace Delivery

open Fallible

/-! ## Chains -/

/-- A revision starts from the head of the one before it, and changes it. -/
def CandidateRevision.Follows (v w : CandidateRevision) : Prop :=
  w.previousHeadSha = some v.headSha ∧ w.headSha ≠ v.headSha

/-- The history of a candidate that has this head. -/
structure Chained (revisions : List CandidateRevision) (head : String) : Prop where
  numbered : revisions.map (·.sequence) = List.range revisions.length
  rooted : revisions.head?.map (·.previousHeadSha) = some none
  linked : revisions.IsChain CandidateRevision.Follows
  current : revisions.getLast?.map (·.headSha) = some head

theorem chained_initial (d : RepositoryDelivery) :
    Chained [CandidateRevision.initial d] d.commitSha where
  numbered := rfl
  rooted := rfl
  linked := List.isChain_singleton _
  current := rfl

theorem max_sequence {revisions : List CandidateRevision} (hne : revisions ≠ [])
    (hnumbered : revisions.map (·.sequence) = List.range revisions.length) :
    1 + (revisions.map (·.sequence)).max?.getD 0 = revisions.length := by
  obtain ⟨n, hn⟩ : ∃ n, revisions.length = n + 1 :=
    Nat.exists_eq_succ_of_ne_zero (List.length_pos_iff.mpr hne).ne'
  have hmax : (List.range (n + 1)).max? = some n := by
    rw [List.max?_eq_some_iff]
    refine ⟨List.self_mem_range_succ, fun k hk => ?_⟩
    have hlt : k < n + 1 := List.mem_range.mp hk
    omega
  rw [hnumbered, hn, hmax, Option.getD_some]
  omega

/-- **A revision extends the chain.** -/
theorem Chained.snoc {revisions : List CandidateRevision} {head : String} {v : CandidateRevision}
    (h : Chained revisions head) (hsequence : v.sequence = revisions.length)
    (hprevious : v.previousHeadSha = some head) (hhead : v.headSha ≠ head) :
    Chained (revisions ++ [v]) v.headSha := by
  obtain ⟨last, hlast, hlasthead⟩ := Option.map_eq_some_iff.mp h.current
  have hne : revisions ≠ [] := by
    rintro rfl
    cases hlast
  refine ⟨?_, ?_, ?_, ?_⟩
  · rw [List.map_append, h.numbered, List.length_append, List.length_singleton, List.range_succ,
      List.map_singleton, hsequence]
  · rw [List.head?_append_of_ne_nil _ hne]
    exact h.rooted
  · refine List.isChain_append.mpr ⟨h.linked, List.isChain_singleton _, fun x hx y hy => ?_⟩
    obtain rfl : last = x := Option.some.inj (hlast.symm.trans hx)
    obtain rfl : v = y := Option.some.inj hy
    exact ⟨by rw [hprevious, hlasthead], by rw [hlasthead]; exact hhead⟩
  · rw [List.getLast?_concat]
    rfl

/-! ## The chains of a ChangeSet -/

/-- The entries of one repository, oldest first. -/
def ChangeSet.revisionsOf (cs : ChangeSet) (repositoryId : UUID) : List CandidateRevision :=
  cs.candidateRevisions.filter fun v => v.repositoryId == repositoryId

/-- Every candidate has its chain, no other repository has an entry, and no two decisions are for
one head of one repository. -/
structure ChangeSet.RevisionChains (cs : ChangeSet) : Prop where
  chained : ∀ d ∈ cs.repositories, Chained (cs.revisionsOf d.repositoryId) d.commitSha
  listed : ∀ v ∈ cs.candidateRevisions, v.repositoryId ∈ repositoryIds cs.repositories
  decided : (cs.governanceDecisions.map fun g => (g.repositoryId, g.headSha)).Nodup

theorem filter_initial {ds : List RepositoryDelivery} (hnd : (repositoryIds ds).Nodup)
    {d : RepositoryDelivery} (hd : d ∈ ds) :
    (ds.map CandidateRevision.initial).filter (fun v => v.repositoryId == d.repositoryId) =
      [CandidateRevision.initial d] := by
  have hfind : Keyed.find RepositoryDelivery.repositoryId ds d.repositoryId = some d :=
    (Keyed.find_eq_some hnd).mpr ⟨hd, rfl⟩
  have hone : (ds.filter fun x => x.repositoryId == d.repositoryId) = [d] := by
    rw [Keyed.filter_eq hnd, hfind]
    rfl
  rw [List.filter_map]
  exact congrArg (List.map CandidateRevision.initial) hone

theorem chained_initials {ds : List RepositoryDelivery} (hnd : (repositoryIds ds).Nodup)
    {d : RepositoryDelivery} (hd : d ∈ ds) :
    Chained ((ds.map CandidateRevision.initial).filter fun v => v.repositoryId == d.repositoryId)
      d.commitSha := by
  rw [filter_initial hnd hd]
  exact chained_initial d

theorem ChangeSet.RevisionChains.of_same {cs cs' : ChangeSet} (h : cs.RevisionChains)
    (hhistory : cs'.candidateRevisions = cs.candidateRevisions)
    (hdecisions : cs'.governanceDecisions = cs.governanceDecisions)
    (hids : repositoryIds cs'.repositories = repositoryIds cs.repositories)
    (hheads : ∀ d' ∈ cs'.repositories, ∃ d ∈ cs.repositories,
      d'.repositoryId = d.repositoryId ∧ d'.commitSha = d.commitSha) : cs'.RevisionChains where
  chained := by
    intro d' hd'
    obtain ⟨d, hd, hid, hhead⟩ := hheads d' hd'
    rw [revisionsOf, hhistory, hid, hhead]
    exact h.chained d hd
  listed := by
    rw [hhistory, hids]
    exact h.listed
  decided := hdecisions ▸ h.decided

theorem revisionChains_prepared {c : PrepareChangeSetCommand} {id : UUID} {cs : ChangeSet}
    (h : DeliveryService.preparedChangeSet c id = .ok cs) : cs.RevisionChains := by
  have hnd := cs.ids_nodup
  obtain ⟨hhistory, hdecisions⟩ : cs.candidateRevisions =
      cs.repositories.map CandidateRevision.initial ∧ cs.governanceDecisions = [] := by
    unfold DeliveryService.preparedChangeSet at h
    obtain ⟨order, -, h⟩ := bind_ok h
    obtain ⟨repositories, -, h⟩ := bind_ok h
    split_ifs at h
    rw [← Except.ok.inj h]
    exact ⟨rfl, rfl⟩
  refine ⟨fun d hd => ?_, fun v hv => ?_, ?_⟩
  · rw [ChangeSet.revisionsOf, hhistory]
    exact chained_initials hnd hd
  · rw [hhistory] at hv
    obtain ⟨d, hd, rfl⟩ := List.mem_map.mp hv
    exact List.mem_map_of_mem hd
  · rw [hdecisions]
    exact List.nodup_nil

/-! ## One call -/

theorem ChangeSet.RevisionChains.append {cs cs' : ChangeSet} {ds : List RepositoryDelivery}
    (h : cs.RevisionChains) (hwritten : cs.appendRepositories ds = .ok cs') :
    cs'.RevisionChains := by
  obtain ⟨hrepos, -, -, -, -, -, hdecisions⟩ := appendRepositories_ok hwritten
  have hhistory := appendRepositories_history hwritten
  have hids : (repositoryIds cs.repositories ++ repositoryIds ds).Nodup := by
    have hnd := cs'.ids_nodup
    rwa [hrepos, repositoryIds, List.map_append] at hnd
  obtain ⟨-, hnew, hdisjoint⟩ := List.nodup_append.mp hids
  refine ⟨fun d hd => ?_, fun v hv => ?_, hdecisions ▸ h.decided⟩
  · rw [revisionsOf, hhistory, List.filter_append]
    rw [hrepos] at hd
    rcases List.mem_append.mp hd with hd | hd
    · have hnone : (ds.map CandidateRevision.initial).filter
          (fun v => v.repositoryId == d.repositoryId) = [] := by
        refine List.filter_eq_nil_iff.mpr fun v hv heq => ?_
        obtain ⟨x, hx, rfl⟩ := List.mem_map.mp hv
        exact hdisjoint _ (List.mem_map_of_mem hd) _ (List.mem_map_of_mem hx)
          (beq_iff_eq.mp heq).symm
      rw [hnone, List.append_nil]
      exact h.chained d hd
    · have hnone : cs.candidateRevisions.filter (fun v => v.repositoryId == d.repositoryId) = [] := by
        refine List.filter_eq_nil_iff.mpr fun v hv heq => ?_
        exact hdisjoint _ (h.listed v hv) _ (List.mem_map_of_mem hd) (beq_iff_eq.mp heq)
      rw [hnone, List.nil_append]
      exact chained_initials hnew hd
  · rw [hrepos, repositoryIds, List.map_append]
    rw [hhistory] at hv
    rcases List.mem_append.mp hv with hv | hv
    · exact List.mem_append_left _ (h.listed v hv)
    · obtain ⟨d, hd, rfl⟩ := List.mem_map.mp hv
      exact List.mem_append_right _ (List.mem_map_of_mem hd)

theorem recordGovernance_decisions {cs cs' : ChangeSet} {g : GovernanceDecision}
    (h : cs.recordGovernance g = .ok cs') :
    cs'.governanceDecisions = cs.governanceDecisions.filter (fun item =>
      !(item.repositoryId == g.repositoryId && item.headSha == g.headSha)) ++ [g] := by
  unfold ChangeSet.recordGovernance at h
  split at h
  · cases h
  · split_ifs at h
    rw [← Except.ok.inj h]

theorem ChangeSet.RevisionChains.governance {cs cs' : ChangeSet} {g : GovernanceDecision}
    (h : cs.RevisionChains) (hwritten : cs.recordGovernance g = .ok cs') :
    cs'.RevisionChains := by
  obtain ⟨hrepos, -⟩ := recordGovernance_ok hwritten
  have hhistory := recordGovernance_history hwritten
  refine ⟨?_, ?_, ?_⟩
  · intro d hd
    rw [hrepos] at hd
    rw [revisionsOf, hhistory]
    exact h.chained d hd
  · rw [hhistory, hrepos]
    exact h.listed
  · rw [recordGovernance_decisions hwritten, List.map_append, List.map_singleton]
    refine List.nodup_append.mpr ⟨h.decided.sublist (List.Sublist.map _ List.filter_sublist),
      List.nodup_singleton _, fun a ha b hb hab => ?_⟩
    obtain ⟨item, hitem, rfl⟩ := List.mem_map.mp ha
    obtain rfl := List.mem_singleton.mp hb
    obtain ⟨hid, hhead⟩ := Prod.mk.inj hab
    have hkept := (List.mem_filter.mp hitem).2
    rw [hid, hhead, beq_self_eq_true, beq_self_eq_true] at hkept
    cases hkept

theorem recordCandidateRevision_revision {cs cs' : ChangeSet} {r taskId : UUID}
    {previousHeadSha newHeadSha reason : String}
    (h : cs.recordCandidateRevision r taskId previousHeadSha newHeadSha reason = .ok cs') :
    ∃ d d' v, cs.candidate? r = some d ∧ d.revise taskId previousHeadSha newHeadSha = .ok d' ∧
      v.repositoryId = r ∧ v.sequence = 1 + ((cs.revisionsOf r).map (·.sequence)).max?.getD 0 ∧
      v.headSha = d'.commitSha ∧ v.previousHeadSha = some d.commitSha ∧
      cs'.repositories = ChangeSet.replaceCandidate cs.repositories r d' ∧
      cs'.candidateRevisions = cs.candidateRevisions ++ [v] ∧
      cs'.governanceDecisions = cs.governanceDecisions := by
  unfold ChangeSet.recordCandidateRevision at h
  split at h
  · cases h
  rename_i candidate hcand
  split at h
  · cases h
  rename_i revised hrevised
  dsimp only at h
  split at h
  case isFalse => cases h
  split at h
  case isFalse => cases h
  rw [← Except.ok.inj h]
  exact ⟨candidate, revised, _, hcand, hrevised, rfl, rfl, rfl, rfl, rfl, rfl, rfl⟩

theorem ChangeSet.RevisionChains.revision {cs cs' : ChangeSet} {r taskId : UUID}
    {previousHeadSha newHeadSha reason : String} (h : cs.RevisionChains)
    (hwritten : cs.recordCandidateRevision r taskId previousHeadSha newHeadSha reason = .ok cs') :
    cs'.RevisionChains := by
  obtain ⟨d₀, d', v, hd₀, hrevise, hv, hsequence, hhead, hprevious, hrepos, hhistory,
    hdecisions⟩ := recordCandidateRevision_revision hwritten
  obtain ⟨hmem, hid⟩ := candidate?_eq_some.mp hd₀
  obtain ⟨-, -, hchanged, -, -, hsame, -⟩ := RepositoryDelivery.revise_ok hrevise
  have hids : repositoryIds cs'.repositories = repositoryIds cs.repositories :=
    repositoryIds_of_step (recordCandidateRevision_ok hwritten).2.1
  refine ⟨fun d hd => ?_, fun w hw => ?_, hdecisions ▸ h.decided⟩
  · rw [hrepos, replaceCandidate] at hd
    obtain ⟨x, hx, rfl⟩ := List.mem_map.mp hd
    rw [revisionsOf, hhistory, List.filter_append]
    split_ifs with hxr
    · -- the candidate revised
      have hown : d'.repositoryId = r := hsame.trans hid
      have hone : [v].filter (fun w => w.repositoryId == d'.repositoryId) = [v] := by
        simp [hv, hown]
      have hchain : Chained (cs.revisionsOf r) d₀.commitSha := hid ▸ h.chained d₀ hmem
      have hne : cs.revisionsOf r ≠ [] := by
        intro hnil
        have hroot := hchain.rooted
        rw [hnil] at hroot
        cases hroot
      rw [hone, hown, ← hhead]
      exact hchain.snoc (hsequence.trans (max_sequence hne hchain.numbered)) hprevious
        (hhead ▸ hchanged)
    · have hnone : [v].filter (fun w => w.repositoryId == x.repositoryId) = [] := by
        have hne : r ≠ x.repositoryId := fun heq => hxr heq.symm
        simp [hv, hne]
      rw [hnone, List.append_nil]
      exact h.chained x hx
  · rw [hids]
    rw [hhistory] at hw
    rcases List.mem_append.mp hw with hw | hw
    · exact h.listed w hw
    · rw [List.mem_singleton.mp hw, hv, ← hid]
      exact List.mem_map_of_mem hmem

/-- **One call keeps the chains.** -/
theorem revisionChains_of_apply {nextId : UUID} {cs cs' : ChangeSet} {op : ChangeSetOp}
    (hcs : cs.RevisionChains) (h : op.apply nextId cs = .ok (some cs')) : cs'.RevisionChains := by
  by_cases hrevision : ∃ c, op = .recordCandidateRevision c
  · obtain ⟨c, rfl⟩ := hrevision
    obtain ⟨cs'', hwritten, hsome⟩ := bind_ok h
    obtain rfl := Option.some.inj (Except.ok.inj hsome)
    exact hcs.revision hwritten
  have hop : ∀ c, op ≠ .recordCandidateRevision c := fun c hc => hrevision ⟨c, hc⟩
  have hsame : cs'.candidateRevisions = cs.candidateRevisions →
      cs'.governanceDecisions = cs.governanceDecisions → cs'.repositories = cs.repositories →
      cs'.RevisionChains := fun hhistory hdecisions hrepos =>
    hcs.of_same hhistory hdecisions (congrArg repositoryIds hrepos) fun d hd =>
      ⟨d, hrepos ▸ hd, rfl, rfl⟩
  cases ChangeSetOp.apply_some h with
  | @candidate op r c ds call upstream step changed written =>
    obtain ⟨hrepos, -, -, -, -, -, hdecisions⟩ := ChangeSet.withRepositories_ok written
    refine hcs.of_same (withRepositories_history written) hdecisions
      (hrepos ▸ repositoryIds_of_step step) fun d hd => ?_
    rw [hrepos] at hd
    obtain ⟨x, hx, hstep⟩ := forall₂_exists_left step hd
    refine ⟨x, hx, hstep.frame.1, ?_⟩
    by_cases hxr : x.repositoryId = r
    · exact commitSha_of_apply (hstep.of_eq hxr) (candidateOp_ne_revise hop call)
    · rw [hstep.of_ne hxr]
  | append fresh created written => exact hcs.append written
  | governance created written => exact hcs.governance written
  | revision written => exact absurd rfl (hop _)
  | recovery written =>
    subst written
    exact hsame rfl rfl rfl
  | recoveryAction written =>
    obtain ⟨-, -, hrepos, -, -, -, hdecisions⟩ := ChangeSet.recordRecoveryAction_ok written
    exact hsame (recordRecoveryAction_history written) hdecisions hrepos

theorem revisionChains_states (fingerprint : PrepareChangeSetCommand → String)
    (ops : List DeliveryOp) :
    ∀ st ∈ Runs.states (Runs.attempt (DeliveryService.apply fingerprint)) {} ops,
      ∀ cs ∈ st.items, cs.RevisionChains := by
  have hempty : ∀ cs ∈ ({} : ChangeSetStore).items, cs.RevisionChains := fun cs hcs => by cases hcs
  have hstep : ∀ (st : ChangeSetStore) (op : DeliveryOp), (∀ cs ∈ st.items, cs.RevisionChains) →
      ∀ cs ∈ (Runs.attempt (DeliveryService.apply fingerprint) st op).items,
        cs.RevisionChains := fun st op hst =>
    items_attempt_guarded fingerprint (fun _ _ _ => revisionChains_prepared)
      (fun _ _ _ _ _ hcs happly => revisionChains_of_apply hcs happly) hst
  exact Runs.states_invariant hstep hempty ops

/-! ## The gate and the decisions -/

/-- The decision is for the current head of the candidate. -/
def RepositoryDelivery.decidedBy (d : RepositoryDelivery) (g : GovernanceDecision) : Bool :=
  g.repositoryId == d.repositoryId && g.headSha == d.commitSha

/-- The same ChangeSet with other decisions. -/
def ChangeSet.withDecisions (cs : ChangeSet) (decisions : List GovernanceDecision) : ChangeSet :=
  { cs with governanceDecisions := decisions }

theorem find?_reverse_filter {α : Type*} (p : α → Bool) (xs : List α) :
    (xs.filter p).reverse.find? p = xs.reverse.find? p := by
  rw [← List.filter_reverse, List.find?_filter]
  simp

/-- **The gate reads the decisions for the current head alone**: with the decisions for other heads
replaced, dropped or added to, it answers as before. -/
theorem mergeGate_withDecisions (ports : MergeGatePorts) (cs : ChangeSet) {d : RepositoryDelivery}
    (hd : d ∈ cs.repositories) {decisions : List GovernanceDecision}
    (h : decisions.filter d.decidedBy = cs.governanceDecisions.filter d.decidedBy) :
    (cs.withDecisions decisions).mergeGate ports d.repositoryId =
      cs.mergeGate ports d.repositoryId := by
  have hcand : cs.candidate? d.repositoryId = some d :=
    ChangeSet.candidate?_eq_some.mpr ⟨hd, rfl⟩
  have hcand' : (cs.withDecisions decisions).candidate? d.repositoryId = some d := hcand
  have hlatest : (cs.withDecisions decisions).latestDecision d.repositoryId d.commitSha =
      cs.latestDecision d.repositoryId d.commitSha := by
    have hlast := congrArg (fun gs => (gs.reverse.find? d.decidedBy)) h
    simp only [find?_reverse_filter] at hlast
    exact hlast
  have hgovernance : (cs.withDecisions decisions).governanceReasons ports d d.repositoryId =
      cs.governanceReasons ports d d.repositoryId := by
    rw [ChangeSet.governanceReasons, hlatest, ChangeSet.governanceReasons]
  rw [ChangeSet.mergeGate, ChangeSet.repository_ok.mpr hcand', ChangeSet.mergeGate,
    ChangeSet.repository_ok.mpr hcand, ok_bind, ok_bind, hgovernance]
  rfl

/-- **The revision chain.** In every store of every run of the service, the history of every
candidate is numbered from zero without a gap, each entry names the head before it and changes it,
and the last one is the candidate's head; governance has at most one decision for a head of a
repository; and the gate answers as if the decisions for other heads were not there, or were any
others. A head the candidate has come back to is its current head. -/
theorem revision_chain (fingerprint : PrepareChangeSetCommand → String) (ops : List DeliveryOp) :
    ∀ st ∈ Runs.states (Runs.attempt (DeliveryService.apply fingerprint)) {} ops,
      ∀ cs ∈ st.items, cs.RevisionChains ∧
        ∀ (ports : MergeGatePorts), ∀ d ∈ cs.repositories,
          ∀ decisions : List GovernanceDecision,
            decisions.filter d.decidedBy = cs.governanceDecisions.filter d.decidedBy →
            (cs.withDecisions decisions).mergeGate ports d.repositoryId =
              cs.mergeGate ports d.repositoryId :=
  fun st hst cs hcs => ⟨revisionChains_states fingerprint ops st hst cs hcs,
    fun ports _ hd _ h => mergeGate_withDecisions ports cs hd h⟩

/-- A candidate is decided on, and then revised. -/
def revisedRun : List DeliveryOp :=
  [.prepare samplePrepare "key",
    .change (.recordGovernanceDecision
      { changeSetId := 0
        repositoryId := 10
        headSha := "aaaaaaaaaaaaaaaaaaaaaaaaaaaaaaaaaaaaaaaa"
        decision := .blocked
        decidedByAgentId := 9
        reason := "not yet" }),
    .change (.recordCandidateRevision
      { changeSetId := 0
        repositoryId := 10
        taskId := 21
        previousHeadSha := "aaaaaaaaaaaaaaaaaaaaaaaaaaaaaaaaaaaaaaaa"
        newHeadSha := "cccccccccccccccccccccccccccccccccccccccc"
        reason := "" })]

/-- The block of the old head is still recorded, and the gate answers as if it were not. -/
theorem revision_chain_revisedRun :
    ∃ cs ∈ (revisedRun.foldl (Runs.attempt (DeliveryService.apply fun _ => "")) {}).items,
      (cs.revisionsOf 10).length = 2 ∧ cs.governanceDecisions.length = 1 ∧ cs.RevisionChains ∧
        (cs.withDecisions []).mergeGate { requireGovernance := true } 10 =
          cs.mergeGate { requireGovernance := true } 10 := by
  obtain ⟨cs, hcs, hlength, hdecisions, d, hd, hid, hnone⟩ :
      ∃ cs ∈ (revisedRun.foldl (Runs.attempt (DeliveryService.apply fun _ => "")) {}).items,
        (cs.revisionsOf 10).length = 2 ∧ cs.governanceDecisions.length = 1 ∧
          ∃ d ∈ cs.repositories, d.repositoryId = 10 ∧
            cs.governanceDecisions.filter d.decidedBy = [] := by decide +kernel
  obtain ⟨hchains, hgate⟩ := revision_chain (fun _ => "") revisedRun _
    (Runs.foldl_mem_states _ _) cs hcs
  refine ⟨cs, hcs, hlength, hdecisions, hchains, ?_⟩
  rw [← hid]
  exact hgate _ d hd [] hnone.symm

end Delivery
end RepoMesh
