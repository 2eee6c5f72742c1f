/-
# Does repairing a drifted candidate converge?

The reconciler opens a `BASE_DRIFT` case when the base of the pull request is not the candidate's
`base_sha`. The field is right when it is recorded, and every revision writes the candidate's own
earlier head into it.
-/
import RepoMesh.Delivery.CandidateLife
import RepoMesh.Scm.CoordinatorAsks

namespace RepoMesh
namespace Scm

open Text Delivery
open Async (Prog)

variable {fingerprint : PrepareChangeSetCommand → String}

/-! ## The head and the base of a candidate -/

/-- The two candidates have the same head on the same base. -/
def SameHead (d d' : RepositoryDelivery) : Prop :=
  d'.commitSha = d.commitSha ∧ d'.baseSha = d.baseSha

/-- The call revises a candidate. -/
def IsRevision : CandidateOp → Prop
  | .revise .. => True
  | _ => False

/-- The call attaches a pull request. -/
def IsPullRequest : CandidateOp → Prop
  | .observePr .. => True
  | _ => False

theorem apply_sameHead {c : CandidateOp} {d d' : RepositoryDelivery} (h : c.apply d = .ok d')
    (hc : ¬ IsRevision c) :
    SameHead d d' ∧ (¬ IsPullRequest c → d'.pullRequestNumber = d.pullRequestNumber) := by
  cases c <;> simp only [CandidateOp.apply] at h
  case observePr =>
    rw [(RepositoryDelivery.observePr_ok h).2]
    exact ⟨⟨rfl, rfl⟩, fun hno => absurd trivial hno⟩
  case observeCi =>
    obtain ⟨-, checks, status, rfl, -⟩ := RepositoryDelivery.observeCi_ok h
    exact ⟨⟨rfl, rfl⟩, fun _ => rfl⟩
  case observeReview =>
    obtain ⟨-, reviews, status, rfl, -⟩ := RepositoryDelivery.observeReview_ok h
    exact ⟨⟨rfl, rfl⟩, fun _ => rfl⟩
  case requestMerge =>
    rw [(RepositoryDelivery.requestMerge_ok h).2]
    exact ⟨⟨rfl, rfl⟩, fun _ => rfl⟩
  case observeMerge =>
    rw [(RepositoryDelivery.observeMerge_ok h).2]
    exact ⟨⟨rfl, rfl⟩, fun _ => rfl⟩
  case attachTraceability =>
    rw [RepositoryDelivery.attachTraceability_ok h]
    exact ⟨⟨rfl, rfl⟩, fun _ => rfl⟩
  case revise => exact absurd trivial hc

theorem revise_base {d d' : RepositoryDelivery} {taskId : UUID} {previousHeadSha newHeadSha : String}
    (h : d.revise taskId previousHeadSha newHeadSha = .ok d') :
    d'.baseSha = d.commitSha ∧ d'.commitSha ≠ d.commitSha := by
  refine ⟨?_, (RepositoryDelivery.revise_ok h).2.2.1⟩
  unfold RepositoryDelivery.revise at h
  split at h
  · cases h
  split at h
  · cases h
  split at h
  · cases h
  split at h
  · cases h
  rw [← Except.ok.inj h]

/-! ## What has to hold -/

/-- The remote shows the pull request of a repository as open and mergeable, on this head and
this base, whenever it is asked and answers. -/
def Remote.Healthy (remote : Remote) (repositoryId : UUID) (number : ℤ) (head base : String) :
    Prop :=
  ∀ k repository, remote.repositoryRef k repositoryId = .ok repository →
    ∀ k' pullRequest, remote.getPullRequest k' repository number = .ok pullRequest →
      pullRequest.state = .opened ∧ pullRequest.mergeable = some true ∧
        pullRequest.headSha = lower head ∧ pullRequest.baseSha = base

/-- The operation opens a conflict case for the candidate. -/
def OpensCase (changeSetId repositoryId : UUID) (op : CoordinatorOp) : Prop :=
  ∃ c, op = .ensureCase c ∧ c.changeSetId = changeSetId ∧ c.repositoryId = repositoryId

/-- **Convergence.** `reconcile_and_merge` opens no conflict case for the candidate of a
repository while the remote shows its pull request open and mergeable, with the candidate's head on
the target-branch commit that head was rebased on. -/
def Converges (rebasedOn : String → String) (changeSetId repositoryId : UUID)
    (st : ChangeSetStore) : Prop :=
  ∀ d number baseBranch (w : CoordinatorWorld), w.delivery = st →
    st.candidate? changeSetId repositoryId = some d → d.pullRequestNumber = some number →
    w.remote.Healthy repositoryId number d.commitSha (rebasedOn d.commitSha) →
    ∀ e ∈ (reconcileAndMerge changeSetId baseBranch).events coordinate w,
      ¬ OpensCase changeSetId repositoryId e.1

/-- The base of the candidate is the target-branch commit its head was rebased on. -/
def BaseOnTarget (rebasedOn : String → String) (changeSetId repositoryId : UUID)
    (st : ChangeSetStore) : Prop :=
  ∀ d, st.candidate? changeSetId repositoryId = some d → d.baseSha = rebasedOn d.commitSha

/-- The later base of the candidate is not the earlier of its heads. -/
def BaseNotEarlierHead (changeSetId repositoryId : UUID) (earlier later : ChangeSetStore) : Prop :=
  ∀ d d', earlier.candidate? changeSetId repositoryId = some d →
    later.candidate? changeSetId repositoryId = some d' → d.commitSha ≠ d'.commitSha →
    d'.baseSha ≠ d.commitSha

/-- The call is a `record_candidate_revision` of the candidate, and is accepted. -/
def AcceptedRevision (fingerprint : PrepareChangeSetCommand → String)
    (changeSetId repositoryId : UUID) (st : ChangeSetStore) (op : DeliveryOp) : Prop :=
  ∃ c st', op = .change (.recordCandidateRevision c) ∧ c.changeSetId = changeSetId ∧
    c.repositoryId = repositoryId ∧ DeliveryService.apply fingerprint op st = .ok st'

/-! ## Histories of the service -/

theorem revision_of_candidateOp {o : ChangeSetOp} {r : UUID} {c : CandidateOp}
    (hcall : o.candidateOp? = some (r, c)) (hc : IsRevision c) :
    ∃ command, o = .recordCandidateRevision command ∧ command.repositoryId = r := by
  cases o with
  | recordCandidateRevision command =>
    exact ⟨command, rfl, congrArg Prod.fst (Option.some.inj hcall)⟩
  | _ =>
    first
    | (obtain ⟨-, rfl⟩ := Prod.mk.inj (Option.some.inj hcall); exact hc.elim)
    | cases hcall

theorem candidate_of_revision {st st' : ChangeSetStore} {c : RecordCandidateRevisionCommand}
    (h : DeliveryService.apply fingerprint (.change (.recordCandidateRevision c)) st = .ok st') :
    ∃ d d', st.candidate? c.changeSetId c.repositoryId = some d ∧
      st'.candidate? c.changeSetId c.repositoryId = some d' ∧
      d.revise c.taskId c.previousHeadSha c.newHeadSha = .ok d' := by
  obtain ⟨⟨⟩, -, h⟩ := Fallible.bind_ok h
  obtain ⟨cs, hget, h⟩ := Fallible.bind_ok h
  obtain ⟨result, happly, h⟩ := Fallible.bind_ok h
  obtain ⟨cs', hwrite, hresult⟩ := Fallible.bind_ok happly
  obtain rfl := Except.ok.inj hresult
  obtain ⟨st'', hupdate, h⟩ := Fallible.bind_ok h
  rw [ChangeSetStore.update] at hupdate
  split at hupdate
  · cases hupdate
  split_ifs at hupdate
  obtain rfl := Except.ok.inj hupdate
  obtain rfl := Except.ok.inj h
  have hstored : st.get c.changeSetId = some cs := DeliveryService.required_ok hget
  obtain ⟨⟨d, d', hd, hrevise⟩, hsteps, -, hid, -⟩ := ChangeSet.recordCandidateRevision_ok hwrite
  refine ⟨d, d', ?_, ?_, hrevise⟩
  · rw [ChangeSetStore.candidate?, hstored]
    exact hd
  · have hread := candidate?_written (o := .recordCandidateRevision c) hstored hid c.changeSetId
      c.repositoryId
    obtain ⟨d'', hd'', hstep⟩ := candidate?_of_step hd hsteps
    have hrepo := (ChangeSet.candidate?_eq_some.mp hd).2
    have hsame := Except.ok.inj (hrevise.symm.trans (hstep.of_eq hrepo))
    rw [hsame, ← hd'']
    exact hread.trans (if_pos rfl)

theorem sameHead_attempt {st : ChangeSetStore} (hw : st.WellFormed) {id r : UUID}
    {d : RepositoryDelivery} (hd : st.candidate? id r = some d) {op : DeliveryOp}
    (hop : ¬ AcceptedRevision fingerprint id r st op) :
    ∃ d', (Runs.attempt (DeliveryService.apply fingerprint) st op).candidate? id r = some d' ∧
      SameHead d d' := by
  cases happly : DeliveryService.apply fingerprint op st with
  | error e =>
    rw [Runs.attempt_error happly]
    exact ⟨d, hd, rfl, rfl⟩
  | ok st' =>
    rw [Runs.attempt_ok happly]
    obtain ⟨d', hd', hchange⟩ := DeliveryService.candidate?_of_apply hw happly hd
    refine ⟨d', hd', ?_⟩
    rcases hchange with rfl | ⟨o, c, rfl, hid, hcall, hc⟩
    · exact ⟨rfl, rfl⟩
    · refine (apply_sameHead hc fun hrev => hop ?_).1
      obtain ⟨command, rfl, hr⟩ := revision_of_candidateOp hcall hrev
      exact ⟨command, st', rfl, hid, hr, happly⟩

theorem acceptedRevision_base {st : ChangeSetStore} {id r : UUID} {op : DeliveryOp} (hop : AcceptedRevision fingerprint id r st op) :
    ¬ BaseNotEarlierHead id r st (Runs.attempt (DeliveryService.apply fingerprint) st op) := by
  obtain ⟨c, st', rfl, rfl, rfl, happly⟩ := hop
  obtain ⟨d, d', hd, hd', hrevise⟩ := candidate_of_revision happly
  obtain ⟨hbase, hmoved⟩ := revise_base hrevise
  rw [Runs.attempt_ok happly]
  exact fun hnot => hnot d d' hd hd' hmoved.symm hbase

/-! ## The sweep -/

/-- The operation opens no case for the candidate, and neither revises it nor attaches a pull
request to it. -/
def Harmless (changeSetId repositoryId : UUID) : CoordinatorOp → Prop
  | .deliver o => ∀ c, o.changeSetId = changeSetId → o.candidateOp? = some (repositoryId, c) →
      ¬ IsRevision c ∧ ¬ IsPullRequest c
  | .ensureCase c => ¬ (c.changeSetId = changeSetId ∧ c.repositoryId = repositoryId)
  | _ => True

/-- The candidate is stored with this head, this base and this pull request, and the remote
answers as it did. -/
structure Steady (remote : Remote) (changeSetId repositoryId : UUID) (head base : String)
    (number : ℤ) (w : CoordinatorWorld) : Prop where
  remote_eq : w.remote = remote
  store : w.delivery.WellFormed
  candidate : ∃ d, w.delivery.candidate? changeSetId repositoryId = some d ∧ d.commitSha = head ∧
    d.baseSha = base ∧ d.pullRequestNumber = some number

theorem coordinate_delivery {op : CoordinatorOp} (hop : ∀ o, op ≠ .deliver o)
    (w : CoordinatorWorld) :
    (coordinate op w).2.delivery = w.delivery ∧ (coordinate op w).2.remote = w.remote := by
  cases op with
  | deliver o => exact absurd rfl (hop o)
  | setRepairTask caseId taskId =>
    simp only [coordinate]
    split <;> exact ⟨rfl, rfl⟩
  | enqueue command =>
    simp only [coordinate]
    split <;> exact ⟨rfl, rfl⟩
  | _ => exact ⟨rfl, rfl⟩

variable {remote : Remote} {id r : UUID} {head base : String} {number : ℤ}

/-- **Harmless operations keep the candidate steady.** -/
theorem steady_of_harmless (op : CoordinatorOp) {w : CoordinatorWorld} (hop : Harmless id r op)
    (hw : Steady remote id r head base number w) :
    Steady remote id r head base number (coordinate op w).2 := by
  obtain ⟨hremote, hstore, d, hd, hhead, hbase, hnumber⟩ := hw
  by_cases hdeliver : ∃ o, op = .deliver o
  · obtain ⟨o, rfl⟩ := hdeliver
    simp only [coordinate]
    split
    · rename_i st hst
      have happly : DeliveryService.apply (fun _ => "") (.change o) w.delivery = .ok st := hst
      have hwell : (Runs.attempt (DeliveryService.apply fun _ => "") w.delivery
          (.change o)).WellFormed := DeliveryService.wellFormed_step hstore (.change o)
      rw [Runs.attempt_ok happly] at hwell
      obtain ⟨d', hd', hchange⟩ := DeliveryService.candidate?_of_apply hstore happly hd
      refine ⟨hremote, hwell, d', hd', ?_⟩
      rcases hchange with rfl | ⟨o', c, ho, hid, hcall, hc⟩
      · exact ⟨hhead, hbase, hnumber⟩
      · obtain rfl := DeliveryOp.change.inj ho
        obtain ⟨hrev, hpr⟩ := hop c hid hcall
        obtain ⟨⟨hh, hb⟩, hn⟩ := apply_sameHead hc hrev
        exact ⟨hh.trans hhead, hb.trans hbase, (hn hpr).trans hnumber⟩
    · exact ⟨hremote, hstore, d, hd, hhead, hbase, hnumber⟩
  · obtain ⟨hdelivery, hsame⟩ := coordinate_delivery (fun o ho => hdeliver ⟨o, ho⟩) w
    refine ⟨hsame.trans hremote, by rw [hdelivery]; exact hstore, d, ?_, hhead, hbase, hnumber⟩
    rw [hdelivery]
    exact hd

/-- The rule for events: no case is opened for the candidate. -/
def OpensNoCase (changeSetId repositoryId : UUID) (op : CoordinatorOp) (_ : CoordinatorWorld) :
    Prop := ¬ OpensCase changeSetId repositoryId op

theorem along_of_harmless {α : Type} {p : Coordinated α} (hp : Prog.Only (Harmless id r) p)
    {w : CoordinatorWorld} (hw : Steady remote id r head base number w) :
    Prog.Along coordinate (OpensNoCase id r) (Steady remote id r head base number) p w := by
  refine hp.along (fun op w hop => ?_) (fun op w hop hs => steady_of_harmless op hop hs) hw
  rintro ⟨c, rfl, hid, hr⟩
  exact hop ⟨hid, hr⟩

theorem only_candidate_bind {α : Type} {P : CoordinatorOp → Prop} {repositoryId : UUID}
    {changeSet : ChangeSet} {f : RepositoryDelivery → Coordinated α}
    (hf : ∀ d, d.repositoryId = repositoryId → Prog.Only P (f d)) :
    Prog.Only P (Coordinated.candidate repositoryId changeSet >>= f) := by
  rw [Coordinated.candidate]
  split
  · rename_i d hd
    exact hf d (ChangeSet.candidate?_eq_some.mp hd).2
  · exact Prog.only_done _

theorem harmless_op {op : CoordinatorOp} (hop : Harmless id r op) :
    Prog.Only (Harmless id r) (Prog.perform op : Coordinated (CoordinatorAnswer op)) :=
  (Prog.only_perform op).mpr hop

theorem openDraftPullRequest_harmless {repositoryId : UUID} (hne : repositoryId ≠ r)
    (baseBranch : String) (draft : Bool) :
    Prog.Only (Harmless id r) (openDraftPullRequest id repositoryId baseBranch draft) := by
  refine Prog.only_bind (harmless_op trivial) fun changeSet => ?_
  refine only_candidate_bind fun candidate hcand => ?_
  refine Prog.only_bind (harmless_op trivial) fun repository => ?_
  refine Prog.only_bind (harmless_op trivial) fun protection => ?_
  refine Prog.only_bind (only_checkProtection _ _) fun _ => ?_
  refine Prog.only_bind (harmless_op trivial) fun observation => harmless_op ?_
  intro c _ hcall
  exact absurd (hcand.symm.trans (congrArg Prod.fst (Option.some.inj hcall))) hne

theorem completePublication_steady (baseBranch : String) (original : RepositoryDelivery)
    {w : CoordinatorWorld} (hw : Steady remote id r head base number w) :
    Prog.Along coordinate (OpensNoCase id r) (Steady remote id r head base number)
      (completePublication id baseBranch original) w := by
  have hother : original.repositoryId ≠ r →
      Prog.Only (Harmless id r) (completePublication id baseBranch original) := by
    intro hne
    refine Prog.only_bind (harmless_op trivial) fun current => ?_
    refine only_candidate_bind fun candidate hcand => ?_
    split_ifs
    · exact Prog.only_done _
    refine Prog.only_bind (harmless_op trivial) fun repository => ?_
    refine Prog.only_bind (harmless_op trivial) fun remoteHead => ?_
    split
    · exact Prog.only_done _
    split_ifs
    · exact Prog.only_done _
    · exact openDraftPullRequest_harmless (hcand.trans_ne hne) baseBranch true
  by_cases hr : original.repositoryId = r
  · refine Prog.along_perform_bind (by rintro ⟨c, hc, -⟩; cases hc) (fun current w' hget => ?_)
      (fun e w' hget => ?_)
    · obtain ⟨hstored, -⟩ := coordinate_get_ok hget
      obtain rfl : w = w' := congrArg Prod.snd hget
      refine along_candidate hw fun candidate hcand => ?_
      obtain ⟨d, hd, -, -, hnumber⟩ := hw.candidate
      rw [ChangeSetStore.candidate?, hstored] at hd
      obtain rfl : candidate = d := Option.some.inj (hcand.symm.trans (hr ▸ hd))
      rw [if_pos (Or.inl (by rw [hnumber]; rfl))]
      exact Prog.along_done hw
    · obtain rfl : w = w' := congrArg Prod.snd hget
      exact hw
  · exact along_of_harmless (hother hr) hw

theorem recordChecks_harmless (candidate : RepositoryDelivery) (current : ChangeSet)
    (checks : List CheckRunObservation) :
    Prog.Only (Harmless id r) (recordChecks id candidate current checks) := by
  refine only_forEach (fun current check _ => ?_) current
  split_ifs
  · exact Prog.only_done _
  · refine harmless_op fun c _ hcall => ?_
    obtain ⟨-, rfl⟩ := Prod.mk.inj (Option.some.inj hcall)
    exact ⟨fun h => h, fun h => h⟩

theorem recordReviews_harmless (candidate : RepositoryDelivery) (current : ChangeSet)
    (reviews : List PullRequestReviewObservation) :
    Prog.Only (Harmless id r) (recordReviews id candidate current reviews) := by
  refine only_forEach (fun _ review _ => ?_) current
  refine harmless_op fun c _ hcall => ?_
  obtain ⟨-, rfl⟩ := Prod.mk.inj (Option.some.inj hcall)
  exact ⟨fun h => h, fun h => h⟩

theorem closeStaleCase_harmless (candidate : RepositoryDelivery) :
    Prog.Only (Harmless id r) (closeStaleCase id candidate) := by
  refine Prog.only_bind (harmless_op trivial) fun active => ?_
  split
  · split_ifs
    · exact harmless_op trivial
    · exact Prog.only_done _
  · exact Prog.only_done _

theorem mergeWhenAllowed_harmless (repositoryId : UUID) :
    Prog.Only (Harmless id r) (mergeWhenAllowed id repositoryId) := by
  refine Prog.only_bind (harmless_op trivial) fun gate => ?_
  split_ifs
  · exact Prog.only_done _
  refine Prog.only_bind (harmless_op trivial) fun changeSet => ?_
  refine only_candidate_bind fun candidate _ => ?_
  split
  · exact Prog.only_done _
  refine Prog.only_bind (harmless_op trivial) fun _ => ?_
  refine Prog.only_bind ?_ fun observation => ?_
  · refine Prog.only_bind (harmless_op trivial) fun repository => ?_
    refine Prog.only_bind (harmless_op trivial) fun observation => ?_
    refine Prog.only_bind (harmless_op trivial) fun changeSet => ?_
    refine only_candidate_bind fun candidate _ => ?_
    split_ifs
    · exact Prog.only_done _
    · exact Prog.only_done _
  · split_ifs
    · exact Prog.only_done _
    · exact Prog.only_done _
    · exact Prog.only_done _
    · exact Prog.only_bind (harmless_op trivial) fun _ => Prog.only_done _

theorem settleCandidate_harmless (repositoryId : UUID) (pullRequest : PullRequestObservation)
    (current : ChangeSet) :
    Prog.Only (Harmless id r) (settleCandidate id repositoryId pullRequest current) := by
  refine only_candidate_bind fun candidate _ => ?_
  split_ifs
  · split
    · exact Prog.only_done _
    · refine Prog.only_bind (harmless_op trivial) fun gate => ?_
      split_ifs
      · exact Prog.only_done _
      · refine harmless_op fun c _ hcall => ?_
        obtain ⟨-, rfl⟩ := Prod.mk.inj (Option.some.inj hcall)
        exact ⟨fun h => h, fun h => h⟩
  · exact Prog.only_done _
  · exact Prog.only_done _
  · refine Prog.only_bind (harmless_op trivial) fun gate => ?_
    split_ifs
    · exact mergeWhenAllowed_harmless candidate.repositoryId
    · exact Prog.only_done _

theorem evidence_harmless (candidate : RepositoryDelivery) (current : ChangeSet)
    (repository : RepositoryRef) (number : ℤ) (pullRequest : PullRequestObservation) :
    Prog.Only (Harmless id r) (do
      let checks ← Coordinated.listCheckRuns repository candidate.commitSha
      let current ← recordChecks id candidate current checks
      let reviews ← Coordinated.listPullRequestReviews repository number
      let current ← recordReviews id candidate current reviews
      settleCandidate id candidate.repositoryId pullRequest current) := by
  refine Prog.only_bind (harmless_op trivial) fun checks => ?_
  refine Prog.only_bind (recordChecks_harmless candidate current checks) fun current => ?_
  refine Prog.only_bind (harmless_op trivial) fun reviews => ?_
  refine Prog.only_bind (recordReviews_harmless candidate current reviews) fun current => ?_
  exact settleCandidate_harmless candidate.repositoryId pullRequest current

theorem reconcileCandidate_harmless {repositoryId : UUID} (hne : repositoryId ≠ r) :
    Prog.Only (Harmless id r) (reconcileCandidate id repositoryId) := by
  refine Prog.only_bind (harmless_op trivial) fun current => ?_
  refine only_candidate_bind fun candidate hcand => ?_
  split
  · exact Prog.only_done _
  split_ifs
  · exact Prog.only_done _
  refine Prog.only_bind (harmless_op trivial) fun repository => ?_
  refine Prog.only_bind (harmless_op trivial) fun pullRequest => ?_
  split_ifs
  · exact Prog.only_done _
  refine Prog.only_bind (closeStaleCase_harmless candidate) fun _ => ?_
  split
  · refine Prog.only_bind ?_ fun _ => Prog.only_done _
    refine Prog.only_bind (harmless_op ?_) fun case => ?_
    · rintro ⟨-, hr⟩
      exact hne (hcand.symm.trans hr)
    split_ifs
    · refine Prog.only_tryCatch ?_ fun error => ?_
      · exact Prog.only_bind (harmless_op trivial) fun _ => harmless_op trivial
      · split <;> exact Prog.only_done _
    · exact Prog.only_done _
  · exact evidence_harmless candidate current repository _ pullRequest

theorem conflictOf_eq_none {pullRequest : PullRequestObservation} {candidate : RepositoryDelivery}
    (hmergeable : pullRequest.mergeable = some true)
    (hbase : pullRequest.baseSha = candidate.baseSha) : conflictOf pullRequest candidate = none := by
  rw [conflictOf, hmergeable, hbase]
  simp

theorem reconcileCandidate_steady (repositoryId : UUID)
    (hhealthy : remote.Healthy r number head base) {w : CoordinatorWorld}
    (hw : Steady remote id r head base number w) :
    Prog.Along coordinate (OpensNoCase id r) (Steady remote id r head base number)
      (reconcileCandidate id repositoryId) w := by
  by_cases hr : repositoryId = r
  swap
  · exact along_of_harmless (reconcileCandidate_harmless hr) hw
  subst hr
  have hread : ∀ {op : CoordinatorOp}, (∀ c, op ≠ .ensureCase c) →
      ∀ w, OpensNoCase id repositoryId op w := by
    rintro op hop w ⟨c, hc, -⟩
    exact hop c hc
  refine Prog.along_perform_bind (hread (by simp) w) (fun current w' hget => ?_)
    (fun e w' hget => ?_)
  swap
  · obtain rfl : w = w' := congrArg Prod.snd hget
    exact hw
  obtain ⟨hstored, -⟩ := coordinate_get_ok hget
  obtain rfl : w = w' := congrArg Prod.snd hget
  refine along_candidate hw fun candidate hcand => ?_
  obtain ⟨d, hd, hhead, hbase, hnumber⟩ := hw.candidate
  rw [ChangeSetStore.candidate?, hstored] at hd
  obtain rfl : candidate = d := Option.some.inj (hcand.symm.trans hd)
  have hrepo : candidate.repositoryId = repositoryId :=
    (ChangeSet.candidate?_eq_some.mp hcand).2
  simp only [hnumber]
  split_ifs with hmerged
  · exact Prog.along_done hw
  refine Prog.along_perform_bind (hread (by simp) w) (fun repository w₁ href => ?_)
    (fun e w₁ href => ?_)
  swap
  · have hsteady := steady_of_harmless (.repositoryRef candidate.repositoryId) trivial hw
    rw [href] at hsteady
    exact hsteady
  have hw₁ := steady_of_harmless (.repositoryRef candidate.repositoryId) trivial hw
  rw [href] at hw₁
  have hanswer : remote.repositoryRef w.reads repositoryId = .ok repository := by
    rw [← hrepo, ← hw.remote_eq]
    exact congrArg Prod.fst href
  refine Prog.along_perform_bind (hread (by simp) w₁) (fun pullRequest w₂ hpr => ?_)
    (fun e w₂ hpr => ?_)
  swap
  · have hsteady := steady_of_harmless (.getPullRequest repository number) trivial hw₁
    rw [hpr] at hsteady
    exact hsteady
  have hw₂ := steady_of_harmless (.getPullRequest repository number) trivial hw₁
  rw [hpr] at hw₂
  have hshown : remote.getPullRequest w₁.reads repository number = .ok pullRequest := by
    rw [← hw₁.remote_eq]
    exact congrArg Prod.fst hpr
  obtain ⟨-, hmergeable, -, hprBase⟩ := hhealthy _ _ hanswer _ _ hshown
  split_ifs with hstale
  · exact Prog.along_done hw₂
  refine Prog.along_bind (along_of_harmless (closeStaleCase_harmless candidate) hw₂) ?_
  intro _ w₃ hw₃
  rw [conflictOf_eq_none hmergeable (hprBase.trans hbase.symm)]
  exact along_of_harmless (evidence_harmless candidate current repository number pullRequest) hw₃

theorem undraftWhenAllowed_harmless : Prog.Only (Harmless id r) (undraftWhenAllowed id) := by
  refine Prog.only_bind (harmless_op trivial) fun changeSet => ?_
  refine Prog.only_bind (only_forEach (fun _ candidate _ => ?_) ()) fun _ => Prog.only_done _
  rw [undraftCandidate]
  split_ifs
  · split
    · exact Prog.only_done _
    · obtain ⟨result, hresult, -⟩ := dependenciesMerged_eq changeSet candidate.dependsOn
      refine Prog.only_bind (by rw [hresult]; exact Prog.only_done _) fun merged => ?_
      split_ifs
      · exact Prog.only_bind (harmless_op trivial) fun _ => Prog.only_done _
      · exact Prog.only_done _
  · exact Prog.only_done _

/-- **A sweep over a healthy pull request** on the candidate's own base opens no case for it. -/
theorem reconcileAndMerge_steady (baseBranch : String)
    (hhealthy : remote.Healthy r number head base) {w : CoordinatorWorld}
    (hw : Steady remote id r head base number w) :
    Prog.Along coordinate (OpensNoCase id r) (Steady remote id r head base number)
      (reconcileAndMerge id baseBranch) w := by
  have hpublish : Prog.Along coordinate (OpensNoCase id r) (Steady remote id r head base number)
      (completePendingPublications id baseBranch) w := by
    have hget : Prog.Only (Harmless id r) (Coordinated.get id) := harmless_op trivial
    refine Prog.along_bind (along_of_harmless hget hw) fun current w₁ hw₁ => ?_
    exact along_forEach (fun _ original _ w₂ hw₂ =>
      completePublication_steady baseBranch original hw₂) current hw₁
  refine Prog.along_bind hpublish fun current w₁ hw₁ => ?_
  refine Prog.along_bind (along_forEach (fun _ original _ w₂ hw₂ =>
    reconcileCandidate_steady original.repositoryId hhealthy hw₂) current hw₁) ?_
  intro current w₂ hw₂
  refine Prog.along_bind (along_of_harmless undraftWhenAllowed_harmless hw₂) ?_
  exact fun _ _ hw₃ => Prog.along_done hw₃

theorem converges_of_baseOnTarget {rebasedOn : String → String} {st : ChangeSetStore}
    (hst : st.WellFormed) (hbase : BaseOnTarget rebasedOn id r st) :
    Converges rebasedOn id r st := by
  intro d number baseBranch w hdelivery hd hnumber hhealthy e he
  rw [← hbase d hd] at hhealthy
  have hsteady : Steady w.remote id r d.commitSha d.baseSha number w :=
    ⟨rfl, by rw [hdelivery]; exact hst, d, by rw [hdelivery]; exact hd, rfl, rfl, hnumber⟩
  exact (Prog.along_iff.mp (reconcileAndMerge_steady baseBranch hhealthy hsteady)).1 e he

/-! ## Whole histories -/

/-- **When repairs converge.** From the moment a candidate is recorded, on the target-branch commit
its head was based on, the base stays such a commit, never becomes one of the candidate's earlier
heads, and no sweep over a healthy pull request opens a case for it, exactly when no revision of
the candidate is accepted. -/
theorem base_kept_iff_not_revised (fingerprint : PrepareChangeSetCommand → String)
    (before : List DeliveryOp) (op : DeliveryOp) (after : List DeliveryOp) (id r : UUID)
    (d : RepositoryDelivery) (target : String → String) :
    let next := Runs.attempt (DeliveryService.apply fingerprint)
    let created := next (before.foldl next {}) op
    let rebasedOn := Function.update target d.commitSha d.baseSha
    (before.foldl next {}).candidate? id r = none → created.candidate? id r = some d →
    (((∀ st ∈ Runs.states next created after,
        Converges rebasedOn id r st ∧ BaseOnTarget rebasedOn id r st) ∧
      (Runs.states next created after).Pairwise (BaseNotEarlierHead id r)) ↔
    ∀ p ∈ Runs.steps next created after, ¬ AcceptedRevision fingerprint id r p.1 p.2) := by
  intro next created rebasedOn _ hd
  have hstep : ∀ (st : ChangeSetStore) (op : DeliveryOp), st.WellFormed →
      (next st op).WellFormed := fun _ op hst => DeliveryService.wellFormed_step hst op
  have hcreated : created.WellFormed := by
    have hall := Runs.states_invariant hstep ChangeSetStore.wellFormed_empty (before ++ [op])
    refine hall created ?_
    have hend : (before ++ [op]).foldl next {} ∈ Runs.states next {} (before ++ [op]) :=
      Runs.foldl_mem_states _ _
    rwa [List.foldl_append] at hend
  constructor
  · rintro ⟨-, hpairs⟩ p hp hrevision
    exact acceptedRevision_base hrevision (Runs.rel_of_mem_steps hpairs hp)
  · intro hkept
    let Kept : ChangeSetStore → Prop := fun st =>
      st.WellFormed ∧ ∃ d', st.candidate? id r = some d' ∧ SameHead d d'
    have hkeep : ∀ st op, Kept st → ¬ AcceptedRevision fingerprint id r st op →
        Kept (next st op) := by
      rintro st op ⟨hst, d', hd', hsame⟩ hop
      obtain ⟨d'', hd'', hsame'⟩ := sameHead_attempt hst hd' hop
      exact ⟨hstep st op hst, d'', hd'', hsame'.1.trans hsame.1, hsame'.2.trans hsame.2⟩
    have hinv : ∀ st ∈ Runs.states next created after, Kept st :=
      Runs.states_guarded hkeep ⟨hcreated, d, hd, rfl, rfl⟩ after hkept
    have hbase : ∀ st ∈ Runs.states next created after, BaseOnTarget rebasedOn id r st := by
      intro st hst d'' hd''
      obtain ⟨-, d', hd', hhead, hb⟩ := hinv st hst
      obtain rfl := Option.some.inj (hd'.symm.trans hd'')
      rw [hhead, hb]
      exact (Function.update_self (f := target) d.commitSha d.baseSha).symm
    refine ⟨fun st hst => ⟨converges_of_baseOnTarget (hinv st hst).1 (hbase st hst),
      hbase st hst⟩, ?_⟩
    refine List.pairwise_of_forall_mem_list fun a ha b hb d₁ d₂ hd₁ hd₂ hne => ?_
    obtain ⟨-, d', hd', hhead, -⟩ := hinv a ha
    obtain ⟨-, d'', hd'', hhead', -⟩ := hinv b hb
    obtain rfl := Option.some.inj (hd'.symm.trans hd₁)
    obtain rfl := Option.some.inj (hd''.symm.trans hd₂)
    exact absurd (hhead.trans hhead'.symm) hne

/-- The sample candidate is recorded by the call that prepares it. -/
def preparedCandidate : {st : ChangeSetStore //
    st = Runs.attempt (DeliveryService.apply fun _ => "") {} (.prepare samplePrepare "key") ∧
      st.candidate? 0 10 = some sampleCandidate} :=
  ⟨_, rfl, by decide +kernel⟩

theorem candidate?_prepared :
    (Runs.attempt (DeliveryService.apply fun _ => "") {} (.prepare samplePrepare "key")).candidate?
      0 10 = some sampleCandidate := by
  have prepared := preparedCandidate
  obtain ⟨st, hst, hd⟩ := prepared
  rw [hst] at hd
  exact hd

/-- Its hypotheses are satisfiable: the sample candidate, recorded by the first call of all, and
its pull request attached. -/
theorem base_kept_iff_not_revised_sample :
    let next := Runs.attempt (DeliveryService.apply fun _ => "")
    let created := next {} (.prepare samplePrepare "key")
    let after : List DeliveryOp := [.change (.observePullRequest
      ⟨0, 10, 1, "https://scm/pull/1", "aaaaaaaaaaaaaaaaaaaaaaaaaaaaaaaaaaaaaaaa"⟩)]
    let rebasedOn := Function.update (fun _ => "") sampleCandidate.commitSha
      sampleCandidate.baseSha
    ((∀ st ∈ Runs.states next created after,
        Converges rebasedOn 0 10 st ∧ BaseOnTarget rebasedOn 0 10 st) ∧
      (Runs.states next created after).Pairwise (BaseNotEarlierHead 0 10)) ↔
    ∀ p ∈ Runs.steps next created after, ¬ AcceptedRevision (fun _ => "") 0 10 p.1 p.2 :=
  base_kept_iff_not_revised (fun _ => "") [] (.prepare samplePrepare "key")
    [.change (.observePullRequest
      ⟨0, 10, 1, "https://scm/pull/1", "aaaaaaaaaaaaaaaaaaaaaaaaaaaaaaaaaaaaaaaa"⟩)] 0 10
    sampleCandidate (fun _ => "") rfl candidate?_prepared

/-! ## A rebased candidate -/

/-- The sample candidate after its pull request and one revision. -/
def rebasedStore : ChangeSetStore :=
  [DeliveryOp.prepare samplePrepare "key",
    .change (.observePullRequest
      ⟨0, 10, 1, "https://scm/pull/1", "aaaaaaaaaaaaaaaaaaaaaaaaaaaaaaaaaaaaaaaa"⟩),
    .change (.recordCandidateRevision
      { changeSetId := 0
        repositoryId := 10
        taskId := 21
        previousHeadSha := "aaaaaaaaaaaaaaaaaaaaaaaaaaaaaaaaaaaaaaaa"
        newHeadSha := "cccccccccccccccccccccccccccccccccccccccc"
        reason := "base drift" })].foldl (Runs.attempt (DeliveryService.apply fun _ => "")) {}

/-- The target-branch commits: the first head was based on the `b`s, the second rebased on the
`d`s. -/
def rebasedOn (head : String) : String :=
  if head = "aaaaaaaaaaaaaaaaaaaaaaaaaaaaaaaaaaaaaaaa" then
    "bbbbbbbbbbbbbbbbbbbbbbbbbbbbbbbbbbbbbbbb"
  else "dddddddddddddddddddddddddddddddddddddddd"

/-- The remote shows the rebased head on the target-branch commit it was rebased on. -/
def rebasedRemote : Remote :=
  let repository : RepositoryRef := ⟨"owner", "name"⟩
  { repositoryRef := fun _ _ => .ok repository
    getPullRequest := fun _ _ _ => .ok
      { repository := repository
        number := 1
        url := "https://scm/pull/1"
        state := .opened
        draft := true
        headBranch := "feature"
        headSha := "cccccccccccccccccccccccccccccccccccccccc"
        baseBranch := "main"
        baseSha := "dddddddddddddddddddddddddddddddddddddddd"
        mergeable := some true }
    listCheckRuns := fun _ _ _ => .ok []
    listPullRequestReviews := fun _ _ _ => .ok []
    getBranchHead := fun _ _ _ => .ok none
    getBranchProtection := fun _ _ _ => .error (.provider "not found")
    createDraftPullRequest := fun _ _ => .error (.provider "not found")
    createRepairTask := fun _ _ _ _ => .ok 30 }

/-- What is recorded of it. -/
def rebasedCandidate : {d : Option RepositoryDelivery //
    d.map (fun d => (d.commitSha, d.pullRequestNumber)) =
      some ("cccccccccccccccccccccccccccccccccccccccc", some 1)} :=
  ⟨rebasedStore.candidate? 0 10, by decide +kernel⟩

/-- The reconciliation of it: a conflict case is opened. -/
def rebasedEvents : {events : List (CoordinatorOp × CoordinatorWorld) //
    events.any (fun e => match e.1 with
      | .ensureCase c => c.changeSetId == 0 && c.repositoryId == 10
      | _ => false) = true} :=
  ⟨(reconcileAndMerge 0 "main").events coordinate
    { delivery := rebasedStore, remote := rebasedRemote }, by decide +kernel⟩

/-- A repaired candidate does not converge: rebased on the moved target branch and shown healthy
there, it is given a conflict case again. -/
theorem rebased_candidate_drifts : ¬ Converges rebasedOn 0 10 rebasedStore := by
  intro hconverges
  have hfacts : (rebasedStore.candidate? 0 10).map (fun d => (d.commitSha, d.pullRequestNumber)) =
      some ("cccccccccccccccccccccccccccccccccccccccc", some 1) := rebasedCandidate.2
  obtain ⟨d, hd, hfields⟩ := Option.map_eq_some_iff.mp hfacts
  obtain ⟨hhead, hnumber⟩ := Prod.mk.inj hfields
  have hhealthy : rebasedRemote.Healthy 10 1 d.commitSha (rebasedOn d.commitSha) := by
    rw [hhead]
    intro k repository _ k' pullRequest hshown
    rw [← Except.ok.inj hshown]
    decide +kernel
  have hopened : ((reconcileAndMerge 0 "main").events coordinate
      { delivery := rebasedStore, remote := rebasedRemote }).any (fun e => match e.1 with
        | .ensureCase c => c.changeSetId == 0 && c.repositoryId == 10
        | _ => false) = true := rebasedEvents.2
  have hevents : ∀ w : CoordinatorWorld, w.delivery = rebasedStore → w.remote = rebasedRemote →
      ∀ e ∈ (reconcileAndMerge 0 "main").events coordinate w, ¬ OpensCase 0 10 e.1 := by
    intro w hdelivery hremote
    exact hconverges d 1 "main" w hdelivery hd hnumber (hremote ▸ hhealthy)
  replace hevents := hevents { delivery := rebasedStore, remote := rebasedRemote } rfl rfl
  generalize (reconcileAndMerge 0 "main").events coordinate
    { delivery := rebasedStore, remote := rebasedRemote } = events at hevents hopened
  obtain ⟨e, he, hcase⟩ := List.any_eq_true.mp hopened
  refine hevents e he ?_
  split at hcase
  · rename_i c hc
    rw [Bool.and_eq_true, beq_iff_eq, beq_iff_eq] at hcase
    exact ⟨c, hc, hcase.1, hcase.2⟩
  · cases hcase

end Scm
end RepoMesh
