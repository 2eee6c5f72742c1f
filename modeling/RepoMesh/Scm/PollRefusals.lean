/-
# Refused polls

When a poll of a pull request is refused as another fact under its own identity: the inbox as the
set of facts the polls have recorded, one fact at a time, one poll at a time, along a run.
-/
import RepoMesh.Scm.PollIdentities

namespace RepoMesh
namespace Scm

open Text Fallible Delivery

/-! ## Recording -/

/-- The fact is in the inbox, with its payload. -/
def InInbox (p : PolledCandidate) (fact : Fact) (st : SCMObservationStore) : Prop :=
  ∃ o ∈ st.items, o.identity = p.identity fact ∧ o.payloadHash = fact.payloadHash

variable {p : PolledCandidate} {K : List Fact} {st st' : SCMObservationStore}

theorem InInbox.of_sameFacts {fact : Fact} (h : InInbox p fact st) (hsame : SameFacts st st') :
    InInbox p fact st' := by
  obtain ⟨o, ho, hidentity, hhash⟩ := h
  obtain ⟨o', ho', heq⟩ := hsame.symm.exists_mem ho
  refine ⟨o', ho', ?_, ?_⟩
  · exact (congrArg StoredFact.identity heq).trans hidentity
  · exact (congrArg StoredFact.payloadHash heq).trans hhash

theorem record_keeps (hw : InboxWF st) {c : RecordSCMObservationCommand} {now : Instant}
    {o : SCMObservation} {created : Bool}
    (h : SCMObservationService.record st c now = .ok ((o, created), st')) :
    InboxWF st' ∧ (∀ x ∈ st.items, x ∈ st'.items) ∧ o ∈ st'.items ∧
      (∀ x ∈ st'.items, x ∈ st.items ∨ x = o) ∧ o.identity = SCMObservationService.identityOf c ∧
      (created = true → st'.get o.id = some o ∧ o.status = .pending ∧ o.attempts = 0) := by
  rcases SCMObservationService.record_ok h with ⟨rfl, rfl, hfound, -⟩ |
    ⟨rfl, hnone, hcreate, hitems, hnext⟩
  · obtain ⟨hmem, hkey⟩ := Keyed.mem_of_find hfound
    exact ⟨hw, fun _ hx => hx, hmem, fun _ hx => Or.inl hx, hkey, fun hc => by cases hc⟩
  · obtain ⟨hid, hidentity, -, -, -, -, hstatus⟩ := SCMObservation.create_ok hcreate
    have hattempts : o.attempts = 0 := by
      unfold SCMObservation.create at hcreate
      dsimp only at hcreate
      split_ifs at hcreate
      rw [← Except.ok.inj hcreate]
    have hfresh : ∀ x ∈ st.items, x.id ≠ o.id := by
      intro x hx
      have hlt := hw.ids_bound x hx
      rw [hid]
      exact Nat.ne_of_lt hlt
    have hnew : ∀ x ∈ st.items, x.identity ≠ o.identity := by
      rw [hidentity]
      exact Keyed.find_eq_none.mp hnone
    have hwf : InboxWF st' := by
      refine ⟨?_, ?_, ?_⟩
      · rw [hitems]
        exact Keyed.nodup_append hw.ids_nodup hfresh
      · intro x hx
        rw [hitems] at hx
        rw [hnext]
        rcases List.mem_append.mp hx with hx | hx
        · exact Nat.lt_succ_of_lt (hw.ids_bound x hx)
        · rw [List.mem_singleton.mp hx, hid]
          exact Nat.lt_succ_self _
      · rw [hitems]
        exact Keyed.nodup_append hw.identities_nodup hnew
    have hmem : o ∈ st'.items := hitems ▸ List.mem_append_right _ (List.mem_singleton_self o)
    refine ⟨hwf, fun x hx => hitems ▸ List.mem_append_left _ hx, hmem, ?_, hidentity, fun _ => ?_⟩
    · intro x hx
      rw [hitems] at hx
      rcases List.mem_append.mp hx with hx | hx
      · exact Or.inl hx
      · exact Or.inr (List.mem_singleton.mp hx)
    · exact ⟨(Keyed.find_eq_some hwf.ids_nodup).mpr ⟨hmem, rfl⟩, hstatus, hattempts⟩

/-- The inbox of a polled candidate: well formed, and every observation a poller recorded is one
of the facts. -/
structure PollInv (p : PolledCandidate) (K : List Fact) (st : SCMObservationStore) : Prop where
  wf : InboxWF st
  known : ∀ o ∈ st.items, o.identity.2.1 = .poller → ∃ fact ∈ K, o.identity = p.identity fact ∧
    o.payloadHash = fact.payloadHash ∧ o.eventType = fact.eventType ∧
    o.changeSetId = some p.changeSetId ∧ o.repositoryId = some p.repositoryId

theorem PollInv.of_sameFacts (h : PollInv p K st) (hsame : SameFacts st st') : PollInv p K st' := by
  refine ⟨hsame.wf h.wf, fun o ho hsource => ?_⟩
  obtain ⟨o', ho', heq⟩ := hsame.exists_mem ho
  have hidentity : o'.identity = o.identity := congrArg StoredFact.identity heq
  obtain ⟨fact, hfact, hi, hh, ht, hc, hr⟩ := h.known o' ho' (hidentity ▸ hsource)
  refine ⟨fact, hfact, hidentity ▸ hi, ?_, ?_, ?_, ?_⟩
  · exact (congrArg StoredFact.payloadHash heq).symm.trans hh
  · exact (congrArg StoredFact.eventType heq).symm.trans ht
  · exact (congrArg StoredFact.changeSetId heq).symm.trans hc
  · exact (congrArg StoredFact.repositoryId heq).symm.trans hr

theorem payloadHash_digest (fact : Fact) :
    normalize fact.payloadHash = fact.payloadHash ∧ isSha256Digest fact.payloadHash = true := by
  obtain ⟨hlength, hhex⟩ := Sha256.hexdigest_digits (fact.payload.dumps.map Char.toNat)
  have hnormal : normalize fact.payloadHash = fact.payloadHash := normalize_eq_self hhex
  refine ⟨hnormal, ?_⟩
  rw [isSha256Digest, hnormal, Bool.and_eq_true]
  exact ⟨by rw [Fact.payloadHash, hlength]; rfl, List.all_eq_true.mpr hhex⟩

/-- **Recording a known fact.** When the facts agree, it is accepted, and afterwards in the
inbox. -/
theorem record_known (hagree : FactsAgree K) (hi : PollInv p K st) {fact : Fact}
    (hfact : fact ∈ K) (hplain : fact.Plain) (now : Instant) :
    ∃ o created st', SCMObservationService.record st (p.command fact now) now =
      .ok ((o, created), st') ∧ PollInv p K st' ∧ InInbox p fact st' := by
  obtain ⟨hlookup, hblank⟩ := identityOf_command p hplain now
  obtain ⟨hnormal, hdigest⟩ := payloadHash_digest fact
  have hhash : normalize (p.command fact now).payloadHash = fact.payloadHash := hnormal
  have htype : normalize (p.command fact now).eventType = fact.eventType := hplain.2.1
  cases hfound : st.getByIdentity (SCMObservationService.identityOf (p.command fact now)) with
  | some existing =>
    obtain ⟨hmem, hkey⟩ := Keyed.mem_of_find hfound
    rw [hlookup] at hkey
    obtain ⟨fact', hfact', hidentity, hh, ht, hc, hr⟩ := hi.known existing hmem (by rw [hkey]; rfl)
    have hexternal : fact'.externalId = fact.externalId :=
      (identity_inj p).mp (hidentity.symm.trans hkey)
    obtain ⟨hpayload, hevent⟩ := hagree fact' hfact' fact hfact hexternal
    have hvalid : SCMObservationService.validateDuplicate existing (p.command fact now) =
        .ok () := by
      rw [SCMObservationService.validateDuplicate, if_pos]
      exact ⟨(hh.trans hpayload).trans hhash.symm, (ht.trans hevent).trans htype.symm, hc, hr⟩
    refine ⟨existing, false, st, ?_, hi, existing, hmem, hkey, hh.trans hpayload⟩
    rw [SCMObservationService.record, hfound]
    simp only [hvalid, ok_bind]
  | none =>
    obtain ⟨o, hcreate⟩ : ∃ o, SCMObservation.create (p.command fact now) st.nextId now = .ok o := by
      have hprovider : isBlank (normalize (p.command fact now).provider) = false := by
        show isBlank (normalize "github") = false
        decide
      have hevent : isBlank (normalize (p.command fact now).eventType) = false := by
        rw [htype]
        exact hplain.2.2
      have hsha : isSha256Digest (normalize (p.command fact now).payloadHash) = true := by
        rw [hhash]
        exact hdigest
      unfold SCMObservation.create
      dsimp only
      rw [dif_pos ⟨hprovider, hblank, hevent⟩, dif_pos hsha]
      exact ⟨_, rfl⟩
    obtain ⟨-, hidentity, hoHash, hoType, hoChangeSet, hoRepository, -⟩ :=
      SCMObservation.create_ok hcreate
    have hadd : st.add o = .ok { st with items := st.items ++ [o] } := by
      rw [SCMObservationStore.add, hidentity, hfound]
    have hrecord : SCMObservationService.record st (p.command fact now) now =
        .ok ((o, true), { st with items := st.items ++ [o], nextId := st.nextId + 1 }) := by
      rw [SCMObservationService.record, hfound]
      simp only [hcreate, hadd, ok_bind]
    obtain ⟨hwf, -, hmem, hold, -, -⟩ := record_keeps hi.wf hrecord
    have hkey : o.identity = p.identity fact := hidentity.trans hlookup
    refine ⟨o, true, _, hrecord, ⟨hwf, fun x hx hsource => ?_⟩, o, hmem, hkey,
      hoHash.trans hhash⟩
    rcases hold x hx with hx | rfl
    · exact hi.known x hx hsource
    · exact ⟨fact, hfact, hkey, hoHash.trans hhash, hoType.trans htype, hoChangeSet, hoRepository⟩

/-! ## Polls -/

theorem recordFacts_keeps (policy : ObservationPolicy) (p : PolledCandidate)
    (outcome : SCMObservation → Option String) (now : Instant) (facts : List Fact)
    (hw : InboxWF st) :
    InboxWF (recordFacts policy p outcome now facts st).2 ∧
      ∀ fact, InInbox p fact st → InInbox p fact (recordFacts policy p outcome now facts st).2 := by
  induction facts generalizing st with
  | nil => exact ⟨hw, fun _ h => h⟩
  | cons fact facts ih =>
    unfold recordFacts
    cases hrecord : SCMObservationService.record st (p.command fact now) now with
    | error e => exact ⟨hw, fun _ h => h⟩
    | ok r =>
      obtain ⟨⟨o, created⟩, st'⟩ := r
      obtain ⟨hwf, hkept, -⟩ := record_keeps hw hrecord
      have hin : ∀ fact, InInbox p fact st → InInbox p fact st' := by
        rintro fact ⟨x, hx, hxp⟩
        exact ⟨x, hkept x hx, hxp⟩
      cases created with
      | false =>
        obtain ⟨hwf', hin'⟩ := ih hwf
        exact ⟨hwf', fun fact h => hin' fact (hin fact h)⟩
      | true =>
        have hsame := sameFacts_process policy outcome hwf o.id now
        dsimp only
        rw [if_pos rfl]
        obtain ⟨error, st'', hprocess⟩ :
            ∃ error st'', process policy outcome st' o.id now = (error, st'') := ⟨_, _, rfl⟩
        rw [hprocess] at hsame ⊢
        cases error with
        | some error => exact ⟨hsame.wf hwf, fun fact h => (hin fact h).of_sameFacts hsame⟩
        | none =>
          obtain ⟨hwf', hin'⟩ := ih (hsame.wf hwf)
          exact ⟨hwf', fun fact h => hin' fact ((hin fact h).of_sameFacts hsame)⟩

/-- **A poll among agreeing facts.** No fact is refused, and when no processing raises every fact
is in the inbox afterwards. -/
theorem recordFacts_agree (policy : ObservationPolicy) (hagree : FactsAgree K)
    (outcome : SCMObservation → Option String) (now : Instant) {facts : List Fact}
    (hfacts : ∀ fact ∈ facts, fact ∈ K ∧ fact.Plain) (hi : PollInv p K st) :
    PollInv p K (recordFacts policy p outcome now facts st).2 ∧
      (∀ e, (recordFacts policy p outcome now facts st).1 ≠ .refused e) ∧
      ((recordFacts policy p outcome now facts st).1 = .finished →
        ∀ fact ∈ facts, InInbox p fact (recordFacts policy p outcome now facts st).2) := by
  induction facts generalizing st with
  | nil => exact ⟨hi, (fun e h => by cases h), fun _ fact hfact => by cases hfact⟩
  | cons fact facts ih =>
    obtain ⟨hfact, hplain⟩ := hfacts fact (List.mem_cons_self ..)
    have hrest : ∀ fact ∈ facts, fact ∈ K ∧ fact.Plain :=
      fun fact h => hfacts fact (List.mem_cons_of_mem _ h)
    obtain ⟨o, created, st', hrecord, hi', hin⟩ := record_known hagree hi hfact hplain now
    have hgo : ∀ {st'' : SCMObservationStore}, PollInv p K st'' → InInbox p fact st'' →
        PollInv p K (recordFacts policy p outcome now facts st'').2 ∧
        (∀ e, (recordFacts policy p outcome now facts st'').1 ≠ .refused e) ∧
        ((recordFacts policy p outcome now facts st'').1 = .finished →
          ∀ f ∈ fact :: facts, InInbox p f (recordFacts policy p outcome now facts st'').2) := by
      intro st'' hi'' hin''
      obtain ⟨hinv, hrefused, hall⟩ := ih hrest hi''
      refine ⟨hinv, hrefused, fun hend f hf => ?_⟩
      rcases List.mem_cons.mp hf with rfl | hf
      · exact (recordFacts_keeps policy p outcome now facts hi''.wf).2 f hin''
      · exact hall hend f hf
    unfold recordFacts
    rw [hrecord]
    cases created with
    | false => exact hgo hi' hin
    | true =>
      have hsame := sameFacts_process policy outcome hi'.wf o.id now
      dsimp only
      rw [if_pos rfl]
      obtain ⟨error, st'', hprocess⟩ :
          ∃ error st'', process policy outcome st' o.id now = (error, st'') := ⟨_, _, rfl⟩
      rw [hprocess] at hsame ⊢
      cases error with
      | some error => exact ⟨hi'.of_sameFacts hsame, (fun e h => by cases h), fun h => by cases h⟩
      | none => exact hgo (hi'.of_sameFacts hsame) (hin.of_sameFacts hsame)

theorem recordFacts_finished (policy : ObservationPolicy) (p : PolledCandidate)
    {outcome : SCMObservation → Option String} (houtcome : ∀ o, outcome o = none) (now : Instant)
    (facts : List Fact) (hw : InboxWF st)
    (hrefused : ∀ e, (recordFacts policy p outcome now facts st).1 ≠ .refused e) :
    (recordFacts policy p outcome now facts st).1 = .finished := by
  induction facts generalizing st with
  | nil => rfl
  | cons fact facts ih =>
    unfold recordFacts at hrefused ⊢
    cases hrecord : SCMObservationService.record st (p.command fact now) now with
    | error e =>
      rw [hrecord] at hrefused
      exact absurd rfl (hrefused e)
    | ok r =>
      obtain ⟨⟨o, created⟩, st'⟩ := r
      obtain ⟨hwf, -, -, -, -, hnew⟩ := record_keeps hw hrecord
      rw [hrecord] at hrefused
      cases created with
      | false => exact ih hwf hrefused
      | true =>
        obtain ⟨hget, hpending, hattempts⟩ := hnew rfl
        have hsame := sameFacts_process policy outcome hwf o.id now
        have hdone : (process policy outcome st' o.id now).1 = none :=
          process_new houtcome hget hpending hattempts now
        dsimp only at hrefused ⊢
        rw [if_pos rfl] at hrefused ⊢
        obtain ⟨error, st'', hprocess⟩ :
            ∃ error st'', process policy outcome st' o.id now = (error, st'') := ⟨_, _, rfl⟩
        rw [hprocess] at hdone hsame hrefused ⊢
        obtain rfl : error = none := hdone
        exact ih (hsame.wf hwf) hrefused

/-- Every operation keeps the inbox well formed and takes no fact out. -/
theorem nextInbox_keeps (policy : ObservationPolicy) (p : PolledCandidate) (hw : InboxWF st)
    (op : InboxOp) :
    InboxWF (nextInbox policy p st op) ∧
      ∀ fact, InInbox p fact st → InInbox p fact (nextInbox policy p st op) := by
  cases op with
  | poll remote outcome now => exact recordFacts_keeps policy p outcome now remote.facts hw
  | webhook command now =>
    unfold nextInbox
    dsimp only
    split
    · rename_i r st' hrecord
      obtain ⟨o, created⟩ := r
      obtain ⟨hwf, hkept, -⟩ := record_keeps hw hrecord
      refine ⟨hwf, ?_⟩
      rintro fact ⟨x, hx, hxp⟩
      exact ⟨x, hkept x hx, hxp⟩
    · exact ⟨hw, fun _ h => h⟩
  | replay id outcome now =>
    have hsame := sameFacts_process policy outcome hw id now
    exact ⟨hsame.wf hw, fun fact h => h.of_sameFacts hsame⟩

/-- The remote state a poll reads. -/
def InboxOp.remote? : InboxOp → Option RemoteState
  | .poll remote _ _ => some remote
  | _ => none

theorem pollInv_next (policy : ObservationPolicy) (hagree : FactsAgree K) (hi : PollInv p K st)
    {op : InboxOp} (hop : ∀ remote, op.remote? = some remote → ∀ fact ∈ remote.facts, fact ∈ K) :
    PollInv p K (nextInbox policy p st op) := by
  cases op with
  | poll remote outcome now =>
    exact (recordFacts_agree policy hagree outcome now (fun fact h =>
      ⟨hop remote rfl fact h, remote.facts_plain fact h⟩) hi).1
  | webhook command now =>
    unfold nextInbox
    dsimp only
    split
    · rename_i r st' hrecord
      obtain ⟨o, created⟩ := r
      obtain ⟨hwf, -, -, hold, hidentity, -⟩ := record_keeps hi.wf hrecord
      refine ⟨hwf, fun x hx hsource => ?_⟩
      rcases hold x hx with hx | rfl
      · exact hi.known x hx hsource
      · rw [hidentity] at hsource
        cases hsource
    · exact hi
  | replay id outcome now =>
    exact hi.of_sameFacts (sameFacts_process policy outcome hi.wf id now)

/-! ## When no poll is refused -/

/-- What a healthy poll is: no fact is refused as another one under its identity, and when no
processing raises, every fact it read is in the inbox with its payload. -/
def PollRecorded (policy : ObservationPolicy) (p : PolledCandidate) (st : SCMObservationStore) :
    InboxOp → Prop
  | .poll remote outcome now =>
    (∀ e, (pollCandidate policy p remote outcome now st).1 ≠ .refused e) ∧
      ((pollCandidate policy p remote outcome now st).1 = .finished →
        ∀ fact ∈ remote.facts,
          InInbox p fact (pollCandidate policy p remote outcome now st).2)
  | _ => True

theorem inInbox_of_recorded (policy : ObservationPolicy) (p : PolledCandidate)
    (remotes : List RemoteState) (hw : InboxWF st) (h : ∀ q ∈ Runs.steps (nextInbox policy p) st
      (remotes.map fun remote => InboxOp.poll remote (fun _ => none) 0),
      PollRecorded policy p q.1 q.2) :
    ∃ st', InboxWF st' ∧ (∀ fact, InInbox p fact st → InInbox p fact st') ∧
      ∀ fact ∈ remotes.flatMap RemoteState.facts, InInbox p fact st' := by
  induction remotes generalizing st with
  | nil => exact ⟨st, hw, fun _ h => h, fun fact hfact => by cases hfact⟩
  | cons remote remotes ih =>
    rw [List.map_cons, Runs.steps, List.forall_mem_cons] at h
    obtain ⟨⟨hrefused, hall⟩, hrest⟩ := h
    have hend := recordFacts_finished policy p (fun _ : SCMObservation => rfl) 0 remote.facts hw
      hrefused
    obtain ⟨hwf, hkept⟩ := recordFacts_keeps policy p (fun _ => none) 0 remote.facts hw
    obtain ⟨st', hwf', hkept', hin⟩ := ih hwf hrest
    refine ⟨st', hwf', fun fact hfact => hkept' fact (hkept fact hfact), fun fact hfact => ?_⟩
    rw [List.flatMap_cons] at hfact
    rcases List.mem_append.mp hfact with hfact | hfact
    · exact hkept' fact (hall hend fact hfact)
    · exact hin fact hfact

theorem remotesAgree_of_recorded (policy : ObservationPolicy) (p : PolledCandidate)
    (remotes : List RemoteState)
    (h : ∀ q ∈ Runs.steps (nextInbox policy p) ({} : SCMObservationStore)
      (remotes.map fun remote => InboxOp.poll remote (fun _ => none) 0),
      PollRecorded policy p q.1 q.2) : RemotesAgree remotes := by
  obtain ⟨st, hw, -, hin⟩ :=
    inInbox_of_recorded policy p remotes ⟨by simp, by simp, by simp⟩ h
  refine (factsAgree_iff remotes).mp fun fact hfact fact' hfact' heq => ?_
  obtain ⟨o, ho, hidentity, hhash⟩ := hin fact hfact
  obtain ⟨o', ho', hidentity', hhash'⟩ := hin fact' hfact'
  have hsame : o.identity = o'.identity := by
    rw [hidentity, hidentity']
    exact (identity_inj p).mpr heq
  obtain rfl : o = o' := List.inj_on_of_nodup_map hw.identities_nodup ho ho' hsame
  exact hhash.symm.trans hhash'

/-- **A poll is never refused exactly when the identities decide the payloads.** Whatever else
comes into the inbox between the polls and however the processing ends, all polls of these remote
states are healthy iff what an identity spells never comes with two payloads. -/
theorem polls_recorded_iff (policy : ObservationPolicy) (p : PolledCandidate)
    (remotes : List RemoteState) :
    (∀ ops : List InboxOp, ops.filterMap InboxOp.remote? = remotes →
      ∀ q ∈ Runs.steps (nextInbox policy p) ({} : SCMObservationStore) ops,
        PollRecorded policy p q.1 q.2) ↔ RemotesAgree remotes := by
  constructor
  · intro h
    refine remotesAgree_of_recorded policy p remotes (h _ ?_)
    rw [List.filterMap_map]
    exact List.filterMap_some
  · rintro h ops rfl
    have hagree := factsAgree_of_remotesAgree h
    have hfacts : ∀ op ∈ ops, ∀ remote, op.remote? = some remote → ∀ fact ∈ remote.facts,
        fact ∈ (ops.filterMap InboxOp.remote?).flatMap RemoteState.facts := by
      intro op hop remote hremote fact hfact
      exact List.mem_flatMap.mpr ⟨remote, List.mem_filterMap.mpr ⟨op, hop, hremote⟩, hfact⟩
    refine Runs.steps_guarded
      (I := PollInv p ((ops.filterMap InboxOp.remote?).flatMap RemoteState.facts))
      (A := fun _ op => op ∈ ops) (fun st op hi hop => pollInv_next policy hagree hi (hfacts op hop))
      (fun st op hi hop => ?_) ⟨⟨by simp, by simp, by simp⟩, by simp⟩ ops (fun q hq => Runs.snd_mem_ops hq)
    cases op with
    | poll remote outcome now =>
      have hknown : ∀ fact ∈ remote.facts,
          fact ∈ (ops.filterMap InboxOp.remote?).flatMap RemoteState.facts ∧ fact.Plain :=
        fun fact hfact => ⟨hfacts _ hop remote rfl fact hfact, remote.facts_plain fact hfact⟩
      exact (recordFacts_agree policy hagree outcome now hknown hi).2
    | webhook command now => trivial
    | replay id outcome now => trivial

/-! ## A draft that is promoted -/

/-- Pull request 7 of a candidate, open under the head of forty `a`s. -/
def samplePullRequest (draft : Bool) : PullRequestObservation :=
  { repository := { owner := "octo", name := "app" }
    number := 7
    url := "https://github.com/octo/app/pull/7"
    state := .opened
    draft := draft
    headBranch := "feature"
    headSha := "aaaaaaaaaaaaaaaaaaaaaaaaaaaaaaaaaaaaaaaa"
    baseBranch := "main"
    baseSha := "bbbbbbbbbbbbbbbbbbbbbbbbbbbbbbbbbbbbbbbb"
    mergeable := some true }

/-- What a poll reads of it, with one check run that passed. -/
def sampleRemote (draft : Bool) : RemoteState :=
  { repository := { owner := "octo", name := "app" }
    pullRequest := samplePullRequest draft
    checks := [
      { checkRunId := "1"
        checkName := "build"
        headSha := "aaaaaaaaaaaaaaaaaaaaaaaaaaaaaaaaaaaaaaaa"
        terminal := true
        passed := true
        summary := "ok" }]
    reviews := []
    pull_request_ids := by cases draft <;> exact ⟨by decide, fun _ h => by cases h⟩
    check_ids := by
      intro check hcheck
      rw [List.mem_singleton.mp hcheck]
      decide
    review_ids := fun _ h => by cases h }

/-- The digest of the draft. -/
def draftDigest : {digest : String // digest =
    "b5054f8215a336b8cb9cddf91cd050fe57e58b3e757b8d11e66b9f14e88efbee"} :=
  ⟨(pullRequestFact (samplePullRequest true)).payloadHash, by decide +kernel⟩

/-- The digest of the pull request once it is promoted. -/
def promotedDigest : {digest : String // digest =
    "4ca1a93cab1df801134f78bd3e3c9174c4cf9428a41e47b9e37db06907981c30"} :=
  ⟨(pullRequestFact (samplePullRequest false)).payloadHash, by decide +kernel⟩

theorem samplePullRequest_payloadHash :
    (pullRequestFact (samplePullRequest true)).payloadHash ≠
      (pullRequestFact (samplePullRequest false)).payloadHash := by
  have hdraft : (pullRequestFact (samplePullRequest true)).payloadHash = _ := draftDigest.2
  have hpromoted : (pullRequestFact (samplePullRequest false)).payloadHash = _ := promotedDigest.2
  rw [hdraft, hpromoted]
  decide +kernel

/-- **A healthy pull request refused.** When the draft is promoted between two polls, one of the
two polls is refused, or loses a fact. -/
theorem promoted_draft_refused :
    ¬ ∀ ops : List InboxOp,
      ops.filterMap InboxOp.remote? = [sampleRemote true, sampleRemote false] →
      ∀ q ∈ Runs.steps (nextInbox samplePolicy ⟨1, 10⟩) ({} : SCMObservationStore) ops,
        PollRecorded samplePolicy ⟨1, 10⟩ q.1 q.2 := by
  intro h
  have hagree := remotesAgree_of_recorded samplePolicy ⟨1, 10⟩
    [sampleRemote true, sampleRemote false] (h _ rfl)
  have hsame := hagree.pull_requests (sampleRemote true) (by simp) (sampleRemote false) (by simp)
    rfl rfl rfl rfl
  exact samplePullRequest_payloadHash hsame

end Scm
end RepoMesh
