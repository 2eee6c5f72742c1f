/-
# The observation poller

`GitHubObservationPoller._poll_candidate`: the facts of one pull request, recorded under
identities of their own in the inbox of the webhooks, and processed when they are new. A poll is
refused when a fact comes under the identity of a stored one with another payload.
-/
import RepoMesh.Foundation.Sha256
import RepoMesh.Delivery.ObservationClaims
import RepoMesh.Scm.Contracts

namespace RepoMesh
namespace Scm

open Text Fallible Delivery

/-! ## The facts of a poll -/

/-- `_repository_payload`. -/
def repositoryPayload (repository : RepositoryRef) : Json :=
  .obj [("name", .str repository.name), ("owner", .obj [("login", .str repository.owner)])]

/-- `None` or a value. -/
def jsonOption {α : Type} (f : α → Json) : Option α → Json
  | some a => f a
  | none => .null

/-- `_pull_request_payload`. -/
def pullRequestPayload (item : PullRequestObservation) : Json :=
  .obj [
    ("repository", repositoryPayload item.repository),
    ("pull_request", .obj [
      ("number", .int item.number),
      ("html_url", .str item.url),
      ("state", .str (if item.state = .merged then "closed" else item.state.value)),
      ("merged", .bool (item.state = .merged)),
      ("merged_at", if item.state = .merged then .str "observed" else .null),
      ("draft", .bool item.draft),
      ("head", .obj [("ref", .str item.headBranch), ("sha", .str item.headSha)]),
      ("base", .obj [("ref", .str item.baseBranch), ("sha", .str item.baseSha)]),
      ("mergeable", jsonOption .bool item.mergeable),
      ("merge_commit_sha", jsonOption .str item.mergeSha)])]

/-- The payload of a check run. -/
def checkPayload (repository : RepositoryRef) (check : CheckRunObservation) : Json :=
  .obj [
    ("repository", repositoryPayload repository),
    ("check_run", .obj [
      ("id", .str check.checkRunId),
      ("name", .str check.checkName),
      ("head_sha", .str check.headSha),
      ("status", .str (if check.terminal then "completed" else "in_progress")),
      ("conclusion",
        if check.terminal && check.passed then .str "success"
        else if check.terminal then .str "failure" else .null),
      ("output", .obj [("summary", .str check.summary)])])]

/-- The payload of a review. -/
def reviewPayload (repository : RepositoryRef) (review : PullRequestReviewObservation) : Json :=
  .obj [
    ("action", .str "submitted"),
    ("repository", repositoryPayload repository),
    ("pull_request", .obj [("head", .obj [("sha", .str review.headSha)])]),
    ("review", .obj [
      ("id", .str review.reviewId),
      ("user", .obj [("login", .str review.reviewer)]),
      ("commit_id", .str review.headSha),
      ("state", .str review.state.value),
      ("body", .str review.summary)])]

/-- One call of `_record`. -/
structure Fact where
  eventType : String
  payload : Json
  externalId : String

/-- `hashlib.sha256(encoded).hexdigest()`. The dump is ASCII, one byte a character. -/
def Fact.payloadHash (fact : Fact) : String := Sha256.hexdigest (fact.payload.dumps.map Char.toNat)

/-- `merge_sha or '-'`. -/
def mergeText (mergeSha : Option String) : String :=
  match mergeSha with
  | some sha => if sha.isEmpty then "-" else sha
  | none => "-"

/-- The fact of the pull request. -/
def pullRequestFact (item : PullRequestObservation) : Fact :=
  { eventType := "pull_request"
    payload := pullRequestPayload item
    externalId := "pr:" ++ (toString item.number ++ ":" ++ (item.headSha ++ ":" ++
      (item.state.value ++ ":" ++ mergeText item.mergeSha))) }

/-- `int(flag)`. -/
def flagText (flag : Bool) : String := if flag then "1" else "0"

/-- The fact of a check run. -/
def checkFact (repository : RepositoryRef) (check : CheckRunObservation) : Fact :=
  { eventType := "check_run"
    payload := checkPayload repository check
    externalId := "check:" ++ (check.checkRunId ++ ":" ++ (check.headSha ++ ":" ++
      (flagText check.terminal ++ ":" ++ flagText check.passed))) }

/-- The fact of a review. -/
def reviewFact (repository : RepositoryRef) (review : PullRequestReviewObservation) : Fact :=
  { eventType := "pull_request_review"
    payload := reviewPayload repository review
    externalId := "review:" ++ (review.reviewId ++ ":" ++ (review.headSha ++ ":" ++
      review.state.value)) }

/-- A text of hexadecimal digits: an object id, or a decimal number. -/
def isHexText (s : String) : Bool := s.toList.all isHexDigit

/-- What one poll reads of the pull request of a candidate. GitHub numbers its check runs and
reviews and names commits by their object ids. -/
structure RemoteState where
  repository : RepositoryRef
  pullRequest : PullRequestObservation
  checks : List CheckRunObservation
  reviews : List PullRequestReviewObservation
  pull_request_ids : isHexText pullRequest.headSha = true ∧
    ∀ sha, pullRequest.mergeSha = some sha → isHexText sha = true ∧ sha ≠ ""
  check_ids : ∀ check ∈ checks, isHexText check.checkRunId = true ∧ isHexText check.headSha = true
  review_ids : ∀ review ∈ reviews,
    isHexText review.reviewId = true ∧ isHexText review.headSha = true

/-- The facts of a poll, in the order they are recorded. -/
def RemoteState.facts (s : RemoteState) : List Fact :=
  pullRequestFact s.pullRequest ::
    (s.checks.map (checkFact s.repository) ++ s.reviews.map (reviewFact s.repository))

/-! ## Polling -/

/-- The candidate a poller follows. -/
structure PolledCandidate where
  changeSetId : UUID
  repositoryId : UUID

/-- The command `_record` sends. -/
def PolledCandidate.command (p : PolledCandidate) (fact : Fact) (now : Instant) :
    RecordSCMObservationCommand :=
  { provider := "github"
    source := .poller
    externalId := uuidStr p.changeSetId ++ (":" ++ (uuidStr p.repositoryId ++ (":" ++
      fact.externalId)))
    eventType := fact.eventType
    payload := fact.payload
    payloadHash := fact.payloadHash
    observedAt := now
    changeSetId := some p.changeSetId
    repositoryId := some p.repositoryId }

/-- `process`: the observation is claimed and projected; `outcome` is the exception the projection
ends with, if any. The answer is the exception `process` raises. -/
def process (policy : ObservationPolicy) (outcome : SCMObservation → Option String)
    (st : SCMObservationStore) (id : UUID) (now : Instant) :
    Option String × SCMObservationStore :=
  let failed (st : SCMObservationStore) (error : String) :=
    match SCMObservationService.fail st id error with
    | .ok (_, st') => (some error, st')
    | .error _ => (some error, st)
  match SCMObservationService.claim policy st id now with
  | .error _ => (some "DeliveryConflict", st)
  | .ok (none, st') => (none, st')
  | .ok (some claimed, st') =>
    match outcome claimed with
    | some error => failed st' error
    | none =>
      match SCMObservationService.complete st' id now with
      | .ok (_, st'') => (none, st'')
      | .error _ => failed st' "DeliveryConflict"

/-- How a poll ends: with everything recorded, with a fact `record` refuses, or with an exception
of the processing of a new fact. -/
inductive PollEnd where
  | finished
  | refused (e : Raised)
  | failed (error : String)
  deriving DecidableEq

/-- The calls of `_record`, one after the other, until one raises. -/
def recordFacts (policy : ObservationPolicy) (p : PolledCandidate)
    (outcome : SCMObservation → Option String) (now : Instant) :
    List Fact → SCMObservationStore → PollEnd × SCMObservationStore
  | [], st => (.finished, st)
  | fact :: facts, st =>
    match SCMObservationService.record st (p.command fact now) now with
    | .error e => (.refused e, st)
    | .ok ((o, created), st') =>
      if created then
        match process policy outcome st' o.id now with
        | (some error, st'') => (.failed error, st'')
        | (none, st'') => recordFacts policy p outcome now facts st''
      else recordFacts policy p outcome now facts st'

/-- What happens to the inbox: a poll of the candidate, a webhook delivery, or the replay of a
stored observation. -/
inductive InboxOp where
  | poll (remote : RemoteState) (outcome : SCMObservation → Option String) (now : Instant)
  | webhook (command : RecordSCMObservationCommand) (now : Instant)
  | replay (id : UUID) (outcome : SCMObservation → Option String) (now : Instant)

/-- `_poll_candidate`. -/
def pollCandidate (policy : ObservationPolicy) (p : PolledCandidate) (remote : RemoteState)
    (outcome : SCMObservation → Option String) (now : Instant) (st : SCMObservationStore) :
    PollEnd × SCMObservationStore :=
  recordFacts policy p outcome now remote.facts st

/-- The inbox after an operation. -/
def nextInbox (policy : ObservationPolicy) (p : PolledCandidate) (st : SCMObservationStore) :
    InboxOp → SCMObservationStore
  | .poll remote outcome now => (pollCandidate policy p remote outcome now st).2
  | .webhook command now =>
    match SCMObservationService.record st { command with source := .webhook } now with
    | .ok (_, st') => st'
    | .error _ => st
  | .replay id outcome now => (process policy outcome st id now).2

/-! ## The inbox as a list of facts -/

/-- What the processing of an observation leaves alone. -/
structure StoredFact where
  id : UUID
  identity : String × SCMObservationSource × String
  payloadHash : String
  eventType : String
  changeSetId : Option UUID
  repositoryId : Option UUID

/-- The fact an observation holds. -/
def storedFact (o : SCMObservation) : StoredFact :=
  { id := o.id
    identity := o.identity
    payloadHash := o.payloadHash
    eventType := o.eventType
    changeSetId := o.changeSetId
    repositoryId := o.repositoryId }

/-- What every inbox keeps: identifiers and identities are not used twice. -/
structure InboxWF (st : SCMObservationStore) : Prop where
  ids_nodup : (st.items.map (·.id)).Nodup
  ids_bound : ∀ o ∈ st.items, o.id < st.nextId
  identities_nodup : (st.items.map (·.identity)).Nodup

/-- The same facts, under the same identifiers. -/
def SameFacts (st st' : SCMObservationStore) : Prop :=
  st'.items.map storedFact = st.items.map storedFact ∧ st'.nextId = st.nextId

theorem SameFacts.refl (st : SCMObservationStore) : SameFacts st st := ⟨rfl, rfl⟩

theorem SameFacts.trans {a b c : SCMObservationStore} (hab : SameFacts a b)
    (hbc : SameFacts b c) : SameFacts a c :=
  ⟨hbc.1.trans hab.1, hbc.2.trans hab.2⟩

theorem SameFacts.exists_mem {st st' : SCMObservationStore} (h : SameFacts st st')
    {o : SCMObservation} (ho : o ∈ st'.items) :
    ∃ o' ∈ st.items, storedFact o' = storedFact o := by
  have hmem : storedFact o ∈ st.items.map storedFact := h.1 ▸ List.mem_map.mpr ⟨o, ho, rfl⟩
  exact List.mem_map.mp hmem

theorem SameFacts.symm {st st' : SCMObservationStore} (h : SameFacts st st') : SameFacts st' st :=
  ⟨h.1.symm, h.2.symm⟩

theorem SameFacts.map_eq {α : Type} {st st' : SCMObservationStore} (h : SameFacts st st')
    (f : StoredFact → α) :
    st'.items.map (fun o => f (storedFact o)) = st.items.map (fun o => f (storedFact o)) := by
  have hmap := congrArg (List.map f) h.1
  rw [List.map_map, List.map_map] at hmap
  exact hmap

theorem SameFacts.wf {st st' : SCMObservationStore} (h : SameFacts st st') (hw : InboxWF st) :
    InboxWF st' := by
  refine ⟨?_, ?_, ?_⟩
  · have hids : st'.items.map (·.id) = st.items.map (·.id) := h.map_eq StoredFact.id
    rw [hids]
    exact hw.ids_nodup
  · intro o ho
    obtain ⟨o', ho', heq⟩ := h.exists_mem ho
    have hid : o'.id = o.id := congrArg StoredFact.id heq
    rw [h.2, ← hid]
    exact hw.ids_bound o' ho'
  · have hidentities : st'.items.map (·.identity) = st.items.map (·.identity) :=
      h.map_eq StoredFact.identity
    rw [hidentities]
    exact hw.identities_nodup

theorem sameFacts_update {st st' : SCMObservationStore} (hw : InboxWF st) {id : UUID}
    {o o' : SCMObservation} {expected : ℕ} (hget : st.get id = some o)
    (h : st.update o' expected = .ok st') (hfact : storedFact o' = storedFact o) :
    SameFacts st st' := by
  obtain ⟨-, rfl⟩ := SCMObservationStore.update_ok h
  refine ⟨?_, rfl⟩
  obtain ⟨-, hkey⟩ := Keyed.mem_of_find hget
  have hid : o'.id = id := (congrArg StoredFact.id hfact).trans hkey
  show (st.items.map fun r => if r.id = o'.id then o' else r).map storedFact = _
  rw [List.map_map]
  refine List.map_congr_left fun r hr => ?_
  by_cases hro : r.id = o'.id
  · have hfound : st.get id = some r :=
      (Keyed.find_eq_some hw.ids_nodup).mpr ⟨hr, hro.trans hid⟩
    obtain rfl : r = o := Option.some.inj (hfound.symm.trans hget)
    simp only [Function.comp_apply, if_pos hro, hfact]
  · simp only [Function.comp_apply, if_neg hro]

theorem sameFacts_claim {policy : ObservationPolicy} {st st' : SCMObservationStore}
    (hw : InboxWF st) {id : UUID} {now : Instant} {r : Option SCMObservation}
    (h : SCMObservationService.claim policy st id now = .ok (r, st')) : SameFacts st st' := by
  obtain ⟨pending, hread, h⟩ := bind_ok h
  cases pending with
  | none =>
    obtain ⟨-, rfl⟩ := Prod.mk.inj (Except.ok.inj h)
    exact .refl st
  | some pending =>
    obtain ⟨o, hget, -, rfl⟩ := SCMObservationService.readForClaim_some hread
    obtain ⟨st'', hwrite, h⟩ := bind_ok h
    obtain ⟨-, rfl⟩ := Prod.mk.inj (Except.ok.inj h)
    exact sameFacts_update hw hget hwrite rfl

theorem sameFacts_complete {st st' : SCMObservationStore} (hw : InboxWF st) {id : UUID}
    {now : Instant} {r : SCMObservation}
    (h : SCMObservationService.complete st id now = .ok (r, st')) : SameFacts st st' := by
  obtain ⟨pending, hread, h⟩ := bind_ok h
  obtain ⟨st'', hwrite, h⟩ := bind_ok h
  obtain ⟨-, rfl⟩ := Prod.mk.inj (Except.ok.inj h)
  obtain ⟨o, ho, hread⟩ := bind_ok hread
  obtain ⟨completed, hcompleted, hread⟩ := bind_ok hread
  obtain rfl := Except.ok.inj hread
  unfold SCMObservation.complete at hcompleted
  split_ifs at hcompleted
  obtain rfl := Except.ok.inj hcompleted
  exact sameFacts_update hw (SCMObservationService.required_ok ho) hwrite rfl

theorem sameFacts_fail {st st' : SCMObservationStore} (hw : InboxWF st) {id : UUID}
    {error : String} {r : SCMObservation}
    (h : SCMObservationService.fail st id error = .ok (r, st')) : SameFacts st st' := by
  obtain ⟨pending, hread, h⟩ := bind_ok h
  obtain ⟨st'', hwrite, h⟩ := bind_ok h
  obtain ⟨-, rfl⟩ := Prod.mk.inj (Except.ok.inj h)
  obtain ⟨o, ho, hread⟩ := bind_ok hread
  obtain ⟨failed, hfailed, hread⟩ := bind_ok hread
  obtain rfl := Except.ok.inj hread
  unfold SCMObservation.fail at hfailed
  split_ifs at hfailed
  obtain rfl := Except.ok.inj hfailed
  exact sameFacts_update hw (SCMObservationService.required_ok ho) hwrite rfl

/-- **Processing keeps the facts**, however the projection ends. -/
theorem sameFacts_process (policy : ObservationPolicy) (outcome : SCMObservation → Option String)
    {st : SCMObservationStore} (hw : InboxWF st) (id : UUID) (now : Instant) :
    SameFacts st (process policy outcome st id now).2 := by
  unfold process
  dsimp only
  cases hclaim : SCMObservationService.claim policy st id now with
  | error e => exact .refl st
  | ok r =>
    obtain ⟨claimed, st'⟩ := r
    have hsame := sameFacts_claim hw hclaim
    have hfailed : ∀ error, SameFacts st (match SCMObservationService.fail st' id error with
        | .ok (_, st'') => (some error, st'')
        | .error _ => (some error, st')).2 := by
      intro error
      cases hfail : SCMObservationService.fail st' id error with
      | error e => exact hsame
      | ok r => exact hsame.trans (sameFacts_fail (hsame.wf hw) hfail)
    cases claimed with
    | none => exact hsame
    | some claimed =>
      dsimp only
      cases outcome claimed with
      | some error => exact hfailed error
      | none =>
        dsimp only
        cases hcomplete : SCMObservationService.complete st' id now with
        | error e => exact hfailed _
        | ok r => exact hsame.trans (sameFacts_complete (hsame.wf hw) hcomplete)

theorem process_new {policy : ObservationPolicy} {outcome : SCMObservation → Option String}
    (houtcome : ∀ o, outcome o = none) {st : SCMObservationStore} {o : SCMObservation}
    (hget : st.get o.id = some o) (hpending : o.status = .pending) (hattempts : o.attempts = 0)
    (now : Instant) : (process policy outcome st o.id now).1 = none := by
  have hclaimable : o.isClaimable now policy.leaseTimeout policy.maxAttempts = true := by
    have hpositive := policy.positive.2
    rw [SCMObservation.isClaimable, if_neg, if_pos (Or.inl hpending)]
    rw [hpending, hattempts]
    rintro (h | h)
    · cases h
    · omega
  have hrequired : ∀ {st : SCMObservationStore} {o : SCMObservation} {id : UUID},
      st.get id = some o → SCMObservationService.required st id = .ok o := by
    intro st o id h
    rw [SCMObservationService.required, h]
  have hupdate : ∀ {st : SCMObservationStore} {o : SCMObservation} (o' : SCMObservation),
      o'.id = o.id → st.get o.id = some o →
      ∃ st', st.update o' o.version = .ok st' ∧ st'.get o.id = some o' := by
    intro st o o' hid h
    refine ⟨{ st with items := Keyed.write (·.id) st.items o'.id fun _ => o' }, ?_, ?_⟩
    · rw [SCMObservationStore.update, hid, h]
      simp
    · show Keyed.find (·.id) (Keyed.write (·.id) st.items o'.id fun _ => o') o.id = some o'
      have hfound : Keyed.find (·.id) st.items o.id = some o := h
      rw [hid, Keyed.find_write_self fun _ _ => hid, hfound]
      rfl
  obtain ⟨st', hwrite, hget'⟩ := hupdate (o := o) (o.claim now) rfl hget
  have hclaim : SCMObservationService.claim policy st o.id now = .ok (some (o.claim now), st') := by
    simp only [SCMObservationService.claim, SCMObservationService.readForClaim, hrequired hget,
      ok_bind, hclaimable, if_true, PendingUpdate.write, hwrite]
  obtain ⟨completed, hcompleted, hid⟩ : ∃ completed, (o.claim now).complete now = .ok completed ∧
      completed.id = (o.claim now).id := by
    have hstatus : ¬ (o.claim now).status ≠ .processing := not_not.mpr rfl
    rw [SCMObservation.complete, if_neg hstatus]
    exact ⟨_, rfl, rfl⟩
  obtain ⟨st'', hwrite', -⟩ := hupdate completed hid hget'
  have hcomplete : SCMObservationService.complete st' o.id now = .ok (completed, st'') := by
    simp only [SCMObservationService.complete, SCMObservationService.readForComplete,
      hrequired hget', ok_bind, hcompleted, PendingUpdate.write, hwrite']
  simp only [process, hclaim, houtcome, hcomplete]

end Scm
end RepoMesh
