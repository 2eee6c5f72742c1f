/-
# The identities of polled facts

The external identifiers `_poll_candidate` spells, what they say of the facts, and when facts of
one identity agree.
-/
import Mathlib
import RepoMesh.Scm.Poller

namespace RepoMesh
namespace Scm

open Text Delivery

/-! ## Identities -/

/-- The identity a fact is stored under. -/
def PolledCandidate.identity (p : PolledCandidate) (fact : Fact) :
    String × SCMObservationSource × String :=
  ("github", .poller, (p.command fact 0).externalId)

/-- The facts a poller writes: no whitespace in their identities, and event types that `record`
leaves as they are. -/
def Fact.Plain (fact : Fact) : Prop :=
  isUnspaced fact.externalId = true ∧ normalize fact.eventType = fact.eventType ∧
    isBlank fact.eventType = false

theorem plain_of_isHexText {s : String} (h : isHexText s = true) :
    isUnspaced s = true ∧ ':' ∉ s.toList := by
  have hall : ∀ c ∈ s.toList, isHexDigit c = true := List.all_eq_true.mp h
  refine ⟨isUnspaced_iff.mpr fun c hc => isSpace_of_isHexDigit (hall c hc), fun hc => ?_⟩
  have hcolon := hall _ hc
  revert hcolon
  decide

theorem plain_toString_int (n : ℤ) :
    isUnspaced (toString n) = true ∧ ':' ∉ (toString n).toList := by
  constructor
  · refine isUnspaced_iff.mpr fun c hc => ?_
    rcases mem_toString_int hc with rfl | hc
    · decide
    · exact isSpace_of_isHexDigit hc
  · intro hc
    rcases mem_toString_int hc with h | h
    · revert h
      decide
    · revert h
      decide

theorem isUnspaced_uuidStr (id : UUID) : isUnspaced (uuidStr id) = true := by
  refine isUnspaced_iff.mpr fun c hc => ?_
  rcases mem_uuidStr hc with rfl | hdigit
  · decide
  · exact isSpace_of_isHexDigit (isHexDigit_of_mem_hexDigits hdigit)

theorem isUnspaced_mergeText {m : Option String}
    (h : ∀ sha, m = some sha → isHexText sha = true) : isUnspaced (mergeText m) = true := by
  unfold mergeText
  cases m with
  | none => decide
  | some sha =>
    dsimp only
    split_ifs
    · decide
    · exact (plain_of_isHexText (h sha rfl)).1

theorem mergeText_inj {m m' : Option String}
    (h : ∀ sha, m = some sha → isHexText sha = true ∧ sha ≠ "")
    (h' : ∀ sha, m' = some sha → isHexText sha = true ∧ sha ≠ "")
    (heq : mergeText m = mergeText m') : m = m' := by
  have hsome : ∀ {sha : String}, isHexText sha = true ∧ sha ≠ "" →
      mergeText (some sha) = sha ∧ sha ≠ "-" := by
    rintro sha ⟨hhex, hne⟩
    refine ⟨?_, ?_⟩
    · rw [mergeText, if_neg (by simpa using hne)]
    · rintro rfl
      revert hhex
      decide
  cases m with
  | none =>
    cases m' with
    | none => rfl
    | some sha =>
      obtain ⟨htext, hne⟩ := hsome (h' sha rfl)
      exact absurd (htext.symm.trans heq.symm) hne
  | some sha =>
    obtain ⟨htext, hne⟩ := hsome (h sha rfl)
    cases m' with
    | none => exact absurd (htext.symm.trans heq) hne
    | some sha' =>
      obtain ⟨htext', -⟩ := hsome (h' sha' rfl)
      rw [htext, htext'] at heq
      rw [heq]

theorem plain_values (state : PullRequestState) (review : SCMReviewState) (flag : Bool) :
    (isUnspaced state.value = true ∧ ':' ∉ state.value.toList) ∧
      isUnspaced review.value = true ∧
      isUnspaced (flagText flag) = true ∧ ':' ∉ (flagText flag).toList := by
  refine ⟨?_, ?_, ?_⟩
  · cases state <;> decide
  · cases review <;> decide
  · cases flag <;> decide

theorem RemoteState.facts_plain (s : RemoteState) : ∀ fact ∈ s.facts, fact.Plain := by
  have hcolon : isUnspaced ":" = true := by decide
  have heventType : ∀ e ∈ ["pull_request", "check_run", "pull_request_review"],
      normalize e = e ∧ isBlank e = false := by decide +kernel
  intro fact hfact
  rcases List.mem_cons.mp hfact with rfl | hfact
  · obtain ⟨hhead, hmerge⟩ := s.pull_request_ids
    have hstate := (plain_values s.pullRequest.state .approved true).1.1
    have htail := isUnspaced_append (isUnspaced_append hstate hcolon)
      (isUnspaced_mergeText fun sha h => (hmerge sha h).1)
    have hsha := isUnspaced_append (isUnspaced_append (plain_of_isHexText hhead).1 hcolon) htail
    have hnumber := isUnspaced_append
      (isUnspaced_append (plain_toString_int s.pullRequest.number).1 hcolon) hsha
    exact ⟨isUnspaced_append (by decide) hnumber, heventType "pull_request" (by simp)⟩
  · rcases List.mem_append.mp hfact with hfact | hfact
    · obtain ⟨check, hcheck, rfl⟩ := List.mem_map.mp hfact
      obtain ⟨hid, hhead⟩ := s.check_ids check hcheck
      have hterminal := (plain_values .opened .approved check.terminal).2.2.1
      have hpassed := (plain_values .opened .approved check.passed).2.2.1
      have htail := isUnspaced_append (isUnspaced_append hterminal hcolon) hpassed
      have hsha := isUnspaced_append (isUnspaced_append (plain_of_isHexText hhead).1 hcolon) htail
      have hnumber := isUnspaced_append (isUnspaced_append (plain_of_isHexText hid).1 hcolon) hsha
      exact ⟨isUnspaced_append (by decide) hnumber, heventType "check_run" (by simp)⟩
    · obtain ⟨review, hreview, rfl⟩ := List.mem_map.mp hfact
      obtain ⟨hid, hhead⟩ := s.review_ids review hreview
      have hstate := (plain_values .opened review.state true).2.1
      have hsha := isUnspaced_append (isUnspaced_append (plain_of_isHexText hhead).1 hcolon) hstate
      have hnumber := isUnspaced_append (isUnspaced_append (plain_of_isHexText hid).1 hcolon) hsha
      exact ⟨isUnspaced_append (by decide) hnumber, heventType "pull_request_review" (by simp)⟩

theorem identityOf_command (p : PolledCandidate) {fact : Fact} (h : fact.Plain) (now : Instant) :
    SCMObservationService.identityOf (p.command fact now) = p.identity fact ∧
      isBlank (strip (p.command fact now).externalId) = false := by
  have hcolon : isUnspaced ":" = true := by decide
  have hprovider : normalize "github" = "github" := by decide
  have htext := isUnspaced_append (isUnspaced_uuidStr p.changeSetId) (isUnspaced_append hcolon
    (isUnspaced_append (isUnspaced_uuidStr p.repositoryId) (isUnspaced_append hcolon h.1)))
  have hstrip : strip (p.command fact now).externalId = (p.command fact now).externalId :=
    strip_eq_self htext
  have hmem : ':' ∈ (p.command fact now).externalId.toList := by
    rw [PolledCandidate.command, String.toList_append]
    exact List.mem_append_right _ (mem_toList_append (by decide))
  constructor
  · rw [SCMObservationService.identityOf, PolledCandidate.identity, hstrip]
    exact Prod.ext hprovider rfl
  · rw [hstrip]
    exact isBlank_of_mem hmem (by decide)

theorem identity_inj (p : PolledCandidate) {fact fact' : Fact} :
    p.identity fact = p.identity fact' ↔ fact.externalId = fact'.externalId := by
  constructor
  · intro h
    have htext := congrArg (fun i => i.2.2.toList) h
    simp only [PolledCandidate.identity, PolledCandidate.command, String.toList_append,
      List.append_cancel_left_eq] at htext
    exact String.toList_inj.mp htext
  · intro h
    simp only [PolledCandidate.identity, PolledCandidate.command, h]

/-- The facts agree: those of one identity have one payload and one event type. -/
def FactsAgree (K : List Fact) : Prop :=
  ∀ fact ∈ K, ∀ fact' ∈ K, fact.externalId = fact'.externalId →
    fact.payloadHash = fact'.payloadHash ∧ fact.eventType = fact'.eventType

/-! ## What the identities spell -/

/-- What the identities spell decides what the payloads hold: two observations of the pull request
with one number, head, state and merge commit, two check runs with one identifier, head and
verdict, and two reviews with one identifier, head and state have payloads with one digest. -/
structure RemotesAgree (remotes : List RemoteState) : Prop where
  pull_requests : ∀ s ∈ remotes, ∀ t ∈ remotes, s.pullRequest.number = t.pullRequest.number →
    s.pullRequest.headSha = t.pullRequest.headSha → s.pullRequest.state = t.pullRequest.state →
    s.pullRequest.mergeSha = t.pullRequest.mergeSha →
    (pullRequestFact s.pullRequest).payloadHash = (pullRequestFact t.pullRequest).payloadHash
  checks : ∀ s ∈ remotes, ∀ check ∈ s.checks, ∀ t ∈ remotes, ∀ check' ∈ t.checks,
    check.checkRunId = check'.checkRunId → check.headSha = check'.headSha →
    check.terminal = check'.terminal → check.passed = check'.passed →
    (checkFact s.repository check).payloadHash = (checkFact t.repository check').payloadHash
  reviews : ∀ s ∈ remotes, ∀ review ∈ s.reviews, ∀ t ∈ remotes, ∀ review' ∈ t.reviews,
    review.reviewId = review'.reviewId → review.headSha = review'.headSha →
    review.state = review'.state →
    (reviewFact s.repository review).payloadHash = (reviewFact t.repository review').payloadHash

theorem pullRequestFact_inj {s t : RemoteState}
    (h : (pullRequestFact s.pullRequest).externalId = (pullRequestFact t.pullRequest).externalId) :
    s.pullRequest.number = t.pullRequest.number ∧ s.pullRequest.headSha = t.pullRequest.headSha ∧
      s.pullRequest.state = t.pullRequest.state ∧
      s.pullRequest.mergeSha = t.pullRequest.mergeSha := by
  have htext := append_cancel h
  obtain ⟨hnumber, htext⟩ := colon_inj (plain_toString_int _).2 (plain_toString_int _).2 htext
  obtain ⟨hhead, htext⟩ := colon_inj (plain_of_isHexText s.pull_request_ids.1).2
    (plain_of_isHexText t.pull_request_ids.1).2 htext
  obtain ⟨hstate, hmerge⟩ := colon_inj (plain_values _ .approved true).1.2
    (plain_values _ .approved true).1.2 htext
  refine ⟨Int.repr_injective hnumber, hhead, ?_,
    mergeText_inj s.pull_request_ids.2 t.pull_request_ids.2 hmerge⟩
  revert hstate
  cases s.pullRequest.state <;> cases t.pullRequest.state <;> decide

theorem checkFact_inj {r r' : RepositoryRef} {c c' : CheckRunObservation}
    (hc : isHexText c.checkRunId = true ∧ isHexText c.headSha = true)
    (hc' : isHexText c'.checkRunId = true ∧ isHexText c'.headSha = true)
    (h : (checkFact r c).externalId = (checkFact r' c').externalId) :
    c.checkRunId = c'.checkRunId ∧ c.headSha = c'.headSha ∧ c.terminal = c'.terminal ∧
      c.passed = c'.passed := by
  have hflag : ∀ {a b : Bool}, flagText a = flagText b → a = b := by decide
  have htext := append_cancel h
  obtain ⟨hid, htext⟩ := colon_inj (plain_of_isHexText hc.1).2 (plain_of_isHexText hc'.1).2 htext
  obtain ⟨hhead, htext⟩ := colon_inj (plain_of_isHexText hc.2).2 (plain_of_isHexText hc'.2).2 htext
  obtain ⟨hterminal, hpassed⟩ := colon_inj (plain_values .opened .approved _).2.2.2
    (plain_values .opened .approved _).2.2.2 htext
  exact ⟨hid, hhead, hflag hterminal, hflag hpassed⟩

theorem reviewFact_inj {r r' : RepositoryRef} {v v' : PullRequestReviewObservation}
    (hv : isHexText v.reviewId = true ∧ isHexText v.headSha = true)
    (hv' : isHexText v'.reviewId = true ∧ isHexText v'.headSha = true)
    (h : (reviewFact r v).externalId = (reviewFact r' v').externalId) :
    v.reviewId = v'.reviewId ∧ v.headSha = v'.headSha ∧ v.state = v'.state := by
  have htext := append_cancel h
  obtain ⟨hid, htext⟩ := colon_inj (plain_of_isHexText hv.1).2 (plain_of_isHexText hv'.1).2 htext
  obtain ⟨hhead, hstate⟩ := colon_inj (plain_of_isHexText hv.2).2 (plain_of_isHexText hv'.2).2 htext
  refine ⟨hid, hhead, ?_⟩
  revert hstate
  cases v.state <;> cases v'.state <;> decide

theorem mem_facts {s : RemoteState} {fact : Fact} :
    fact ∈ s.facts ↔ fact = pullRequestFact s.pullRequest ∨
      (∃ c ∈ s.checks, fact = checkFact s.repository c) ∨
      ∃ v ∈ s.reviews, fact = reviewFact s.repository v := by
  simp only [RemoteState.facts, List.mem_cons, List.mem_append, List.mem_map, eq_comm]

theorem factsAgree_of_remotesAgree {remotes : List RemoteState} (h : RemotesAgree remotes) :
    FactsAgree (remotes.flatMap RemoteState.facts) := by
  have hcross : ∀ {a b : String}, "pr:" ++ a ≠ "check:" ++ b ∧ "pr:" ++ a ≠ "review:" ++ b ∧
      "check:" ++ a ≠ "review:" ++ b := fun {a b} =>
    ⟨append_ne (by decide) (by decide) (by decide), append_ne (by decide) (by decide) (by decide),
      append_ne (by decide) (by decide) (by decide)⟩
  intro fact hfact fact' hfact' heq
  obtain ⟨s, hs, hfact⟩ := List.mem_flatMap.mp hfact
  obtain ⟨t, ht, hfact'⟩ := List.mem_flatMap.mp hfact'
  rcases mem_facts.mp hfact with rfl | ⟨c, hc, rfl⟩ | ⟨v, hv, rfl⟩
  · rcases mem_facts.mp hfact' with rfl | ⟨c', hc', rfl⟩ | ⟨v', hv', rfl⟩
    · obtain ⟨hnumber, hhead, hstate, hmerge⟩ := pullRequestFact_inj heq
      exact ⟨h.pull_requests s hs t ht hnumber hhead hstate hmerge, rfl⟩
    · exact absurd heq hcross.1
    · exact absurd heq hcross.2.1
  · rcases mem_facts.mp hfact' with rfl | ⟨c', hc', rfl⟩ | ⟨v', hv', rfl⟩
    · exact absurd heq.symm hcross.1
    · obtain ⟨hid, hhead, hterminal, hpassed⟩ :=
        checkFact_inj (s.check_ids c hc) (t.check_ids c' hc') heq
      exact ⟨h.checks s hs c hc t ht c' hc' hid hhead hterminal hpassed, rfl⟩
    · exact absurd heq hcross.2.2
  · rcases mem_facts.mp hfact' with rfl | ⟨c', hc', rfl⟩ | ⟨v', hv', rfl⟩
    · exact absurd heq.symm hcross.2.1
    · exact absurd heq.symm hcross.2.2
    · obtain ⟨hid, hhead, hstate⟩ := reviewFact_inj (s.review_ids v hv) (t.review_ids v' hv') heq
      exact ⟨h.reviews s hs v hv t ht v' hv' hid hhead hstate, rfl⟩

theorem factsAgree_iff (remotes : List RemoteState) :
    (∀ fact ∈ remotes.flatMap RemoteState.facts, ∀ fact' ∈ remotes.flatMap RemoteState.facts,
      fact.externalId = fact'.externalId → fact.payloadHash = fact'.payloadHash) ↔
      RemotesAgree remotes := by
  have hmem : ∀ {s : RemoteState}, s ∈ remotes → ∀ {fact : Fact}, fact ∈ s.facts →
      fact ∈ remotes.flatMap RemoteState.facts := fun hs _ hfact =>
    List.mem_flatMap.mpr ⟨_, hs, hfact⟩
  have hcheck : ∀ {s : RemoteState} {c : CheckRunObservation}, c ∈ s.checks →
      checkFact s.repository c ∈ s.facts := fun hc =>
    List.mem_cons_of_mem _ (List.mem_append_left _ (List.mem_map.mpr ⟨_, hc, rfl⟩))
  have hreview : ∀ {s : RemoteState} {v : PullRequestReviewObservation}, v ∈ s.reviews →
      reviewFact s.repository v ∈ s.facts := fun hv =>
    List.mem_cons_of_mem _ (List.mem_append_right _ (List.mem_map.mpr ⟨_, hv, rfl⟩))
  constructor
  · intro h
    refine ⟨?_, ?_, ?_⟩
    · intro s hs t ht hnumber hhead hstate hmerge
      refine h _ (hmem hs (List.mem_cons_self ..)) _ (hmem ht (List.mem_cons_self ..)) ?_
      simp only [pullRequestFact, hnumber, hhead, hstate, hmerge]
    · intro s hs c hc t ht c' hc' hid hhead hterminal hpassed
      refine h _ (hmem hs (hcheck hc)) _ (hmem ht (hcheck hc')) ?_
      simp only [checkFact, hid, hhead, hterminal, hpassed]
    · intro s hs v hv t ht v' hv' hid hhead hstate
      refine h _ (hmem hs (hreview hv)) _ (hmem ht (hreview hv')) ?_
      simp only [reviewFact, hid, hhead, hstate]
  · intro h fact hfact fact' hfact' heq
    exact (factsAgree_of_remotesAgree h fact hfact fact' hfact' heq).1

end Scm
end RepoMesh
