/-
# Readiness

What the status of a candidate says about the observations made on its head. With required checks
it is a function of the latest result of each check and of each reviewer's latest review; without
them it looks at the check reported last and at no other.
-/
import RepoMesh.Foundation.Latest
import RepoMesh.Delivery.Service

namespace RepoMesh
namespace Delivery

open Text Latest

/-! ## Observations -/

/-- The name a check is recorded under. -/
def recordedName (checkRunId checkName : String) : String :=
  lower (if isBlank checkName then strip checkRunId else strip checkName)

/-- An observation of a candidate: of its pull request, of a check, of a review. -/
inductive CandidateObservation where
  | pr (number : ℤ) (url headSha : String)
  | ci (passed : Bool) (checkRunId summary checkName : String)
  | review (reviewId reviewer : String) (state : ReviewState) (headSha summary : String)
  deriving DecidableEq

namespace CandidateObservation

/-- The mutator an observation runs. -/
def apply : CandidateObservation → RepositoryDelivery → Except Raised RepositoryDelivery
  | pr number url headSha, d => d.observePr number url headSha
  | ci passed checkRunId summary checkName, d => d.observeCi passed checkRunId summary checkName
  | review reviewId reviewer state headSha summary, d =>
    d.observeReview reviewId reviewer state headSha summary

/-- The name a check is recorded under, and its result. -/
def check? : CandidateObservation → Option (String × Bool)
  | ci passed checkRunId _ checkName =>
    some (recordedName checkRunId checkName, passed)
  | _ => none

/-- The name a reviewer is recorded under, and the review. -/
def review? : CandidateObservation → Option (String × ReviewState)
  | review _ reviewer state _ _ => some (normalize reviewer, state)
  | _ => none

end CandidateObservation

/-- The candidate after a sequence of observations; a refused one changes nothing. -/
def observeAll (d : RepositoryDelivery) (os : List CandidateObservation) : RepositoryDelivery :=
  os.foldl (Runs.attempt CandidateObservation.apply) d

/-- The observations of the sequence that are accepted. -/
def accepted (d : RepositoryDelivery) (os : List CandidateObservation) :
    List CandidateObservation :=
  ((Runs.steps (Runs.attempt CandidateObservation.apply) d os).filter fun p =>
    (p.2.apply p.1).isOk).map (·.2)

/-- The results of checks that were accepted, in order. -/
def checkLog (d : RepositoryDelivery) (os : List CandidateObservation) : List (String × Bool) :=
  (accepted d os).filterMap CandidateObservation.check?

/-- The reviews that were accepted, in order. -/
def reviewLog (d : RepositoryDelivery) (os : List CandidateObservation) :
    List (String × ReviewState) :=
  (accepted d os).filterMap CandidateObservation.review?

/-- The latest result of a check. -/
def latestCheck (d : RepositoryDelivery) (os : List CandidateObservation) (name : String) :
    Option Bool :=
  (latest Prod.fst (checkLog d os) name).map (·.2)

/-- The latest review of a reviewer. -/
def latestReview (d : RepositoryDelivery) (os : List CandidateObservation) (reviewer : String) :
    Option ReviewState :=
  (latest Prod.fst (reviewLog d os) reviewer).map (·.2)

/-- A fresh candidate, or one that was just revised: nothing was observed on its head yet. -/
def Unobserved (d : RepositoryDelivery) : Prop :=
  (∃ item order, RepositoryDelivery.create item order = .ok d) ∨
    ∃ before taskId previous head, RepositoryDelivery.revise before taskId previous head = .ok d

/-! ## What the status is computed from -/

namespace RepositoryDelivery

/-- The recorded result of a check. -/
def passedOf (d : RepositoryDelivery) (name : String) : Option Bool :=
  (d.checkNamed name).map (·.passed)

theorem readinessStatus_observed (d : RepositoryDelivery) :
    d.readinessStatus ≠ .pending ∧ d.readinessStatus ≠ .prOpen := by
  unfold readinessStatus
  dsimp only
  split_ifs <;> decide

theorem any_not_passed (d : RepositoryDelivery) (name : String) :
    ((d.checkNamed name).any fun item => !item.passed) = (d.passedOf name == some false) := by
  unfold passedOf
  cases d.checkNamed name with
  | none => rfl
  | some item => cases h : item.passed <;> simp [h]

theorem any_passed (d : RepositoryDelivery) (name : String) :
    ((d.checkNamed name).any fun item => item.passed) = (d.passedOf name == some true) := by
  unfold passedOf
  cases d.checkNamed name with
  | none => rfl
  | some item => cases h : item.passed <;> simp [h]

/-- The result of the check reported last. -/
def lastPassed (d : RepositoryDelivery) : Option Bool := d.ciChecks.getLast?.map (·.passed)

theorem last_not_passed (d : RepositoryDelivery) :
    (d.ciChecks.getLast?.any fun item => !item.passed) = (d.lastPassed == some false) := by
  unfold lastPassed
  cases d.ciChecks.getLast? with
  | none => rfl
  | some item => cases h : item.passed <;> simp [h]

theorem readinessStatus_unrequired {d : RepositoryDelivery} (h : d.requiredChecks = []) :
    d.readinessStatus = .ciFailed ↔ d.lastPassed = some false := by
  have hnames : d.requiredNames = [] := by rw [requiredNames, h]; rfl
  unfold readinessStatus
  dsimp only
  rw [hnames, last_not_passed]
  by_cases hlast : d.lastPassed = some false
  · simp [hlast]
  · simp only [hlast, iff_false]
    split_ifs <;> simp_all

theorem of_readinessStatus_ready {d : RepositoryDelivery} (h : d.readinessStatus = .readyToMerge) :
    (∀ name ∈ d.requiredNames, d.passedOf name = some true) ∧
      (d.requiredNames = [] → d.ciChecks ≠ [] ∧ d.lastPassed ≠ some false) ∧
      (∀ item ∈ d.reviews, item.state ≠ .changesRequested) ∧
      d.requiredApprovals ≤ d.approvals.length := by
  unfold readinessStatus at h
  dsimp only at h
  rw [last_not_passed] at h
  simp only [any_not_passed, any_passed] at h
  split_ifs at h with hfailed hpending hlast hchanges happrovals hnone
  refine ⟨fun name hname => ?_, fun hnames => ?_, fun item hitem hstate => ?_, by omega⟩
  · have hne : d.requiredNames ≠ [] := List.ne_nil_of_mem hname
    have hall : d.requiredNames.all (fun name => d.passedOf name == some true) = true := by
      by_contra hall
      exact hpending ⟨hne, hall⟩
    simpa using List.all_eq_true.mp hall name hname
  · refine ⟨fun hchecks => hnone ⟨hnames, hchecks⟩, fun hfalse => hlast ⟨hnames, ?_⟩⟩
    rw [hfalse]
    rfl
  · exact hchanges (List.any_eq_true.mpr ⟨item, hitem, by simpa using hstate⟩)

/-- **The status is a function of the evidence**: of the required checks and approvals, of what each
check and each review is recorded as, and, without required checks, of the check reported last. -/
theorem readinessStatus_congr {d d' : RepositoryDelivery}
    (hrequired : d.requiredChecks = d'.requiredChecks)
    (happrovals : d.requiredApprovals = d'.requiredApprovals)
    (hchecks : ∀ name, d.passedOf name = d'.passedOf name)
    (hlast : d.requiredChecks = [] → d.lastPassed = d'.lastPassed)
    (hreviews : ∀ r, r ∈ d.reviews.map (fun r => (r.reviewer, r.state)) ↔
      r ∈ d'.reviews.map (fun r => (r.reviewer, r.state))) :
    d.readinessStatus = d'.readinessStatus := by
  have hnames : d.requiredNames = d'.requiredNames := by rw [requiredNames, hrequired]; rfl
  have hchanges : (d.reviews.any fun item => item.state = .changesRequested) =
      (d'.reviews.any fun item => item.state = .changesRequested) := by
    have hany : ∀ e : RepositoryDelivery,
        (e.reviews.any fun item => item.state = .changesRequested) =
          ((e.reviews.map fun r => (r.reviewer, r.state)).any fun p =>
            p.2 = .changesRequested) := by
      intro e
      rw [List.any_map]
      rfl
    rw [hany, hany, Bool.eq_iff_iff, List.any_eq_true, List.any_eq_true]
    exact exists_congr fun p => and_congr_left fun _ => hreviews p
  have hlength : d.approvals.length = d'.approvals.length := by
    have hmem : ∀ (e : RepositoryDelivery) (r : String), r ∈ e.approvals ↔
        (r, ReviewState.approved) ∈ e.reviews.map fun r => (r.reviewer, r.state) := by
      intro e r
      simp only [approvals, List.mem_dedup, List.mem_map, List.mem_filter, decide_eq_true_eq,
        Prod.mk.injEq]
      exact ⟨fun ⟨x, ⟨hx, hs⟩, hr⟩ => ⟨x, hx, hr, hs⟩, fun ⟨x, hx, hr, hs⟩ => ⟨x, ⟨hx, hs⟩, hr⟩⟩
    refine ((List.perm_ext_iff_of_nodup (List.nodup_dedup _) (List.nodup_dedup _)).mpr
      fun r => ?_).length_eq
    exact (hmem d r).trans ((hreviews _).trans (hmem d' r).symm)
  have hempty : d.requiredNames = [] → (d.ciChecks = [] ↔ d'.ciChecks = []) := by
    intro hnil
    have hl := hlast (List.map_eq_nil_iff.mp hnil)
    have hnone : ∀ e : RepositoryDelivery, e.ciChecks = [] ↔ e.lastPassed = none := fun e =>
      List.getLast?_eq_none_iff.symm.trans Option.map_eq_none_iff.symm
    rw [hnone, hnone, hl]
  unfold readinessStatus
  dsimp only
  simp only [any_not_passed, any_passed, last_not_passed, hchecks]
  rw [hchanges, hlength, happrovals, ← hnames]
  by_cases hnil : d.requiredNames = []
  · rw [hlast (List.map_eq_nil_iff.mp hnil)]
    simp only [hempty hnil]
  · simp only [hnil, false_and]

end RepositoryDelivery

/-! ## What the observations leave -/

/-- What a sequence of observations leaves of a candidate on which nothing was observed before:
the latest result of each check and the latest review of each reviewer. -/
structure Recorded (d₀ d : RepositoryDelivery) (results : List (String × Bool))
    (states : List (String × ReviewState)) : Prop where
  checks : d.ciChecks.map (fun c => (c.checkName, c.passed)) = table Prod.fst results
  reviews : d.reviews.map (fun r => (r.reviewer, r.state)) = table Prod.fst states
  required : d.requiredChecks = d₀.requiredChecks
  approvals : d.requiredApprovals = d₀.requiredApprovals
  opened : d.pullRequestNumber = none → results = [] ∧ states = []
  unobserved : results = [] → states = [] →
    d.status = if d.pullRequestNumber.isSome then .prOpen else .pending
  observed : results ≠ [] ∨ states ≠ [] → d.status = d.readinessStatus

theorem recorded_of_unobserved {d : RepositoryDelivery} (h : Unobserved d) :
    Recorded d d [] [] := by
  have hevidence : d.ciChecks = [] ∧ d.reviews = [] ∧
      d.status = if d.pullRequestNumber.isSome then .prOpen else .pending := by
    rcases h with ⟨item, order, h⟩ | ⟨before, taskId, previous, head, h⟩
    · unfold RepositoryDelivery.create at h
      dsimp only at h
      split_ifs at h
      rw [← Except.ok.inj h]
      exact ⟨rfl, rfl, rfl⟩
    · unfold RepositoryDelivery.revise at h
      split at h
      · cases h
      · split at h
        · cases h
        · split at h
          · cases h
          · split at h
            · cases h
            · rw [← Except.ok.inj h]
              exact ⟨rfl, rfl, rfl⟩
  obtain ⟨hchecks, hreviews, hstatus⟩ := hevidence
  exact
    { checks := by rw [hchecks]; rfl
      reviews := by rw [hreviews]; rfl
      required := rfl
      approvals := rfl
      opened := fun _ => ⟨rfl, rfl⟩
      unobserved := fun _ _ => hstatus
      observed := fun h => absurd h (by simp) }

theorem map_put {α β : Type} (name : α → String) (value : α → β) (rows : List α) (new : α) :
    (rows.filter (fun row => name row ≠ name new) ++ [new]).map (fun r => (name r, value r)) =
      put Prod.fst (rows.map fun r => (name r, value r)) (name new, value new) := by
  rw [put, List.map_append, List.filter_map]
  rfl

theorem readinessStatus_withStatus (d : RepositoryDelivery) (status : RepositoryDeliveryStatus) :
    { d with status := status }.readinessStatus = d.readinessStatus := by
  unfold RepositoryDelivery.readinessStatus RepositoryDelivery.requiredNames
    RepositoryDelivery.checkNamed RepositoryDelivery.approvals
  rfl

theorem observeCi_records {d d' : RepositoryDelivery} {passed : Bool}
    {checkRunId summary checkName : String}
    (h : d.observeCi passed checkRunId summary checkName = .ok d') :
    d.pullRequestNumber ≠ none ∧ ∃ item : CICheckObservation,
      item.checkName = recordedName checkRunId checkName ∧ item.passed = passed ∧
      item.checkRunId = strip checkRunId ∧ ∃ e : RepositoryDelivery,
        e.ciChecks = d.ciChecks.filter (fun c => c.checkName ≠ item.checkName) ++ [item] ∧
        e.reviews = d.reviews ∧ e.requiredChecks = d.requiredChecks ∧
        e.requiredApprovals = d.requiredApprovals ∧
        e.pullRequestNumber = d.pullRequestNumber ∧ e.commitSha = d.commitSha ∧
        d' = { e with status := e.readinessStatus } := by
  unfold RepositoryDelivery.observeCi at h
  split at h
  · cases h
  · rename_i hopen
    let item : CICheckObservation :=
      ⟨recordedName checkRunId checkName, strip checkRunId, passed, strip summary⟩
    exact ⟨hopen, item, rfl, rfl, rfl,
      { d with
        ciCheckRunId := some (strip checkRunId)
        ciSummary := some (strip summary)
        ciChecks := d.ciChecks.filter (fun c => c.checkName ≠ item.checkName) ++ [item] },
      rfl, rfl, rfl, rfl, rfl, rfl, (Except.ok.inj h).symm⟩

theorem observeReview_records {d d' : RepositoryDelivery} {reviewId reviewer : String}
    {state : ReviewState} {headSha summary : String}
    (h : d.observeReview reviewId reviewer state headSha summary = .ok d') :
    d.pullRequestNumber ≠ none ∧ ∃ item : ReviewObservation,
      item.reviewer = normalize reviewer ∧ item.state = state ∧ ∃ e : RepositoryDelivery,
        e.ciChecks = d.ciChecks ∧
        e.reviews = d.reviews.filter (fun r => r.reviewer ≠ item.reviewer) ++ [item] ∧
        e.requiredChecks = d.requiredChecks ∧ e.requiredApprovals = d.requiredApprovals ∧
        e.pullRequestNumber = d.pullRequestNumber ∧
        d' = { e with status := e.readinessStatus } := by
  unfold RepositoryDelivery.observeReview at h
  dsimp only at h
  split_ifs at h with hopen hhead hblank
  let item : ReviewObservation := ⟨strip reviewId, normalize reviewer, state, strip summary⟩
  exact ⟨hopen, item, rfl, rfl,
    { d with reviews := d.reviews.filter (fun r => r.reviewer ≠ item.reviewer) ++ [item] },
    rfl, rfl, rfl, rfl, rfl, (Except.ok.inj h).symm⟩

/-- **One observation.** -/
theorem Recorded.step {d₀ d d' : RepositoryDelivery} {results : List (String × Bool)}
    {states : List (String × ReviewState)} (h : Recorded d₀ d results states)
    {o : CandidateObservation} (happly : o.apply d = .ok d') :
    Recorded d₀ d' (results ++ o.check?.toList) (states ++ o.review?.toList) := by
  cases o with
  | pr number url headSha =>
    simp only [CandidateObservation.apply, RepositoryDelivery.observePr] at happly
    split_ifs at happly with hhead hstatus
    rw [← Except.ok.inj happly]
    have hnone : results = [] ∧ states = [] := by
      by_contra hsome
      rw [h.observed (not_and_or.mp hsome)] at hstatus
      exact hstatus d.readinessStatus_observed
    obtain ⟨rfl, rfl⟩ := hnone
    exact
      { checks := h.checks
        reviews := h.reviews
        required := h.required
        approvals := h.approvals
        opened := fun hnone => by cases hnone
        unobserved := fun _ _ => rfl
        observed := fun hsome => absurd hsome
          (by simp [CandidateObservation.check?, CandidateObservation.review?]) }
  | ci passed checkRunId summary checkName =>
    obtain ⟨hopen, item, hname, rfl, -, e, hchecks, hreviews, hrequired, happrovals, hnumber, -,
      rfl⟩ := observeCi_records happly
    exact
      { checks := by
          have hput := map_put CICheckObservation.checkName CICheckObservation.passed
            d.ciChecks item
          rw [← hchecks, h.checks, hname] at hput
          exact hput.trans table_snoc.symm
        reviews := by
          rw [CandidateObservation.review?.eq_def, Option.toList_none, List.append_nil, ← h.reviews,
            ← hreviews]
        required := hrequired.trans h.required
        approvals := happrovals.trans h.approvals
        opened := fun hnone => absurd (hnumber.symm.trans hnone) hopen
        unobserved := fun hnil => by simp [CandidateObservation.check?] at hnil
        observed := fun _ => (readinessStatus_withStatus e _).symm }
  | review reviewId reviewer state headSha summary =>
    obtain ⟨hopen, item, hname, rfl, e, hchecks, hreviews, hrequired, happrovals, hnumber, rfl⟩ :=
      observeReview_records happly
    exact
      { checks := by
          rw [CandidateObservation.check?.eq_def, Option.toList_none, List.append_nil, ← h.checks,
            ← hchecks]
        reviews := by
          have hput := map_put ReviewObservation.reviewer ReviewObservation.state d.reviews item
          rw [← hreviews, h.reviews, hname] at hput
          exact hput.trans table_snoc.symm
        required := hrequired.trans h.required
        approvals := happrovals.trans h.approvals
        opened := fun hnone => absurd (hnumber.symm.trans hnone) hopen
        unobserved := fun _ hnil => by simp [CandidateObservation.review?] at hnil
        observed := fun _ => (readinessStatus_withStatus e _).symm }

theorem accepted_snoc (d : RepositoryDelivery) (os : List CandidateObservation)
    (o : CandidateObservation) :
    accepted d (os ++ [o]) =
      accepted d os ++ if (o.apply (observeAll d os)).isOk then [o] else [] := by
  rw [accepted, Runs.steps_append, List.filter_append, List.map_append]
  congr 1
  have hstep : ((o.apply (List.foldl (Runs.attempt CandidateObservation.apply) d os)).isOk) =
      (o.apply (observeAll d os)).isOk := rfl
  rw [Runs.steps, Runs.steps, List.filter_cons, hstep, List.filter_nil]
  split_ifs <;> rfl

/-- **All observations.** -/
theorem recorded_observeAll {d : RepositoryDelivery} (h : Unobserved d)
    (os : List CandidateObservation) :
    Recorded d (observeAll d os) (checkLog d os) (reviewLog d os) := by
  induction os using List.reverseRecOn with
  | nil => exact recorded_of_unobserved h
  | append_singleton os o ih =>
    have hstate : observeAll d (os ++ [o]) =
        Runs.attempt CandidateObservation.apply (observeAll d os) o := by
      rw [observeAll, List.foldl_append]
      rfl
    rw [checkLog, reviewLog, accepted_snoc, List.filterMap_append, List.filterMap_append, hstate]
    cases happly : o.apply (observeAll d os) with
    | error e =>
      have hrefused : (Except.error e : Except Raised RepositoryDelivery).isOk = false := rfl
      rw [Runs.attempt_error happly, hrefused]
      simpa [checkLog, reviewLog] using ih
    | ok d' =>
      have hok : (Except.ok d' : Except Raised RepositoryDelivery).isOk = true := rfl
      rw [Runs.attempt_ok happly, hok, if_pos rfl]
      have hlogs : ∀ {β : Type} (f : CandidateObservation → Option β),
          [o].filterMap f = (f o).toList := by
        intro β f
        cases hf : f o <;> simp [hf]
      rw [hlogs, hlogs]
      exact ih.step happly

theorem passedOf_observeAll {d : RepositoryDelivery} (h : Unobserved d)
    (os : List CandidateObservation) (name : String) :
    (observeAll d os).passedOf name = latestCheck d os name := by
  have hmap := latest_map CICheckObservation.checkName (observeAll d os).ciChecks name Prod.fst
    (fun c : CICheckObservation => (c.checkName, c.passed)) fun _ => rfl
  rw [(recorded_observeAll h os).checks, latest_table] at hmap
  rw [latestCheck, hmap, Option.map_map]
  rfl

theorem mem_reviews_observeAll {d : RepositoryDelivery} (h : Unobserved d)
    (os : List CandidateObservation) (reviewer : String) (state : ReviewState) :
    (reviewer, state) ∈ (observeAll d os).reviews.map (fun r => (r.reviewer, r.state)) ↔
      latestReview d os reviewer = some state := by
  rw [(recorded_observeAll h os).reviews, mem_table, latestReview, Option.map_eq_some_iff]
  constructor
  · exact fun hlatest => ⟨_, hlatest, rfl⟩
  · rintro ⟨⟨r, s⟩, hlatest, rfl⟩
    obtain rfl : r = reviewer := (mem_of_latest hlatest).2
    exact hlatest

theorem lastPassed_observeAll {d : RepositoryDelivery} (h : Unobserved d)
    (os : List CandidateObservation) :
    (observeAll d os).lastPassed = (checkLog d os).getLast?.map (·.2) := by
  rw [RepositoryDelivery.lastPassed, ← getLast?_table Prod.fst,
    ← (recorded_observeAll h os).checks, List.getLast?_map, Option.map_map]
  rfl

/-! ## Readiness -/

/-- What readiness promises of the observations on the head. -/
structure Ready (d : RepositoryDelivery) (os : List CandidateObservation) : Prop where
  required : ∀ name ∈ d.requiredChecks, latestCheck d os (normalize name) = some true
  unrequired : d.requiredChecks = [] → (∃ name, latestCheck d os name ≠ none) ∧
    ∀ name, latestCheck d os name ≠ some false
  reviews : ∀ reviewer, latestReview d os reviewer ≠ some .changesRequested
  approvals : ∃ reviewers : List String, reviewers.Nodup ∧
    d.requiredApprovals ≤ reviewers.length ∧
      ∀ reviewer ∈ reviewers, latestReview d os reviewer = some .approved

/-- Two sequences show the same: of each check, of each reviewer, and of whether there is a pull
request. -/
structure SameEvidence (d : RepositoryDelivery) (os os' : List CandidateObservation) : Prop where
  checks : ∀ name, latestCheck d os name = latestCheck d os' name
  reviews : ∀ reviewer, latestReview d os reviewer = latestReview d os' reviewer
  opened : (observeAll d os).pullRequestNumber.isSome = (observeAll d os').pullRequestNumber.isSome

/-- The status is sound, and it depends on the latest observations only. -/
structure ReadinessSound (d : RepositoryDelivery) (os : List CandidateObservation) : Prop where
  sound : (observeAll d os).status = .readyToMerge → Ready d os
  unordered : ∀ os', SameEvidence d os os' → (observeAll d os').status = (observeAll d os).status

/-- The checks observed on the head agree: their latest results are all passes or all failures. -/
def ChecksAgree (d : RepositoryDelivery) (os : List CandidateObservation) : Prop :=
  ∀ name name' passed passed', latestCheck d os name = some passed →
    latestCheck d os name' = some passed' → passed = passed'

theorem latestCheck_of_last {d : RepositoryDelivery} {os : List CandidateObservation} {name : String}
    {passed : Bool} (h : (checkLog d os).getLast? = some (name, passed)) :
    latestCheck d os name = some passed := by
  obtain ⟨log, hlog⟩ := List.getLast?_eq_some_iff.mp h
  rw [latestCheck, hlog, latest_snoc, if_pos rfl]
  rfl

theorem checkLog_eq_nil {d : RepositoryDelivery} {os : List CandidateObservation} :
    checkLog d os = [] ↔ ∀ name, latestCheck d os name = none := by
  constructor
  · intro h name
    rw [latestCheck, h]
    rfl
  · intro h
    rw [← List.getLast?_eq_none_iff]
    cases hlast : (checkLog d os).getLast? with
    | none => rfl
    | some p =>
      have hlatest := latestCheck_of_last hlast
      rw [h p.1] at hlatest
      cases hlatest

theorem reviewLog_eq_nil {d : RepositoryDelivery} {os : List CandidateObservation} :
    reviewLog d os = [] ↔ ∀ reviewer, latestReview d os reviewer = none := by
  constructor
  · intro h reviewer
    rw [latestReview, h]
    rfl
  · intro h
    rw [← table_eq_nil Prod.fst, List.eq_nil_iff_forall_not_mem]
    intro p hp
    have hnone := h p.1
    rw [latestReview, mem_table.mp hp] at hnone
    cases hnone

theorem observed_of_ready {d : RepositoryDelivery} (h : Unobserved d)
    {os : List CandidateObservation} (hready : (observeAll d os).status = .readyToMerge) :
    (observeAll d os).readinessStatus = .readyToMerge := by
  have hrecorded := recorded_observeAll h os
  by_cases hsome : checkLog d os ≠ [] ∨ reviewLog d os ≠ []
  · rw [← hrecorded.observed hsome]
    exact hready
  · push Not at hsome
    rw [hrecorded.unobserved hsome.1 hsome.2] at hready
    split_ifs at hready

/-- **Soundness.** -/
theorem ready_of_status {d : RepositoryDelivery} (h : Unobserved d)
    {os : List CandidateObservation} (hagree : d.requiredChecks ≠ [] ∨ ChecksAgree d os)
    (hready : (observeAll d os).status = .readyToMerge) : Ready d os := by
  have hrecorded := recorded_observeAll h os
  obtain ⟨hrequired, hlast, hreviews, happrovals⟩ :=
    RepositoryDelivery.of_readinessStatus_ready (observed_of_ready h hready)
  rw [RepositoryDelivery.requiredNames, hrecorded.required] at hrequired hlast
  constructor
  · intro name hname
    rw [← passedOf_observeAll h]
    exact hrequired _ (List.mem_map_of_mem hname)
  · intro hnone
    obtain ⟨hchecks, hpassed⟩ := hlast (by rw [hnone]; rfl)
    have hlog : checkLog d os ≠ [] := by
      intro hnil
      have hmap := hrecorded.checks
      rw [hnil, table_nil, List.map_eq_nil_iff] at hmap
      exact hchecks hmap
    obtain ⟨⟨name, passed⟩, hend⟩ := Option.ne_none_iff_exists'.mp
      (mt List.getLast?_eq_none_iff.mp hlog)
    have hlatest : latestCheck d os name = some passed := latestCheck_of_last hend
    rw [lastPassed_observeAll h, hend] at hpassed
    refine ⟨⟨name, by rw [hlatest]; exact Option.some_ne_none _⟩, fun name' hfailed => ?_⟩
    obtain rfl : passed = false :=
      (hagree.resolve_left (not_not.mpr hnone)) name name' passed false hlatest hfailed
    exact hpassed rfl
  · intro reviewer hchanges
    obtain ⟨item, hitem, heq⟩ := List.mem_map.mp ((mem_reviews_observeAll h os _ _).mpr hchanges)
    exact hreviews item hitem (Prod.ext_iff.mp heq).2
  · refine ⟨(observeAll d os).approvals, List.nodup_dedup _, ?_, fun reviewer hreviewer => ?_⟩
    · rw [← hrecorded.approvals]
      exact happrovals
    · rw [← mem_reviews_observeAll h]
      simp only [RepositoryDelivery.approvals, List.mem_dedup, List.mem_map, List.mem_filter,
        decide_eq_true_eq] at hreviewer
      obtain ⟨item, ⟨hitem, hstate⟩, rfl⟩ := hreviewer
      exact List.mem_map.mpr ⟨item, hitem, by rw [hstate]⟩

/-- **Order does not matter**, where the checks agree or are required. -/
theorem status_of_sameEvidence {d : RepositoryDelivery} (h : Unobserved d)
    {os os' : List CandidateObservation} (hagree : d.requiredChecks ≠ [] ∨ ChecksAgree d os)
    (hsame : SameEvidence d os os') : (observeAll d os').status = (observeAll d os).status := by
  have hrecorded := recorded_observeAll h os
  have hrecorded' := recorded_observeAll h os'
  have hchecks : checkLog d os = [] ↔ checkLog d os' = [] := by
    rw [checkLog_eq_nil, checkLog_eq_nil]
    exact forall_congr' fun name => by rw [hsame.checks name]
  have hreviews : reviewLog d os = [] ↔ reviewLog d os' = [] := by
    rw [reviewLog_eq_nil, reviewLog_eq_nil]
    exact forall_congr' fun reviewer => by rw [hsame.reviews reviewer]
  by_cases hsome : checkLog d os ≠ [] ∨ reviewLog d os ≠ []
  · have hsome' : checkLog d os' ≠ [] ∨ reviewLog d os' ≠ [] :=
      hsome.imp (mt hchecks.mpr) (mt hreviews.mpr)
    rw [hrecorded.observed hsome, hrecorded'.observed hsome']
    refine RepositoryDelivery.readinessStatus_congr (hrecorded'.required.trans
      hrecorded.required.symm) (hrecorded'.approvals.trans hrecorded.approvals.symm)
      (fun name => ?_) (fun hnone => ?_) (fun r => ?_)
    · rw [passedOf_observeAll h, passedOf_observeAll h, hsame.checks]
    · rw [lastPassed_observeAll h, lastPassed_observeAll h]
      have hagree' := hagree.resolve_left (not_not.mpr (hrecorded'.required.symm.trans hnone))
      cases hlast : (checkLog d os).getLast? with
      | none => rw [hchecks.mp (List.getLast?_eq_none_iff.mp hlast)]; rfl
      | some p =>
        cases hlast' : (checkLog d os').getLast? with
        | none =>
          rw [hchecks.mpr (List.getLast?_eq_none_iff.mp hlast')] at hlast
          cases hlast
        | some p' =>
          have hp' : latestCheck d os p'.1 = some p'.2 :=
            (hsame.checks p'.1).trans (latestCheck_of_last hlast')
          exact congrArg some (hagree' _ _ _ _ hp' (latestCheck_of_last hlast))
    · rw [← Prod.mk.eta (p := r), mem_reviews_observeAll h, mem_reviews_observeAll h,
        hsame.reviews]
  · push Not at hsome
    rw [hrecorded.unobserved hsome.1 hsome.2,
      hrecorded'.unobserved (hchecks.mp hsome.1) (hreviews.mp hsome.2), hsame.opened]

theorem mem_accepted_of_latestCheck {d : RepositoryDelivery} {os : List CandidateObservation}
    {name : String} {passed : Bool} (h : latestCheck d os name = some passed) :
    ∃ checkRunId summary checkName, recordedName checkRunId checkName = name ∧
      CandidateObservation.ci passed checkRunId summary checkName ∈ accepted d os := by
  obtain ⟨p, hp, rfl⟩ := Option.map_eq_some_iff.mp h
  obtain ⟨hmem, rfl⟩ := mem_of_latest hp
  obtain ⟨o, ho, hcheck⟩ := List.mem_filterMap.mp hmem
  cases o with
  | ci passed checkRunId summary checkName =>
    obtain rfl := Option.some.inj hcheck
    exact ⟨checkRunId, summary, checkName, rfl, ho⟩
  | pr number url headSha => cases hcheck
  | review reviewId reviewer state headSha summary => cases hcheck

/-- **Reporting a result again** shows nothing new, but makes it the one reported last. -/
theorem sameEvidence_repeated {d : RepositoryDelivery} (h : Unobserved d)
    {os : List CandidateObservation} {name : String} {passed : Bool}
    (hlatest : latestCheck d os name = some passed) :
    ∃ os', SameEvidence d os os' ∧ checkLog d os' = checkLog d os ++ [(name, passed)] := by
  obtain ⟨checkRunId, summary, checkName, rfl, -⟩ := mem_accepted_of_latestCheck hlatest
  have hopen : (observeAll d os).pullRequestNumber ≠ none := by
    intro hnone
    have hnil := ((recorded_observeAll h os).opened hnone).1
    rw [checkLog_eq_nil.mp hnil] at hlatest
    cases hlatest
  let o : CandidateObservation := .ci passed checkRunId summary checkName
  obtain ⟨d', happly⟩ : ∃ d', o.apply (observeAll d os) = .ok d' := by
    rw [CandidateObservation.apply, RepositoryDelivery.observeCi, if_neg hopen]
    exact ⟨_, rfl⟩
  have haccepted : accepted d (os ++ [o]) = accepted d os ++ [o] := by
    rw [accepted_snoc, happly]
    rfl
  have hlog : checkLog d (os ++ [o]) =
      checkLog d os ++ [(recordedName checkRunId checkName, passed)] := by
    rw [checkLog, haccepted, List.filterMap_append]
    rfl
  have hreviews : reviewLog d (os ++ [o]) = reviewLog d os := by
    rw [reviewLog, haccepted, List.filterMap_append]
    exact List.append_nil _
  have hstate : observeAll d (os ++ [o]) = d' := by
    rw [observeAll, List.foldl_append]
    exact Runs.attempt_ok happly
  refine ⟨os ++ [o], ⟨fun name => ?_, fun reviewer => ?_, ?_⟩, hlog⟩
  · rw [latestCheck, latestCheck, hlog, latest_snoc]
    split_ifs with hname
    · have hlatest' := hlatest
      rw [latestCheck, show recordedName checkRunId checkName = name from hname] at hlatest'
      exact hlatest'
    · rfl
  · rw [latestReview, latestReview, hreviews]
  · obtain ⟨-, item, -, -, -, e, -, -, -, -, hnumber, -, rfl⟩ := observeCi_records happly
    rw [hstate]
    exact congrArg Option.isSome hnumber.symm

/-- **Readiness.** The status of a candidate is sound and depends on the latest observations only,
exactly when checks are required or those that reported agree. -/
theorem readiness_sound_iff {d : RepositoryDelivery} (h : Unobserved d)
    (os : List CandidateObservation) :
    ReadinessSound d os ↔ d.requiredChecks ≠ [] ∨ ChecksAgree d os := by
  constructor
  · intro hsound
    by_contra hno
    push Not at hno
    obtain ⟨hnone, hdisagree⟩ := hno
    simp only [ChecksAgree, not_forall] at hdisagree
    obtain ⟨name, name', passed, passed', hname, hname', hne⟩ := hdisagree
    have hlog : checkLog d os ≠ [] := by
      intro hnil
      rw [checkLog_eq_nil.mp hnil] at hname
      cases hname
    obtain ⟨⟨last, result⟩, hend⟩ := Option.ne_none_iff_exists'.mp
      (mt List.getLast?_eq_none_iff.mp hlog)
    -- one of the two results is not the one reported last; reporting it again turns the status
    obtain ⟨other, hother⟩ : ∃ other, latestCheck d os other = some (!result) := by
      cases result <;> cases passed <;> cases passed' <;>
        first
          | exact absurd rfl hne
          | exact ⟨name, hname⟩
          | exact ⟨name', hname'⟩
    obtain ⟨os', hsame, hlog'⟩ := sameEvidence_repeated h hother
    have hstatus := hsound.unordered os' hsame
    have hrecorded := recorded_observeAll h os
    have hrecorded' := recorded_observeAll h os'
    rw [hrecorded.observed (Or.inl hlog),
      hrecorded'.observed (Or.inl (by rw [hlog']; simp))] at hstatus
    have hfailed := RepositoryDelivery.readinessStatus_unrequired
      (hrecorded.required.trans hnone)
    have hfailed' := RepositoryDelivery.readinessStatus_unrequired
      (hrecorded'.required.trans hnone)
    rw [lastPassed_observeAll h, hend] at hfailed
    rw [lastPassed_observeAll h, hlog', List.getLast?_append] at hfailed'
    rw [hstatus, hfailed] at hfailed'
    cases result <;> simp at hfailed'
  · intro hagree
    exact ⟨ready_of_status h hagree, fun os' hsame => status_of_sameEvidence h hagree hsame⟩

theorem unobserved_sampleCandidate : Unobserved sampleCandidate :=
  Or.inl ⟨sampleInput, 0, by decide⟩

/-- With one check on its head, which passed, the sample candidate is ready and rightly so. -/
theorem readiness_sound_sample :
    ReadinessSound sampleCandidate
      [.pr 7 "https://forge/7" "aaaaaaaaaaaaaaaaaaaaaaaaaaaaaaaaaaaaaaaa",
        .ci true "2" "clean" "lint"] := by
  refine (readiness_sound_iff unobserved_sampleCandidate _).mpr (Or.inr ?_)
  have hlog : checkLog sampleCandidate
      [.pr 7 "https://forge/7" "aaaaaaaaaaaaaaaaaaaaaaaaaaaaaaaaaaaaaaaa",
        .ci true "2" "clean" "lint"] = [("lint", true)] := by decide +kernel
  intro name name' passed passed' hname hname'
  rw [latestCheck, hlog, Option.map_eq_some_iff] at hname hname'
  obtain ⟨p, hp, rfl⟩ := hname
  obtain ⟨p', hp', rfl⟩ := hname'
  rw [List.mem_singleton.mp (mem_of_latest hp).1, List.mem_singleton.mp (mem_of_latest hp').1]

/-- Two checks that are not required: the unit tests fail, then the linter passes. -/
def mixedChecks : List CandidateObservation :=
  [.pr 7 "https://forge/7" "aaaaaaaaaaaaaaaaaaaaaaaaaaaaaaaaaaaaaaaa",
    .ci false "1" "2 tests failed" "unit", .ci true "2" "clean" "lint"]

/-- The candidate is ready, though the latest result of the unit tests is a failure. -/
theorem failed_check_is_ready : ¬ ∀ d os, Unobserved d → ReadinessSound d os := by
  intro h
  have hready : (observeAll sampleCandidate mixedChecks).status = .readyToMerge := by
    decide +kernel
  have hfailed : latestCheck sampleCandidate mixedChecks "unit" = some false := by decide +kernel
  have hsound := (h sampleCandidate mixedChecks unobserved_sampleCandidate).sound hready
  exact (hsound.unrequired rfl).2 "unit" hfailed

end Delivery
end RepoMesh
