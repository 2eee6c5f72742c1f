/-
# One operation at the checkpoint gate

What the tables of the checkpoint service keep between any two operations, whoever performs them: review
requests are told apart by their evidence, each is decided once, and only a decided one is closed. And
what an operation leaves to every other call.
-/
import RepoMesh.Project.Checkpoints

namespace RepoMesh
namespace Project

open Async (Prog)
open Delivery (UUID)
open Orchestration (CheckpointGateDecision)
open Text
open CheckpointTables

/-! ## What callers are told -/

/-- The gate was open. -/
def Evaluation.Allowed (e : Evaluation) : Prop := ∃ gate, e.result = .ok gate ∧ gate.allowed = true

/-- What was evaluated: the evidence without the space around it. -/
def EvaluateCheckpoint.asked (request : EvaluateCheckpoint) : ReviewSubject :=
  { request.subject with evidenceVersion := strip request.subject.evidenceVersion }

/-- The decisions on the checkpoint that was evaluated, on any evidence. -/
def Evaluation.candidates (e : Evaluation) : List ProjectCheckpointDecision :=
  decisionsOn e.looked.decisions e.request.subject.projectId e.request.subject.checkpoint
    e.request.subject.repositoryId

/-- Those on the evidence that was evaluated. -/
def Evaluation.onEvidence (e : Evaluation) : List ProjectCheckpointDecision :=
  e.looked.decisions.filter fun decision => decision.subject == e.request.asked

/-- The gate is open where the latest decision on the evidence approves it and the project is active. -/
def Evaluation.OpenWhenApproved (rule : LatestDecision) (e : Evaluation) : Prop :=
  ∀ topology, e.looked.topology = some topology → topology.operationalStatus = .active →
    ∀ decision, rule.pick e.onEvidence = some decision → decision.decision = .approved → e.Allowed

/-- Where a person has to approve, nothing on other evidence was decided after the approval. -/
def Evaluation.LatestApproves (rule : LatestDecision) (e : Evaluation) : Prop :=
  ∀ topology, e.looked.topology = some topology → topology.operationalStatus = .active →
    ∀ decision, rule.pick e.onEvidence = some decision → decision.decision = .approved →
      requiresHumanCheckpoint topology e.request.subject.checkpoint = true →
        rule.pick e.candidates = some decision

/-- The project is active, and the checkpoint is not required or its latest decision, on whatever
evidence, approves the one at hand. -/
def Evaluation.Admitted (rule : LatestDecision) (e : Evaluation) : Prop :=
  ∃ topology, e.looked.topology = some topology ∧ topology.operationalStatus = .active ∧
    (requiresHumanCheckpoint topology e.request.subject.checkpoint = false ∨
      ∃ decision, rule.pick e.candidates = some decision ∧
        decision.subject.evidenceVersion = strip e.request.subject.evidenceVersion ∧
        decision.decision = .approved)

/-- A decision that was answered is stored; one that raised is not, unless the notifier raised. -/
structure Settled (s : CheckpointTables) (r : Recording) : Prop where
  stored : ∀ decision, r.result = .ok decision → (r.call, decision) ∈ s.decisions
  raised : ∀ e, r.result = .error e →
    ((∀ decision, (r.call, decision) ∉ s.decisions) ↔ r.notifierRaised = false)

/-! ## Sound tables -/

/-- What holds between any two operations: review requests are told apart by their evidence, each is
decided once and about that evidence, and only a decided one is closed; and what callers were told. -/
structure Sound (rule : LatestDecision) (s : CheckpointTables) : Prop where
  reviewIds : (s.reviews.map (·.id)).Nodup
  subjects : (s.reviews.map (·.subject)).Nodup
  once : (s.stored.map (·.reviewRequestId)).Nodup
  backed : ∀ decision ∈ s.stored, ∃ review ∈ s.reviews, review.id = decision.reviewRequestId ∧
    review.subject = decision.subject
  closed : ∀ review ∈ s.reviews, review.status ≠ .pending →
    ∃ decision ∈ s.stored, decision.reviewRequestId = review.id
  looked : ∀ i, ∀ decision ∈ (s.looked i).decisions, decision ∈ s.stored
  evaluations : ∀ e ∈ s.evaluations, (e.Allowed ↔ e.Admitted rule) ∧
    ∀ decision ∈ e.looked.decisions, decision ∈ s.stored
  recordings : ∀ r ∈ s.recordings, Settled s r

/-- What the others leave to call `i`: what it has been shown and has done; the review requests, but
for what is decided on them; and, pending, the request that it has decided itself. -/
structure LeavesTo (i : ℕ) (s s' : CheckpointTables) : Prop where
  looked : s'.looked i = s.looked i
  notifierRaised : s'.notifierRaised i = s.notifierRaised i
  decisions : ∀ e ∈ s.decisions, e ∈ s'.decisions
  own : ∀ decision, (i, decision) ∈ s'.decisions → (i, decision) ∈ s.decisions
  reviews : ∀ review ∈ s.reviews, ∃ review' ∈ s'.reviews,
    review'.id = review.id ∧ review'.subject = review.subject
  pending : ∀ decision, (i, decision) ∈ s.decisions → ∀ review ∈ s.reviews,
    review.id = decision.reviewRequestId → review.status = .pending →
      ∃ review' ∈ s'.reviews, review'.id = review.id ∧ review'.status = .pending
  recordings : ∀ r ∈ s'.recordings, r.call = i → r ∈ s.recordings

theorem LeavesTo.refl (i : ℕ) (s : CheckpointTables) : LeavesTo i s s :=
  ⟨rfl, rfl, fun _ h => h, fun _ h => h, fun review h => ⟨review, h, rfl, rfl⟩,
    fun _ _ review h _ hpending => ⟨review, h, rfl, hpending⟩, fun _ h _ => h⟩

theorem LeavesTo.trans {i : ℕ} {a b c : CheckpointTables} (hab : LeavesTo i a b)
    (hbc : LeavesTo i b c) : LeavesTo i a c where
  looked := hbc.looked.trans hab.looked
  notifierRaised := hbc.notifierRaised.trans hab.notifierRaised
  decisions := fun e h => hbc.decisions e (hab.decisions e h)
  own := fun decision h => hab.own decision (hbc.own decision h)
  reviews := by
    intro review hreview
    obtain ⟨review', hreview', hid, hsubject⟩ := hab.reviews review hreview
    obtain ⟨review'', hreview'', hid', hsubject'⟩ := hbc.reviews review' hreview'
    exact ⟨review'', hreview'', hid'.trans hid, hsubject'.trans hsubject⟩
  pending := by
    intro decision hdecision review hreview hdecided hpending
    obtain ⟨review', hreview', hid, hpending'⟩ :=
      hab.pending decision hdecision review hreview hdecided hpending
    obtain ⟨review'', hreview'', hid', hpending''⟩ := hbc.pending decision
      (hab.decisions _ hdecision) review' hreview' (hid.trans hdecided) hpending'
    exact ⟨review'', hreview'', hid'.trans hid, hpending''⟩
  recordings := fun r h hcall => hab.recordings r (hbc.recordings r h hcall) hcall

/-- Calls that have done nothing yet. -/
structure Untouched (i : ℕ) (s : CheckpointTables) : Prop where
  looked : s.looked i = {}
  notifierRaised : s.notifierRaised i = false
  decisions : ∀ decision, (i, decision) ∉ s.decisions
  recordings : ∀ r ∈ s.recordings, r.call ≠ i

theorem sound_of_undecided {rule : LatestDecision} {s : CheckpointTables} (h : s.Undecided) :
    Sound rule s where
  reviewIds := by rw [h.reviews]; exact List.nodup_nil
  subjects := by rw [h.reviews]; exact List.nodup_nil
  once := by rw [stored, h.decisions]; exact List.nodup_nil
  backed := by rw [stored, h.decisions]; intro decision hdecision; cases hdecision
  closed := by rw [h.reviews]; intro review hreview; cases hreview
  looked := by
    intro i decision hdecision
    rw [h.looked] at hdecision
    cases hdecision
  evaluations := by rw [h.evaluations]; intro e he; cases he
  recordings := by rw [h.recordings]; intro r hr; cases hr

theorem Sound.call_eq {rule : LatestDecision} {s : CheckpointTables} (hs : Sound rule s) {i j : ℕ}
    {decision decision' : ProjectCheckpointDecision} (hi : (i, decision) ∈ s.decisions)
    (hj : (j, decision') ∈ s.decisions)
    (hsame : decision.reviewRequestId = decision'.reviewRequestId) : i = j := by
  have honce := hs.once
  rw [stored, List.map_map] at honce
  exact congrArg Prod.fst (List.inj_on_of_nodup_map honce hi hj hsame)

theorem Sound.unique {rule : LatestDecision} {s : CheckpointTables} (hs : Sound rule s)
    {decision decision' : ProjectCheckpointDecision} (hdecision : decision ∈ s.stored)
    (hdecision' : decision' ∈ s.stored) (hsame : decision.subject = decision'.subject) :
    decision = decision' := by
  obtain ⟨review, hreview, hid, hsubject⟩ := hs.backed decision hdecision
  obtain ⟨review', hreview', hid', hsubject'⟩ := hs.backed decision' hdecision'
  have hreviews : review = review' := List.inj_on_of_nodup_map hs.subjects hreview hreview'
    (hsubject.trans (hsame.trans hsubject'.symm))
  exact List.inj_on_of_nodup_map hs.once hdecision hdecision' (by rw [← hid, ← hid', hreviews])

/-! ## One operation -/

section

variable {rule : LatestDecision} {s : CheckpointTables} {i : ℕ}

/-- What holds where call `i` performs an operation: a request is filed pending; a decision is on a
request that exists, by a call that has not ended; a call closes the request that it has decided; and
what callers are told. -/
def Performed (rule : LatestDecision) (i : ℕ) : CheckpointOp → CheckpointTables → Prop
  | .ensureReview request, _ => request.status = .pending
  | .addDecision decision, s => (∃ review ∈ s.reviews, review.id = decision.reviewRequestId ∧
      review.subject = decision.subject) ∧ ∀ r ∈ s.recordings, r.call ≠ i
  | .resolvePending reviewRequestId _ _, s =>
    ∃ decision, (i, decision) ∈ s.decisions ∧ decision.reviewRequestId = reviewRequestId
  | .evaluated request result, s =>
    let e : Evaluation := ⟨i, s.looked i, request, result⟩
    e.Allowed ↔ e.Admitted rule
  | .recorded command result, s => Settled s ⟨i, s.notifierRaised i, command, result⟩
  | _, _ => True

theorem Settled.kept {s s' : CheckpointTables} {r : Recording} (h : Settled s r)
    (hkept : ∀ e ∈ s.decisions, e ∈ s'.decisions)
    (hown : ∀ decision, (r.call, decision) ∈ s'.decisions → (r.call, decision) ∈ s.decisions) :
    Settled s' r where
  stored := fun decision hresult => hkept _ (h.stored decision hresult)
  raised := by
    intro e hresult
    rw [← h.raised e hresult]
    constructor
    · exact fun hnone decision hdecision => hnone decision (hkept _ hdecision)
    · exact fun hnone decision hdecision => hnone decision (hown decision hdecision)

theorem sound_filed (hs : Sound rule s) {request : HumanReviewRequest}
    (hpending : request.status = .pending) (hsubject : ∀ review ∈ s.reviews, review.subject ≠ request.subject)
    (hid : ∀ review ∈ s.reviews, review.id ≠ request.id) :
    Sound rule { s with reviews := s.reviews ++ [request] } ∧
      ∀ j, LeavesTo j s { s with reviews := s.reviews ++ [request] } := by
  have hnodup : ∀ {β : Type} (f : HumanReviewRequest → β), (s.reviews.map f).Nodup →
      (∀ review ∈ s.reviews, f review ≠ f request) → ((s.reviews ++ [request]).map f).Nodup := by
    intro β f hold hnew
    rw [List.map_append, List.map_singleton]
    refine List.nodup_append.mpr ⟨hold, List.nodup_singleton _, fun a ha b hb heq => ?_⟩
    obtain ⟨review, hreview, rfl⟩ := List.mem_map.mp ha
    exact hnew review hreview (heq.trans (List.mem_singleton.mp hb))
  refine ⟨⟨hnodup _ hs.reviewIds hid, hnodup _ hs.subjects hsubject, hs.once, fun decision hdecision => ?_,
    fun review hreview hclosed => ?_, hs.looked, hs.evaluations, fun r hr => ?_⟩, fun j => ?_⟩
  · obtain ⟨review, hreview, hboth⟩ := hs.backed decision hdecision
    exact ⟨review, List.mem_append_left _ hreview, hboth⟩
  · rcases List.mem_append.mp hreview with hreview | hreview
    · exact hs.closed review hreview hclosed
    · rw [List.mem_singleton.mp hreview] at hclosed
      exact absurd hpending hclosed
  · exact (hs.recordings r hr).kept (fun _ h => h) fun _ h => h
  · refine ⟨rfl, rfl, fun _ h => h, fun _ h => h, fun review hreview => ?_,
      fun _ _ review hreview _ hstill => ?_, fun _ h _ => h⟩
    · exact ⟨review, List.mem_append_left _ hreview, rfl, rfl⟩
    · exact ⟨review, List.mem_append_left _ hreview, rfl, hstill⟩

theorem sound_added (hs : Sound rule s) {decision : ProjectCheckpointDecision}
    (hreview : ∃ review ∈ s.reviews, review.id = decision.reviewRequestId ∧
      review.subject = decision.subject)
    (hrunning : ∀ r ∈ s.recordings, r.call ≠ i)
    (hnew : ∀ other ∈ s.stored, other.reviewRequestId ≠ decision.reviewRequestId) :
    Sound rule { s with decisions := s.decisions ++ [(i, decision)] } ∧
      ∀ j, j ≠ i → LeavesTo j s { s with decisions := s.decisions ++ [(i, decision)] } := by
  have hstored : ({ s with decisions := s.decisions ++ [(i, decision)] } : CheckpointTables).stored =
      s.stored ++ [decision] := List.map_append
  have hkept : ∀ other ∈ s.stored,
      other ∈ ({ s with decisions := s.decisions ++ [(i, decision)] } : CheckpointTables).stored := by
    intro other hother
    rw [hstored]
    exact List.mem_append_left _ hother
  have hothers : ∀ j, j ≠ i → ∀ other, (j, other) ∈ s.decisions ++ [(i, decision)] →
      (j, other) ∈ s.decisions := by
    intro j hj other hother
    rcases List.mem_append.mp hother with hother | hother
    · exact hother
    · exact absurd (congrArg Prod.fst (List.mem_singleton.mp hother)) hj
  refine ⟨⟨hs.reviewIds, hs.subjects, ?_, fun other hother => ?_, fun review hmem hclosed => ?_,
    fun j other hother => hkept other (hs.looked j other hother), fun e he => ?_, fun r hr => ?_⟩,
    fun j hj => ?_⟩
  · rw [hstored, List.map_append, List.map_singleton]
    refine List.nodup_append.mpr ⟨hs.once, List.nodup_singleton _, fun a ha b hb heq => ?_⟩
    obtain ⟨other, hother, rfl⟩ := List.mem_map.mp ha
    exact hnew other hother (heq.trans (List.mem_singleton.mp hb))
  · rw [hstored] at hother
    rcases List.mem_append.mp hother with hother | hother
    · exact hs.backed other hother
    · rw [List.mem_singleton.mp hother]
      exact hreview
  · obtain ⟨other, hother, hid⟩ := hs.closed review hmem hclosed
    exact ⟨other, hkept other hother, hid⟩
  · obtain ⟨hiff, hshown⟩ := hs.evaluations e he
    exact ⟨hiff, fun other hother => hkept other (hshown other hother)⟩
  · exact (hs.recordings r hr).kept (fun e he => List.mem_append_left _ he)
      (hothers r.call (hrunning r hr))
  · exact ⟨rfl, rfl, fun e he => List.mem_append_left _ he, hothers j hj,
      fun review hmem => ⟨review, hmem, rfl, rfl⟩,
      fun _ _ review hmem _ hpending => ⟨review, hmem, rfl, hpending⟩, fun _ h _ => h⟩

theorem mem_resolve {reviewRequestId : UUID} {kind : CheckpointDecisionKind} {humanPrincipalId : UUID}
    {review : HumanReviewRequest} (h : review ∈ s.reviews) :
    ∃ review' ∈ (s.resolve reviewRequestId kind humanPrincipalId).reviews,
      review'.id = review.id ∧ review'.subject = review.subject ∧
        (review.id ≠ reviewRequestId → review'.status = review.status) := by
  refine ⟨_, List.mem_map_of_mem h, ?_⟩
  split_ifs with hid
  · exact ⟨rfl, rfl, fun hne => absurd hid hne⟩
  · exact ⟨rfl, rfl, fun _ => rfl⟩

theorem exists_of_mem_resolve {reviewRequestId : UUID} {kind : CheckpointDecisionKind}
    {humanPrincipalId : UUID} {review' : HumanReviewRequest}
    (h : review' ∈ (s.resolve reviewRequestId kind humanPrincipalId).reviews) :
    ∃ review ∈ s.reviews, review'.id = review.id ∧
      (review'.status ≠ .pending → review.id = reviewRequestId ∨ review.status ≠ .pending) := by
  obtain ⟨review, hreview, rfl⟩ := List.mem_map.mp h
  refine ⟨review, hreview, ?_⟩
  split_ifs with hid
  · exact ⟨rfl, fun _ => .inl hid⟩
  · exact ⟨rfl, fun hclosed => .inr hclosed⟩

theorem sound_resolved (hs : Sound rule s) {reviewRequestId : UUID} {kind : CheckpointDecisionKind}
    {humanPrincipalId : UUID}
    (hown : ∃ decision, (i, decision) ∈ s.decisions ∧ decision.reviewRequestId = reviewRequestId) :
    Sound rule (s.resolve reviewRequestId kind humanPrincipalId) ∧
      ∀ j, j ≠ i → LeavesTo j s (s.resolve reviewRequestId kind humanPrincipalId) := by
  obtain ⟨decision, hdecision, hid⟩ := hown
  have hids : (s.resolve reviewRequestId kind humanPrincipalId).reviews.map (·.id) =
      s.reviews.map (·.id) := by
    rw [resolve, List.map_map]
    refine List.map_congr_left fun review _ => ?_
    simp only [Function.comp_apply]
    split_ifs <;> rfl
  have hsubjects : (s.resolve reviewRequestId kind humanPrincipalId).reviews.map (·.subject) =
      s.reviews.map (·.subject) := by
    rw [resolve, List.map_map]
    refine List.map_congr_left fun review _ => ?_
    simp only [Function.comp_apply]
    split_ifs <;> rfl
  refine ⟨⟨by rw [hids]; exact hs.reviewIds, by rw [hsubjects]; exact hs.subjects, hs.once,
    fun other hother => ?_, fun review' hreview' hclosed => ?_, hs.looked, hs.evaluations, fun r hr => ?_⟩,
    fun j hj => ?_⟩
  · obtain ⟨review, hreview, hreviewId, hsubject⟩ := hs.backed other hother
    obtain ⟨review', hreview', hid', hsubject', -⟩ := mem_resolve hreview
    exact ⟨review', hreview', hid'.trans hreviewId, hsubject'.trans hsubject⟩
  · obtain ⟨review, hreview, hid', hwas⟩ := exists_of_mem_resolve hreview'
    rcases hwas hclosed with hdecided | hclosed
    · exact ⟨decision, List.mem_map_of_mem hdecision, by rw [hid, hid', hdecided]⟩
    · rw [hid']
      exact hs.closed review hreview hclosed
  · exact (hs.recordings r hr).kept (fun _ h => h) fun _ h => h
  · refine ⟨rfl, rfl, fun _ h => h, fun _ h => h, fun review hreview => ?_,
      fun other hother review hreview hdecided hpending => ?_, fun _ h _ => h⟩
    · obtain ⟨review', hreview', hid', hsubject', -⟩ := mem_resolve hreview
      exact ⟨review', hreview', hid', hsubject'⟩
    · -- The request that another call has decided is another one.
      obtain ⟨review', hreview', hid', -, hstatus⟩ := mem_resolve hreview
      refine ⟨review', hreview', hid', (hstatus fun heq => ?_).trans hpending⟩
      exact hj (hs.call_eq hother hdecision (hdecided.symm.trans (heq.trans hid.symm)))

theorem LeavesTo.of_eq {j : ℕ} {s' : CheckpointTables} (hlooked : s'.looked j = s.looked j)
    (hraised : s'.notifierRaised j = s.notifierRaised j) (hdecisions : s'.decisions = s.decisions)
    (hreviews : s'.reviews = s.reviews) (hrecordings : s'.recordings = s.recordings) :
    LeavesTo j s s' where
  looked := hlooked
  notifierRaised := hraised
  decisions := fun _ h => hdecisions ▸ h
  own := fun _ h => hdecisions ▸ h
  reviews := fun review h => ⟨review, hreviews ▸ h, rfl, rfl⟩
  pending := fun _ _ review h _ hpending => ⟨review, hreviews ▸ h, rfl, hpending⟩
  recordings := fun _ h _ => hrecordings ▸ h

theorem Sound.of_eq {s' : CheckpointTables} (hs : Sound rule s)
    (hlooked : ∀ j, ∀ decision ∈ (s'.looked j).decisions, decision ∈ s.stored)
    (hdecisions : s'.decisions = s.decisions) (hreviews : s'.reviews = s.reviews)
    (hevaluations : s'.evaluations = s.evaluations) (hrecordings : s'.recordings = s.recordings) :
    Sound rule s' := by
  have hstored : s'.stored = s.stored := by rw [stored, stored, hdecisions]
  refine ⟨?_, ?_, ?_, ?_, ?_, ?_, ?_, ?_⟩
  · rw [hreviews]
    exact hs.reviewIds
  · rw [hreviews]
    exact hs.subjects
  · rw [hstored]
    exact hs.once
  · rw [hstored, hreviews]
    exact hs.backed
  · rw [hstored, hreviews]
    exact hs.closed
  · rw [hstored]
    exact hlooked
  · rw [hstored, hevaluations]
    exact hs.evaluations
  · rw [hrecordings]
    exact fun r hr => (hs.recordings r hr).kept (fun _ h => hdecisions ▸ h) fun _ h => hdecisions ▸ h

theorem decisions_shownProject {topology : Option CheckpointTopology} (j : ℕ) :
    ((s.shownProject i topology).looked j).decisions = (s.looked j).decisions := by
  show (Function.update s.looked i _ j).decisions = _
  by_cases hj : j = i
  · rw [hj, Function.update_self]
  · rw [Function.update_of_ne hj]

theorem decisions_shownDecisions (j : ℕ) :
    ((s.shownDecisions i).looked j).decisions =
      if j = i then s.stored else (s.looked j).decisions := by
  show (Function.update s.looked i _ j).decisions = _
  by_cases hj : j = i
  · rw [if_pos hj, hj, Function.update_self]
  · rw [if_neg hj, Function.update_of_ne hj]

/-- **One operation** keeps the tables sound, and leaves the others what is theirs. -/
theorem sound_execute {op : CheckpointOp} {s' : CheckpointTables} {r : Except TopologyError op.Answer}
    (hs : Sound rule s) (hop : Performed rule i op s) (h : CheckpointExecutes rule i op s r s') :
    Sound rule s' ∧ ∀ j, j ≠ i → LeavesTo j s s' := by
  have hsame : Sound rule s ∧ ∀ j, j ≠ i → LeavesTo j s s := ⟨hs, fun j _ => LeavesTo.refl j s⟩
  cases h with
  | filedMeanwhile request => exact hsame
  | notifierRaises topology review decision message =>
    exact ⟨hs.of_eq hs.looked rfl rfl rfl rfl, fun j hj =>
      .of_eq rfl (Function.update_of_ne hj _ _) rfl rfl rfl⟩
  | answered =>
    cases op with
    | topology projectId =>
      refine ⟨hs.of_eq (fun j decision hdecision => ?_) rfl rfl rfl rfl, fun j hj =>
        .of_eq (Function.update_of_ne hj _ _) rfl rfl rfl rfl⟩
      exact hs.looked j decision (decisions_shownProject j ▸ hdecision)
    | latestDecision projectId checkpoint repositoryId =>
      refine ⟨hs.of_eq (fun j decision hdecision => ?_) rfl rfl rfl rfl, fun j hj =>
        .of_eq (Function.update_of_ne hj _ _) rfl rfl rfl rfl⟩
      rw [executeCheckpoint, decisions_shownDecisions] at hdecision
      split at hdecision
      · exact hdecision
      · exact hs.looked j decision hdecision
    | newId => exact ⟨hs.of_eq hs.looked rfl rfl rfl rfl, fun j _ => .of_eq rfl rfl rfl rfl rfl⟩
    | now => exact hsame
    | ensureReview request =>
      simp only [executeCheckpoint]
      split_ifs with hsubject hid
      · exact hsame
      · exact hsame
      · obtain ⟨hfiled, hleaves⟩ := sound_filed hs hop
          (fun review hreview heq => hsubject (List.any_eq_true.mpr ⟨review, hreview, by simpa using heq⟩))
          (fun review hreview heq => hid (List.any_eq_true.mpr ⟨review, hreview, by simpa using heq⟩))
        exact ⟨hfiled, fun j _ => hleaves j⟩
    | reviewById reviewRequestId => exact hsame
    | addDecision decision =>
      simp only [executeCheckpoint]
      split_ifs with hdecided
      · exact hsame
      · refine sound_added hs hop.1 hop.2 fun other hother heq => hdecided ?_
        exact List.any_eq_true.mpr ⟨other, hother, by simp [heq]⟩
    | resolvePending reviewRequestId kind humanPrincipalId =>
      simp only [executeCheckpoint]
      split_ifs
      · exact sound_resolved hs hop
      · exact hsame
    | notify topology review decision => exact hsame
    | evaluated request result =>
      refine ⟨⟨hs.reviewIds, hs.subjects, hs.once, hs.backed, hs.closed, hs.looked, fun e he => ?_,
        fun r hr => (hs.recordings r hr).kept (fun _ h => h) fun _ h => h⟩,
        fun j _ => .of_eq rfl rfl rfl rfl rfl⟩
      rcases List.mem_append.mp he with he | he
      · exact hs.evaluations e he
      · rw [List.mem_singleton.mp he]
        exact ⟨hop, hs.looked i⟩
    | recorded command result =>
      refine ⟨⟨hs.reviewIds, hs.subjects, hs.once, hs.backed, hs.closed, hs.looked, hs.evaluations,
        fun r hr => ?_⟩, fun j hj => ?_⟩
      · rcases List.mem_append.mp hr with hr | hr
        · exact (hs.recordings r hr).kept (fun _ h => h) fun _ h => h
        · rw [List.mem_singleton.mp hr]
          exact hop.kept (fun _ h => h) fun _ h => h
      · refine ⟨rfl, rfl, fun _ h => h, fun _ h => h, fun review h => ⟨review, h, rfl, rfl⟩,
          fun _ _ review h _ hpending => ⟨review, h, rfl, hpending⟩, fun r hr hcall => ?_⟩
        rcases List.mem_append.mp hr with hr | hr
        · exact hr
        · rw [List.mem_singleton.mp hr] at hcall
          exact absurd hcall.symm hj

theorem sound_others {s' : CheckpointTables} (hs : Sound rule s) (h : OtherCheckpointWriters s s') :
    Sound rule s' ∧ ∀ j, LeavesTo j s s' := by
  cases h with
  | reviewFiled request hpending hsubject hid => exact sound_filed hs hpending hsubject hid
  | projectsChanged topologies =>
    exact ⟨hs.of_eq hs.looked rfl rfl rfl rfl, fun j => .of_eq rfl rfl rfl rfl rfl⟩
  | clockMoves clock =>
    exact ⟨hs.of_eq hs.looked rfl rfl rfl rfl, fun j => .of_eq rfl rfl rfl rfl rfl⟩

end

end Project
end RepoMesh
