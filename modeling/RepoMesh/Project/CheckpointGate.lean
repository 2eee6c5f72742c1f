/-
# The checkpoint gate

What any number of evaluations and decisions at once guarantee, by rely and guarantee. A review request
is decided once, and a decision that raises leaves nothing unless it is the notifier that raised. But the
gate asks for one latest decision on a checkpoint of a repository, whatever evidence it is on, so the
approval of some evidence opens it exactly as long as nothing on other evidence is decided after it.
-/
import RepoMesh.Project.CheckpointSteps

namespace RepoMesh
namespace Project

open Async (Prog)
open Delivery (UUID)
open Orchestration (CheckpointGateDecision)
open Text
open CheckpointTables

/-! ## One call among others -/

/-- How the operations of call `i` are met while others are under way. -/
abbrev AmongOthers (rule : LatestDecision) (notifies : Bool) (i : ℕ) :
    Prog.Spec CheckpointOp.Answer TopologyError CheckpointTables :=
  Prog.attended (LeavesTo i) (Sound rule) ((checkpointCrew rule notifies).Exec i) (Performed rule i)

theorem amongOthers_mono (rule : LatestDecision) (notifies : Bool) (i : ℕ) :
    (AmongOthers rule notifies i).Mono := Prog.attended_mono

section

variable {rule : LatestDecision} {notifies : Bool} {i : ℕ} {s : CheckpointTables}

theorem looked_shownProject {topology : Option CheckpointTopology} :
    (s.shownProject i topology).looked i = ⟨topology, (s.looked i).decisions⟩ :=
  Function.update_self ..

theorem looked_shownDecisions :
    (s.shownDecisions i).looked i = ⟨(s.looked i).topology, s.stored⟩ :=
  Function.update_self ..

/-- What an evaluation is answered tells whether the gate is open. -/
def Truthful (rule : LatestDecision) (i : ℕ) (request : EvaluateCheckpoint) (result : GateResult)
    (s : CheckpointTables) : Prop :=
  Evaluation.Allowed ⟨i, s.looked i, request, result⟩ ↔
    Evaluation.Admitted rule ⟨i, s.looked i, request, result⟩

theorem truthful_closed {request : EvaluateCheckpoint} {result : GateResult}
    (hadmitted : ¬ Evaluation.Admitted rule ⟨i, s.looked i, request, result⟩)
    (hresult : ∀ gate, result = .ok gate → gate.allowed = false) : Truthful rule i request result s := by
  refine ⟨?_, fun h => absurd h hadmitted⟩
  rintro ⟨gate, hgate, hallowed⟩
  rw [hresult gate hgate] at hallowed
  cases hallowed

theorem pending_of_reviewOf {request : EvaluateCheckpoint} {id : UUID} {title summary : String}
    {review : HumanReviewRequest} (h : reviewOf request id title summary = .ok review) :
    review.status = .pending := by
  unfold reviewOf at h
  split_ifs at h
  rw [← Except.ok.inj h]

theorem wp_fileReview {request : EvaluateCheckpoint} {filed : Except TopologyError HumanReviewRequest}
    {reason : String} (hpending : ∀ review, filed = .ok review → review.status = .pending)
    (hclosed : ∀ s', s'.looked i = s.looked i → ∀ result : GateResult,
      (∀ gate, result = .ok gate → gate.allowed = false) → Truthful rule i request result s') :
    Prog.wp (AmongOthers rule notifies i)
      (Prog.lift filed >>= fun review =>
        Prog.perform (CheckpointOp.ensureReview review) >>= fun _ =>
          pure (⟨false, reason⟩ : CheckpointGateDecision))
      (Truthful rule i request) s := by
  cases filed with
  | error e => exact hclosed s rfl _ fun gate hgate => by cases hgate
  | ok review =>
    intro s₁ h₁ hs₁
    refine ⟨hpending review rfl, fun r s₂ hexec hs₂ => ?_⟩
    have hlooked : s₂.looked i = s₁.looked i := by
      cases hexec with
      | filedMeanwhile => rfl
      | answered =>
        simp only [executeCheckpoint]
        split_ifs <;> rfl
    have hsame : s₂.looked i = s.looked i := hlooked.trans h₁.looked
    cases r with
    | error e => exact hclosed s₂ hsame _ fun gate hgate => by cases hgate
    | ok _ =>
      refine hclosed s₂ hsame _ fun gate hgate => ?_
      rw [← Except.ok.inj hgate]

theorem wp_askHuman {request : EvaluateCheckpoint} {title summary reason : String}
    (hadmitted : ∀ result, ¬ Evaluation.Admitted rule ⟨i, s.looked i, request, result⟩) :
    Prog.wp (AmongOthers rule notifies i) (askHuman request title summary reason)
      (Truthful rule i request) s := by
  -- Whatever is answered with the gate closed is true while the call is shown nothing more.
  have hclosed : ∀ s', s'.looked i = s.looked i → ∀ result : GateResult,
      (∀ gate, result = .ok gate → gate.allowed = false) → Truthful rule i request result s' := by
    intro s' hlooked result hresult
    refine truthful_closed ?_ hresult
    rw [hlooked]
    exact hadmitted result
  unfold askHuman
  rw [Prog.wp_bind (amongOthers_mono rule notifies i)]
  intro s₁ h₁ hs₁
  refine ⟨trivial, fun r s₂ hexec hs₂ => ?_⟩
  have hlooked : s₂.looked i = s.looked i := by
    cases hexec
    exact h₁.looked
  cases r with
  | error e => exact hclosed s₂ hlooked _ fun gate hgate => by cases hgate
  | ok id =>
    dsimp only
    rw [Prog.wp_done, Prog.andThen_ok]
    generalize hfiled : reviewOf request id title summary = filed
    have hpending : ∀ review, filed = .ok review → review.status = .pending :=
      fun review hreview => pending_of_reviewOf (hfiled.trans hreview)
    exact wp_fileReview hpending fun s' hsame => hclosed s' (hsame.trans hlooked)

theorem gateOfProject_some {topology : Option CheckpointTopology} {checkpoint : ProjectCheckpoint}
    {gate : CheckpointGateDecision} (h : gateOfProject topology checkpoint = some gate) :
    gate.allowed = true ↔ ∃ t, topology = some t ∧ t.operationalStatus = .active ∧
      requiresHumanCheckpoint t checkpoint = false := by
  unfold gateOfProject at h
  split at h
  · rw [← Option.some.inj h]
    simp
  · rename_i t
    split_ifs at h with hpaused hcancelled hrequired
    · rw [← Option.some.inj h]
      simp [hpaused]
    · rw [← Option.some.inj h]
      simp [hcancelled]
    · rw [← Option.some.inj h]
      have hactive : t.operationalStatus = .active := by
        cases hstatus : t.operationalStatus with
        | active => rfl
        | paused => exact absurd hstatus hpaused
        | cancelled => exact absurd hstatus hcancelled
      exact ⟨fun _ => ⟨t, rfl, hactive, hrequired⟩, fun _ => rfl⟩

theorem gateOfProject_none {topology : Option CheckpointTopology} {checkpoint : ProjectCheckpoint}
    (h : gateOfProject topology checkpoint = none) :
    ∃ t, topology = some t ∧ t.operationalStatus = .active ∧
      requiresHumanCheckpoint t checkpoint = true := by
  unfold gateOfProject at h
  split at h
  · cases h
  · rename_i t
    split_ifs at h with hpaused hcancelled hrequired
    refine ⟨t, rfl, ?_, by simpa using hrequired⟩
    cases hstatus : t.operationalStatus with
    | active => rfl
    | paused => exact absurd hstatus hpaused
    | cancelled => exact absurd hstatus hcancelled

theorem wp_gateOfDecision {request : EvaluateCheckpoint} {topology : CheckpointTopology}
    {decisions : List ProjectCheckpointDecision} (hlooked : s.looked i = ⟨some topology, decisions⟩)
    (hactive : topology.operationalStatus = .active)
    (hrequired : requiresHumanCheckpoint topology request.subject.checkpoint = true) :
    Prog.wp (AmongOthers rule notifies i)
      (gateOfDecision request (rule.pick (decisionsOn decisions request.subject.projectId
        request.subject.checkpoint request.subject.repositoryId)))
      (Truthful rule i request) s := by
  have hadmitted : ∀ result, Evaluation.Admitted rule ⟨i, s.looked i, request, result⟩ ↔
      ∃ decision, rule.pick (decisionsOn decisions request.subject.projectId
        request.subject.checkpoint request.subject.repositoryId) = some decision ∧
        decision.subject.evidenceVersion = strip request.subject.evidenceVersion ∧
        decision.decision = .approved := by
    intro result
    rw [hlooked]
    constructor
    · rintro ⟨topology', htopology, -, hnot | hdecision⟩
      · obtain rfl := Option.some.inj htopology
        rw [hrequired] at hnot
        cases hnot
      · exact hdecision
    · exact fun hdecision => ⟨topology, rfl, hactive, .inr hdecision⟩
  cases hpick : rule.pick (decisionsOn decisions request.subject.projectId
      request.subject.checkpoint request.subject.repositoryId) with
  | none =>
    refine wp_askHuman fun result h => ?_
    obtain ⟨decision, hdecision, -⟩ := (hadmitted result).mp h
    rw [hpick] at hdecision
    cases hdecision
  | some decision =>
    have honly : ∀ result, Evaluation.Admitted rule ⟨i, s.looked i, request, result⟩ ↔
        decision.subject.evidenceVersion = strip request.subject.evidenceVersion ∧
          decision.decision = .approved := by
      intro result
      rw [hadmitted, hpick]
      constructor
      · rintro ⟨decision', heq, hboth⟩
        obtain rfl := Option.some.inj heq
        exact hboth
      · exact fun hboth => ⟨decision, rfl, hboth⟩
    unfold gateOfDecision
    dsimp only
    by_cases hevidence : decision.subject.evidenceVersion = strip request.subject.evidenceVersion
    · rw [if_neg (not_not.mpr hevidence)]
      by_cases happroved : decision.decision = .approved
      · rw [if_neg (not_not.mpr happroved)]
        exact ⟨fun _ => (honly _).mpr ⟨hevidence, happroved⟩, fun _ => ⟨_, rfl, rfl⟩⟩
      · rw [if_pos happroved]
        refine truthful_closed (fun h => happroved ((honly _).mp h).2) fun gate hgate => ?_
        rw [← Except.ok.inj hgate]
    · rw [if_pos hevidence]
      exact wp_askHuman fun result h => hevidence ((honly result).mp h).1

/-- **An evaluation** tells whether the gate is open. -/
theorem wp_evaluate {request : EvaluateCheckpoint} (huntouched : Untouched i s) :
    Prog.wp (AmongOthers rule notifies i) (evaluate request) (Truthful rule i request) s := by
  -- The project is shown.
  intro s₁ h₁ hs₁
  refine ⟨trivial, fun r s₂ hexec hs₂ => ?_⟩
  obtain ⟨rfl, rfl⟩ : r = .ok (s₁.topologies request.subject.projectId) ∧
      s₂ = s₁.shownProject i (s₁.topologies request.subject.projectId) := by
    cases hexec
    exact ⟨rfl, rfl⟩
  generalize s₁.topologies request.subject.projectId = topology at *
  have hlooked : (s₁.shownProject i topology).looked i = ⟨topology, []⟩ := by
    rw [looked_shownProject, h₁.looked, huntouched.looked]
  show Prog.wp _ (gateFrom request (gateOfProject topology request.subject.checkpoint)) _ _
  cases hgate : gateOfProject topology request.subject.checkpoint with
  | some gate =>
    have hiff := gateOfProject_some hgate
    show Evaluation.Allowed ⟨i, (s₁.shownProject i topology).looked i, request, .ok gate⟩ ↔
      Evaluation.Admitted rule ⟨i, (s₁.shownProject i topology).looked i, request, .ok gate⟩
    rw [hlooked]
    constructor
    · rintro ⟨gate', hsame, hallowed⟩
      obtain rfl := Except.ok.inj hsame
      obtain ⟨t, ht, hactive, hrequired⟩ := hiff.mp hallowed
      exact ⟨t, ht, hactive, .inl hrequired⟩
    · rintro ⟨t, ht, hactive, hrequired | ⟨decision, hpick, -⟩⟩
      · exact ⟨gate, rfl, hiff.mpr ⟨t, ht, hactive, hrequired⟩⟩
      · exact absurd (rule.mem _ _ hpick) List.not_mem_nil
  | none =>
    obtain ⟨t, rfl, hactive, hrequired⟩ := gateOfProject_none hgate
    -- The decisions are shown, and the latest of the checkpoint is answered.
    intro s₃ h₃ hs₃
    refine ⟨trivial, fun r s₄ hexec hs₄ => ?_⟩
    obtain ⟨rfl, rfl⟩ : r = .ok (rule.pick (decisionsOn s₃.stored request.subject.projectId
        request.subject.checkpoint request.subject.repositoryId)) ∧ s₄ = s₃.shownDecisions i := by
      cases hexec
      exact ⟨rfl, rfl⟩
    refine wp_gateOfDecision ?_ hactive hrequired
    rw [looked_shownDecisions, h₃.looked, hlooked]

end

/-! ## One decision among others -/

section

variable {rule : LatestDecision} {notifies : Bool} {i : ℕ} {s : CheckpointTables}
  {command : RecordCheckpointDecisionCommand} {decision : ProjectCheckpointDecision}

/-- A call that has decided nothing yet, and whose notifier has not raised. -/
structure Undone (i : ℕ) (s : CheckpointTables) : Prop where
  notifierRaised : s.notifierRaised i = false
  decisions : ∀ decision, (i, decision) ∉ s.decisions
  recordings : ∀ r ∈ s.recordings, r.call ≠ i

/-- A call that has inserted its decision and not yet closed the request. -/
structure Decided (i : ℕ) (decision : ProjectCheckpointDecision) (s : CheckpointTables) : Prop where
  notifierRaised : s.notifierRaised i = false
  mine : (i, decision) ∈ s.decisions
  pending : ∃ review ∈ s.reviews, review.id = decision.reviewRequestId ∧ review.status = .pending

/-- What a decision is answered tells whether it is stored. -/
def Answered (i : ℕ) (command : RecordCheckpointDecisionCommand) (result : RecordResult)
    (s : CheckpointTables) : Prop :=
  Settled s ⟨i, s.notifierRaised i, command, result⟩

theorem Undone.kept {s' : CheckpointTables} (h : Undone i s) (hkept : LeavesTo i s s') :
    Undone i s' where
  notifierRaised := hkept.notifierRaised.trans h.notifierRaised
  decisions := fun decision hdecision => h.decisions decision (hkept.own decision hdecision)
  recordings := fun r hr hcall => h.recordings r (hkept.recordings r hr hcall) hcall

theorem Decided.kept {s' : CheckpointTables} (h : Decided i decision s) (hkept : LeavesTo i s s') :
    Decided i decision s' := by
  obtain ⟨review, hreview, hid, hpending⟩ := h.pending
  obtain ⟨review', hreview', hid', hpending'⟩ :=
    hkept.pending decision h.mine review hreview hid hpending
  exact ⟨hkept.notifierRaised.trans h.notifierRaised, hkept.decisions _ h.mine,
    review', hreview', hid'.trans hid, hpending'⟩

theorem Undone.answered (h : Undone i s) (e : TopologyError) : Answered i command (.error e) s :=
  ⟨fun _ hdecision => (by cases hdecision),
    fun _ _ => ⟨fun _ => h.notifierRaised, fun _ => h.decisions⟩⟩

theorem answered_ok (h : (i, decision) ∈ s.decisions) : Answered i command (.ok decision) s where
  stored := by
    intro decision' hdecision'
    rw [← Except.ok.inj hdecision']
    exact h
  raised := fun e he => by cases he

theorem wp_notifyDecision {topology : CheckpointTopology} {review : HumanReviewRequest}
    (hmine : (i, decision) ∈ s.decisions) :
    Prog.wp (AmongOthers rule notifies i)
      (notifyDecision notifies topology review decision >>= fun _ => pure decision)
      (Answered i command) s := by
  unfold notifyDecision
  split_ifs
  · intro s₁ h₁ hs₁
    refine ⟨trivial, fun r s₂ hexec hs₂ => ?_⟩
    have hmine₁ := h₁.decisions _ hmine
    cases hexec with
    | answered => exact answered_ok hmine₁
    | notifierRaises =>
      -- The decision stays, and the call raises.
      refine ⟨fun _ hresult => (by cases hresult), fun _ _ => ⟨fun hnone => ?_, fun hraised => ?_⟩⟩
      · exact absurd hmine₁ (hnone decision)
      · have hdid : Function.update s₁.notifierRaised i true i = true := Function.update_self ..
        exact absurd (hdid.symm.trans hraised) (by decide)
  · exact answered_ok hmine

theorem wp_resolvePending {topology : CheckpointTopology} {review : HumanReviewRequest}
    (h : Decided i decision s) (hid : decision.reviewRequestId = review.id) :
    Prog.wp (AmongOthers rule notifies i)
      (Prog.perform
          (CheckpointOp.resolvePending review.id command.decision command.humanPrincipalId) >>=
        fun resolved => if resolved = false then
            throw (.conflict "review request was already decided")
          else notifyDecision notifies topology review decision >>= fun _ => pure decision)
      (Answered i command) s := by
  intro s₁ h₁ hs₁
  have hdecided := h.kept h₁
  refine ⟨⟨decision, hdecided.mine, hid⟩, fun r s₂ hexec hs₂ => ?_⟩
  obtain ⟨pending, hmem, hpendingId, hpending⟩ := hdecided.pending
  have hany : (s₁.reviews.any fun other => other.id == review.id && other.status == .pending) =
      true :=
    List.any_eq_true.mpr ⟨pending, hmem, by simp [hpendingId, hid, hpending]⟩
  obtain ⟨rfl, rfl⟩ : r = .ok true ∧
      s₂ = s₁.resolve review.id command.decision command.humanPrincipalId := by
    cases hexec
    simp only [executeCheckpoint, if_pos hany, and_self]
  exact wp_notifyDecision hdecided.mine

theorem wp_addDecision {topology : CheckpointTopology} {review : HumanReviewRequest}
    (h : Undone i s)
    (hknown : ∃ review' ∈ s.reviews, review'.id = review.id ∧ review'.subject = review.subject)
    (hid : decision.reviewRequestId = review.id) (hsubject : decision.subject = review.subject) :
    Prog.wp (AmongOthers rule notifies i)
      (recordDecision notifies command topology review decision)
      (Answered i command) s := by
  unfold recordDecision
  intro s₁ h₁ hs₁
  have hundone := h.kept h₁
  obtain ⟨known, hmem, hknownId, hknownSubject⟩ := hknown
  obtain ⟨review', hreview', hid', hsubject'⟩ := h₁.reviews known hmem
  replace hid' : review'.id = review.id := hid'.trans hknownId
  replace hsubject' : review'.subject = review.subject := hsubject'.trans hknownSubject
  refine ⟨⟨⟨review', hreview', hid'.trans hid.symm, hsubject'.trans hsubject.symm⟩,
    hundone.recordings⟩, fun r s₂ hexec hs₂ => ?_⟩
  cases hexec
  by_cases hdecided : (s₁.stored.any fun other => other.reviewRequestId == decision.reviewRequestId ||
      other.id == decision.id) = true
  · simp only [executeCheckpoint, if_pos hdecided]
    exact hundone.answered _
  · simp only [executeCheckpoint, if_neg hdecided]
    refine wp_resolvePending ⟨hundone.notifierRaised, by simp, review', hreview',
      hid'.trans hid.symm, ?_⟩ hid
    -- Only a request that somebody has decided is closed.
    by_contra hclosed
    obtain ⟨other, hother, hsame⟩ := hs₁.closed review' hreview' hclosed
    refine hdecided (List.any_eq_true.mpr ⟨other, hother, ?_⟩)
    simp [hsame, hid', hid]

theorem decisionOn_ok {review : HumanReviewRequest} {id : UUID} {now : ℕ}
    (h : decisionOn review command id now = .ok decision)
    (hproject : review.subject.projectId = command.projectId) :
    decision.reviewRequestId = review.id ∧ decision.subject = review.subject := by
  unfold decisionOn at h
  split_ifs at h
  rw [← Except.ok.inj h]
  exact ⟨rfl, by rw [← hproject]⟩

theorem reviewToDecide_ok {stored : Option HumanReviewRequest} {review : HumanReviewRequest}
    (h : reviewToDecide command stored = .ok review) :
    stored = some review ∧ review.subject.projectId = command.projectId := by
  unfold reviewToDecide at h
  split at h
  · cases h
  · split_ifs at h with hproject
    obtain rfl := Except.ok.inj h
    exact ⟨rfl, not_not.mp hproject⟩

theorem wp_file {topology : CheckpointTopology} {review : HumanReviewRequest} (h : Undone i s)
    (hknown : ∃ review' ∈ s.reviews, review'.id = review.id ∧ review'.subject = review.subject)
    {filed : Except TopologyError ProjectCheckpointDecision}
    (hfiled : ∀ decision, filed = .ok decision →
      decision.reviewRequestId = review.id ∧ decision.subject = review.subject) :
    Prog.wp (AmongOthers rule notifies i)
      (Prog.lift filed >>= fun decision => recordDecision notifies command topology review decision)
      (Answered i command) s := by
  cases filed with
  | error e => exact h.answered e
  | ok decision =>
    obtain ⟨hid, hsubject⟩ := hfiled decision rfl
    exact wp_addDecision h hknown hid hsubject

theorem wp_decide {topology : CheckpointTopology} {review : HumanReviewRequest} (h : Undone i s)
    (hreview : review ∈ s.reviews) (hproject : review.subject.projectId = command.projectId) :
    Prog.wp (AmongOthers rule notifies i)
      (do
        let id ← Prog.perform CheckpointOp.newId
        let now ← Prog.perform CheckpointOp.now
        let decision ← Prog.lift (decisionOn review command id now)
        recordDecision notifies command topology review decision)
      (Answered i command) s := by
  refine Prog.wp_perform_bind fun s₁ h₁ hs₁ => ⟨trivial, fun r s₂ hexec hs₂ => ?_⟩
  obtain ⟨id, rfl, h₂⟩ : ∃ id, r = .ok id ∧ LeavesTo i s₁ s₂ := by
    cases hexec
    exact ⟨_, rfl, .of_eq rfl rfl rfl rfl rfl⟩
  rw [Prog.andThen_ok]
  refine Prog.wp_perform_bind fun s₃ h₃ hs₃ => ⟨trivial, fun r s₄ hexec hs₄ => ?_⟩
  obtain ⟨now, rfl, rfl⟩ : ∃ now, r = .ok now ∧ s₄ = s₃ := by
    cases hexec
    exact ⟨_, rfl, rfl⟩
  rw [Prog.andThen_ok]
  have hleaves : LeavesTo i s s₄ := (h₁.trans h₂).trans h₃
  generalize hdecision : decisionOn review command id now = filed
  refine wp_file (h.kept hleaves) (hleaves.reviews review hreview) fun decision heq => ?_
  exact decisionOn_ok (hdecision.trans heq) hproject

theorem wp_authorize {topology : CheckpointTopology} {stored : Option HumanReviewRequest}
    (h : Undone i s) (hstored : ∀ review, stored = some review → review ∈ s.reviews) :
    Prog.wp (AmongOthers rule notifies i)
      (do
        let review ← Prog.lift (reviewToDecide command stored)
        Prog.lift (authorizeDecision topology review command)
        let id ← Prog.perform CheckpointOp.newId
        let now ← Prog.perform CheckpointOp.now
        let decision ← Prog.lift (decisionOn review command id now)
        recordDecision notifies command topology review decision)
      (Answered i command) s := by
  rw [Prog.wp_bind (amongOthers_mono rule notifies i), Prog.wp_lift]
  cases hreview : reviewToDecide command stored with
  | error e => exact h.answered e
  | ok review =>
    obtain ⟨rfl, hproject⟩ := reviewToDecide_ok hreview
    rw [Prog.andThen_ok, Prog.wp_bind (amongOthers_mono rule notifies i), Prog.wp_lift]
    cases authorizeDecision topology review command with
    | error e => exact h.answered e
    | ok _ => exact wp_decide h (hstored review rfl) hproject

/-- **A decision** that raises has stored nothing, unless its notifier raised. -/
theorem wp_record (h : Undone i s) :
    Prog.wp (AmongOthers rule notifies i) (record notifies command) (Answered i command) s := by
  unfold record
  refine Prog.wp_perform_bind fun s₁ h₁ hs₁ => ⟨trivial, fun r s₂ hexec hs₂ => ?_⟩
  have hundone := h.kept h₁
  obtain ⟨topology, rfl, rfl⟩ : ∃ topology, r = .ok topology ∧ s₂ = s₁.shownProject i topology := by
    cases hexec
    exact ⟨_, rfl, rfl⟩
  replace hundone : Undone i (s₁.shownProject i topology) :=
    ⟨hundone.notifierRaised, hundone.decisions, hundone.recordings⟩
  rw [Prog.andThen_ok, Prog.wp_bind (amongOthers_mono rule notifies i), Prog.wp_lift]
  cases requireTopology topology with
  | error e => exact hundone.answered e
  | ok project =>
    rw [Prog.andThen_ok]
    refine Prog.wp_perform_bind fun s₃ h₃ hs₃ => ⟨trivial, fun r s₄ hexec hs₄ => ?_⟩
    obtain ⟨rfl, rfl⟩ : r = .ok (s₃.reviews.find? fun review => review.id == command.reviewRequestId) ∧
        s₄ = s₃ := by
      cases hexec
      exact ⟨rfl, rfl⟩
    rw [Prog.andThen_ok]
    exact wp_authorize (hundone.kept h₃) fun review => List.mem_of_find?_eq_some

end

/-! ## Any number of calls -/

section

variable {rule : LatestDecision} {notifies : Bool} {i : ℕ} {s : CheckpointTables}

theorem Truthful.kept {request : EvaluateCheckpoint} {result : GateResult} {s' : CheckpointTables}
    (h : Truthful rule i request result s) (hkept : LeavesTo i s s') :
    Truthful rule i request result s' := by
  rw [Truthful, hkept.looked]
  exact h

theorem Answered.kept {command : RecordCheckpointDecisionCommand} {result : RecordResult}
    {s' : CheckpointTables} (h : Answered i command result s) (hkept : LeavesTo i s s') :
    Answered i command result s' := by
  rw [Answered, hkept.notifierRaised]
  exact Settled.kept h hkept.decisions hkept.own

/-- **The calls** respect what the others rely on. -/
theorem respects (rule : LatestDecision) (notifies : Bool) :
    (checkpointCrew rule notifies).Respects LeavesTo (Sound rule) (Performed rule) Untouched where
  refl := LeavesTo.refl
  trans := fun _ _ _ _ => LeavesTo.trans
  exec := fun _ _ _ _ _ hs hop hexec => sound_execute hs hop hexec
  environment := fun _ _ hs h => sound_others hs h
  fresh := by
    intro i s s' h hkept
    exact ⟨hkept.looked.trans h.looked, hkept.notifierRaised.trans h.notifierRaised,
      fun decision hdecision => h.decisions decision (hkept.own decision hdecision),
      fun r hr hcall => h.recordings r (hkept.recordings r hr hcall) hcall⟩
  starts := by
    rintro i p s (⟨request, rfl⟩ | ⟨command, rfl⟩) hfresh hs
    · show Prog.wp _ (Prog.resume _ _) _ s
      rw [Prog.wp_resume _ _ (amongOthers_mono rule notifies i)]
      refine Prog.wp_mono (amongOthers_mono rule notifies i) (fun result s' h => ?_)
        (wp_evaluate hfresh)
      exact fun s₁ h₁ hs₁ => ⟨h.kept h₁, fun r s₂ _ _ _ _ => trivial⟩
    · show Prog.wp _ (Prog.resume _ _) _ s
      rw [Prog.wp_resume _ _ (amongOthers_mono rule notifies i)]
      refine Prog.wp_mono (amongOthers_mono rule notifies i) (fun result s' h => ?_)
        (wp_record ⟨hfresh.notifierRaised, hfresh.decisions, hfresh.recordings⟩)
      exact fun s₁ h₁ hs₁ => ⟨h.kept h₁, fun r s₂ _ _ _ _ => trivial⟩

theorem Evaluation.allowed_iff {e : Evaluation} (hs : Sound rule s)
    (hsound : (e.Allowed ↔ e.Admitted rule) ∧ ∀ decision ∈ e.looked.decisions, decision ∈ s.stored)
    {topology : CheckpointTopology} (htopology : e.looked.topology = some topology)
    (hactive : topology.operationalStatus = .active)
    (hrequired : requiresHumanCheckpoint topology e.request.subject.checkpoint = true)
    {decision : ProjectCheckpointDecision} (hdecision : decision ∈ e.onEvidence)
    (happroved : decision.decision = .approved) :
    e.Allowed ↔ rule.pick e.candidates = some decision := by
  obtain ⟨hallowed, hstored⟩ := hsound
  obtain ⟨hmem, hasked⟩ := List.mem_filter.mp hdecision
  replace hasked : decision.subject = e.request.asked := by simpa using hasked
  rw [hallowed]
  constructor
  · rintro ⟨topology', htopology', -, hnot | ⟨latest, hpick, hevidence, -⟩⟩
    · obtain rfl := Option.some.inj (htopology'.symm.trans htopology)
      rw [hrequired] at hnot
      cases hnot
    · -- The latest decision is on the evidence, and there is one decision on it.
      obtain ⟨hlatest, hon⟩ := List.mem_filter.mp (rule.mem _ _ hpick)
      simp only [Bool.and_eq_true, beq_iff_eq] at hon
      obtain ⟨⟨hproject, hcheckpoint⟩, hrepository⟩ := hon
      have hsubject : latest.subject = decision.subject := by
        rw [hasked]
        exact ReviewSubject.ext hproject hcheckpoint hrepository hevidence
      rw [hpick, hs.unique (hstored latest hlatest) (hstored decision hmem) hsubject]
  · intro hpick
    refine ⟨topology, htopology, hactive, .inr ⟨decision, hpick, ?_, happroved⟩⟩
    rw [hasked]
    rfl

end

/-! ## Two tasks of one repository -/

/-- The first of the decisions that nothing was decided after. -/
def firstLatest : LatestDecision where
  pick := List.maxOn? (·.decidedAt)
  isSome := fun _ hne => List.isSome_maxOn?_iff.mpr hne
  mem := fun _ _ h => List.maxOn?_mem h
  latest := by
    intro decisions decision h other hother
    have hle := List.le_apply_get_maxOn?_of_mem (f := (·.decidedAt)) hother
    rwa [List.get_maxOn? (List.ne_nil_of_mem hother), List.maxOn_eq_of_maxOn?_eq_some h] at hle

/-- A supervised project in which person 7 approves what is executed. -/
def sampleTopology : CheckpointTopology where
  organizationId := 0
  projectId := 1
  organizationLeaderId := 9
  executionMode := .supervised
  requiredCheckpoints := [.execution]
  humanGrants :=
    [{ humanPrincipalId := 7
       codeAccess := .read
       controlActions := [.approveCheckpoint] }]

/-- Nothing asked, in that project. -/
def sampleTables : CheckpointTables where
  topologies := fun projectId => if projectId = 1 then some sampleTopology else none
  uuid4 := fun n => 100 + n

/-- The gate of a task of repository 10. -/
def sampleTask (evidenceVersion : String) : EvaluateCheckpoint where
  subject :=
    { projectId := 1
      checkpoint := .execution
      repositoryId := some 10
      evidenceVersion }

/-- The approval of a request. -/
def sampleApproval (reviewRequestId : UUID) : RecordCheckpointDecisionCommand where
  projectId := 1
  reviewRequestId
  humanPrincipalId := 7
  decision := .approved
  reason := "checked"

/-- Calls that are served one after the other, the clock moving on after each. -/
def serveInTurn (rule : LatestDecision) (i : ℕ) :
    List (CheckpointCall Unit) → CheckpointTables → CheckpointTables
  | [], s => s
  | p :: calls, s =>
    let s' := (Prog.advance (executeCheckpoint rule i) 20 (p, s)).2
    serveInTurn rule (i + 1) calls { s' with clock := s'.clock + 1 }

theorem trace_serveInTurn {rule : LatestDecision} {notifies : Bool} {s s₁ : CheckpointTables}
    {calls : List (CheckpointCall Unit)} (hcalls : ∀ p ∈ calls, (checkpointCrew rule notifies).Starts p)
    {steps : List (Option (ℕ × CheckpointOp) × CheckpointTables)}
    {threads : List (CheckpointCall Unit)} {n : ℕ} (hn : threads.length = n)
    (h : (checkpointCrew rule notifies).Trace s steps ⟨s₁, threads⟩) :
    ∃ steps' threads', (checkpointCrew rule notifies).Trace s steps'
      ⟨serveInTurn rule n calls s₁, threads'⟩ := by
  induction calls generalizing s₁ steps threads n with
  | nil => exact ⟨steps, threads, h⟩
  | cons p calls ih =>
    subst hn
    have hstarted := h.snoc (.start (hcalls p List.mem_cons_self))
    have hserved := hstarted.advance threads.length
      (fun op s => @CheckpointExecutes.answered rule threads.length op s) 20
      List.getElem?_concat_length
    have hlater := hserved.snoc (.environment (.clockMoves _
      ((Prog.advance (executeCheckpoint rule threads.length) 20 (p, s₁)).2.clock + 1)))
    exact ih (fun q hq => hcalls q (List.mem_cons_of_mem p hq)) (by simp) hlater

/-- Two tasks are asked about, both are approved, and the first is asked about again. -/
def sampleCalls : List (CheckpointCall Unit) :=
  [serveEvaluate (sampleTask "task-1"), serveEvaluate (sampleTask "task-2"),
    serveRecord false (sampleApproval 100), serveRecord false (sampleApproval 101),
    serveEvaluate (sampleTask "task-1")]

theorem starts_sampleCalls : ∀ p ∈ sampleCalls, (checkpointCrew firstLatest false).Starts p := by
  intro p hp
  simp only [sampleCalls, List.mem_cons, List.not_mem_nil, or_false] at hp
  obtain rfl | rfl | rfl | rfl | rfl := hp
  · exact .inl ⟨_, rfl⟩
  · exact .inl ⟨_, rfl⟩
  · exact .inr ⟨_, rfl⟩
  · exact .inr ⟨_, rfl⟩
  · exact .inl ⟨_, rfl⟩

theorem undecided_sampleTables : sampleTables.Undecided :=
  ⟨rfl, rfl, fun _ => rfl, fun _ => rfl, rfl, rfl⟩

/-- The tables after these calls. -/
def sampleRun : CheckpointTables := serveInTurn firstLatest 0 sampleCalls sampleTables

theorem trace_sampleRun : ∃ steps threads,
    (checkpointCrew firstLatest false).Trace sampleTables steps ⟨sampleRun, threads⟩ := by
  unfold sampleRun
  exact trace_serveInTurn starts_sampleCalls List.length_nil .nil

/-- The gate is closed though the latest decision on the evidence approves it. -/
def refusedThoughApproved (e : Evaluation) : Bool :=
  match e.looked.topology, firstLatest.pick e.onEvidence, e.result with
  | some topology, some decision, .ok gate =>
    topology.operationalStatus == .active && decision.decision == .approved &&
      gate == ⟨false, "human_checkpoint_evidence_stale"⟩
  | _, _, _ => false

end Project
end RepoMesh
