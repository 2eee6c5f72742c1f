/-
# Verdicts and their rounds

For which documents a verdict submitted in an open review round is recorded for that round.
-/
import RepoMesh.Orchestration.Footprint

namespace RepoMesh
namespace Orchestration

open Async (Prog)
open Async.Prog
open Delivery (UUID uuidStr)

/-! ## Rows and reviews a run keeps -/

/-- No row was added, removed or changed. -/
structure World.SameRows (w w' : World) : Prop where
  tasks : w'.tasks = w.tasks
  taskKeys : w'.taskKeys = w.taskKeys
  plans : w'.plans = w.plans
  planKeys : w'.planKeys = w.planKeys
  assignments : w'.assignments = w.assignments
  delivery : w'.delivery = w.delivery

theorem World.SameRows.refl (w : World) : w.SameRows w := ⟨rfl, rfl, rfl, rfl, rfl, rfl⟩

/-- Every assignment is still there, with the same accepted reviews. -/
def World.KeepsReviews (w w' : World) : Prop :=
  ∀ id a, w.getAssignment id = some a →
    ∃ a', w'.getAssignment id = some a' ∧ a'.acceptedReviews = a.acceptedReviews

namespace World

theorem KeepsReviews.refl (w : World) : w.KeepsReviews w := fun _ a h => ⟨a, h, rfl⟩

theorem KeepsReviews.trans {a b c : World} (hab : a.KeepsReviews b) (hbc : b.KeepsReviews c) :
    a.KeepsReviews c := by
  intro id x hx
  obtain ⟨y, hy, hxy⟩ := hab id x hx
  obtain ⟨z, hz, hyz⟩ := hbc id y hy
  exact ⟨z, hz, hyz.trans hxy⟩

theorem KeepsReviews.of_eq {w w' : World} (h : w'.assignments = w.assignments) :
    w.KeepsReviews w' := by
  intro id a ha
  refine ⟨a, ?_, rfl⟩
  rwa [getAssignment, h]

theorem keepsReviews_ensureAssignment (w : World) (a : LeaderAssignmentView) :
    w.KeepsReviews (w.ensureAssignment a).2 := by
  unfold ensureAssignment
  split
  · exact .refl w
  · intro id b hb
    refine ⟨b, ?_, rfl⟩
    unfold getAssignment at hb ⊢
    rw [List.find?_append, hb]
    rfl

theorem keepsReviews_saveAssignment {w w' : World} {stored : LeaderAssignmentView}
    (new : LeaderAssignmentView) (hstored : w.getAssignment new.leaderTaskId = some stored)
    (hreviews : new.acceptedReviews = stored.acceptedReviews)
    (h : w.saveAssignment new = .ok w') : w.KeepsReviews w' := by
  obtain ⟨-, rfl⟩ := saveAssignment_ok h
  intro id a ha
  by_cases hid : id = new.leaderTaskId
  · subst hid
    obtain rfl := Option.some.inj (hstored.symm.trans ha)
    exact ⟨new, getAssignment_writeAssignment_self hstored, hreviews⟩
  · exact ⟨a, by rw [getAssignment_writeAssignment_of_ne hid, ha], rfl⟩

end World

theorem exec_keepsReviews {op : Op} (h : op.kind ≠ .saveAssignment) (w : World) :
    w.KeepsReviews (exec op w).2 := by
  by_cases hensure : op.kind = .ensureAssignment
  · cases op with
    | ensureAssignment a => exact w.keepsReviews_ensureAssignment a
    | _ => cases hensure
  · exact .of_eq (exec_assignments h hensure w)

theorem Within.keepsReviews {α : Type} {K : List OpKind} {p : Call α} (h : Within K p)
    (hsave : OpKind.saveAssignment ∉ K) (w : World) : w.KeepsReviews (p.run exec w).2 := by
  refine Only.run_rel (R := World.KeepsReviews) .refl (fun _ _ _ => .trans) ?_ h w
  intro op s hop
  refine exec_keepsReviews ?_ s
  rintro hkind
  exact hsave (hkind ▸ hop)

section Runs

variable [Codecs]

theorem openReviewIfLeaderSide_keepsReviews (parent : Task) (children : List Task) (w : World) :
    w.KeepsReviews ((openReviewIfLeaderSide parent children).run exec w).2 := by
  unfold openReviewIfLeaderSide
  have hask : exec (.getAssignment parent.id) w = (.ok (w.getAssignment parent.id), w) := rfl
  rw [run_perform_ok exec hask]
  cases hget : w.getAssignment parent.id with
  | none => exact .refl w
  | some a =>
    dsimp only
    split
    · exact .refl w
    · split
      · exact .refl w
      · refine run_bind_rel exec (R := World.KeepsReviews) (fun _ _ _ => .trans) ?_
          fun _ s' _ => ?_
        · rw [run_perform]
          have hid : (reviewOpened a children).leaderTaskId = parent.id :=
            (World.getAssignment_eq_some hget).2
          simp only [exec]
          cases hsave : w.saveAssignment (reviewOpened a children) with
          | error e => exact .refl w
          | ok w' =>
            have hreviews : (reviewOpened a children).acceptedReviews = a.acceptedReviews := rfl
            refine World.keepsReviews_saveAssignment (reviewOpened a children) ?_ hreviews hsave
            rw [hid]
            exact hget
        · have hasks : Asks (do
              notifyReviewDue parent a (reviewEvidenceOf a children)
              pure true) := only_bind (asks_notifyReviewDue _ _ _) fun _ => only_done _
          rw [hasks.run_snd]
          exact .refl s'

theorem rollUp_keepsReviews (parent : Task) (w : World) :
    w.KeepsReviews ((rollUp parent).run exec w).2 := by
  unfold rollUp
  split
  · exact .refl w
  · have hask : exec (.tasksByParent parent.id) w = (.ok (w.tasksByParent parent.id), w) := rfl
    rw [run_perform_ok exec hask]
    split
    · exact .refl w
    · refine run_bind_rel exec (R := World.KeepsReviews) (fun _ _ _ => .trans)
        (openReviewIfLeaderSide_keepsReviews _ _ w) fun opened s' _ => ?_
      refine Within.keepsReviews (K := [.ask, .updateTask]) ?_ (by decide) s'
      split
      · exact only_done _
      · refine only_bind (only_lift _) ?_
        rintro (_ | updated)
        · exact only_done _
        · exact within_settleRollUp _ _

theorem onTaskTerminal_keepsReviews (deliveryAuto : Bool) (taskId : UUID) (w : World) :
    w.KeepsReviews ((onTaskTerminal deliveryAuto taskId).run exec w).2 := by
  have hask : ∀ id, exec (.getTask id) w = (.ok (w.getTask id), w) := fun _ => rfl
  unfold onTaskTerminal
  rw [run_perform_ok exec (hask taskId)]
  cases w.getTask taskId with
  | none => exact .refl w
  | some task =>
    dsimp only
    refine run_bind_rel exec (R := World.KeepsReviews) (fun _ _ _ => .trans) ?_ ?_
    · unfold leaderTaskOf
      split
      · exact .refl w
      · rename_i parentTaskId _
        rw [run_perform_ok exec (hask parentTaskId)]
        cases w.getTask parentTaskId with
        | none => exact .refl w
        | some parent =>
          dsimp only
          refine run_bind_rel exec (R := World.KeepsReviews) (fun _ _ _ => .trans)
            (rollUp_keepsReviews parent w) fun _ s' _ => .refl s'
    · rintro (_ | leaderTask) s' -
      · exact .refl s'
      · dsimp only
        split
        · exact (within_onLeaderTerminal _ _).keepsReviews (by decide) s'
        · exact .refl s'

theorem followApproval_keepsReviews (deliveryAuto : Bool) (leaderTaskId : UUID)
    (verdict : LeaderReviewVerdict) (w : World) :
    w.KeepsReviews ((followApproval deliveryAuto leaderTaskId verdict).run exec w).2 := by
  unfold followApproval
  split
  · exact onTaskTerminal_keepsReviews _ _ w
  · exact .refl w

end Runs

/-! ## Recording a verdict -/

/-- The round is open for a verdict: review is due at the current revision, for which none has
been accepted, and the evidence is that of the current revision. -/
structure ReviewOpenAt (w : World) (leaderTaskId : UUID) (a : LeaderAssignmentView) : Prop where
  found : w.getAssignment leaderTaskId = some a
  due : a.phase = .reviewDue
  undecided : a.acceptedReview a.reviewRevision = none
  evidence_current : ∀ evidence, a.reviewEvidence = some evidence →
    evidence.reviewRevision = a.reviewRevision

/-- A submission that raised and changed nothing, or answered for round `r` and left an accepted
review for it. -/
def RecordedInRound (w : World) (leaderTaskId : UUID) (r : ℕ)
    (result : Except Raised ReviewReceipt × World) : Prop :=
  match result.1 with
  | .error _ => w.SameRows result.2
  | .ok receipt => receipt.reviewRevision = r ∧
      ∃ a, result.2.getAssignment leaderTaskId = some a ∧ (a.acceptedReview r).isSome

/-- The call raises after it has written a row. -/
def BreaksOff {α : Type} (p : Call α) (w : World) : Prop :=
  (∃ e, (p.run exec w).1 = .error e) ∧ ¬ w.SameRows (p.run exec w).2

theorem run_resolve_ok {leaderTaskId callerAgentId : UUID} {w w' : World}
    {a : LeaderAssignmentView} {task : Task}
    (h : (resolve leaderTaskId callerAgentId).run exec w = (.ok (a, task), w')) :
    w' = w ∧ w.getAssignment leaderTaskId = some a ∧ w.getTask leaderTaskId = some task ∧
      task.assigneeAgentId = callerAgentId := by
  have hworld : w' = w := by
    have hrun := (asks_resolve leaderTaskId callerAgentId).run_snd w
    rw [h] at hrun
    exact hrun
  refine ⟨hworld, ?_⟩
  have hassignment : exec (.getAssignment leaderTaskId) w =
      (.ok (w.getAssignment leaderTaskId), w) := rfl
  have htask : exec (.getTask leaderTaskId) w = (.ok (w.getTask leaderTaskId), w) := rfl
  unfold resolve at h
  rw [run_bind, run_perform] at h
  simp only [exec, answered] at h
  cases hcaller : w.ports.agent callerAgentId with
  | error e => rw [hcaller] at h; cases h
  | ok caller =>
    rw [hcaller] at h
    dsimp only at h
    split at h
    · rw [run_perform_ok exec hassignment, run_perform_ok exec htask] at h
      split at h
      · rename_i b t hb ht
        split at h
        · cases h
        · rename_i hassignee
          rw [run_bind, run_perform] at h
          simp only [exec, answered] at h
          split at h
          · split at h
            · obtain ⟨rfl, rfl⟩ := Prod.mk.inj (Except.ok.inj (Prod.mk.inj h).1)
              exact ⟨hb, ht, not_not.mp hassignee⟩
            · cases h
          · cases h
      · cases h
    · cases h

theorem acceptedReview_withReview (updated : LeaderAssignmentView) (review : AcceptedReviewView)
    {revision : ℕ} (h : review.reviewRevision = revision) :
    ((withReview updated review).acceptedReview revision).isSome := by
  unfold LeaderAssignmentView.acceptedReview withReview
  simp [List.find?_append, h]

theorem save_of_run {w w' : World} {leaderTaskId : UUID} {a : LeaderAssignmentView}
    (hfound : w.getAssignment leaderTaskId = some a) (hkept : w'.assignments = w.assignments)
    (new : LeaderAssignmentView) (hid : new.leaderTaskId = a.leaderTaskId) :
    exec (.saveAssignment a new) w' = (.ok (), w'.writeAssignment new) ∧
      (w'.writeAssignment new).getAssignment leaderTaskId = some new := by
  have hkey : new.leaderTaskId = leaderTaskId := hid.trans (World.getAssignment_eq_some hfound).2
  have hstored : w'.getAssignment new.leaderTaskId = some a := by
    rw [hkey, World.getAssignment, hkept]
    exact hfound
  constructor
  · simp only [exec, World.saveAssignment, hstored, written_ok]
  · have hself := World.getAssignment_writeAssignment_self hstored
    rwa [hkey] at hself

section Verdicts

variable [Codecs]

/-- What an accepted verdict sets going fails half-way: for a rework, its repair tasks; for an
approval or an escalation, the report of the leader task; for an approval, the advance of the plan
once the approval is recorded. -/
def VerdictBreaksOff (deliveryAuto : Bool) (leaderTaskId : UUID) (a : LeaderAssignmentView)
    (task : Task) (decision : RepositoryReviewDecision) (w : World) : Prop :=
  if decision.verdict = .requestRework then
    BreaksOff (createRework a task decision a.reviewRevision) w
  else
    BreaksOff (settleLeaderTask leaderTaskId a task decision a.reviewRevision) w ∨
      ∃ w', (settleLeaderTask leaderTaskId a task decision a.reviewRevision).run exec w =
          (.ok (), w') ∧
        ∃ e, ((followApproval deliveryAuto leaderTaskId decision.verdict).run exec
          (w'.writeAssignment (settlementRecord a decision a.reviewRevision))).1 = .error e

variable {deliveryAuto : Bool} {leaderTaskId callerAgentId : UUID} {a : LeaderAssignmentView}
  {task : Task} {decision : RepositoryReviewDecision} {revision : ℕ} {w : World}

theorem acceptRework_recorded (hfound : w.getAssignment leaderTaskId = some a) :
    RecordedInRound w leaderTaskId revision
        ((acceptRework leaderTaskId a task decision revision).run exec w) ↔
      ¬ BreaksOff (createRework a task decision revision) w := by
  unfold acceptRework
  cases hrun : (createRework a task decision revision).run exec w with
  | mk result w' =>
    cases result with
    | error e =>
      rw [run_bind_error exec hrun]
      simp [RecordedInRound, BreaksOff, hrun]
    | ok ids =>
      have hkept : w'.assignments = w.assignments := by
        have h := (within_createRework a task decision revision).run_assignments (by decide)
          (by decide) w
        rwa [hrun] at h
      obtain ⟨hsave, hread⟩ := save_of_run hfound hkept (reworkRecord a decision revision ids) rfl
      rw [run_bind_ok exec hrun, run_perform_ok exec hsave]
      refine iff_of_true ⟨rfl, _, hread, acceptedReview_withReview _ _ rfl⟩ ?_
      rintro ⟨⟨e, he⟩, -⟩
      rw [hrun] at he
      cases he

theorem acceptSettlement_recorded (hfound : w.getAssignment leaderTaskId = some a) :
    RecordedInRound w leaderTaskId revision
        ((acceptSettlement deliveryAuto leaderTaskId a task decision revision).run exec w) ↔
      ¬ (BreaksOff (settleLeaderTask leaderTaskId a task decision revision) w ∨
        ∃ w', (settleLeaderTask leaderTaskId a task decision revision).run exec w =
            (.ok (), w') ∧
          ∃ e, ((followApproval deliveryAuto leaderTaskId decision.verdict).run exec
            (w'.writeAssignment (settlementRecord a decision revision))).1 = .error e) := by
  unfold acceptSettlement
  cases hrun : (settleLeaderTask leaderTaskId a task decision revision).run exec w with
  | mk result w' =>
    cases result with
    | error e =>
      rw [run_bind_error exec hrun]
      simp [RecordedInRound, BreaksOff, hrun]
    | ok _ =>
      have hkept : w'.assignments = w.assignments := by
        have h := (within_settleLeaderTask leaderTaskId a task decision revision).run_assignments
          (by decide) (by decide) w
        rwa [hrun] at h
      obtain ⟨hsave, hread⟩ := save_of_run hfound hkept (settlementRecord a decision revision) rfl
      have hfollow := followApproval_keepsReviews deliveryAuto leaderTaskId decision.verdict
        (w'.writeAssignment (settlementRecord a decision revision))
      obtain ⟨final, hfinal, hreviews⟩ := hfollow _ _ hread
      have hsettled : ¬ BreaksOff (settleLeaderTask leaderTaskId a task decision revision) w := by
        rintro ⟨⟨e, he⟩, -⟩
        rw [hrun] at he
        cases he
      rw [run_bind_ok exec hrun, run_perform_ok exec hsave, run_bind]
      cases hnext : (followApproval deliveryAuto leaderTaskId decision.verdict).run exec
          (w'.writeAssignment (settlementRecord a decision revision)) with
      | mk answer w'' =>
        rw [hnext] at hfinal
        cases answer with
        | ok _ =>
          refine iff_of_true ⟨rfl, final, hfinal, ?_⟩ ?_
          · unfold LeaderAssignmentView.acceptedReview
            rw [hreviews]
            exact acceptedReview_withReview _ _ rfl
          · rintro (h | ⟨v, hv, e, he⟩)
            · exact hsettled h
            · obtain rfl := (Prod.mk.inj hv).2
              rw [hnext] at he
              cases he
        | error e =>
          -- the approval is saved: the world is no longer the one it was submitted in
          refine iff_of_false ?_ (not_not.mpr (.inr ⟨w', rfl, e, by rw [hnext]⟩))
          intro hsame
          have hbefore : w''.getAssignment leaderTaskId = some a := by
            rw [World.getAssignment, hsame.assignments]
            exact hfound
          obtain rfl := Option.some.inj (hbefore.symm.trans hfinal)
          have hlength := congrArg List.length hreviews
          simp [settlementRecord, withReview, closedBy] at hlength

end Verdicts

/-! ## A second round with the words of the first -/

/-- A leader in whose team the leader decomposes; nobody refuses anything. -/
def leaderPorts : Ports :=
  { agent := fun id => .ok (some
      { id
        role := .repositoryLeader
        leaderAgentId := some 1
        responsibilityPaths := []
        agentteamsResourceName := "leader"
        status := .active })
    topology := fun _ => .ok none
    operationalGate := fun _ => .ok ⟨true, "automatic_project"⟩
    evaluateCheckpoint := fun _ => .ok ⟨true, "automatic_project"⟩
    decompositionMode := fun _ _ => .ok .leader
    publish := fun _ _ _ _ _ => .ok ⟨"task", "hash"⟩
    send := fun _ _ => .ok ()
    ensureApproved := fun _ _ _ _ => .ok ()
    databaseAutomation := fun _ => .ok ()
    onBatchDeliver := fun _ delivery => (.ok (), delivery) }

/-- The leader task of repository 10. -/
def leaderTask : Task :=
  { id := 0
    organizationId := 1
    projectId := 2
    repositoryId := 10
    parentTaskId := none
    assignedByAgentId := 1
    assigneeAgentId := 2
    title := "Ship it"
    instruction := "Change the code"
    acceptance := ["It works"]
    status := .inProgress
    resultSummary := none
    version := 2
    origin := .planned
    databaseChange := {}
    title_nonblank := shipIt_title
    instruction_nonblank := shipIt_instruction
    acceptance_ne_nil := shipIt_acceptance
    acceptance_nonblank := shipIt_criteria
    assigner_ne_assignee := organization_ne_leader }

/-- A verdict that asks for the same repair each time. -/
def sameRework : RepositoryReviewDecision :=
  { verdict := .requestRework
    summary := "Not yet"
    findings := [⟨1, "the tests fail", some "Fix the tests"⟩]
    raw := .str "rework" }

/-- The evidence of a round with the one worker task 1. -/
def failedEvidence (reviewRevision : ℕ) : LeaderReviewEvidenceView :=
  { reviewRevision
    workerEvidence := [⟨1, 3, .failed, none, none, [], [], none, some "tests failed"⟩] }

/-- The assignment when review is due again, after `sameRework` ended the first round. -/
def secondRound : LeaderAssignmentView :=
  { leaderTaskId := 0
    organizationId := 1
    projectId := 2
    repositoryId := 10
    leaderAgentId := 2
    phase := .reviewDue
    safetyEnvelope := ⟨["src"], [], []⟩
    workerRoster := [⟨3, "worker", []⟩]
    reviewRevision := 2
    acceptedPlan := some ⟨"sha256:plan", 1, [1], .null⟩
    reviewEvidence := some (failedEvidence 2)
    acceptedReviews := [⟨"sha256:rework", .requestRework, 1, .inProgress, [5]⟩] }

/-- The state in which `sameRework` is submitted for the second round. -/
def secondRoundWorld : World :=
  { tasks := [leaderTask], assignments := [secondRound], nextId := 9, ports := leaderPorts }

theorem secondRound_open : ReviewOpenAt secondRoundWorld 0 secondRound where
  found := rfl
  due := rfl
  undecided := rfl
  evidence_current := by
    rintro evidence ⟨⟩
    rfl

end Orchestration
end RepoMesh
