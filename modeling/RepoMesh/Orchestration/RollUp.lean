/-
# Rolling a round up

The platform settles the leader task of a server-mode round from its worker tasks: failed once one of
them failed or was cancelled, succeeded once all of them succeeded. A superseded worker task is neither,
so a round in which one was superseded and none failed is never settled.
-/
import RepoMesh.Orchestration.Advance
import RepoMesh.Orchestration.Evolution

namespace RepoMesh
namespace Orchestration

open Async Prog
open Delivery (UUID)
open Text

/-- The leader task after `_roll_up`, where the platform settles it. -/
def rolled (parent : Task) (children : List Task) : Task :=
  if parent.status.isFinal ∨ children = [] then parent
  else
    match rolledUp parent children with
    | .ok (some updated) => updated
    | _ => parent

/-- What the worker tasks come to: one that failed or was cancelled fails the round. -/
def verdict (children : List Task) : Option TaskStatus :=
  if children.any fun child => child.status.isFailed then some .failed
  else if children.all fun child => child.status = .succeeded then some .succeeded
  else none

variable {parent : Task} {children : List Task}

theorem report_eq {status : TaskStatus} {summary : String} (hopen : parent.status.isFinal = false)
    (hstatus : status = .succeeded ∨ status = .failed) (hsummary : isBlank summary = false) :
    parent.report status summary = .ok (parent.moved status (some (strip summary))) := by
  have hallowed : status = .blocked ∨ status = .succeeded ∨ status = .failed := .inr hstatus
  unfold Task.report
  rw [if_neg (by simp [hopen]), if_pos hallowed, if_neg (by simp [hsummary])]

theorem rolledUp_eq (hopen : parent.status.isFinal = false) :
    ∃ summary, rolledUp parent children =
      .ok ((verdict children).map fun status => parent.moved status summary) := by
  unfold rolledUp verdict
  by_cases hfailed : children.any fun child => child.status.isFailed
  · have hne : children.filter (fun child => child.status.isFailed) ≠ [] := by
      simpa [List.filter_eq_nil_iff] using hfailed
    refine ⟨some (strip (toString (children.filter fun child => child.status.isFailed).length ++
      " of " ++ toString children.length ++ " worker tasks did not succeed.")), ?_⟩
    simp only [hne, hfailed, if_true, ne_eq, not_false_eq_true]
    rw [report_eq hopen (.inr rfl) (isBlank_of_mem (c := 'w') (by simp) (by decide))]
    rfl
  · have hnil : children.filter (fun child => child.status.isFailed) = [] := by
      simpa [List.filter_eq_nil_iff] using hfailed
    simp only [hnil, hfailed, ne_eq, not_true_eq_false, if_false, Bool.false_eq_true]
    split
    · refine ⟨some (strip ("All " ++ toString children.length ++ " worker tasks succeeded.")), ?_⟩
      rw [report_eq hopen (.inl rfl) (isBlank_of_mem (c := 'A') (by simp) (by decide))]
      rfl
    · exact ⟨none, rfl⟩

theorem rolled_status : (rolled parent children).status =
    if parent.status.isFinal ∨ children = [] then parent.status
    else (verdict children).getD parent.status := by
  unfold rolled
  split
  · rfl
  · rename_i hopen
    rw [not_or, Bool.not_eq_true] at hopen
    obtain ⟨summary, heq⟩ := @rolledUp_eq parent children hopen.1
    rw [heq]
    cases verdict children with
    | none => rfl
    | some status => rfl

section World

theorem settleRollUp_run {w : World} (hstored : w.getTask parent.id = some parent) (status : TaskStatus)
    (summary : Option String) :
    (settleRollUp parent (parent.moved status summary)).run exec w =
      (.ok (parent.moved status summary), w.writeTask (parent.moved status summary)) := by
  have hwrite : exec (.updateTask (parent.moved status summary) parent.version) w =
      (.ok (), w.writeTask (parent.moved status summary)) := by
    simp only [exec, World.updateTask, Task.moved_id, hstored]
    rw [if_neg (not_not.mpr rfl), written_ok]
  have hkept : (MonadExcept.tryCatch
      (do Call.updateTask (parent.moved status summary) parent.version; pure none)
      (fun e => if e.isTaskConflict then (do
          let current ← Call.getTask parent.id
          pure (some (current.getD parent)))
        else throw e) : Call (Option Task)).run exec w =
      (.ok none, w.writeTask (parent.moved status summary)) := by
    rw [run_tryCatch, run_perform_ok exec hwrite]
    rfl
  unfold settleRollUp
  rw [run_bind_ok exec hkept]
  rfl

variable [Codecs]

end World

/-! ## A round -/

/-- A leader task that nothing but the platform settles, and its worker tasks. -/
structure Round where
  leader : Task
  children : List Task

/-- What happens to a round. A worker task is named by its place. -/
inductive RoundOp where
  | assign (id : UUID) (command : AssignTaskCommand) (origin : TaskOrigin)
  | start (index : ℕ)
  | report (index : ℕ) (status : TaskStatus) (summary : String)
  | supersede (index : ℕ) (reason : String)
  | redo (index : ℕ)
  /-- The leader starts on its task. -/
  | leaderStart
  /-- A rerun sends the leader task back. -/
  | reopen
  /-- `on_task_terminal` for one of the worker tasks. -/
  | terminal

namespace Round

/-- One worker task changed; a refused change leaves it. -/
def changeChild (r : Round) (index : ℕ) (change : Task → Except Raised Task) : Round :=
  match r.children[index]? with
  | none => r
  | some child =>
    match change child with
    | .ok child' => { r with children := r.children.set index child' }
    | .error _ => r

/-- The leader task changed; a refused change leaves it. -/
def changeLeader (r : Round) (change : Task → Except Raised Task) : Round :=
  match change r.leader with
  | .ok leader => { r with leader }
  | .error _ => r

/-- One step of a round. -/
def next (r : Round) : RoundOp → Round
  | .assign id command origin =>
    match Task.create id command origin with
    | .ok child => { r with children := r.children ++ [child] }
    | .error _ => r
  | .start index => r.changeChild index Task.start
  | .report index status summary => r.changeChild index fun child => child.report status summary
  | .supersede index reason => r.changeChild index fun child => child.supersede reason
  | .redo index => r.changeChild index Task.redo
  | .leaderStart => r.changeLeader Task.start
  | .reopen => r.changeLeader Task.redo
  | .terminal => { r with leader := rolled r.leader r.children }

/-- Worker tasks come, or come back, while the leader task is open. -/
def GrowsOpen (r : Round) : RoundOp → Prop
  | .assign .. | .redo _ => r.leader.status.isFinal = false
  | _ => True

/-- A leader task that is settled has the verdict of the worker tasks. -/
def Accounted (r : Round) : Prop :=
  r.leader.status.isFinal = true → r.children ≠ [] ∧ verdict r.children = some r.leader.status

/-- The round is settled as its worker tasks in force came out. -/
structure Settled (r : Round) : Prop where
  final : r.leader.status.isFinal = true
  succeeded_iff : r.leader.status = .succeeded ↔
    ∀ child ∈ r.children, child.status ≠ .superseded → child.status.isFailed = false

variable {r : Round}

theorem verdict_final {status : TaskStatus} (h : verdict children = some status) :
    status = .failed ∨ status = .succeeded := by
  unfold verdict at h
  split_ifs at h
  · exact .inl (Option.some.inj h).symm
  · exact .inr (Option.some.inj h).symm

theorem verdict_eq_failed :
    verdict children = some .failed ↔ ∃ child ∈ children, child.status.isFailed = true := by
  unfold verdict
  by_cases hfailed : children.any fun child => child.status.isFailed
  · simpa [hfailed] using List.any_eq_true.mp hfailed
  · have hnone : ¬ ∃ child ∈ children, child.status.isFailed = true := by
      simpa [List.any_eq_true] using hfailed
    simp only [hfailed, Bool.false_eq_true, if_false]
    refine iff_of_false ?_ hnone
    split_ifs <;> simp

theorem verdict_eq_succeeded :
    verdict children = some .succeeded ↔ ∀ child ∈ children, child.status = .succeeded := by
  unfold verdict
  by_cases hfailed : children.any fun child => child.status.isFailed
  · obtain ⟨child, hchild, hstatus⟩ := List.any_eq_true.mp hfailed
    simp only [hfailed, if_true]
    refine iff_of_false (by simp) fun hall => ?_
    rw [hall child hchild] at hstatus
    cases hstatus
  · simp [hfailed]

theorem verdict_perm {children' : List Task}
    (h : (children.map (·.status)).Perm (children'.map (·.status))) :
    verdict children = verdict children' := by
  have hany : children.any (fun child => child.status.isFailed) =
      children'.any fun child => child.status.isFailed := by
    simpa [List.any_map, Function.comp_def] using h.any_eq (f := TaskStatus.isFailed)
  have hall : children.all (fun child => child.status = .succeeded) =
      children'.all fun child => child.status = .succeeded := by
    simpa [List.all_map, Function.comp_def] using
      h.all_eq (f := fun status : TaskStatus => status = .succeeded)
  unfold verdict
  rw [hany, hall]

theorem verdict_set {index : ℕ} {child child' : Task} {status : TaskStatus}
    (hchild : children[index]? = some child) (hopen : child.status.isFinal = false)
    (h : verdict children = some status) : verdict (children.set index child') = some status := by
  rcases verdict_final h with rfl | rfl
  · obtain ⟨other, hother, hfailed⟩ := verdict_eq_failed.mp h
    obtain ⟨j, hj⟩ := List.mem_iff_getElem?.mp hother
    have hne : index ≠ j := by
      rintro rfl
      rw [hchild] at hj
      obtain rfl := Option.some.inj hj
      revert hopen hfailed
      cases child.status <;> simp [TaskStatus.isFinal, TaskStatus.isFailed]
    refine verdict_eq_failed.mpr ⟨other, ?_, hfailed⟩
    exact List.mem_iff_getElem?.mpr ⟨j, by rw [List.getElem?_set_ne hne, hj]⟩
  · have hsucceeded := verdict_eq_succeeded.mp h child (List.mem_of_getElem? hchild)
    rw [hsucceeded] at hopen
    cases hopen

theorem accounted_of_open (h : r.leader.status.isFinal = false) : r.Accounted := by
  intro hfinal
  rw [h] at hfinal
  cases hfinal

theorem accounted_changeChild (h : r.Accounted) {index : ℕ} {change : Task → Except Raised Task}
    (hchange : ∀ child child', change child = .ok child' → child.status.isFinal = false) :
    (r.changeChild index change).Accounted := by
  unfold changeChild
  split
  · exact h
  · rename_i child hchild
    split
    · rename_i child' hok
      intro hfinal
      obtain ⟨hne, hverdict⟩ := h hfinal
      refine ⟨fun hnil => hne ?_, verdict_set hchild (hchange child child' hok) hverdict⟩
      simpa using hnil
    · exact h

/-- **One step** keeps the account where worker tasks come while the leader task is open. -/
theorem accounted_next (h : r.Accounted) (op : RoundOp) (hgrows : r.GrowsOpen op) :
    (r.next op).Accounted := by
  cases op with
  | assign id command origin =>
    have hleader : (r.next (.assign id command origin)).leader = r.leader := by
      simp only [next]
      split <;> rfl
    refine accounted_of_open ?_
    rw [hleader]
    exact hgrows
  | start index =>
    refine accounted_changeChild h fun child child' hok => ?_
    rcases (Task.start_ok hok).1 with hstatus | hstatus <;> rw [hstatus] <;> rfl
  | report index status summary =>
    exact accounted_changeChild h fun child child' hok => (Task.report_ok hok).1
  | supersede index reason =>
    exact accounted_changeChild h fun child child' hok => (Task.supersede_ok hok).1
  | redo index =>
    have hleader : (r.next (.redo index)).leader = r.leader := by
      simp only [next, changeChild]
      split
      · rfl
      · split <;> rfl
    refine accounted_of_open ?_
    rw [hleader]
    exact hgrows
  | leaderStart =>
    show (r.changeLeader Task.start).Accounted
    unfold changeLeader
    split
    · rename_i leader hok
      refine accounted_of_open ?_
      rw [(Task.start_ok hok).2]
      rfl
    · exact h
  | reopen =>
    show (r.changeLeader Task.redo).Accounted
    unfold changeLeader
    split
    · rename_i leader hok
      refine accounted_of_open ?_
      rw [(Task.redo_ok hok).2]
      rfl
    · exact h
  | terminal =>
    intro hfinal
    show r.children ≠ [] ∧ verdict r.children = some (rolled r.leader r.children).status
    have hstatus : (rolled r.leader r.children).status.isFinal = true := hfinal
    rw [rolled_status] at hstatus ⊢
    by_cases hdone : r.leader.status.isFinal
    · rw [if_pos (.inl hdone)]
      exact h hdone
    · by_cases hnil : r.children = []
      · rw [if_pos (.inr hnil)] at hstatus
        exact absurd hstatus hdone
      · rw [if_neg (not_or.mpr ⟨hdone, hnil⟩)] at hstatus ⊢
        cases hverdict : verdict r.children with
        | none =>
          rw [hverdict] at hstatus
          exact absurd hstatus hdone
        | some status => exact ⟨hnil, rfl⟩

/-- A round in which the last worker task has finished and `on_task_terminal` is to be processed for it,
after a run from an open leader task in which worker tasks came while it was open. -/
structure Finished (start : Round) (ops : List RoundOp) (r : Round) : Prop where
  opened : start.leader.status.isFinal = false
  grows : ∀ p ∈ Runs.steps next start ops, p.1.GrowsOpen p.2
  step : (r, RoundOp.terminal) ∈ Runs.steps next start ops
  nonempty : r.children ≠ []
  finished : ∀ child ∈ r.children, child.status.isFinal = true

theorem Finished.accounted {start : Round} {ops : List RoundOp} (h : Finished start ops r) :
    r.Accounted := by
  have hstep : ∀ (s : Round) op, s.Accounted → s.GrowsOpen op → (s.next op).Accounted :=
    fun _ op hinv hgrows => accounted_next hinv op hgrows
  exact Runs.states_guarded hstep (accounted_of_open h.opened) ops h.grows r
    (Runs.fst_mem_states h.step)

theorem Finished.status {start : Round} {ops : List RoundOp} (h : Finished start ops r) :
    (∀ status, verdict r.children = some status → (r.next .terminal).leader.status = status) ∧
      (verdict r.children = none → (r.next .terminal).leader.status.isFinal = false) := by
  have haccounted := h.accounted
  show (∀ status, verdict r.children = some status → (rolled r.leader r.children).status = status) ∧
    (verdict r.children = none → (rolled r.leader r.children).status.isFinal = false)
  rw [rolled_status]
  by_cases hdone : r.leader.status.isFinal
  · obtain ⟨-, hverdict⟩ := haccounted hdone
    rw [if_pos (.inl hdone), hverdict]
    exact ⟨fun status heq => Option.some.inj heq, fun hnone => by cases hnone⟩
  · rw [if_neg (not_or.mpr ⟨hdone, h.nonempty⟩)]
    refine ⟨fun status hverdict => by rw [hverdict]; rfl, fun hnone => ?_⟩
    rw [hnone]
    simpa using hdone

theorem verdict_none_iff (hfinished : ∀ child ∈ children, child.status.isFinal = true) :
    verdict children = none ↔
      ¬ ((∀ child ∈ children, child.status ≠ .superseded) ∨
        ∃ child ∈ children, child.status.isFailed = true) := by
  have hcases : ∀ child ∈ children, child.status ≠ .superseded → child.status.isFailed = false →
      child.status = .succeeded := by
    intro child hchild hforce hfailed
    have hfinal := hfinished child hchild
    revert hfinal hforce hfailed
    cases child.status <;> simp [TaskStatus.isFinal, TaskStatus.isFailed]
  rw [not_or]
  constructor
  · intro hnone
    have hfailed : ¬ ∃ child ∈ children, child.status.isFailed = true := by
      rw [← verdict_eq_failed, hnone]
      simp
    refine ⟨fun hforce => ?_, hfailed⟩
    push Not at hfailed
    have hall : verdict children = some .succeeded := verdict_eq_succeeded.mpr fun child hchild =>
      hcases child hchild (hforce child hchild) (by simpa using hfailed child hchild)
    rw [hnone] at hall
    cases hall
  · rintro ⟨hsuperseded, hfailed⟩
    cases hverdict : verdict children with
    | none => rfl
    | some status =>
      rcases verdict_final hverdict with rfl | rfl
      · exact absurd (verdict_eq_failed.mp hverdict) hfailed
      · refine absurd (fun child hchild heq => ?_) hsuperseded
        rw [verdict_eq_succeeded.mp hverdict child hchild] at heq
        cases heq

/-- **When a round is settled.** After the last worker task of a round has finished, the leader task is
settled, and as succeeded exactly when no worker task in force failed or was cancelled, if and only if no
worker task was superseded or some failed or was cancelled; and rounds whose worker tasks came out alike,
in whatever order, are settled alike. -/
theorem rollUp_settles_iff :
    ∀ (start : Round) (ops : List RoundOp) (r : Round), Finished start ops r →
      (Settled (r.next .terminal) ↔ (∀ child ∈ r.children, child.status ≠ .superseded) ∨
        ∃ child ∈ r.children, child.status.isFailed = true) ∧
      ∀ (start' : Round) (ops' : List RoundOp) (r' : Round), Finished start' ops' r' →
        (r.children.map (·.status)).Perm (r'.children.map (·.status)) →
          (Settled (r.next .terminal) ↔ Settled (r'.next .terminal)) ∧
            (Settled (r.next .terminal) →
              (r.next .terminal).leader.status = (r'.next .terminal).leader.status) := by
  have hsettled : ∀ {start ops r}, Finished start ops r →
      (Settled (r.next .terminal) ↔ verdict r.children ≠ none) := by
    intro start ops r h
    obtain ⟨hsome, hnone⟩ := h.status
    constructor
    · intro hround hverdict
      have hopen := hnone hverdict
      rw [hround.final] at hopen
      cases hopen
    · intro hne
      obtain ⟨status, hverdict⟩ := Option.ne_none_iff_exists'.mp hne
      have hleader := hsome status hverdict
      have hforce : ∀ child : Task, child.status.isFailed = true → child.status ≠ .superseded := by
        intro child hfailed heq
        rw [heq] at hfailed
        cases hfailed
      rcases verdict_final hverdict with rfl | rfl
      · refine ⟨by rw [hleader]; rfl, iff_of_false (by rw [hleader]; decide) fun hall => ?_⟩
        obtain ⟨child, hchild, hfailed⟩ := verdict_eq_failed.mp hverdict
        have hnot := hall child hchild (hforce child hfailed)
        rw [hfailed] at hnot
        cases hnot
      · refine ⟨by rw [hleader]; rfl, iff_of_true hleader fun child hchild _ => ?_⟩
        rw [verdict_eq_succeeded.mp hverdict child hchild]
        rfl
  intro start ops r h
  refine ⟨?_, fun start' ops' r' h' hperm => ?_⟩
  · rw [hsettled h, Ne, verdict_none_iff h.finished, not_not]
  · have hsame : verdict r.children = verdict r'.children := verdict_perm hperm
    refine ⟨by rw [hsettled h, hsettled h', hsame], fun hround => ?_⟩
    obtain ⟨status, hverdict⟩ := Option.ne_none_iff_exists'.mp ((hsettled h).mp hround)
    rw [h.status.1 status hverdict, h'.status.1 status (hsame ▸ hverdict)]

end Round

/-! ## Two rounds -/

theorem assigned_titled : isBlank "feature" = false := by decide

theorem assigned_instructed : isBlank "build" = false := by decide

theorem assigned_accepted : ∀ item ∈ ["done"], isBlank item = false := by decide

theorem assigned_acceptance : ["done"] ≠ [] := by decide

theorem assigned_apart : (4 : UUID) ≠ 5 := by decide

/-- A leader task as it is assigned. -/
def assignedLeader : Task where
  id := 10
  organizationId := 1
  projectId := 2
  repositoryId := 3
  parentTaskId := none
  assignedByAgentId := 4
  assigneeAgentId := 5
  title := "feature"
  instruction := "build"
  acceptance := ["done"]
  status := .assigned
  resultSummary := none
  version := 1
  origin := .planned
  databaseChange := {}
  title_nonblank := assigned_titled
  instruction_nonblank := assigned_instructed
  acceptance_ne_nil := assigned_acceptance
  acceptance_nonblank := assigned_accepted
  assigner_ne_assignee := assigned_apart

/-- A worker task of that leader task. -/
def workerCommand (workerId : UUID) : AssignTaskCommand where
  organizationId := 1
  projectId := 2
  repositoryId := 3
  parentTaskId := some 10
  assignedByAgentId := 5
  assigneeAgentId := workerId
  title := "part"
  instruction := "build"
  acceptance := ["done"]

/-- One worker task, done. -/
def doneOps : List RoundOp :=
  [.assign 11 (workerCommand 6) .planned, .start 0, .report 0 .succeeded "done"]

/-- One worker task done and another one superseded. -/
def supersededOps : List RoundOp :=
  [.assign 11 (workerCommand 6) .planned, .assign 12 (workerCommand 7) .planned,
    .report 0 .succeeded "done", .supersede 1 "replanned"]

theorem terminal_mem_steps (start : Round) (ops : List RoundOp) :
    (ops.foldl Round.next start, RoundOp.terminal) ∈ Runs.steps Round.next start (ops ++ [.terminal]) := by
  rw [Runs.steps_append]
  exact List.mem_append_right _ (List.mem_singleton_self _)

/-- The leader task with one worker task that has succeeded. -/
def doneWorld : World where
  tasks := [assignedLeader,
    { assignedLeader with id := 11, parentTaskId := some 10, status := .succeeded }]
  ports := quietPorts

theorem doneOps_finished :
    Round.Finished ⟨assignedLeader, []⟩ (doneOps ++ [.terminal])
      (doneOps.foldl Round.next ⟨assignedLeader, []⟩) where
  opened := rfl
  grows := by
    simp only [doneOps, List.cons_append, List.nil_append, Runs.steps, List.forall_mem_cons]
    exact ⟨rfl, trivial, trivial, trivial, by simp⟩
  step := terminal_mem_steps _ _
  nonempty := by decide +kernel
  finished := by decide +kernel

theorem supersededOps_finished :
    Round.Finished ⟨assignedLeader, []⟩ (supersededOps ++ [.terminal])
      (supersededOps.foldl Round.next ⟨assignedLeader, []⟩) where
  opened := rfl
  grows := by
    simp only [supersededOps, List.cons_append, List.nil_append, Runs.steps, List.forall_mem_cons]
    refine ⟨rfl, ?_, trivial, trivial, trivial, by simp⟩
    show (Round.next _ _).leader.status.isFinal = false
    decide +kernel
  step := terminal_mem_steps _ _
  nonempty := by decide +kernel
  finished := by decide +kernel

/-- A round of one worker task is settled. -/
theorem rollUp_settles_iff_done :
    Round.Finished ⟨assignedLeader, []⟩ (doneOps ++ [.terminal])
        (doneOps.foldl Round.next ⟨assignedLeader, []⟩) ∧
      Round.Settled ((doneOps.foldl Round.next ⟨assignedLeader, []⟩).next .terminal) ∧
      ((doneOps.foldl Round.next ⟨assignedLeader, []⟩).next .terminal).leader.status =
        ((doneOps.foldl Round.next ⟨assignedLeader, []⟩).next .terminal).leader.status := by
  obtain ⟨hsettled, hsame⟩ := Round.rollUp_settles_iff _ _ _ doneOps_finished
  have hround := hsettled.mpr (.inl (by decide +kernel))
  exact ⟨doneOps_finished, hround, (hsame _ _ _ doneOps_finished (.refl _)).2 hround⟩

/-- A round with a superseded worker task is not. -/
theorem supersededRound_open :
    ¬ ∀ (start : Round) (ops : List RoundOp) (r : Round), Round.Finished start ops r →
      Round.Settled (r.next .terminal) := by
  intro h
  have hfinal := (h _ _ _ supersededOps_finished).final
  revert hfinal
  decide +kernel

end Orchestration
end RepoMesh
