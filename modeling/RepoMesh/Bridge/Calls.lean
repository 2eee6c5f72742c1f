/-
# What the supervisor's calls ask

Which operations a call performs and how it ends, whatever it is answered: a decision asks the
ports, and the file for the thread's session and the run's anchor; a drain offers intents and writes
down what the room said. A call ends in one of its own exceptions or in one an operation on the
file was answered with.
-/
import RepoMesh.Foundation.Service
import RepoMesh.Bridge.Supervisor

namespace RepoMesh
namespace Bridge

open Async
open Async.Prog (Within)
open Delivery (UUID)

/-- How a call ends: with a value or with an exception. -/
def Ends {α : Type} (φ : α → Prop) (E : Raised → Prop) : Except Raised α → Prop
  | .ok a => φ a
  | .error e => E e

theorem Ends.error {α : Type} {φ : α → Prop} {E : Raised → Prop} {r : Except Raised α}
    (h : Ends φ E r) : ∀ e, r = .error e → E e := by
  rintro e rfl
  exact h

/-- An answer as the supervisor makes them: it settles its turn for good or leaves it timed out, its
lane is a declared one, and a run is announced with one message. -/
structure TurnAnswer.Proper (answer : TurnAnswer) : Prop where
  status : answer.status = "timeout" ∨ answer.status ∈ TERMINAL_TURN_STATES
  lane : answer.lane ∈ LANES
  receipt : answer.lane = RUN_LANE → answer.observations.length = 1

theorem terminal_mem (status : String) : terminal status ∈ TERMINAL_TURN_STATES := by
  unfold terminal
  split_ifs with h
  · exact h
  · decide

theorem proper_failedAnswer (text : String) : (failedAnswer text).Proper :=
  ⟨Or.inr (show "failed" ∈ TERMINAL_TURN_STATES by decide), show NOTE_LANE ∈ LANES by decide,
    fun _ => rfl⟩

theorem proper_timedOut : timedOut.Proper :=
  ⟨Or.inl rfl, show NOTE_LANE ∈ LANES by decide, fun _ => rfl⟩

section

variable [Protocol]

/-- The operations on the state file that a decision, a drain or a reading performs. -/
def BridgeOp.OnFile : BridgeOp → Prop
  | .pending | .markSent .. | .markRefused _ | .since | .resumeHandle .. | .bindSession ..
  | .countTurn .. | .recordAnchor _ => True
  | _ => False

/-- The operations of a decision. -/
def BridgeOp.Deciding : BridgeOp → Prop
  | .resumeHandle .. | .bindSession .. | .countTurn .. | .recordAnchor _ | .respond _
  | .startTask .. | .fetchAssignment _ | .plan _ | .submitPlan .. | .review _
  | .submitReview .. => True
  | _ => False

/-- The operations of a drain. -/
def BridgeOp.Draining : BridgeOp → Prop
  | .pending | .markSent .. | .markRefused _ | .send _ => True
  | _ => False

/-- The operations that read the room. -/
def BridgeOp.Reading : BridgeOp → Prop
  | .since | .sync _ => True
  | _ => False

/-- The operations that answer invitations. -/
def BridgeOp.Joining : BridgeOp → Prop
  | .join _ => True
  | _ => False

variable {sv : RoomSupervisor} {A : (op : BridgeOp) → Except Raised op.Answer → Prop}
  {E : Raised → Prop}

theorem within_file {P : BridgeOp → Prop} {op : BridgeOp} (hop : P op) (hfile : op.OnFile)
    (hA : ∀ op e, op.OnFile → A op (.error e) → E e) :
    (ask op).Within P A (Ends (fun _ => True) E) := by
  refine ⟨hop, fun r hr => ?_⟩
  cases r with
  | ok a => exact trivial
  | error e => exact hA op e hfile hr

theorem within_port {P : BridgeOp → Prop} {op : BridgeOp} (hop : P op) :
    (ask op).Within P A fun _ => True :=
  ⟨hop, fun _ _ => trivial⟩

section

variable (hcancel : E .cancelledError) (hA : ∀ op e, op.OnFile → A op (.error e) → E e)

include hcancel hA

theorem within_startGoverned (trigger : Trigger) (taskId : UUID) :
    (startGoverned sv trigger taskId).Within BridgeOp.Deciding A (Ends TurnAnswer.Proper E) := by
  unfold startGoverned
  split_ifs
  · exact proper_failedAnswer _
  · refine (within_port (by trivial)).resume ?_
    rintro (e | receipt) -
    · cases e <;> first | exact hcancel | exact proper_timedOut | exact proper_failedAnswer _
    · refine (within_file (by trivial) (by trivial) hA).bind (fun _ _ => ?_) fun e he => he
      exact ⟨Or.inr (show "completed" ∈ TERMINAL_TURN_STATES by decide),
        show RUN_LANE ∈ LANES by decide, fun _ => rfl⟩

omit hcancel hA in
theorem within_leaderRound (notice : LeaderNotice) :
    (leaderRound notice).Within BridgeOp.Deciding A fun _ => True := by
  refine (within_port (by trivial)).bind (fun package _ => ?_) fun _ _ => trivial
  dsimp only
  split_ifs
  · trivial
  · cases notice.action with
    | plan =>
      refine (within_port (by trivial)).bind (fun plan _ => ?_) fun _ _ => trivial
      exact (within_port (by trivial)).bind (fun _ _ => trivial) fun _ _ => trivial
    | review =>
      refine (within_port (by trivial)).bind (fun verdict _ => ?_) fun _ _ => trivial
      exact (within_port (by trivial)).bind (fun _ _ => trivial) fun _ _ => trivial

omit hA in
theorem within_decideAsLeader (notice : LeaderNotice) :
    (decideAsLeader sv notice).Within BridgeOp.Deciding A (Ends TurnAnswer.Proper E) := by
  unfold decideAsLeader
  split_ifs
  · exact proper_failedAnswer _
  · refine (within_leaderRound notice).resume ?_
    rintro (e | line) -
    · cases e <;> first | exact hcancel | exact proper_timedOut | exact proper_failedAnswer _
    · exact ⟨Or.inr (show "completed" ∈ TERMINAL_TURN_STATES by decide),
        show NOTE_LANE ∈ LANES by decide, fun _ => rfl⟩

theorem within_converse (trigger : Trigger) :
    (converse sv trigger).Within BridgeOp.Deciding A (Ends TurnAnswer.Proper E) := by
  refine (within_file (by trivial) (by trivial) hA).bind (fun handle _ => ?_) fun e he => he
  refine (within_port (by trivial)).resume ?_
  rintro (e | outcome) -
  · cases e <;> first | exact hcancel | exact proper_timedOut | exact proper_failedAnswer _
  · refine (within_file (by trivial) (by trivial) hA).bind (fun _ _ => ?_) fun e he => he
    refine (within_file (by trivial) (by trivial) hA).bind (fun _ _ => ?_) fun e he => he
    refine ⟨Or.inr (terminal_mem _), show TURN_LANE ∈ LANES by decide, fun hlane => ?_⟩
    exact absurd hlane (show TURN_LANE ≠ RUN_LANE by decide)

/-- **A decision** asks the ports, the sessions and the anchors, and its answer is proper. -/
theorem within_decide (trigger : Trigger) :
    (decide sv trigger).Within BridgeOp.Deciding A (Ends TurnAnswer.Proper E) := by
  unfold decide
  split
  · exact within_decideAsLeader hcancel _
  · split
    · exact within_startGoverned hcancel hA _ _
    · exact within_converse hcancel hA _

variable (htrouble : E .roomTrouble)

include htrouble

theorem within_offer (row : OutboxRow) :
    (offer row).Within BridgeOp.Draining A (Ends (fun _ => True) E) := by
  refine (within_port (by trivial)).resume ?_
  rintro (e | eventId) -
  · cases e <;> first
      | exact hcancel
      | exact htrouble
      | exact within_file (by trivial) (by trivial) hA
  · exact within_file (by trivial) (by trivial) hA

/-- **A drain** offers and marks, and ends in the room's trouble if it ends early. -/
theorem within_drain : drain.Within BridgeOp.Draining A (Ends (fun _ => True) E) := by
  refine (within_file (by trivial) (by trivial) hA).bind (fun sends _ => ?_) fun e he => he
  refine (Within.each (E := E) fun row _ => ?_).bind (fun _ _ => trivial) fun e he => he e rfl
  exact (within_offer hcancel hA htrouble row).mono fun r hr => hr.error

/-- **Reading the room** ends with a batch, in the room's trouble, or in its refusal. -/
theorem within_sync {φ : RoomBatch → Prop}
    (hbatch : ∀ since batch, A (.sync since) (.ok batch) → φ batch)
    (hrefusal : ∀ since message, A (.sync since) (.error (.roomRefused message)) →
      E (.roomRefused message)) :
    sync.Within BridgeOp.Reading A (Ends φ E) := by
  refine (within_file (by trivial) (by trivial) hA).bind (fun since _ => ?_) fun e he => he
  have hask : (ask (.sync since)).Within BridgeOp.Reading A (A (.sync since)) :=
    ⟨trivial, fun r hr => hr⟩
  refine hask.resume ?_
  rintro (e | batch) hr
  · cases e <;> first
      | exact hcancel
      | exact htrouble
      | exact hrefusal since _ hr
  · exact hbatch since batch hr

omit hA in
theorem within_acceptInvites (batch : RoomBatch) :
    (acceptInvites sv batch).Within BridgeOp.Joining A (Ends (fun _ => True) E) := by
  have hinvite : ∀ invite : RoomInvite,
      (acceptInvite sv invite).Within BridgeOp.Joining A (Ends (fun _ => True) E) := by
    intro invite
    unfold acceptInvite
    split_ifs
    · refine (within_port (by trivial)).resume ?_
      rintro (e | _) -
      · cases e <;> first | exact hcancel | exact htrouble | trivial
      · trivial
    · trivial
  refine (Within.each (E := E) fun invite _ => ?_).bind (fun _ _ => trivial) fun e he => he e rfl
  exact (hinvite invite).mono fun r hr => hr.error

end

end

end Bridge
end RepoMesh
