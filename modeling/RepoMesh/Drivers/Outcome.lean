/-
# One honest outcome

What the events of a conversation say about its result. A protocol says which of the agent's messages
declare that the prompt succeeded or failed, which end the run, and what the driver's answers to
permission requests mean.
-/
import Mathlib.Data.List.Forall2
import RepoMesh.Drivers.Base

namespace RepoMesh
namespace Drivers

open Execution (PermissionDecision)

/-- What the messages of a protocol mean. Whether one speaks of this run's prompt depends on the
events before it. -/
structure Protocol where
  success : List Event → Json → Prop
  failure : List Event → Json → Prop
  terminal : Json → Prop
  /-- A message of the driver answers a permission request. -/
  isAnswer : Json → Bool
  /-- An answer is for a request. -/
  answers : Json → Json → Prop
  /-- An answer allows what a request asks for. -/
  allows : Json → Json → Prop

variable (protocol : Protocol) (events : List Event)

/-- Success of this run's prompt has been declared, and no failure before. -/
def Declared : Prop :=
  ∃ before message after, events = before ++ .read message :: after ∧
    protocol.success before message ∧
    ∀ earlier other later, before = earlier ++ .read other :: later →
      ¬ protocol.failure earlier other

/-- A permission request has been decided `ESCALATE`. -/
def Escalated : Prop := ∃ request, .decided request (some .escalate) ∈ events

/-- A message that ends the run has been read. -/
def Ended : Prop := ∃ message, .read message ∈ events ∧ protocol.terminal message

/-- A request has been decided `ESCALATE` before a message that ends the run. -/
def EscalatedFirst : Prop :=
  ∃ before request after, events = before ++ .decided request (some .escalate) :: after ∧
    ¬ Ended protocol before

/-- The answers to permission requests that were written, in order. -/
def writtenAnswers : List Json :=
  events.filterMap fun
    | .wrote message => if protocol.isAnswer message then some message else none
    | _ => none

/-- The permission requests with what the policy decided, in order. -/
def questions : List (Json × Option PermissionDecision) :=
  events.filterMap fun
    | .decided request decision => some (request, decision)
    | _ => none

/-- **Each request is answered at most once**, in order, and with an allowing answer only where the
policy decided `ALLOW`. -/
def AnsweredOnce : Prop :=
  List.SublistForall₂ (fun answer (question : Json × Option PermissionDecision) =>
      protocol.answers answer question.1 ∧
        (protocol.allows answer question.1 → question.2 = some .allow))
    (writtenAnswers protocol events) (questions events)

/-- **The result is honest.** -/
structure Honest (result : DriverResult) : Prop where
  succeeded : result.status = .succeeded → Declared protocol events ∧ ¬ Escalated events
  escalated : EscalatedFirst protocol events → .cancelled ∉ events → .timedOut ∉ events →
    result.status = .inputRequired
  answered : AnsweredOnce protocol events
  summary : result.status ≠ .succeeded → result.summary = ""

/-- **One honest outcome** of a run: whatever is returned after some ticks is honest, stays as it is, and
is returned in any case once the stream has ended, whatever the watchdog says in the end. -/
structure OneOutcome {τ : Type} (protocol : Protocol) (events : List τ → List Event)
    (result : List τ → Option DriverResult) (ending : List Bool → List τ) (ticks : List τ) :
    Prop where
  honest : ∀ r, result ticks = some r → Honest protocol (events ticks) r
  answered : AnsweredOnce protocol (events ticks)
  final : ∀ r more, result ticks = some r → result (ticks ++ more) = some r
  returns : ∃ n, ∀ looks : List Bool, n ≤ looks.length →
    (result (ticks ++ ending looks)).isSome = true

variable {protocol events}

/-! ## Further events -/

theorem Declared.append (h : Declared protocol events) (more : List Event) :
    Declared protocol (events ++ more) := by
  obtain ⟨before, message, after, rfl, hsuccess, hfailure⟩ := h
  exact ⟨before, message, after ++ more, by simp, hsuccess, hfailure⟩

theorem Ended.append (h : Ended protocol events) (more : List Event) :
    Ended protocol (events ++ more) := by
  obtain ⟨message, hmem, hterminal⟩ := h
  exact ⟨message, by simp [hmem], hterminal⟩

theorem escalatedFirst_concat {event : Event} : EscalatedFirst protocol (events ++ [event]) ↔
    EscalatedFirst protocol events ∨
      (∃ request, event = .decided request (some .escalate)) ∧ ¬ Ended protocol events := by
  constructor
  · rintro ⟨before, request, after, heq, hended⟩
    rcases List.eq_nil_or_concat after with rfl | ⟨front, last, rfl⟩
    · obtain ⟨rfl, hlast⟩ := List.append_inj' heq rfl
      exact Or.inr ⟨⟨request, List.singleton_inj.mp hlast⟩, hended⟩
    · rw [List.concat_eq_append, ← List.cons_append, ← List.append_assoc] at heq
      obtain ⟨hfront, -⟩ := List.append_inj' heq rfl
      exact Or.inl ⟨before, request, front, hfront, hended⟩
  · rintro (⟨before, request, after, rfl, hended⟩ | ⟨⟨request, rfl⟩, hended⟩)
    · exact ⟨before, request, after ++ [event], by simp, hended⟩
    · exact ⟨events, request, [], rfl, hended⟩

theorem escalated_concat {event : Event} : Escalated (events ++ [event]) ↔
    Escalated events ∨ ∃ request, event = .decided request (some .escalate) := by
  simp [Escalated, exists_or, eq_comm]

theorem EscalatedFirst.escalated (h : EscalatedFirst protocol events) : Escalated events := by
  obtain ⟨before, request, after, rfl, -⟩ := h
  exact ⟨request, by simp⟩

theorem not_escalated_nil : ¬ Escalated [] := by
  rintro ⟨request, hmem⟩
  cases hmem

/-! ## Answers -/

theorem answeredOnce_nil : AnsweredOnce protocol [] := List.SublistForall₂.nil

theorem AnsweredOnce.other (h : AnsweredOnce protocol events) {event : Event}
    (hwrote : ∀ message, event = .wrote message → protocol.isAnswer message = false)
    (hdecided : ∀ request decision, event ≠ .decided request decision) :
    AnsweredOnce protocol (events ++ [event]) := by
  have hanswers : writtenAnswers protocol (events ++ [event]) = writtenAnswers protocol events := by
    rw [writtenAnswers, List.filterMap_append]
    cases event with
    | wrote message => simp [hwrote message rfl, writtenAnswers]
    | _ => simp [writtenAnswers]
  have hquestions : questions (events ++ [event]) = questions events := by
    rw [questions, List.filterMap_append]
    cases event with
    | decided request decision => exact absurd rfl (hdecided request decision)
    | _ => simp [questions]
  rw [AnsweredOnce, hanswers, hquestions]
  exact h

theorem AnsweredOnce.decided (h : AnsweredOnce protocol events) (request : Json)
    (decision : Option PermissionDecision) :
    AnsweredOnce protocol (events ++ [.decided request decision]) := by
  have hanswers : writtenAnswers protocol (events ++ [.decided request decision])
      = writtenAnswers protocol events := by
    rw [writtenAnswers, List.filterMap_append]
    simp [writtenAnswers]
  have hquestions : questions (events ++ [.decided request decision])
      = questions events ++ [(request, decision)] := by
    rw [questions, List.filterMap_append]
    simp [questions]
  rw [AnsweredOnce, hanswers, hquestions]
  obtain ⟨matched, hmatched, hsublist⟩ := List.sublistForall₂_iff.mp h
  exact List.sublistForall₂_iff.mpr ⟨matched, hmatched, hsublist.trans (List.sublist_append_left _ _)⟩

theorem AnsweredOnce.answer (h : AnsweredOnce protocol events) {request message : Json}
    {decision : Option PermissionDecision} (hfor : protocol.answers message request)
    (hallows : protocol.allows message request → decision = some .allow) :
    AnsweredOnce protocol (events ++ [.decided request decision] ++ [.wrote message]) := by
  by_cases hanswer : protocol.isAnswer message = true
  · have hanswers : writtenAnswers protocol (events ++ [.decided request decision] ++ [.wrote message])
        = writtenAnswers protocol events ++ [message] := by
      rw [writtenAnswers, List.filterMap_append, List.filterMap_append]
      simp [writtenAnswers, hanswer]
    have hquestions : questions (events ++ [.decided request decision] ++ [.wrote message])
        = questions events ++ [(request, decision)] := by
      rw [questions, List.filterMap_append, List.filterMap_append]
      simp [questions]
    rw [AnsweredOnce, hanswers, hquestions]
    obtain ⟨matched, hmatched, hsublist⟩ := List.sublistForall₂_iff.mp h
    refine List.sublistForall₂_iff.mpr ⟨matched ++ [(request, decision)], ?_, ?_⟩
    · exact List.rel_append hmatched (List.Forall₂.cons ⟨hfor, hallows⟩ List.Forall₂.nil)
    · exact hsublist.append (List.Sublist.refl _)
  · refine (h.decided request decision).other ?_ (by simp)
    intro other heq
    obtain rfl := Event.wrote.inj heq
    simpa using hanswer

/-! ## Quiet events -/

/-- The event is an escalation. -/
def Event.Escalates (event : Event) : Prop := ∃ request, event = .decided request (some .escalate)

theorem escalated_quiet {more : List Event} (h : ∀ event ∈ more, ¬ event.Escalates) :
    Escalated (events ++ more) ↔ Escalated events := by
  induction more using List.reverseRecOn with
  | nil => rw [List.append_nil]
  | append_singleton more event ih =>
    have hlast : ¬ event.Escalates := h event (by simp)
    rw [← List.append_assoc, escalated_concat, ih fun e he => h e (by simp [he])]
    exact or_iff_left hlast

theorem escalatedFirst_quiet {more : List Event} (h : ∀ event ∈ more, ¬ event.Escalates) :
    EscalatedFirst protocol (events ++ more) ↔ EscalatedFirst protocol events := by
  induction more using List.reverseRecOn with
  | nil => rw [List.append_nil]
  | append_singleton more event ih =>
    have hlast : ¬ event.Escalates := h event (by simp)
    rw [← List.append_assoc, escalatedFirst_concat, ih fun e he => h e (by simp [he])]
    exact or_iff_left fun hboth => hlast hboth.1

end Drivers
end RepoMesh
