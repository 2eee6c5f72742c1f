/-
# The outcome of a stream-json run

What a stream-json run returns is honest as long as nothing raises and a result frame that passes for a
success declares one for a prompt that was sent.
-/
import RepoMesh.Drivers.StreamJson

namespace RepoMesh
namespace Drivers
namespace StreamJson

open Execution (PermissionDecision)

/-- A result frame. -/
def IsResult (message : Json) : Prop :=
  message.isObj = true ∧ (message.get "type").str? = some "result"

/-- The prompt is an argument, or its frame has been written. -/
def Sent (request : Request) (events : List Event) : Prop :=
  request.promptViaStdin = true → Event.wrote (promptFrame request.prompt) ∈ events

/-- What the messages mean. A result frame declares success if it says that it is no error. -/
def protocol (request : Request) : Protocol where
  success := fun before message =>
    Sent request before ∧ IsResult message ∧ isFalse (message.get "is_error") = true
  failure := fun _ message => IsResult message ∧ isFalse (message.get "is_error") = false
  terminal := IsResult
  isAnswer := fun message => (message.get "type").str? == some "control_response"
  answers := fun answer request =>
    (answer.get "response").get "request_id" = request.get "request_id"
  allows := fun answer _ =>
    ((answer.get "response").get "response").get "behavior" = .str "allow"

/-- The invariant of a run. -/
structure Inv (env : Surroundings) (request : Request) (c : Run) : Prop where
  answered : AnsweredOnce (protocol request) c.events
  sent : env.writes 0 = true → Sent request c.events
  undecided : c.stage = .reading ∨ c.stage = .exiting →
    ¬ Escalated c.events ∧ ¬ Ended (protocol request) c.events
  honest : ∀ r, c.stage = .returned r → Honest (protocol request) c.events r
  total : c.stage ≠ .raised

section Steps

variable {env : Surroundings} {request : Request} {c : Run}

theorem Sent.append {events : List Event} (h : Sent request events) (more : List Event) :
    Sent request (events ++ more) :=
  fun hstdin => List.mem_append_left _ (h hstdin)

theorem inv_start (env : Surroundings) (request : Request) : Inv env request (start env request) := by
  have hevents : (start env request).events = [] ∨
      (start env request).events = [.wrote (promptFrame request.prompt)] := by
    by_cases hgoes : (request.promptViaStdin && env.writes 0) = true
    · exact Or.inr (if_pos hgoes)
    · exact Or.inl (if_neg hgoes)
  refine ⟨?_, ?_, fun _ => ⟨?_, ?_⟩, fun r hr => ?_, fun h => ?_⟩
  · rcases hevents with heq | heq
    · rw [heq]
      exact answeredOnce_nil
    · rw [heq, ← List.nil_append [Event.wrote _]]
      refine answeredOnce_nil.other (fun message hmessage => ?_) (by simp)
      obtain rfl := Event.wrote.inj hmessage
      rfl
  · intro hwrites hstdin
    rw [start, hstdin, hwrites]
    exact List.mem_singleton_self _
  · rintro ⟨asked, hmem⟩
    rcases hevents with heq | heq <;> simp [heq] at hmem
  · rintro ⟨message, hmem, -⟩
    rcases hevents with heq | heq <;> simp [heq] at hmem
  · cases hr
  · cases h

theorem not_ended_read {events : List Event} {message : Json}
    (h : ¬ Ended (protocol request) events) (hmessage : ¬ IsResult message) :
    ¬ Ended (protocol request) (events ++ [Event.read message]) := by
  rintro ⟨other, hmem, hother⟩
  rcases List.mem_append.mp hmem with hold | hnew
  · exact h ⟨other, hold, hother⟩
  · obtain rfl := Event.read.inj (List.mem_singleton.mp hnew)
    exact hmessage hother

theorem not_escalated_other {events : List Event} {event : Event} (h : ¬ Escalated events)
    (hevent : ¬ event.Escalates) : ¬ Escalated (events ++ [event]) := by
  rw [escalated_concat]
  exact fun hboth => hboth.elim h hevent

theorem not_escalates_read (message : Json) : ¬ (Event.read message).Escalates := by
  rintro ⟨request, h⟩
  cases h

theorem answered_read {events : List Event} (h : AnsweredOnce (protocol request) events)
    (message : Json) : AnsweredOnce (protocol request) (events ++ [Event.read message]) :=
  h.other (by simp) (by simp)

theorem honest_other {events : List Event} {r : DriverResult}
    (hanswered : AnsweredOnce (protocol request) events) (hstatus : r.status ≠ .succeeded)
    (hescalated : ¬ Escalated events ∨ .cancelled ∈ events ∨ .timedOut ∈ events ∨
      r.status = .inputRequired) : Honest (protocol request) events r where
  succeeded := fun h => absurd h hstatus
  escalated := fun hfirst hcancelled htimedOut => by
    rcases hescalated with h | h | h | h
    · exact absurd hfirst.escalated h
    · exact absurd h hcancelled
    · exact absurd h htimedOut
    · exact h
  answered := hanswered
  summary := r.summary_eq

theorem inv_finish {c' : Run} {status : DriverResultStatus} {summary : String}
    (hanswered : AnsweredOnce (protocol request) c'.events)
    (hsent : env.writes 0 = true → Sent request c'.events)
    (hhonest : Honest (protocol request) c'.events (c'.result status summary)) :
    Inv env request (c'.finish status summary) where
  answered := hanswered
  sent := hsent
  undecided := fun h => by rcases h with h | h <;> cases h
  honest := fun r hr => by
    obtain rfl := Stage.returned.inj hr
    exact hhonest
  total := fun h => by cases h

theorem inv_stopped (h : Inv env request c) {event : Event} {status : DriverResultStatus}
    (hevent : event = .cancelled ∨ event = .timedOut) (hstatus : status ≠ .succeeded) :
    Inv env request ({ c with events := c.events ++ [event] }.finish status "") := by
  have hanswered : AnsweredOnce (protocol request) (c.events ++ [event]) := by
    refine h.answered.other ?_ ?_
    · rintro message rfl
      simp at hevent
    · rintro asked decision rfl
      simp at hevent
  refine inv_finish hanswered (fun hwrites => (h.sent hwrites).append _)
    (honest_other hanswered hstatus ?_)
  rcases hevent with rfl | rfl
  · exact Or.inr (Or.inl (by simp))
  · exact Or.inr (Or.inr (Or.inl (by simp)))

theorem inv_noted (h : Inv env request c) (hstage : c.stage = .reading) {message : Json}
    (hmessage : ¬ IsResult message) {c' : Run}
    (hevents : c'.events = c.events ++ [Event.read message]) (hsame : c'.stage = .reading) :
    Inv env request c' := by
  obtain ⟨hescalated, hended⟩ := h.undecided (Or.inl hstage)
  refine ⟨?_, ?_, fun _ => ⟨?_, ?_⟩, fun r hr => ?_, fun hr => ?_⟩
  · rw [hevents]
    exact answered_read h.answered message
  · rw [hevents]
    exact fun hwrites => (h.sent hwrites).append _
  · rw [hevents]
    exact not_escalated_other hescalated (not_escalates_read message)
  · rw [hevents]
    exact not_ended_read hended hmessage
  · rw [hsame] at hr
    cases hr
  · rw [hsame] at hr
    cases hr

/-! ## Permission requests -/

/-- The tool and the input that a request asks a permission for. -/
def question [PyStr] (message : Json) : Option (String × Json) :=
  let payload := mapping (message.get "request")
  if message.isObj = true ∧ (message.get "type").str? = some "control_request" ∧
      (payload.get "subtype").str? = some "can_use_tool" then
    some (strOr (payload.get "tool_name"), mapping (payload.get "input"))
  else none

theorem allows_verdict (requestId toolInput : Json) (asked : Json) {decision : PermissionDecision}
    (h : (protocol request).allows (controlResponse requestId (verdict toolInput decision)) asked) :
    decision = .allow := by
  cases decision with
  | allow => rfl
  | _ => simp [protocol, controlResponse, verdict, Json.get, Json.get?] at h

theorem inv_controlRequest [PyStr] (h : Inv env request c) (hstage : c.stage = .reading)
    {message : Json} (hmessage : ¬ IsResult message) (hobj : message.isObj = true)
    (htype : (message.get "type").str? = some "control_request")
    (hwrites : ∀ asked, question message = some asked →
      (env.decide c.asked asked.1 asked.2).getD .escalate ≠ .escalate → env.writes c.written = true) :
    Inv env request
      (onControlRequest env { c with events := c.events ++ [Event.read message] } message) := by
  obtain ⟨hescalated, hended⟩ := h.undecided (Or.inl hstage)
  unfold onControlRequest
  by_cases hsubtype : ((mapping (message.get "request")).get "subtype").str? = some "can_use_tool"
  · have hquestion : question message
        = some (strOr ((mapping (message.get "request")).get "tool_name"),
          mapping ((mapping (message.get "request")).get "input")) := by
      rw [question, if_pos ⟨hobj, htype, hsubtype⟩]
    have hgoes := hwrites _ hquestion
    rw [if_pos hsubtype]
    simp only at hgoes ⊢
    generalize hanswer : env.decide c.asked (strOr ((mapping (message.get "request")).get "tool_name"))
      (mapping ((mapping (message.get "request")).get "input")) = answer at hgoes ⊢
    have hread := answered_read h.answered message
    split_ifs with hdecision hgo
    · have hanswered := hread.decided message answer
      refine inv_finish hanswered (fun hprompt => ((h.sent hprompt).append _).append _)
        (honest_other hanswered (by simp [Run.result]) (Or.inr (Or.inr (Or.inr rfl))))
    · -- the decision is answered, and was no escalation
      have hdecided : ¬ (Event.decided message answer).Escalates := by
        rintro ⟨asked, heq⟩
        rw [(Event.decided.inj heq).2] at hdecision
        exact hdecision rfl
      have hwrote : ¬ (Event.wrote (controlResponse (message.get "request_id")
          (verdict (mapping ((mapping (message.get "request")).get "input"))
            (answer.getD .escalate)))).Escalates := by
        rintro ⟨asked, heq⟩
        cases heq
      refine ⟨?_, fun hprompt => (((h.sent hprompt).append _).append _).append _,
        fun _ => ⟨?_, ?_⟩, fun r hr => ?_, fun hr => ?_⟩
      · refine hread.answer rfl fun hallows => ?_
        have hallow : answer.getD .escalate = .allow := allows_verdict _ _ message hallows
        cases answer with
        | some decision => exact congrArg some hallow
        | none => cases hallow
      · exact not_escalated_other (not_escalated_other
          (not_escalated_other hescalated (not_escalates_read message)) hdecided) hwrote
      · rintro ⟨other, hmem, hother⟩
        simp only [List.mem_append, List.mem_singleton, reduceCtorEq, or_false] at hmem
        refine not_ended_read hended hmessage ⟨other, ?_, hother⟩
        simpa using hmem
      · rw [hstage] at hr
        cases hr
      · rw [hstage] at hr
        cases hr
    · exact absurd (hgoes hdecision) hgo
  · rw [if_neg hsubtype]
    exact inv_noted h hstage hmessage rfl hstage

/-! ## The result frame -/

/-- A result frame passes for a success. -/
def Passes (message : Json) : Prop :=
  IsResult message ∧ message.hasKey "is_error" = true ∧ (message.get "is_error").truthy = false

theorem takeSession_events (request : Request) (c : Run) (message : Json) :
    (takeSession request c message).events = c.events := by
  rw [takeSession]
  split
  · split_ifs <;> rfl
  · rfl

theorem inv_result (h : Inv env request c) (hstage : c.stage = .reading) {message : Json}
    (hresult : IsResult message)
    (hpasses : Passes message → isFalse (message.get "is_error") = true ∧
      (request.promptViaStdin = true → env.writes 0 = true)) :
    Inv env request
      (onResult request { c with events := c.events ++ [Event.read message] } message) := by
  obtain ⟨hescalated, hended⟩ := h.undecided (Or.inl hstage)
  unfold onResult
  simp only
  have hevents := takeSession_events request { c with events := c.events ++ [Event.read message] }
    message
  generalize takeSession request { c with events := c.events ++ [Event.read message] } message = kept
    at hevents ⊢
  have hanswered : AnsweredOnce (protocol request) kept.events := by
    rw [hevents]
    exact answered_read h.answered message
  have hsent : env.writes 0 = true → Sent request kept.events := by
    rw [hevents]
    exact fun hprompt => (h.sent hprompt).append _
  have hquiet : ¬ Escalated kept.events := by
    rw [hevents]
    exact not_escalated_other hescalated (not_escalates_read message)
  split_ifs with hkey htruthy
  · exact inv_finish hanswered hsent (honest_other hanswered (by simp [Run.result]) (Or.inl hquiet))
  · exact inv_finish hanswered hsent (honest_other hanswered (by simp [Run.result]) (Or.inl hquiet))
  all_goals
    obtain ⟨hfalse, hprompt⟩ := hpasses ⟨hresult, by simpa using hkey, by simpa using htruthy⟩
    refine inv_finish hanswered hsent
      ⟨fun _ => ⟨⟨c.events, message, [], hevents, ⟨fun hstdin => ?_, hresult, hfalse⟩, ?_⟩, hquiet⟩,
        fun hfirst => absurd hfirst.escalated hquiet, hanswered, DriverResult.summary_eq _⟩
    · exact h.sent (hprompt hstdin) hstdin
    · rintro earlier other later heq hfailure
      exact hended ⟨other, by simp [heq], hfailure.1⟩

/-! ## Every step -/

/-- A step does not raise, and a result frame that passes for a success declares one for a prompt that
was sent. -/
def Fine [PyStr] (env : Surroundings) (request : Request) (c : Run) (t : Tick) : Prop :=
  c.stage = .reading →
    (∀ expired, t ≠ .read .fatal expired) ∧ t ≠ .broken ∧
    ∀ message expired, t = .read (.json message) expired →
      (∀ asked, question message = some asked →
        (env.decide c.asked asked.1 asked.2).getD .escalate ≠ .escalate →
        env.writes c.written = true) ∧
      (Passes message → isFalse (message.get "is_error") = true ∧
        (request.promptViaStdin = true → env.writes 0 = true))

theorem inv_consume [PyStr] (h : Inv env request c) (hstage : c.stage = .reading) {message : Json}
    {expired : Bool} (hfine : Fine env request c (.read (.json message) expired)) :
    Inv env request (consume env request c message) := by
  obtain ⟨-, -, hmessages⟩ := hfine hstage
  obtain ⟨hwrites, hpasses⟩ := hmessages message expired rfl
  have hother : ∀ c' : Run, ¬ IsResult message → c'.events = c.events ++ [Event.read message] →
      c'.stage = c.stage → Inv env request c' :=
    fun c' hmessage hevents hsame => inv_noted h hstage hmessage hevents (hsame.trans hstage)
  unfold consume
  by_cases hobj : message.isObj = true
  · rw [if_pos hobj]
    have hnot : ∀ {kind : Option String}, (message.get "type").str? = kind →
        kind ≠ some "result" → ¬ IsResult message :=
      fun hkind hne hresult => hne (hkind.symm.trans hresult.2)
    split
    · rename_i htype
      refine hother _ (hnot htype (by decide)) ?_ ?_ <;>
      · unfold onSystem
        simp only
        split <;> rfl
    · rename_i htype
      exact hother _ (hnot htype (by decide)) rfl rfl
    · rename_i htype
      exact inv_controlRequest h hstage (hnot htype (by decide)) hobj htype hwrites
    · rename_i htype
      exact inv_result h hstage ⟨hobj, htype⟩ hpasses
    · rename_i hresult
      exact hother _ (fun hr => hresult hr.2) rfl rfl
  · rw [if_neg hobj]
    exact hother _ (fun hresult => hobj hresult.1) rfl rfl

/-- **A fine step keeps the invariant.** -/
theorem Inv.tick [PyStr] (h : Inv env request c) {t : Tick} (hfine : Fine env request c t) :
    Inv env request (StreamJson.tick env request c t) := by
  unfold StreamJson.tick
  split
  · rename_i line expired hstage
    obtain ⟨hfatal, -, -⟩ := hfine hstage
    cases line with
    | json message => exact inv_consume h hstage hfine
    | fatal => exact absurd rfl (hfatal expired)
    | closed =>
      rw [Run.read]
      split_ifs
      · exact inv_stopped h (Or.inr rfl) (by decide)
      · refine ⟨h.answered, h.sent, fun _ => h.undecided (Or.inl hstage), fun r hr => ?_, fun hr => ?_⟩
        · cases hr
        · cases hr
    | _ => exact h
  · rename_i hstage
    exact absurd rfl (hfine hstage).2.1
  · exact inv_stopped h (Or.inr rfl) (by decide)
  · exact inv_stopped h (Or.inl rfl) (by decide)
  · rename_i hstage
    exact inv_finish h.answered h.sent (honest_other h.answered (by simp [Run.result])
      (Or.inl (h.undecided (Or.inr hstage)).1))
  · exact inv_stopped h (Or.inl rfl) (by decide)
  · exact h

/-- **The invariant holds along every run whose steps are fine.** -/
theorem inv_after [PyStr] {ticks : List Tick} (hfine : ∀ before t later,
      ticks = before ++ t :: later → Fine env request (after env request before) t) :
    Inv env request (after env request ticks) := by
  induction ticks using List.reverseRecOn with
  | nil => exact inv_start env request
  | append_singleton front t ih =>
    have hfront : Inv env request (after env request front) := by
      refine ih fun before t' later heq => hfine before t' (later ++ [t]) ?_
      rw [heq, List.append_assoc, List.cons_append]
    have hlast : Fine env request (after env request front) t := hfine front t [] rfl
    rw [after, List.foldl_append]
    exact hfront.tick hlast

/-! ## What is returned -/

/-- The stream ends, the watchdog is looked at, and the process exits. -/
def ending : List Bool → List Tick
  | [] => []
  | expired :: _ => [.read .closed expired, .exited]

theorem tick_returned [PyStr] {r : DriverResult} (h : c.stage = .returned r) (t : Tick) :
    tick env request c t = c := by
  simp only [tick, h]

theorem foldl_returned [PyStr] {r : DriverResult} (h : c.stage = .returned r) (ticks : List Tick) :
    ticks.foldl (tick env request) c = c := by
  induction ticks with
  | nil => rfl
  | cons t rest ih => rw [List.foldl_cons, tick_returned h, ih]

theorem ending_returns [PyStr] (htotal : c.stage ≠ .raised) (expired : Bool) :
    (returned ([Tick.read .closed expired, .exited].foldl (tick env request) c)).isSome = true := by
  cases hstage : c.stage with
  | reading => cases expired <;> simp [tick, hstage, returned, Run.read, Run.timedOut, Run.finish]
  | exiting => simp [tick, hstage, returned, Run.finish]
  | returned r =>
    rw [foldl_returned hstage, returned, hstage]
    rfl
  | raised => exact absurd hstage htotal

/-- **One honest outcome of every stream-json run whose steps are fine.** -/
theorem oneOutcome [PyStr] (env : Surroundings) (request : Request) {ticks : List Tick}
    (hfine : ∀ before t later, ticks = before ++ t :: later →
      Fine env request (after env request before) t) :
    OneOutcome (protocol request) (fun ticks => (after env request ticks).events)
      (fun ticks => returned (after env request ticks)) ending ticks := by
  have hinv := inv_after hfine
  have hstage : ∀ {c' : Run} {r : DriverResult}, returned c' = some r → c'.stage = .returned r := by
    intro c' r hr
    rw [returned] at hr
    split at hr
    · rename_i result hresult
      rw [hresult, Option.some.inj hr]
    · cases hr
  refine ⟨fun r hr => hinv.honest r (hstage hr), hinv.answered, ?_, 1, ?_⟩
  · intro r more hr
    have hkept : after env request (ticks ++ more) = after env request ticks := by
      rw [after, List.foldl_append]
      exact foldl_returned (hstage hr) more
    show returned (after env request (ticks ++ more)) = some r
    rw [hkept, hr]
  · intro looks hlooks
    cases looks with
    | nil => simp at hlooks
    | cons expired rest =>
      show (returned (after env request (ticks ++ ending (expired :: rest)))).isSome = true
      rw [after, List.foldl_append]
      exact ending_returns hinv.total expired

end Steps

end StreamJson
end Drivers
end RepoMesh
