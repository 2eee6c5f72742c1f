/-
# The outcome of an ACP run

What an ACP run returns is honest as long as no permission request is escalated when nobody notices,
and no success of the prompt is taken from a response that came before the prompt was sent.
-/
import RepoMesh.Drivers.Acp

namespace RepoMesh
namespace Drivers
namespace Acp

open Execution (PermissionDecision)

/-! ## The protocol -/

/-- The id of the `session/prompt` request. -/
def promptId (request : Request) : ℕ := if (given request.model).isSome then 4 else 3

/-- A response to the prompt that declares its success. -/
def isSuccess (response : Json) : Bool := !hasError response && isEndTurn response

/-- The prompt has been sent. -/
def Prompted (id : ℕ) (events : List Event) : Prop :=
  ∃ params, Event.wrote (requestMessage id "session/prompt" params) ∈ events

/-- The options of a permission request. -/
def optionsOf (request : Json) : List Json :=
  ((mapping (request.get "params")).get "options").list?.getD []

/-- An answer cancels the request, or selects an option to reject. -/
def Refuses (answer request : Json) : Prop :=
  let outcome := (answer.get "result").get "outcome"
  outcome.get "outcome" = .str "cancelled" ∨
    ∃ option ∈ optionsOf request, kindStarts "reject" option = true ∧
      option.get "optionId" = outcome.get "optionId"

/-- What the messages mean. The response to a prompt that has been sent declares its outcome. -/
def protocol (request : Request) : Protocol where
  success := fun before message =>
    ∃ id : ℕ, Prompted id before ∧ responseId message = some (id : ℤ) ∧ isSuccess message = true
  failure := fun before message =>
    ∃ id : ℕ, Prompted id before ∧ responseId message = some (id : ℤ) ∧ isSuccess message = false
  terminal := fun message => responseId message = some (promptId request : ℤ)
  isAnswer := fun message => message.hasKey "result"
  answers := fun answer request => answer.get "id" = request.get "id"
  allows := fun answer request => ¬ Refuses answer request

theorem str_of_str? {value : Json} {s : String} (h : value.str? = some s) : value = .str s := by
  cases value <;> first | cases h; rfl | cases h

theorem selectOption_some {options : Json} {preferredKind kindStart id : String}
    (hkind : Text.startsWith preferredKind kindStart = true)
    (h : selectOption options preferredKind kindStart = some id) :
    ∃ option ∈ options.list?.getD [], kindStarts kindStart option = true ∧
      option.get "optionId" = .str id := by
  rcases Option.or_eq_some_iff.mp h with hfirst | ⟨-, hsecond⟩
  · obtain ⟨option, hmem, hid⟩ := List.exists_of_findSome?_eq_some hfirst
    obtain ⟨hcandidate, hpreferred⟩ := List.mem_filter.mp hmem
    have hsome : (option.get "kind").str? = some preferredKind := by simpa using hpreferred
    refine ⟨option, (List.mem_filter.mp hcandidate).1, ?_, str_of_str? hid⟩
    rw [kindStarts, hsome]
    exact hkind
  · obtain ⟨option, hmem, hid⟩ := List.exists_of_findSome?_eq_some hsecond
    obtain ⟨hcandidate, hstarts⟩ := List.mem_filter.mp hmem
    exact ⟨option, (List.mem_filter.mp hcandidate).1, hstarts, str_of_str? hid⟩

theorem refuses_verdict (message : Json) {decision : PermissionDecision} (h : decision ≠ .allow) :
    Refuses (resultMessage (message.get "id") (verdict (mapping (message.get "params")) decision))
      message := by
  have houtcome : ((resultMessage (message.get "id")
      (verdict (mapping (message.get "params")) decision)).get "result").get "outcome"
      = (optionFor (mapping (message.get "params")) decision).elim
          (.obj [("outcome", .str "cancelled")])
          fun optionId => .obj [("outcome", .str "selected"), ("optionId", .str optionId)] := by
    cases hoption : optionFor (mapping (message.get "params")) decision with
    | none =>
      rw [verdict, hoption]
      rfl
    | some optionId =>
      rw [verdict, hoption]
      rfl
  rw [Refuses, houtcome]
  cases decision with
  | allow => exact absurd rfl h
  | escalate => exact Or.inl (by simp [optionFor, Json.get, Json.get?])
  | deny =>
    cases hoption : optionFor (mapping (message.get "params")) .deny with
    | none => exact Or.inl (by simp [Json.get, Json.get?])
    | some id =>
      obtain ⟨option, hmem, hkind, hid⟩ := selectOption_some (by decide) hoption
      refine Or.inr ⟨option, hmem, hkind, ?_⟩
      rw [hid]
      simp [Json.get, Json.get?]

theorem answers (request : Request) : Answers (protocol request) (surface request) where
  answers := fun message decision => by simp [protocol, resultMessage, Json.get, Json.get?]
  allows := fun message decision hallows =>
    by_contra fun hnot => hallows (refuses_verdict message hnot)
  refusal := fun id => by simp [protocol, errorMessage, Json.hasKey, Json.get?]
  request := fun id method params => by simp [protocol, requestMessage, Json.hasKey, Json.get?]
  notification := fun method params => by simp [protocol, notification, Json.hasKey, Json.get?]

/-! ## Sending the prompt -/

/-- The event sends a prompt. -/
def SendsPrompt (event : Event) : Prop :=
  ∃ id params, event = .wrote (requestMessage id "session/prompt" params)

theorem SendsPrompt.requests {event : Event} (h : SendsPrompt event) : event.Requests := by
  obtain ⟨id, params, rfl⟩ := h
  exact ⟨id, _, params, rfl⟩

theorem requestMessage_inj {id id' : ℕ} {method method' : String}
    {params params' : List (String × Json)}
    (h : requestMessage id method params = requestMessage id' method' params') :
    id = id' ∧ method = method' ∧ params = params' := by
  simpa [requestMessage] using h

/-- What has come of the response with an id, in the events since its request. -/
def Awaited (id : ℕ) (pending : Option ℤ) (response : Option Json) (since : List Event) : Prop :=
  (response = none ∧ pending = some (id : ℤ) ∧
    ∀ message, .read message ∈ since → responseId message ≠ some (id : ℤ)) ∨
  ∃ message between rest, response = some message ∧ pending = none ∧
    since = between ++ .read message :: rest ∧ responseId message = some (id : ℤ) ∧
    ∀ other, .read other ∈ between → responseId other ≠ some (id : ℤ)

/-- The prompt has been sent once, and its response is awaited. -/
def Sent (request : Request) (c : Run) : Prop :=
  ∃ before params since,
    c.events = before ++ .wrote (requestMessage (promptId request) "session/prompt" params) :: since ∧
    (∀ event ∈ before, ¬ SendsPrompt event) ∧ (∀ event ∈ since, ¬ SendsPrompt event) ∧
    Awaited (promptId request) c.pending c.response since

/-- The id of the request that a wait is for. -/
def idOf (request : Request) : Target → ℕ
  | .initializing => 1
  | .session => 2
  | .model => 3
  | .prompt => promptId request

/-- What holds at a wait. -/
structure Waits (request : Request) (target : Target) (c : Run) : Prop where
  id : c.nextRequestId = idOf request target
  model : target = .model → (given request.model).isSome = true
  unsent : target ≠ .prompt → ∀ event ∈ c.events, ¬ SendsPrompt event
  sent : target = .prompt → Sent request c

theorem Waits.read {env : Surroundings} {request : Request} {target : Target} {c : Run}
    (h : Waits request target c) (line : Line) :
    Waits request target (c.read env (surface request) line) := by
  have hreads := reads_read env (surface request) c line
  obtain ⟨-, -, hid⟩ := hreads.frame
  refine ⟨hid.trans h.id, h.model, fun htarget => ?_, fun htarget => ?_⟩
  · have hunsent := h.unsent htarget
    rcases hreads.wait with ⟨more, hevents, hquiet, -, -, -⟩ | ⟨message, id, -, -, hevents, -, -⟩
    · intro event hevent
      rw [hevents] at hevent
      rcases List.mem_append.mp hevent with hold | hnew
      · exact hunsent event hold
      · exact fun hsends => hquiet event hnew hsends.requests
    · intro event hevent
      rw [hevents] at hevent
      rcases List.mem_append.mp hevent with hold | hnew
      · exact hunsent event hold
      · rw [List.mem_singleton.mp hnew]
        rintro ⟨id, params, heq⟩
        cases heq
  · obtain ⟨before, params, since, hsplit, hbefore, hsince, hawaited⟩ := h.sent htarget
    rcases hreads.wait with ⟨more, hevents, hquiet, hother, hpending, hresponse⟩ |
      ⟨message, id, hrouted, hpending, hevents, hpending', hresponse'⟩
    · refine ⟨before, params, since ++ more, by rw [hevents, hsplit]; simp, hbefore, ?_, ?_⟩
      · intro event hevent
        rcases List.mem_append.mp hevent with hold | hnew
        · exact hsince event hold
        · exact fun hsends => hquiet event hnew hsends.requests
      · rw [hpending, hresponse]
        rcases hawaited with ⟨hnone, hsome, hunread⟩ |
          ⟨message, between, rest, hsome, hnone, hsplit', hrouted, hunread⟩
        · refine Or.inl ⟨hnone, hsome, fun message hmem hrouted => ?_⟩
          rcases List.mem_append.mp hmem with hold | hnew
          · exact hunread message hold hrouted
          · exact hother message hnew _ hrouted hsome
        · exact Or.inr ⟨message, between, rest ++ more, hsome, hnone, by rw [hsplit']; simp, hrouted,
            hunread⟩
    · refine ⟨before, params, since ++ [.read message], by rw [hevents, hsplit]; simp, hbefore, ?_, ?_⟩
      · intro event hevent
        rcases List.mem_append.mp hevent with hold | hnew
        · exact hsince event hold
        · rw [List.mem_singleton.mp hnew]
          rintro ⟨id, params, heq⟩
          cases heq
      · rcases hawaited with ⟨hnone, hsome, hunread⟩ | ⟨other, between, rest, -, hnone, -⟩
        · rw [hsome] at hpending
          obtain rfl := Option.some.inj hpending
          exact Or.inr ⟨message, since, [], hresponse', hpending', rfl, hrouted, hunread⟩
        · rw [hnone] at hpending
          cases hpending

/-- **The response that the driver took is the first since the prompt was sent.** -/
theorem Sent.declared {request : Request} {c : Run} (h : Sent request c) {response : Json}
    (hresponse : c.response = some response) (hsuccess : isSuccess response = true) :
    Declared (protocol request) c.events := by
  obtain ⟨before, params, since, hsplit, hbefore, hsince, hawaited⟩ := h
  rcases hawaited with ⟨hnone, -⟩ | ⟨message, between, rest, hsome, -, hbetween, hrouted, hunread⟩
  · rw [hnone] at hresponse
    cases hresponse
  · rw [hsome] at hresponse
    obtain rfl := Option.some.inj hresponse
    refine ⟨before ++ .wrote (requestMessage (promptId request) "session/prompt" params) :: between,
      message, rest, by rw [hsplit, hbetween]; simp, ⟨promptId request, ⟨params, by simp⟩, hrouted,
        hsuccess⟩, ?_⟩
    rintro earlier other later heq ⟨id, ⟨params', hprompted⟩, hother, -⟩
    have hsends : SendsPrompt (.wrote (requestMessage id "session/prompt" params')) :=
      ⟨id, params', rfl⟩
    -- the prompt is sent once, so the other response came since
    rcases List.append_eq_append_iff.mp heq.symm with ⟨gap, hlong, hgap⟩ | ⟨gap, hshort, hgap⟩
    · refine hbefore _ ?_ hsends
      rw [hlong]
      exact List.mem_append_left _ hprompted
    · cases gap with
      | nil =>
        rw [List.append_nil] at hshort
        rw [hshort] at hprompted
        exact hbefore _ hprompted hsends
      | cons first gap =>
        rw [List.cons_append] at hgap
        obtain ⟨rfl, htail⟩ := List.cons.inj hgap
        have hgapSince : ∀ event ∈ gap, event ∈ since := by
          intro event hevent
          rw [hbetween, htail]
          simp [hevent]
        have hid : id = promptId request := by
          rw [hshort] at hprompted
          rcases List.mem_append.mp hprompted with hold | hnew
          · exact absurd hsends (hbefore _ hold)
          · rcases List.mem_cons.mp hnew with heq | hnew
            · exact (requestMessage_inj (Event.wrote.inj heq)).1
            · exact absurd hsends (hsince _ (hgapSince _ hnew))
        rw [hid] at hother
        exact hunread other (by rw [htail]; simp) hother

/-! ## The calls -/

variable {env : Surroundings} {request : Request} {c : Run}

/-- Before a call: the prompt has not been sent, no success of it is there already, and if an
escalation has not been noticed the call goes through to a wait. -/
structure Ready (env : Surroundings) (request : Request) (n : ℕ) (c : Run) : Prop where
  noted : Noted (protocol request) c
  id : c.nextRequestId = n
  unsent : ∀ event ∈ c.events, ¬ SendsPrompt event
  unbuffered : ∀ message, (c.orphans.find? fun o => o.1 = (promptId request : ℤ)).map (·.2)
    = some message → isSuccess message = false
  free : c.aborted = false ∨ NextWaits env c

theorem Ready.aborted {n : ℕ} (h : Ready env request n c) (hnot : ¬ NextWaits env c) :
    c.aborted = false := h.free.resolve_right hnot

theorem unsent_asking (env : Surroundings) (params : List (String × Json)) {method : String}
    (hmethod : method ≠ "session/prompt") (h : ∀ event ∈ c.events, ¬ SendsPrompt event) :
    ∀ event ∈ (c.asking env method params).events, ¬ SendsPrompt event := by
  intro event hevent
  rcases c.send_events env (requestMessage (c.nextRequestId + 1) method params) with heq | heq
  · exact h event (by rw [← heq]; exact hevent)
  · have hmem : event ∈ c.events ++ [Event.wrote (requestMessage (c.nextRequestId + 1) method params)] :=
      by rw [← heq]; exact hevent
    rcases List.mem_append.mp hmem with hold | hnew
    · exact h event hold
    · rw [List.mem_singleton.mp hnew]
      rintro ⟨id, params', hsame⟩
      exact hmethod (requestMessage_inj (Event.wrote.inj hsame)).2.1

/-- **A call before the prompt**: what follows its response keeps the invariant, and so does it. -/
theorem Ready.call {n : ℕ} (h : Ready env request n c) {method : String}
    (hmethod : method ≠ "session/prompt") (hn : n + 1 < promptId request)
    {params : List (String × Json)} {next : Target} (hnext : idOf request next = n + 1)
    (hmodel : next = .model → (given request.model).isSome = true) {k : Json → Run → Run}
    (hk : ∀ response c', Ready env request (n + 1) c' → c'.aborted = false →
      Inv (protocol request) (Waits request) (k response c')) :
    Inv (protocol request) (Waits request) (c.call env method params next k) := by
  have hnoted := h.noted.asking env (answers request) method params
  have hunsent := unsent_asking env params hmethod h.unsent
  have hnotPrompt : next ≠ .prompt := by
    rintro rfl
    rw [idOf] at hnext
    omega
  rcases call_cases env c method params next k with ⟨hwrites, heq⟩ |
    ⟨hwrites, response, hbuffered, heq⟩ | ⟨hwrites, hbuffered, heq⟩
  · rw [heq]
    refine hnoted.fail (h.aborted fun hwaits => ?_)
    rw [hwaits.1] at hwrites
    cases hwrites
  · have haborted : c.aborted = false := h.aborted fun hwaits => by
      rw [hwaits.2] at hbuffered
      cases hbuffered
    rw [heq]
    split_ifs
    · exact Noted.fail ⟨hnoted.escalated, hnoted.answered⟩ haborted
    · refine hk response _ ⟨⟨hnoted.escalated, hnoted.answered⟩, ?_, hunsent, ?_, Or.inl haborted⟩
        haborted
      · exact congrArg (· + 1) h.id
      · intro message hmessage
        refine h.unbuffered message ?_
        rw [← hmessage, List.find?_filter]
        congr 2
        funext o
        by_cases ho : o.1 = (promptId request : ℤ)
        · have hother : ¬ (promptId request : ℤ) = (c.nextRequestId : ℤ) + 1 := by
            rw [h.id]
            omega
          simp [ho, hother]
        · simp [ho]
  · rw [heq]
    refine ⟨hnoted.escalated, hnoted.answered, ?_, ?_⟩
    · intro status hstatus
      cases hstatus
    · intro target htarget
      obtain rfl := Stage.waiting.inj htarget
      refine ⟨?_, hmodel, fun _ => hunsent, fun hprompt => absurd hprompt hnotPrompt⟩
      rw [hnext, ← h.id]
      rfl

/-- **The prompt.** -/
theorem inv_runPrompt {n : ℕ} (h : Ready env request n c) (hn : n + 1 = promptId request) :
    Inv (protocol request) (Waits request) (runPrompt env request c) := by
  have hid : c.nextRequestId + 1 = promptId request := by rw [h.id, hn]
  rw [runPrompt]
  generalize [("sessionId", wireSession c),
    ("prompt", Json.arr [.obj [("type", .str "text"), ("text", .str request.prompt)]])] = params
  have hnoted := h.noted.asking env (answers request) "session/prompt" params
  rcases call_cases env c "session/prompt" params .prompt (afterPrompt request) with ⟨hwrites, heq⟩ | ⟨hwrites, response, hbuffered, heq⟩ |
    ⟨hwrites, hbuffered, heq⟩
  · rw [heq]
    refine hnoted.fail (h.aborted fun hwaits => ?_)
    rw [hwaits.1] at hwrites
    cases hwrites
  · have haborted : c.aborted = false := h.aborted fun hwaits => by
      rw [hwaits.2] at hbuffered
      cases hbuffered
    rw [heq]
    split_ifs with herror
    · exact Noted.fail ⟨hnoted.escalated, hnoted.answered⟩ haborted
    · -- a success that is there already is excluded
      rw [Conversation.buffered, hid] at hbuffered
      have hnot := h.unbuffered response hbuffered
      have hend : isEndTurn response = false := by
        rw [isSuccess] at hnot
        simpa [herror] using hnot
      rw [afterPrompt, hend, if_neg (by simp)]
      exact Noted.fail ⟨hnoted.escalated, hnoted.answered⟩ haborted
  · rw [heq]
    refine ⟨hnoted.escalated, hnoted.answered, ?_, ?_⟩
    · intro status hstatus
      cases hstatus
    · intro target htarget
      obtain rfl := Stage.waiting.inj htarget
      refine ⟨hid, by simp, fun hnot => absurd rfl hnot, fun _ => ?_⟩
      have hevents := asking_events "session/prompt" params hwrites
      rw [hid] at hevents
      exact ⟨c.events, params, [], hevents, h.unsent, by simp, Or.inl ⟨rfl, by rw [hid], by simp⟩⟩

theorem inv_selectModel (h : Ready env request 2 c) :
    Inv (protocol request) (Waits request) (selectModel env request c) := by
  rw [selectModel]
  cases hmodel : given request.model with
  | none => exact inv_runPrompt h (by rw [promptId, hmodel]; rfl)
  | some model =>
    have hprompt : promptId request = 4 := by rw [promptId, hmodel]; rfl
    refine h.call (by decide) (by omega) rfl (fun _ => by rw [hmodel]; rfl) fun response c' hready _ => ?_
    exact inv_runPrompt hready hprompt.symm

theorem inv_afterSession {response : Json} (h : Ready env request 2 c)
    (hsession : c.aborted = false ∨ (sessionOf request response).isSome = true) :
    Inv (protocol request) (Waits request) (afterSession env request response c) := by
  rw [afterSession]
  cases hof : sessionOf request response with
  | some session =>
    exact inv_selectModel ⟨⟨h.noted.escalated, h.noted.answered⟩, h.id, h.unsent, h.unbuffered, h.free⟩
  | none =>
    rw [hof] at hsession
    exact h.noted.fail (hsession.resolve_right (by simp))

theorem two_lt_promptId : 2 < promptId request := by
  rw [promptId]
  split_ifs <;> omega

theorem inv_startSession (h : Ready env request 1 c) :
    Inv (protocol request) (Waits request) (startSession env request c) := by
  have hlt := @two_lt_promptId request
  rw [startSession]
  cases given request.resumeSessionId with
  | some resume =>
    exact h.call (by decide) (by omega) rfl (by simp) fun response c' hready haborted =>
      inv_afterSession hready (Or.inl haborted)
  | none =>
    exact h.call (by decide) (by omega) rfl (by simp) fun response c' hready haborted =>
      inv_afterSession hready (Or.inl haborted)

theorem inv_start (env : Surroundings) (request : Request) :
    Inv (protocol request) (Waits request) (start env request) := by
  have hlt := @two_lt_promptId request
  have hready : Ready env request 0 fresh := by
    refine ⟨⟨?_, answeredOnce_nil⟩, rfl, by simp [fresh], by simp [fresh], Or.inl rfl⟩
    exact iff_of_false (by simp [fresh]) not_escalated_nil
  rw [start, handshake]
  refine hready.call (by decide) (by omega) rfl (by simp) fun response c' hnext _ => ?_
  exact inv_startSession hnext

/-! ## The run -/

/-- A driver that resumes with an escalation it has not noticed goes on to wait for a further
response. -/
def GoesOn (env : Surroundings) (request : Request) (c : Run) : Prop :=
  ∀ target noticed, c.stage = .waiting target → c.resuming = some noticed →
    match c.response with
    | some response => hasError response = false ∧ target ≠ .prompt ∧
        (target = .session → (sessionOf request response).isSome = true) ∧ NextWaits env c
    | none => noticed.2 = false

/-- A step is fine: a request is not escalated when the outcome is settled, no success of the prompt is
there before the prompt is sent, and an escalation that has not been noticed yet will be. -/
def Fine (env : Surroundings) (request : Request) (c : Run) : Tick → Prop
  | .read line => c.reading = true → Escalates env (surface request) c line →
      ¬ Lost (protocol request) c
  | .wake _ => (∀ message, (c.orphans.find? fun o => o.1 = (promptId request : ℤ)).map (·.2)
      = some message → isSuccess message = false) ∧ (Blind c → GoesOn env request c)
  | _ => True

/-- **The driver resumes.** -/
theorem inv_resume {target : Target} {noticed : Bool × Bool} {expired : Bool}
    (hfine : Fine env request c (.wake expired)) (hstage : c.stage = .waiting target)
    (hresuming : c.resuming = some noticed) (h : Inv (protocol request) (Waits request) c)
    (hnoticed : noticed.1 = false) :
    Inv (protocol request) (Waits request) (c.resume env (surface request) target noticed) := by
  obtain ⟨hunbuffered, hblind⟩ := hfine
  have hwaits := h.waits target hstage
  have hnoted : Noted (protocol request) { c with resuming := none } := ⟨h.escalated, h.answered⟩
  have hgoes : c.aborted = true → GoesOn env request c := by
    intro haborted
    refine hblind ⟨haborted, target, noticed.2, hstage, ?_⟩
    rw [hresuming, ← hnoticed]
  have hfree : (c.aborted = true → False) → c.aborted = false := by
    intro hnot
    simpa using hnot
  rw [Conversation.resume, if_neg (by simp [hnoticed])]
  obtain hresponse | ⟨response, hresponse⟩ := Option.eq_none_or_eq_some c.response
  · have htarget : (surface request).target target { c with resuming := none } = none := hresponse
    rw [htarget]
    simp only
    split_ifs with hended
    · refine hnoted.fail (hfree fun haborted => ?_)
      have hgo := hgoes haborted target noticed hstage hresuming
      rw [hresponse] at hgo
      simp only at hgo
      rw [hended] at hgo
      cases hgo
    · refine ⟨h.escalated, h.answered, ?_, fun other hother => ?_⟩
      · intro status hstatus
        have hsettles := h.settled status hstatus
        cases status <;> exact hsettles
      · have hat := h.waits other hother
        exact ⟨hat.id, hat.model, hat.unsent, hat.sent⟩
  · have htarget : (surface request).target target { c with resuming := none } = some response :=
      hresponse
    have hgo : c.aborted = true → hasError response = false ∧ target ≠ .prompt ∧
        (target = .session → (sessionOf request response).isSome = true) ∧ NextWaits env c := by
      intro haborted
      have hgo := hgoes haborted target noticed hstage hresuming
      rw [hresponse] at hgo
      exact hgo
    rw [htarget]
    simp only
    split_ifs with herror
    · refine hnoted.fail (hfree fun haborted => ?_)
      rw [(hgo haborted).1] at herror
      cases herror
    · have hready : target ≠ .prompt →
          Ready env request (idOf request target) { c with resuming := none } := by
        intro hother
        refine ⟨hnoted, hwaits.id, hwaits.unsent hother, hunbuffered, ?_⟩
        cases haborted : c.aborted with
        | false => exact Or.inl rfl
        | true => exact Or.inr (hgo haborted).2.2.2
      show Inv (protocol request) (Waits request) (proceed env request target response
        { c with resuming := none })
      cases target with
      | initializing => exact inv_startSession (hready (by simp))
      | session =>
        refine inv_afterSession (hready (by simp)) ?_
        cases haborted : c.aborted with
        | false => exact Or.inl rfl
        | true => exact Or.inr ((hgo haborted).2.2.1 rfl)
      | model =>
        refine inv_runPrompt (hready (by simp)) ?_
        rw [promptId, if_pos (hwaits.model rfl)]
        rfl
      | prompt =>
        have haborted : c.aborted = false := hfree fun haborted => (hgo haborted).2.1 rfl
        rw [proceed, afterPrompt]
        split_ifs with hend hquiescence
        · have hsuccess : isSuccess response = true := by
            rw [isSuccess, hend]
            simpa using herror
          have hdeclared := (hwaits.sent rfl).declared hresponse hsuccess
          refine ⟨h.escalated, h.answered, ?_, ?_⟩
          · intro status hstatus
            obtain rfl := Option.some.inj hstatus
            exact ⟨hdeclared, haborted⟩
          · intro other hother
            cases hother
        · have hsuccess : isSuccess response = true := by
            rw [isSuccess, hend]
            simpa using herror
          exact hnoted.settle ⟨(hwaits.sent rfl).declared hresponse hsuccess, haborted⟩
        · exact hnoted.fail haborted

theorem drives (env : Surroundings) (request : Request) :
    Drives env (surface request) (protocol request) (Waits request) (Fine env request) where
  answers := answers request
  resuming := fun _ _ _ h => ⟨h.id, h.model, h.unsent, h.sent⟩
  lost := fun _ _ hfine hreading => hfine hreading
  read := fun _ target line _ _ hstage h => (h.waits target hstage).read line
  resume := fun _ _ _ _ hfine hstage hresuming h hnoticed =>
    inv_resume hfine hstage hresuming h hnoticed

/-! ## The end -/

/-- How many responses come after the one that is waited for, at most. -/
def rank : Target → ℕ
  | .initializing => 3
  | .session => 2
  | .model => 1
  | .prompt => 0

theorem call_remaining {method : String} {params : List (String × Json)} {next : Target}
    {k : Json → Run → Run} {bound : ℕ} (hbound : 2 * (rank next + 3) + 1 < bound)
    (hk : ∀ response c', remaining rank (k response c') < bound ∧
      (k response c').reading = c'.reading) :
    remaining rank (c.call env method params next k) < bound ∧
      (c.call env method params next k).reading = c.reading := by
  rcases call_cases env c method params next k with ⟨-, heq⟩ | ⟨-, response, -, heq⟩ | ⟨-, -, heq⟩
  · rw [heq, remaining_settle]
    exact ⟨by omega, rfl⟩
  · rw [heq]
    split_ifs
    · rw [remaining_settle]
      exact ⟨by omega, rfl⟩
    · exact hk response _
  · rw [heq]
    refine ⟨?_, rfl⟩
    show 2 * (rank next + 3) + _ < bound
    split_ifs <;> omega

theorem runPrompt_remaining (c : Run) : remaining rank (runPrompt env request c) < 8 ∧
    (runPrompt env request c).reading = c.reading := by
  refine call_remaining (by decide) fun response c' => ?_
  rw [afterPrompt]
  split_ifs
  · refine ⟨?_, rfl⟩
    show 4 < 8
    omega
  · exact ⟨by rw [remaining_settle]; omega, rfl⟩
  · exact ⟨by rw [remaining_settle]; omega, rfl⟩

theorem selectModel_remaining (c : Run) : remaining rank (selectModel env request c) < 10 ∧
    (selectModel env request c).reading = c.reading := by
  rw [selectModel]
  cases given request.model with
  | none =>
    obtain ⟨hless, hreading⟩ := @runPrompt_remaining env request c
    exact ⟨hless.trans (by omega), hreading⟩
  | some model =>
    refine call_remaining (by decide) fun response c' => ?_
    obtain ⟨hless, hreading⟩ := @runPrompt_remaining env request c'
    exact ⟨by rw [afterModel]; omega, hreading⟩

theorem afterSession_remaining (response : Json) (c : Run) :
    remaining rank (afterSession env request response c) < 10 ∧
      (afterSession env request response c).reading = c.reading := by
  rw [afterSession]
  cases sessionOf request response with
  | none => exact ⟨by rw [remaining_settle]; omega, rfl⟩
  | some session => exact selectModel_remaining _

theorem startSession_remaining (c : Run) : remaining rank (startSession env request c) < 12 ∧
    (startSession env request c).reading = c.reading := by
  rw [startSession]
  cases given request.resumeSessionId with
  | none =>
    refine call_remaining (by decide) fun response c' => ?_
    obtain ⟨hless, hreading⟩ := @afterSession_remaining env request response c'
    exact ⟨by omega, hreading⟩
  | some resume =>
    refine call_remaining (by decide) fun response c' => ?_
    obtain ⟨hless, hreading⟩ := @afterSession_remaining env request response c'
    exact ⟨by omega, hreading⟩

theorem forward (env : Surroundings) (request : Request) :
    Forward env (surface request) rank := by
  have hboth : ∀ target response (c : Run),
      remaining rank (proceed env request target response c) < 2 * (rank target + 3) ∧
        (proceed env request target response c).reading = c.reading := by
    intro target response c
    cases target with
    | initializing => exact startSession_remaining c
    | session => exact afterSession_remaining response c
    | model => exact runPrompt_remaining c
    | prompt =>
      rw [proceed, afterPrompt]
      split_ifs
      · refine ⟨?_, rfl⟩
        show 4 < 6
        omega
      · exact ⟨by rw [remaining_settle]; decide, rfl⟩
      · exact ⟨by rw [remaining_settle]; decide, rfl⟩
  exact ⟨fun target response c => (hboth target response c).1,
    fun target response c => (hboth target response c).2⟩

/-- **One honest outcome of every ACP run whose steps are fine.** -/
theorem oneOutcome (env : Surroundings) (request : Request) (detectProviderError : String → Bool)
    (stderr : String) {ticks : List Tick}
    (hfine : ∀ before t later, ticks = before ++ t :: later →
      Fine env request (after env request before) t) :
    OneOutcome (protocol request) (fun ticks => (after env request ticks).events)
      (fun ticks => result detectProviderError stderr (after env request ticks)) ending ticks := by
  refine (inv_start env request).oneOutcome (drives env request) (forward env request) ?_ ?_ hfine
  · intro c status hstatus
    rw [buildResult] at hstatus
    simp only at hstatus
    split_ifs at hstatus
    exact hstatus
  · intro c
    simp [buildResult]

end Acp
end Drivers
end RepoMesh
