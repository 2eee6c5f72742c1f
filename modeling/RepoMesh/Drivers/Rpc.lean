/-
# A conversation by JSON-RPC

What the ACP and the app-server driver have in common. A reader handles the agent's lines: it routes
responses by their id, and answers the agent's requests. The driver itself waits for one response
after the other. A wait ends when what is waited for has come, when an escalation or the end of the
stream has been noticed, or when the watchdog fires.

The event loop runs callbacks in the order they are scheduled. When the driver's own resumption is
scheduled, an escalation or an end of the stream that comes after it is noticed only at the next wait,
whereas the response that is waited for is looked at directly. So `schedule` keeps what has been
noticed, and `wake` resumes the driver with it.
-/
import RepoMesh.Drivers.Outcome

namespace RepoMesh
namespace Drivers

open Execution (PermissionDecision)

/-- Where a conversation stands: at a wait, in the quiescence window after the prompt's success, at
the shutdown with the status that is settled, or at its end. -/
inductive Stage (ι : Type) where
  | waiting (target : ι)
  | quiescing
  | closing (status : DriverResultStatus)
  | returned (status : DriverResultStatus)

/-- The status that is settled. -/
def Stage.settled {ι : Type} : Stage ι → Option DriverResultStatus
  | .waiting _ => none
  | .quiescing => some .succeeded
  | .closing status => some status
  | .returned status => some status

/-- `_AcpRun` and `_AppServerRun`. The `data` is what their handlers of notifications keep. -/
structure Conversation (σ ι : Type) where
  data : σ
  nextRequestId : ℕ
  /-- The id of the response that is waited for. -/
  pending : Option ℤ
  /-- The response that was waited for. -/
  response : Option Json
  orphans : List (ℤ × Json)
  /-- The reader has not ended. -/
  reading : Bool
  aborted : Bool
  /-- The driver's resumption is scheduled, and an abort and the end of the stream have been noticed
  by then. -/
  resuming : Option (Bool × Bool)
  stage : Stage ι
  /-- The numbers of the next question to the policy and of the next write. -/
  asked : ℕ
  written : ℕ
  events : List Event

/-- What a protocol does with the messages of the agent. -/
structure Surface (σ ι : Type) where
  /-- The tool and the input that a server request asks a permission for, if it does. -/
  question : Json → Option (String × Json)
  /-- The result that answers a permission request. -/
  verdict : Json → PermissionDecision → Json
  /-- `_handle_notification`, which may raise. -/
  notified : σ → Json → Option σ
  /-- What a wait is for, when it has come. -/
  target : ι → Conversation σ ι → Option Json
  /-- What the driver does with it, up to its next wait. -/
  proceed : Surroundings → ι → Json → Conversation σ ι → Conversation σ ι
  /-- The status of a run whose stream has ended at a wait. -/
  streamEnded : σ → DriverResultStatus

/-- `_MAX_ORPHAN_RESPONSES`. -/
def MAX_ORPHAN_RESPONSES : ℕ := 64

/-- The id by which a message is routed, if it is a response. -/
def responseId (message : Json) : Option ℤ :=
  if message.hasKey "method" then none else (message.get "id").int?

/-- `response.get("error") is not None`. -/
def hasError (message : Json) : Bool :=
  match message.get "error" with
  | .null => false
  | _ => true

/-- A request of the driver. -/
def requestMessage (id : ℕ) (method : String) (params : List (String × Json)) : Json :=
  .obj [("jsonrpc", .str "2.0"), ("id", .int id), ("method", .str method), ("params", .obj params)]

/-- A notification of the driver. -/
def notification (method : String) (params : List (String × Json)) : Json :=
  .obj [("jsonrpc", .str "2.0"), ("method", .str method), ("params", .obj params)]

/-- An answer to a server request. -/
def resultMessage (id result : Json) : Json :=
  .obj [("jsonrpc", .str "2.0"), ("id", id), ("result", result)]

/-- A refusal of a server request; the text of the error is left out. -/
def errorMessage (id : Json) : Json :=
  .obj [("jsonrpc", .str "2.0"), ("id", id), ("error", .obj [("code", .int (-32601))])]

section Conversation

variable {σ ι : Type} (env : Surroundings) (surface : Surface σ ι)

namespace Conversation

variable (c : Conversation σ ι)

/-- `_send`: the write, if it goes through. -/
def send (message : Json) : Conversation σ ι :=
  { c with
    written := c.written + 1
    events := if env.writes c.written then c.events ++ [Event.wrote message] else c.events }

/-- The outcome is settled, and the shutdown begins. -/
def settle (status : DriverResultStatus) : Conversation σ ι :=
  { c with stage := .closing status, resuming := none }

/-- `_call`, up to the next wait. `next` is the wait for its response, and `k` what is done with a
response that came before. -/
def call (method : String) (params : List (String × Json)) (next : ι)
    (k : Json → Conversation σ ι → Conversation σ ι) : Conversation σ ι :=
  let id := c.nextRequestId + 1
  let sent := { c.send env (requestMessage id method params) with nextRequestId := id }
  if env.writes c.written then
    match c.orphans.find? fun o => o.1 = (id : ℤ) with
    | some (_, response) =>
      let sent := { sent with orphans := sent.orphans.filter fun o => o.1 ≠ (id : ℤ) }
      if hasError response then sent.settle .failed else k response sent
    | none => { sent with pending := some (id : ℤ), response := none, stage := .waiting next }
  else sent.settle .failed

/-- `_answer_permission` and `_answer_approval`. A policy that raises denies. -/
def answerPermission (message : Json) (question : String × Json) : Conversation σ ι :=
  let answer := env.decide c.asked question.1 question.2
  let decision := answer.getD .deny
  let asked := { c with asked := c.asked + 1, events := c.events ++ [Event.decided message answer] }
  let responded := asked.send env (resultMessage (message.get "id")
    (surface.verdict (mapping (message.get "params")) decision))
  if decision = .escalate then { responded with aborted := true } else responded

/-- `_handle_server_request`. -/
def serverRequest (message : Json) : Conversation σ ι :=
  match surface.question message with
  | some question => c.answerPermission env surface message question
  | none => c.send env (errorMessage (message.get "id"))

/-- A response without a waiter is kept; the oldest makes room. -/
def keepOrphan (id : ℤ) (message : Json) : Conversation σ ι :=
  let orphans := if MAX_ORPHAN_RESPONSES ≤ c.orphans.length then c.orphans.tail else c.orphans
  { c with
    orphans :=
      if orphans.any fun o => o.1 = id then orphans.map fun o => if o.1 = id then (id, message) else o
      else orphans ++ [(id, message)] }

/-- `_dispatch`. What it raises ends the reader. -/
def dispatch (message : Json) : Conversation σ ι :=
  if message.hasKey "method" then
    match message.get "id" with
    | .null =>
      match surface.notified c.data message with
      | some data => { c with data := data }
      | none => { c with reading := false }
    | _ => c.serverRequest env surface message
  else
    match (message.get "id").int? with
    | none => c
    | some id =>
      if c.pending = some id then { c with pending := none, response := some message }
      else c.keepOrphan id message

/-- One turn of `_read_loop`. -/
def read (line : Line) : Conversation σ ι :=
  match line with
  | .blank => c
  | .notJson => c
  | .fatal => { c with reading := false }
  | .closed => { c with reading := false }
  | .json message =>
    let c := { c with events := c.events ++ [Event.read message] }
    if message.isObj then c.dispatch env surface message else c

/-- The watchdog is looked at before a wait. -/
def look (expired : Bool) : Conversation σ ι :=
  match c.stage with
  | .waiting _ =>
    if expired then { c with events := c.events ++ [Event.timedOut] }.settle .timeout else c
  | _ => c

/-- What has come at a wait: an escalation, what was waited for, or the end of the stream. -/
def resume (target : ι) (noticed : Bool × Bool) : Conversation σ ι :=
  let c := { c with resuming := none }
  if noticed.1 then c.settle .inputRequired
  else
    match surface.target target c with
    | some response =>
      if hasError response then c.settle .failed else surface.proceed env target response c
    | none => if noticed.2 then c.settle (surface.streamEnded c.data) else c

/-- The driver runs up to its next wait. -/
def wake (expired : Bool) : Conversation σ ι :=
  match c.stage with
  | .waiting target =>
    match c.resuming with
    | some noticed => (c.resume env surface target noticed).look expired
    | none => c
  | .quiescing => c.settle .succeeded
  | .closing status => { c with stage := .returned status }
  | .returned _ => c

/-- The result of a run that has returned. -/
def result (build : Conversation σ ι → DriverResultStatus → DriverResult) : Option DriverResult :=
  match c.stage with
  | .returned status => some (build c status)
  | _ => none

end Conversation

/-- What happens next: the reader has a line, the driver's resumption is scheduled, it runs, or the run
is cancelled. -/
inductive Tick where
  | read (line : Line)
  | schedule
  | wake (expired : Bool)
  | cancel

/-- One step. The reader is stopped with the run, and a run that is shutting down is not cancelled. -/
def tick (c : Conversation σ ι) : Tick → Conversation σ ι
  | .read line =>
    match c.stage with
    | .returned _ => c
    | _ => if c.reading then c.read env surface line else c
  | .schedule =>
    match c.stage, c.resuming with
    | .waiting _, none => { c with resuming := some (c.aborted, !c.reading) }
    | _, _ => c
  | .wake expired => c.wake env surface expired
  | .cancel =>
    match c.stage with
    | .waiting _ => { c with events := c.events ++ [Event.cancelled] }.settle .interrupted
    | .quiescing => { c with events := c.events ++ [Event.cancelled] }.settle .interrupted
    | _ => c

/-- The state after some ticks. -/
def run (start : Conversation σ ι) (ticks : List Tick) : Conversation σ ι :=
  ticks.foldl (tick env surface) start

end Conversation

/-! ## What a line does -/

section Reads

variable {σ ι : Type} {env : Surroundings} {surface : Surface σ ι}

/-- The state with a message noted as read. -/
def Conversation.note (c : Conversation σ ι) (message : Json) : Conversation σ ι :=
  { c with events := c.events ++ [Event.read message] }

/-- A request of the agent. -/
def IsRequest (message : Json) : Prop :=
  message.isObj = true ∧ message.hasKey "method" = true ∧ message.get "id" ≠ .null

/-- A notification of the agent. -/
def IsNotification (message : Json) : Prop :=
  message.isObj = true ∧ message.hasKey "method" = true ∧ message.get "id" = .null

/-- All that a line can do. -/
inductive Reads (env : Surroundings) (surface : Surface σ ι) (c : Conversation σ ι) :
    Line → Conversation σ ι → Prop
  | quiet (line : Line) (reading : Bool) : (∀ message, line ≠ .json message) →
    Reads env surface c line { c with reading := reading }
  | dropped (message : Json) : responseId message = none → ¬ IsNotification message →
    Reads env surface c (.json message) (c.note message)
  | notified (message : Json) (data : σ) : responseId message = none → IsNotification message →
    surface.notified c.data message = some data →
    Reads env surface c (.json message) { c.note message with data := data }
  | raised (message : Json) : responseId message = none → IsNotification message →
    surface.notified c.data message = none →
    Reads env surface c (.json message) { c.note message with reading := false }
  | permission (message : Json) (question : String × Json) : responseId message = none →
    IsRequest message → surface.question message = some question →
    Reads env surface c (.json message)
      ((c.note message).answerPermission env surface message question)
  | refused (message : Json) : responseId message = none → IsRequest message →
    surface.question message = none →
    Reads env surface c (.json message) ((c.note message).send env (errorMessage (message.get "id")))
  | response (message : Json) (id : ℤ) : responseId message = some id → c.pending = some id →
    Reads env surface c (.json message)
      { c.note message with pending := none, response := some message }
  | orphan (message : Json) (id : ℤ) : responseId message = some id → c.pending ≠ some id →
    Reads env surface c (.json message) ((c.note message).keepOrphan id message)

theorem hasKey_of_not_isObj {value : Json} (h : value.isObj = false) (key : String) :
    value.get? key = none := by
  cases value <;> first | rfl | cases h

/-- **What a line does.** -/
theorem reads_read (env : Surroundings) (surface : Surface σ ι) (c : Conversation σ ι)
    (line : Line) :
    Reads env surface c line (c.read env surface line) := by
  cases line with
  | blank => exact .quiet _ c.reading (by simp)
  | notJson => exact .quiet _ c.reading (by simp)
  | fatal => exact .quiet _ false (by simp)
  | closed => exact .quiet _ false (by simp)
  | json message =>
    rw [Conversation.read]
    by_cases hobj : message.isObj = true
    · rw [if_pos hobj, Conversation.dispatch]
      by_cases hmethod : message.hasKey "method" = true
      · have hnone : responseId message = none := by rw [responseId, if_pos hmethod]
        rw [if_pos hmethod]
        by_cases hid : message.get "id" = .null
        · rw [hid]
          simp only
          cases hdata : surface.notified c.data message with
          | some data => exact .notified message data hnone ⟨hobj, hmethod, hid⟩ hdata
          | none => exact .raised message hnone ⟨hobj, hmethod, hid⟩ hdata
        · have hrequest : IsRequest message := ⟨hobj, hmethod, hid⟩
          have hserver : Reads env surface c (.json message)
              ((c.note message).serverRequest env surface message) := by
            rw [Conversation.serverRequest]
            cases hquestion : surface.question message with
            | some question => exact .permission message question hnone hrequest hquestion
            | none => exact .refused message hnone hrequest hquestion
          cases hvalue : message.get "id" with
          | null => exact absurd hvalue hid
          | _ => exact hserver
      · rw [if_neg hmethod]
        have hsame : responseId message = (message.get "id").int? := by rw [responseId, if_neg hmethod]
        cases hint : (message.get "id").int? with
        | none =>
          exact .dropped message (hsame.trans hint) fun h => hmethod h.2.1
        | some id =>
          by_cases hpending : c.pending = some id
          · simp only [hpending, if_true]
            exact .response message id (hsame.trans hint) hpending
          · simp only [hpending, if_false]
            exact .orphan message id (hsame.trans hint) hpending
    · rw [if_neg hobj]
      have hnot : message.isObj = false := by simpa using hobj
      refine .dropped message ?_ fun h => hobj h.1
      rw [responseId, Json.hasKey, hasKey_of_not_isObj hnot, Json.get, hasKey_of_not_isObj hnot]
      rfl

end Reads

/-! ## What holds along a conversation -/

section Invariant

variable {σ ι : Type} {env : Surroundings} {surface : Surface σ ι} {protocol : Protocol}
  {W : ι → Conversation σ ι → Prop} {c : Conversation σ ι}

/-- What the events say where a status is settled. -/
def Settles (protocol : Protocol) (status : DriverResultStatus) (c : Conversation σ ι) : Prop :=
  match status with
  | .succeeded => Declared protocol c.events ∧ c.aborted = false
  | .failed => ¬ EscalatedFirst protocol c.events
  | .interrupted => Event.cancelled ∈ c.events ∨
      Ended protocol c.events ∧ ¬ EscalatedFirst protocol c.events
  | .timeout => Event.timedOut ∈ c.events
  | .inputRequired => True

/-- **The invariant.** `W` is what holds at a wait. -/
structure Inv (protocol : Protocol) (W : ι → Conversation σ ι → Prop) (c : Conversation σ ι) :
    Prop where
  escalated : c.aborted = true ↔ Escalated c.events
  answered : AnsweredOnce protocol c.events
  settled : ∀ status, c.stage.settled = some status → Settles protocol status c
  waits : ∀ target, c.stage = .waiting target → W target c

/-- The answers of a driver mean what its protocol says. -/
structure Answers (protocol : Protocol) (surface : Surface σ ι) : Prop where
  answers : ∀ request decision, protocol.answers (resultMessage (request.get "id")
    (surface.verdict (mapping (request.get "params")) decision)) request
  allows : ∀ request decision, protocol.allows (resultMessage (request.get "id")
    (surface.verdict (mapping (request.get "params")) decision)) request → decision = .allow
  refusal : ∀ id, protocol.isAnswer (errorMessage id) = false
  request : ∀ id method params, protocol.isAnswer (requestMessage id method params) = false
  notification : ∀ method params, protocol.isAnswer (notification method params) = false

/-- An escalation is not noticed any more: the outcome is settled on success, or on a failure that no
message of the agent declared. -/
def Lost (protocol : Protocol) (c : Conversation σ ι) : Prop :=
  match c.stage with
  | .quiescing => True
  | .closing .succeeded => True
  | .closing .failed => ¬ Ended protocol c.events
  | _ => False

/-- A line makes the policy decide `ESCALATE`. -/
def Escalates (env : Surroundings) (surface : Surface σ ι) (c : Conversation σ ι) (line : Line) :
    Prop :=
  ∃ message question, line = .json message ∧ IsRequest message ∧
    surface.question message = some question ∧
    env.decide c.asked question.1 question.2 = some .escalate

namespace Conversation

@[simp] theorem note_events (message : Json) :
    (c.note message).events = c.events ++ [Event.read message] := rfl

@[simp] theorem send_stage (message : Json) : (c.send env message).stage = c.stage := rfl

@[simp] theorem send_aborted (message : Json) : (c.send env message).aborted = c.aborted := rfl

theorem send_events (env : Surroundings) (c : Conversation σ ι) (message : Json) :
    (c.send env message).events = c.events ∨
      (c.send env message).events = c.events ++ [Event.wrote message] := by
  by_cases hwrites : env.writes c.written = true
  · exact Or.inr (by rw [send, if_pos hwrites])
  · exact Or.inl (by rw [send, if_neg hwrites])

end Conversation

theorem Reads.frame {line : Line} {c' : Conversation σ ι} (h : Reads env surface c line c') :
    c'.stage = c.stage ∧ c'.resuming = c.resuming ∧ c'.nextRequestId = c.nextRequestId := by
  cases h with
  | permission message question _ _ _ =>
    rw [Conversation.answerPermission]
    split_ifs <;> exact ⟨rfl, rfl, rfl⟩
  | _ => exact ⟨rfl, rfl, rfl⟩

theorem answerPermission_spec (env : Surroundings) (surface : Surface σ ι) (c : Conversation σ ι) (message : Json) (question : String × Json) :
    let answer := env.decide c.asked question.1 question.2
    let c' := c.answerPermission env surface message question
    (c'.events = c.events ++ [Event.decided message answer] ∨
      c'.events = c.events ++ [Event.decided message answer] ++ [Event.wrote (resultMessage
        (message.get "id") (surface.verdict (mapping (message.get "params"))
          (answer.getD .deny)))]) ∧
      (c'.aborted = true ↔ c.aborted = true ∨ answer = some .escalate) := by
  simp only [Conversation.answerPermission]
  constructor
  · have hsend := Conversation.send_events env
      { c with asked := c.asked + 1
               events := c.events ++ [Event.decided message (env.decide c.asked question.1 question.2)] }
      (resultMessage (message.get "id") (surface.verdict (mapping (message.get "params"))
        ((env.decide c.asked question.1 question.2).getD .deny)))
    split_ifs <;> exact hsend
  · split_ifs with hescalate
    · have hsome : env.decide c.asked question.1 question.2 = some .escalate := by
        cases hanswer : env.decide c.asked question.1 question.2 with
        | none =>
          rw [hanswer] at hescalate
          cases hescalate
        | some decision =>
          rw [hanswer] at hescalate
          exact congrArg some hescalate
      simp [hsome]
    · have hnot : env.decide c.asked question.1 question.2 ≠ some .escalate := by
        intro hsome
        rw [hsome] at hescalate
        exact hescalate rfl
      simp [hnot]

theorem Reads.answered {line : Line} {c' : Conversation σ ι} (h : Reads env surface c line c')
    (hanswers : Answers protocol surface) (hc : AnsweredOnce protocol c.events) :
    AnsweredOnce protocol c'.events := by
  have hnote : ∀ message, AnsweredOnce protocol (c.note message).events :=
    fun message => hc.other (by simp) (by simp)
  cases h with
  | quiet reading _ => exact hc
  | dropped message _ _ => exact hnote message
  | notified message data _ _ _ => exact hnote message
  | raised message _ _ _ => exact hnote message
  | response message id _ _ => exact hnote message
  | orphan message id _ _ => exact hnote message
  | refused message _ _ _ =>
    rcases (c.note message).send_events env (errorMessage (message.get "id")) with heq | heq
    · rw [heq]
      exact hnote message
    · rw [heq]
      refine (hnote message).other ?_ (by simp)
      intro other hother
      obtain rfl := Event.wrote.inj hother
      exact hanswers.refusal _
  | permission message question _ _ _ =>
    obtain ⟨hevents, -⟩ := answerPermission_spec env surface (c.note message) message question
    rcases hevents with heq | heq
    · rw [heq]
      exact (hnote message).decided _ _
    · rw [heq]
      refine (hnote message).answer (hanswers.answers message _) fun hallow => ?_
      have hdecision := hanswers.allows message _ hallow
      cases hanswer : env.decide (c.note message).asked question.1 question.2 with
      | none =>
        rw [hanswer] at hdecision
        cases hdecision
      | some decision =>
        rw [hanswer] at hdecision
        exact congrArg some hdecision

end Invariant

section Steps

variable {σ ι : Type} {env : Surroundings} {surface : Surface σ ι} {protocol : Protocol}
  {W : ι → Conversation σ ι → Prop} {c : Conversation σ ι}

/-- **A line escalates, or it leaves what was escalated as it was.** -/
theorem Reads.quiet_or_escalates {line : Line} {c' : Conversation σ ι}
    (h : Reads env surface c line c') :
    (∃ more, c'.events = c.events ++ more ∧ (∀ event ∈ more, ¬ event.Escalates) ∧
      c'.aborted = c.aborted) ∨
    (Escalates env surface c line ∧ c'.aborted = true ∧ ∃ message more,
      c'.events = c.events ++ [Event.read message] ++ [Event.decided message (some .escalate)] ++ more ∧
        ∀ event ∈ more, ¬ event.Escalates) := by
  have hread : ∀ message, ¬ (Event.read message).Escalates := fun message h => by
    obtain ⟨request, heq⟩ := h
    cases heq
  have hwrote : ∀ message, ¬ (Event.wrote message).Escalates := fun message h => by
    obtain ⟨request, heq⟩ := h
    cases heq
  have hnote : ∀ message, ∃ more, (c.note message).events = c.events ++ more ∧
      (∀ event ∈ more, ¬ event.Escalates) :=
    fun message => ⟨[.read message], rfl, by simpa using hread message⟩
  cases h with
  | quiet reading _ => exact Or.inl ⟨[], by simp, by simp, rfl⟩
  | dropped message _ _ => exact Or.inl ((hnote message).imp fun _ h => ⟨h.1, h.2, rfl⟩)
  | notified message data _ _ _ => exact Or.inl ((hnote message).imp fun _ h => ⟨h.1, h.2, rfl⟩)
  | raised message _ _ _ => exact Or.inl ((hnote message).imp fun _ h => ⟨h.1, h.2, rfl⟩)
  | response message id _ _ => exact Or.inl ((hnote message).imp fun _ h => ⟨h.1, h.2, rfl⟩)
  | orphan message id _ _ => exact Or.inl ((hnote message).imp fun _ h => ⟨h.1, h.2, rfl⟩)
  | refused message _ _ _ =>
    refine Or.inl ?_
    rcases (c.note message).send_events env (errorMessage (message.get "id")) with heq | heq
    · exact ⟨[.read message], heq, by simpa using hread message, rfl⟩
    · refine ⟨[.read message, .wrote (errorMessage (message.get "id"))], by rw [heq]; simp, ?_, rfl⟩
      intro event hevent
      rcases List.mem_pair.mp hevent with rfl | rfl
      · exact hread message
      · exact hwrote _
  | permission message question _ hrequest hquestion =>
    obtain ⟨hevents, haborted⟩ := answerPermission_spec env surface (c.note message) message question
    by_cases hescalate : env.decide c.asked question.1 question.2 = some .escalate
    · refine Or.inr ⟨⟨message, question, rfl, hrequest, hquestion, hescalate⟩,
        haborted.mpr (Or.inr hescalate), message, ?_⟩
      have hsame : env.decide (c.note message).asked question.1 question.2 = some .escalate := hescalate
      rw [hsame] at hevents
      rcases hevents with heq | heq
      · exact ⟨[], by rw [heq]; simp, by simp⟩
      · exact ⟨_, heq, by simpa using hwrote _⟩
    · refine Or.inl ?_
      have hkept : ((c.note message).answerPermission env surface message question).aborted
          = c.aborted := by
        rw [Bool.eq_iff_iff, haborted]
        exact or_iff_left hescalate
      have hdecided : ¬ (Event.decided message
          (env.decide (c.note message).asked question.1 question.2)).Escalates := by
        rintro ⟨request, heq⟩
        obtain ⟨-, hanswer⟩ := Event.decided.inj heq
        exact hescalate hanswer
      rcases hevents with heq | heq
      · refine ⟨_, by rw [heq, Conversation.note_events, List.append_assoc], ?_, hkept⟩
        intro event hevent
        rcases List.mem_pair.mp hevent with rfl | rfl
        · exact hread message
        · exact hdecided
      · refine ⟨_, by rw [heq, Conversation.note_events, List.append_assoc, List.append_assoc], ?_,
          hkept⟩
        intro event hevent
        simp only [List.mem_append, List.mem_singleton] at hevent
        rcases hevent with rfl | rfl | rfl
        · exact hread message
        · exact hdecided
        · exact hwrote _

theorem Settles.quiet {status : DriverResultStatus} {c' : Conversation σ ι}
    (h : Settles protocol status c) {more : List Event} (hevents : c'.events = c.events ++ more)
    (hquiet : ∀ event ∈ more, ¬ event.Escalates) (haborted : c'.aborted = c.aborted) :
    Settles protocol status c' := by
  cases status with
  | succeeded => exact ⟨by rw [hevents]; exact h.1.append more, haborted.trans h.2⟩
  | failed =>
    rw [Settles] at h ⊢
    rwa [hevents, escalatedFirst_quiet hquiet]
  | interrupted =>
    rw [Settles] at h ⊢
    rw [hevents, escalatedFirst_quiet hquiet, List.mem_append]
    exact h.imp Or.inl (And.imp_left fun hended => hended.append more)
  | timeout =>
    rw [Settles] at h ⊢
    rw [hevents, List.mem_append]
    exact Or.inl h
  | inputRequired => trivial

/-- **A line keeps the invariant**, unless it escalates when nobody notices. -/
theorem Inv.read (h : Inv protocol W c) (hanswers : Answers protocol surface) {line : Line}
    (hlost : Escalates env surface c line → ¬ Lost protocol c)
    (hreturned : ∀ status, c.stage ≠ .returned status)
    (hwaits : ∀ target, c.stage = .waiting target → W target (c.read env surface line)) :
    Inv protocol W (c.read env surface line) := by
  have hreads := reads_read env surface c line
  obtain ⟨hstage, -, -⟩ := hreads.frame
  refine ⟨?_, hreads.answered hanswers h.answered, ?_, fun target htarget =>
    hwaits target (hstage.symm.trans htarget)⟩
  · rcases hreads.quiet_or_escalates with ⟨more, hevents, hquiet, haborted⟩ |
      ⟨-, haborted, message, more, hevents, hquiet⟩
    · rw [hevents, escalated_quiet hquiet, haborted]
      exact h.escalated
    · rw [hevents, escalated_quiet hquiet, escalated_concat, haborted]
      exact iff_of_true rfl (Or.inr ⟨message, rfl⟩)
  · intro status hstatus
    rw [hstage] at hstatus
    have hsettled := h.settled status hstatus
    rcases hreads.quiet_or_escalates with ⟨more, hevents, hquiet, haborted⟩ |
      ⟨hescalates, haborted, message, more, hevents, hquiet⟩
    · exact hsettled.quiet hevents hquiet haborted
    · have hnotLost := hlost hescalates
      have hfirst : EscalatedFirst protocol (c.read env surface line).events →
          Ended protocol c.events → EscalatedFirst protocol c.events := by
        intro hfirst hended
        rw [hevents, escalatedFirst_quiet hquiet, escalatedFirst_concat] at hfirst
        rcases hfirst with hfirst | ⟨-, hnot⟩
        · exact (escalatedFirst_quiet (by simp [Event.Escalates])).mp hfirst
        · exact absurd (hended.append _) hnot
      have hmem : ∀ event ∈ c.events, event ∈ (c.read env surface line).events := by
        intro event hevent
        rw [hevents]
        simp [hevent]
      have hended : Ended protocol c.events → Ended protocol (c.read env surface line).events := by
        rintro ⟨message, hmessage, hterminal⟩
        exact ⟨message, hmem _ hmessage, hterminal⟩
      cases hstageOf : c.stage with
      | waiting target =>
        rw [hstageOf] at hstatus
        cases hstatus
      | returned other => exact absurd hstageOf (hreturned other)
      | quiescing => exact absurd (by rw [Lost, hstageOf]; trivial) hnotLost
      | closing other =>
        rw [hstageOf] at hstatus
        obtain rfl := Option.some.inj hstatus
        rw [Lost, hstageOf] at hnotLost
        cases other with
        | succeeded => exact absurd trivial hnotLost
        | failed => exact fun hbad => hsettled (hfirst hbad (not_not.mp hnotLost))
        | interrupted =>
          rcases hsettled with hcancelled | ⟨hover, hnot⟩
          · exact Or.inl (hmem _ hcancelled)
          · exact Or.inr ⟨hended hover, fun hbad => hnot (hfirst hbad hover)⟩
        | timeout => exact hmem _ hsettled
        | inputRequired => trivial

end Steps

section Runs

variable {σ ι : Type} {env : Surroundings} {surface : Surface σ ι} {protocol : Protocol}
  {W : ι → Conversation σ ι → Prop} {c : Conversation σ ι}

/-- What the events say of the abort and of the answers. -/
structure Noted (protocol : Protocol) (c : Conversation σ ι) : Prop where
  escalated : c.aborted = true ↔ Escalated c.events
  answered : AnsweredOnce protocol c.events

theorem Inv.noted (h : Inv protocol W c) : Noted protocol c := ⟨h.escalated, h.answered⟩

theorem Noted.settle (h : Noted protocol c) {status : DriverResultStatus}
    (hsettles : Settles protocol status c) : Inv protocol W (c.settle status) := by
  refine ⟨h.escalated, h.answered, ?_, ?_⟩
  · intro other hother
    obtain rfl := Option.some.inj hother
    cases status <;> exact hsettles
  · intro target htarget
    cases htarget

theorem Noted.fail (h : Noted protocol c) (haborted : c.aborted = false) :
    Inv protocol W (c.settle .failed) := by
  refine h.settle fun hfirst => ?_
  rw [h.escalated.mpr hfirst.escalated] at haborted
  cases haborted

theorem Inv.stop (h : Inv protocol W c) {status : DriverResultStatus} {event : Event}
    (hquiet : ¬ event.Escalates) (hwrote : ∀ message, event ≠ .wrote message)
    (hdecided : ∀ request decision, event ≠ .decided request decision)
    (hsettles : Settles protocol status { c with events := c.events ++ [event] }) :
    Inv protocol W ({ c with events := c.events ++ [event] }.settle status) := by
  refine ⟨?_, ?_, ?_, ?_⟩
  · have hsame : Escalated (c.events ++ [event]) ↔ Escalated c.events :=
      escalated_quiet (by simpa using hquiet)
    exact h.escalated.trans hsame.symm
  · exact h.answered.other (fun message heq => absurd heq (hwrote message)) hdecided
  · intro other hother
    obtain rfl := Option.some.inj hother
    cases status <;> exact hsettles
  · intro target htarget
    cases htarget

theorem Inv.look (h : Inv protocol W c) (expired : Bool) : Inv protocol W (c.look expired) := by
  rw [Conversation.look]
  cases hstage : c.stage with
  | waiting target =>
    simp only
    split_ifs
    · refine h.stop (by rintro ⟨request, heq⟩; cases heq) (by simp) (by simp) ?_
      show Event.timedOut ∈ c.events ++ [Event.timedOut]
      simp
    · exact h
  | _ => exact h

theorem Inv.cancel (h : Inv protocol W c) : Inv protocol W (tick env surface c .cancel) := by
  have hstop : Inv protocol W
      ({ c with events := c.events ++ [Event.cancelled] }.settle .interrupted) := by
    refine h.stop (by rintro ⟨request, heq⟩; cases heq) (by simp) (by simp) (Or.inl ?_)
    simp
  rw [Drivers.tick]
  cases c.stage with
  | waiting target => exact hstop
  | quiescing => exact hstop
  | closing status => exact h
  | returned status => exact h

/-- What a driver makes of its waits, as long as each step is `Fine`. -/
structure Drives (env : Surroundings) (surface : Surface σ ι) (protocol : Protocol)
    (W : ι → Conversation σ ι → Prop) (Fine : Conversation σ ι → Tick → Prop) : Prop where
  answers : Answers protocol surface
  resuming : ∀ target (c : Conversation σ ι) noticed, W target c →
    W target { c with resuming := noticed }
  lost : ∀ (c : Conversation σ ι) line, Fine c (.read line) → c.reading = true →
    Escalates env surface c line → ¬ Lost protocol c
  read : ∀ (c : Conversation σ ι) target line, Fine c (.read line) → c.reading = true →
    c.stage = .waiting target → Inv protocol W c → W target (c.read env surface line)
  resume : ∀ (c : Conversation σ ι) target noticed expired, Fine c (.wake expired) →
    c.stage = .waiting target → c.resuming = some noticed → Inv protocol W c →
    noticed.1 = false → Inv protocol W (c.resume env surface target noticed)

theorem Inv.resuming {Fine : Conversation σ ι → Tick → Prop}
    (hdrives : Drives env surface protocol W Fine) (h : Inv protocol W c)
    (noticed : Option (Bool × Bool)) : Inv protocol W { c with resuming := noticed } := by
  refine ⟨h.escalated, h.answered, ?_, fun target htarget =>
    hdrives.resuming target c noticed (h.waits target htarget)⟩
  intro status hstatus
  have hsettles := h.settled status hstatus
  cases status <;> exact hsettles

/-- **Every fine step keeps the invariant.** -/
theorem Inv.tick {Fine : Conversation σ ι → Tick → Prop}
    (hdrives : Drives env surface protocol W Fine) (h : Inv protocol W c) {t : Tick}
    (hfine : Fine c t) : Inv protocol W (tick env surface c t) := by
  cases t with
  | cancel => exact h.cancel
  | read line =>
    rw [Drivers.tick]
    have hread : (∀ status, c.stage ≠ .returned status) →
        Inv protocol W (if c.reading then c.read env surface line else c) := by
      intro hreturned
      split_ifs with hreading
      · exact h.read hdrives.answers (hdrives.lost c line hfine hreading) hreturned
          fun target htarget => hdrives.read c target line hfine hreading htarget h
      · exact h
    cases hstage : c.stage with
    | returned status => exact h
    | waiting target => exact hread (by simp [hstage])
    | quiescing => exact hread (by simp [hstage])
    | closing status => exact hread (by simp [hstage])
  | schedule =>
    rw [Drivers.tick]
    cases hstage : c.stage with
    | waiting target =>
      cases hresuming : c.resuming with
      | none =>
        have hnext := h.resuming hdrives (some (c.aborted, !c.reading))
        rw [hstage] at hnext
        exact hnext
      | some noticed => exact h
    | _ => exact h
  | wake expired =>
    rw [Drivers.tick, Conversation.wake]
    cases hstage : c.stage with
    | waiting target =>
      cases hresuming : c.resuming with
      | none => exact h
      | some noticed =>
        refine Inv.look ?_ expired
        cases hnoticed : noticed.1 with
        | true =>
          rw [Conversation.resume, if_pos hnoticed]
          exact (h.resuming hdrives none).noted.settle trivial
        | false => exact hdrives.resume c target noticed expired hfine hstage hresuming h hnoticed
    | quiescing =>
      have hsettled := h.settled .succeeded (by rw [hstage]; rfl)
      exact h.noted.settle hsettled
    | closing status =>
      refine ⟨h.escalated, h.answered, ?_, ?_⟩
      · intro other hother
        have hsettled := h.settled other (by rw [hstage]; exact hother)
        cases other <;> exact hsettled
      · intro target htarget
        cases htarget
    | returned status => exact h

theorem run_concat (start : Conversation σ ι) (ticks : List Tick) (t : Tick) :
    run env surface start (ticks ++ [t]) = tick env surface (run env surface start ticks) t :=
  List.foldl_concat ..

/-- **Every fine run keeps the invariant.** -/
theorem Inv.run {Fine : Conversation σ ι → Tick → Prop}
    (hdrives : Drives env surface protocol W Fine) {start : Conversation σ ι}
    (h : Inv protocol W start) {ticks : List Tick}
    (hfine : ∀ before t after, ticks = before ++ t :: after →
      Fine (run env surface start before) t) : Inv protocol W (run env surface start ticks) := by
  induction ticks using List.reverseRecOn with
  | nil => exact h
  | append_singleton ticks t ih =>
    rw [run_concat]
    refine (ih fun before other after heq => ?_).tick hdrives (hfine ticks t [] rfl)
    exact hfine before other (after ++ [t]) (by rw [heq]; simp)

/-! ## The end of a run -/

theorem tick_returned {status : DriverResultStatus} (h : c.stage = .returned status) (t : Tick) :
    tick env surface c t = c := by
  cases t <;> simp [tick, Conversation.wake, h]

theorem run_returned {status : DriverResultStatus} (h : c.stage = .returned status)
    (ticks : List Tick) : run env surface c ticks = c := by
  induction ticks with
  | nil => rfl
  | cons t ticks ih =>
    rw [run, List.foldl_cons, tick_returned h]
    exact ih

/-- How far a conversation is from its end. -/
def remaining (rank : ι → ℕ) (c : Conversation σ ι) : ℕ :=
  match c.stage with
  | .waiting target => 2 * (rank target + 3) + if c.resuming.isSome then 1 else 0
  | .quiescing => 4
  | .closing _ => 2
  | .returned _ => 0

/-- The waits of a driver come one after the other. -/
structure Forward (env : Surroundings) (surface : Surface σ ι) (rank : ι → ℕ) : Prop where
  remaining : ∀ target response (c : Conversation σ ι),
    remaining rank (surface.proceed env target response c) < 2 * (rank target + 3)
  reading : ∀ target response (c : Conversation σ ι),
    (surface.proceed env target response c).reading = c.reading

theorem remaining_settle {rank : ι → ℕ} (status : DriverResultStatus) :
    remaining rank (c.settle status) = 2 := rfl

theorem look_remaining (rank : ι → ℕ) (c : Conversation σ ι) (expired : Bool) :
    remaining rank (c.look expired) ≤ remaining rank c ∧ (c.look expired).reading = c.reading := by
  rw [Conversation.look]
  cases hstage : c.stage with
  | waiting target =>
    simp only
    split_ifs
    · refine ⟨?_, rfl⟩
      rw [remaining_settle, remaining, hstage]
      simp only
      omega
    · exact ⟨le_rfl, rfl⟩
  | _ => exact ⟨le_rfl, rfl⟩

theorem resume_remaining {rank : ι → ℕ} (hforward : Forward env surface rank) {target : ι}
    (hstage : c.stage = .waiting target) {noticed : Bool × Bool} (hresuming : c.resuming = some noticed) :
    (noticed.2 = true →
      remaining rank (c.resume env surface target noticed) < 2 * (rank target + 3)) ∧
    remaining rank (c.resume env surface target noticed) < remaining rank c ∧
      (c.resume env surface target noticed).reading = c.reading := by
  have hnow : remaining rank c = 2 * (rank target + 3) + 1 := by
    rw [remaining, hstage, hresuming]
    rfl
  have hidle : remaining rank { c with resuming := none } = 2 * (rank target + 3) := by
    rw [remaining, hstage]
    rfl
  rw [Conversation.resume]
  by_cases hnoticed : noticed.1 = true
  · rw [if_pos hnoticed, remaining_settle]
    exact ⟨by omega, by omega, rfl⟩
  · rw [if_neg hnoticed]
    cases surface.target target { c with resuming := none } with
    | some response =>
      simp only
      split_ifs
      · rw [remaining_settle]
        exact ⟨by omega, by omega, rfl⟩
      · have hless := hforward.remaining target response { c with resuming := none }
        exact ⟨fun _ => hless, by omega, hforward.reading target response _⟩
    | none =>
      simp only
      split_ifs with hended
      · rw [remaining_settle]
        exact ⟨by omega, by omega, rfl⟩
      · rw [hidle]
        exact ⟨fun h => absurd h hended, by omega, rfl⟩

/-- The driver's resumptions with what the watchdog says at each. -/
def resumptions (looks : List Bool) : List Tick :=
  looks.flatMap fun expired => [.schedule, .wake expired]

theorem wake_waiting {target : ι} (hstage : c.stage = .waiting target) {noticed : Bool × Bool}
    (hresuming : c.resuming = some noticed) (expired : Bool) :
    c.wake env surface expired = (c.resume env surface target noticed).look expired := by
  rw [Conversation.wake, hstage, hresuming]

theorem remaining_resumption {rank : ι → ℕ} (hforward : Forward env surface rank)
    (hreading : c.reading = false) (expired : Bool) :
    (remaining rank (run env surface c [.schedule, .wake expired]) < remaining rank c ∨
      remaining rank c = 0) ∧ (run env surface c [.schedule, .wake expired]).reading = false := by
  have hrun : run env surface c [.schedule, .wake expired]
      = (tick env surface c .schedule).wake env surface expired := rfl
  rw [hrun]
  cases hstage : c.stage with
  | returned status =>
    rw [tick_returned hstage, Conversation.wake, hstage]
    exact ⟨Or.inr (by rw [remaining, hstage]), hreading⟩
  | closing status =>
    have hsame : tick env surface c .schedule = c := by rw [tick, hstage]
    rw [hsame, Conversation.wake, hstage]
    refine ⟨Or.inl ?_, hreading⟩
    simp [remaining, hstage]
  | quiescing =>
    have hsame : tick env surface c .schedule = c := by rw [tick, hstage]
    rw [hsame, Conversation.wake, hstage]
    refine ⟨Or.inl ?_, hreading⟩
    rw [remaining_settle, remaining, hstage]
    simp
  | waiting target =>
    cases hresuming : c.resuming with
    | some noticed =>
      have hsame : tick env surface c .schedule = c := by rw [tick, hstage, hresuming]
      rw [hsame, Conversation.wake, hstage, hresuming]
      obtain ⟨-, hless, hkept⟩ := resume_remaining hforward hstage hresuming
      obtain ⟨hlook, hlooked⟩ :=
        look_remaining rank (c.resume env surface target noticed) expired
      exact ⟨Or.inl (by simp only; omega), hlooked.trans (hkept.trans hreading)⟩
    | none =>
      have hscheduled : tick env surface c .schedule
          = { c with resuming := some (c.aborted, !c.reading) } := by rw [tick, hstage, hresuming]
      rw [hscheduled, @wake_waiting _ _ env surface
        { c with resuming := some (c.aborted, !c.reading) } target hstage _ rfl]
      obtain ⟨hless, -, hkept⟩ := @resume_remaining _ _ env surface
        { c with resuming := some (c.aborted, !c.reading) } rank hforward target hstage
        (c.aborted, !c.reading) rfl
      have hshorter := hless (by simp [hreading])
      obtain ⟨hlook, hlooked⟩ := look_remaining rank
        (Conversation.resume env surface { c with resuming := some (c.aborted, !c.reading) } target
          (c.aborted, !c.reading)) expired
      have hnow : remaining rank c = 2 * (rank target + 3) := by
        rw [remaining, hstage, hresuming]
        rfl
      exact ⟨Or.inl (by omega), hlooked.trans (hkept.trans hreading)⟩

/-- **Once the stream has ended, the run returns.** -/
theorem run_returns {rank : ι → ℕ} (hforward : Forward env surface rank)
    (hreading : c.reading = false) {looks : List Bool} (hlooks : remaining rank c ≤ looks.length) :
    ∃ status, (run env surface c (resumptions looks)).stage = .returned status := by
  induction looks generalizing c with
  | nil =>
    have hzero : remaining rank c = 0 := by
      rw [List.length_nil] at hlooks
      omega
    rw [remaining] at hzero
    cases hstage : c.stage with
    | returned status => exact ⟨status, hstage⟩
    | waiting target =>
      rw [hstage] at hzero
      simp only at hzero
      omega
    | quiescing => simp [hstage] at hzero
    | closing status => simp [hstage] at hzero
  | cons expired looks ih =>
    have hsplit : run env surface c (resumptions (expired :: looks))
        = run env surface (run env surface c [.schedule, .wake expired]) (resumptions looks) := by
      rw [resumptions, List.flatMap_cons, run, List.foldl_append]
      rfl
    rw [hsplit]
    obtain ⟨hless, hkept⟩ := remaining_resumption hforward hreading expired
    refine ih hkept ?_
    rw [List.length_cons] at hlooks
    rcases hless with hless | hzero
    · omega
    · rw [remaining] at hzero
      cases hstage : c.stage with
      | returned status =>
        rw [run_returned hstage, remaining, hstage]
        simp
      | waiting target =>
        rw [hstage] at hzero
        simp only at hzero
        omega
      | quiescing => simp [hstage] at hzero
      | closing status => simp [hstage] at hzero

end Runs

/-! ## Waiting and asking -/

section Calls

variable {σ ι : Type} {env : Surroundings} {surface : Surface σ ι} {protocol : Protocol}
  {W : ι → Conversation σ ι → Prop} {c : Conversation σ ι}

/-- The event writes a request of the driver. -/
def Event.Requests (event : Event) : Prop :=
  ∃ id method params, event = .wrote (requestMessage id method params)

theorem resultMessage_ne_requestMessage (reply result : Json) (id : ℕ) (method : String)
    (params : List (String × Json)) : resultMessage reply result ≠ requestMessage id method params := by
  simp [resultMessage, requestMessage]

theorem errorMessage_ne_requestMessage (reply : Json) (id : ℕ) (method : String)
    (params : List (String × Json)) : errorMessage reply ≠ requestMessage id method params := by
  simp [errorMessage, requestMessage]

/-- **What a line does to a wait**: it is the response that is waited for, or the wait goes on. -/
theorem Reads.wait {line : Line} {c' : Conversation σ ι} (h : Reads env surface c line c') :
    (∃ more, c'.events = c.events ++ more ∧ (∀ event ∈ more, ¬ event.Requests) ∧
      (∀ message, .read message ∈ more → ∀ id, responseId message = some id → c.pending ≠ some id) ∧
      c'.pending = c.pending ∧ c'.response = c.response) ∨
    ∃ message id, responseId message = some id ∧ c.pending = some id ∧
      c'.events = c.events ++ [Event.read message] ∧ c'.pending = none ∧
      c'.response = some message := by
  have hread : ∀ message, ¬ (Event.read message).Requests := by
    rintro message ⟨id, method, params, heq⟩
    cases heq
  have herror : ∀ id, ¬ (Event.wrote (errorMessage id)).Requests := by
    rintro reply ⟨id, method, params, heq⟩
    exact errorMessage_ne_requestMessage reply id method params (Event.wrote.inj heq)
  have hresult : ∀ id result, ¬ (Event.wrote (resultMessage id result)).Requests := by
    rintro reply result ⟨id, method, params, heq⟩
    exact resultMessage_ne_requestMessage reply result id method params (Event.wrote.inj heq)
  have hdecided : ∀ message answer, ¬ (Event.decided message answer).Requests := by
    rintro message answer ⟨id, method, params, heq⟩
    cases heq
  have hsilent : ∀ message, responseId message = none →
      ∀ other, other = message → ∀ id, responseId other = some id → c.pending ≠ some id := by
    rintro message hnone other rfl id hid
    rw [hnone] at hid
    cases hid
  cases h with
  | quiet reading _ => exact Or.inl ⟨[], by simp, by simp, by simp, rfl, rfl⟩
  | dropped message hnone _ =>
    exact Or.inl ⟨[.read message], rfl, by simpa using hread message,
      by simpa using hsilent message hnone message rfl, rfl, rfl⟩
  | notified message data hnone _ _ =>
    exact Or.inl ⟨[.read message], rfl, by simpa using hread message,
      by simpa using hsilent message hnone message rfl, rfl, rfl⟩
  | raised message hnone _ _ =>
    exact Or.inl ⟨[.read message], rfl, by simpa using hread message,
      by simpa using hsilent message hnone message rfl, rfl, rfl⟩
  | orphan message id hid hother =>
    refine Or.inl ⟨[.read message], rfl, by simpa using hread message, ?_, rfl, rfl⟩
    intro other hmem next hnext
    obtain rfl := Event.read.inj (List.mem_singleton.mp hmem)
    rw [hid] at hnext
    obtain rfl := Option.some.inj hnext
    exact hother
  | response message id hid hpending =>
    exact Or.inr ⟨message, id, hid, hpending, rfl, rfl, rfl⟩
  | refused message hnone _ _ =>
    refine Or.inl ?_
    rcases (c.note message).send_events env (errorMessage (message.get "id")) with heq | heq
    · exact ⟨[.read message], heq, by simpa using hread message,
        by simpa using hsilent message hnone message rfl, rfl, rfl⟩
    · refine ⟨_, by rw [heq, Conversation.note_events, List.append_assoc], ?_, ?_, rfl, rfl⟩
      · intro event hevent
        rcases List.mem_pair.mp hevent with rfl | rfl
        · exact hread message
        · exact herror _
      · intro other hmem
        rcases List.mem_pair.mp hmem with heq | heq
        · exact hsilent message hnone other (Event.read.inj heq)
        · cases heq
  | permission message question hnone _ _ =>
    refine Or.inl ?_
    have hkept : ((c.note message).answerPermission env surface message question).pending = c.pending ∧
        ((c.note message).answerPermission env surface message question).response = c.response := by
      rw [Conversation.answerPermission]
      split_ifs <;> exact ⟨rfl, rfl⟩
    obtain ⟨hevents, -⟩ := answerPermission_spec env surface (c.note message) message question
    rcases hevents with heq | heq
    · refine ⟨_, by rw [heq, Conversation.note_events, List.append_assoc], ?_, ?_, hkept.1, hkept.2⟩
      · intro event hevent
        rcases List.mem_pair.mp hevent with rfl | rfl
        · exact hread message
        · exact hdecided _ _
      · intro other hmem
        rcases List.mem_pair.mp hmem with heq | heq
        · exact hsilent message hnone other (Event.read.inj heq)
        · cases heq
    · refine ⟨_, by rw [heq, Conversation.note_events, List.append_assoc, List.append_assoc], ?_, ?_,
        hkept.1, hkept.2⟩
      · intro event hevent
        simp only [List.mem_append, List.mem_singleton] at hevent
        rcases hevent with rfl | rfl | rfl
        · exact hread message
        · exact hdecided _ _
        · exact hresult _ _
      · intro other hmem
        simp only [List.mem_append, List.mem_singleton] at hmem
        rcases hmem with heq | heq | heq
        · exact hsilent message hnone other (Event.read.inj heq)
        · cases heq
        · cases heq

theorem Noted.send (h : Noted protocol c) (env : Surroundings) {message : Json}
    (hanswer : protocol.isAnswer message = false) : Noted protocol (c.send env message) := by
  have hquiet : ∀ event ∈ [Event.wrote message], ¬ event.Escalates := by
    intro event hevent
    rw [List.mem_singleton.mp hevent]
    rintro ⟨request, heq⟩
    cases heq
  rcases c.send_events env message with heq | heq
  · exact ⟨by rw [heq]; exact h.escalated, by rw [heq]; exact h.answered⟩
  · refine ⟨by rw [heq, escalated_quiet hquiet]; exact h.escalated, ?_⟩
    rw [heq]
    refine h.answered.other ?_ (by simp)
    intro other hother
    obtain rfl := Event.wrote.inj hother
    exact hanswer

namespace Conversation

/-- The state in which a request has been written. -/
def asking (env : Surroundings) (c : Conversation σ ι) (method : String)
    (params : List (String × Json)) : Conversation σ ι :=
  { c.send env (requestMessage (c.nextRequestId + 1) method params) with
    nextRequestId := c.nextRequestId + 1 }

/-- The response to the next request that is there already. -/
def buffered (c : Conversation σ ι) : Option Json :=
  (c.orphans.find? fun o => o.1 = ((c.nextRequestId + 1 : ℕ) : ℤ)).map (·.2)

end Conversation

/-- **A call.** It fails with the write, takes a response that is there already, or waits. -/
theorem call_cases (env : Surroundings) (c : Conversation σ ι) (method : String) (params : List (String × Json)) (next : ι)
    (k : Json → Conversation σ ι → Conversation σ ι) :
    let sent := c.asking env method params
    let taken := { sent with
      orphans := sent.orphans.filter fun o => o.1 ≠ ((c.nextRequestId + 1 : ℕ) : ℤ) }
    (env.writes c.written = false ∧ c.call env method params next k = sent.settle .failed) ∨
    (env.writes c.written = true ∧ ∃ response, c.buffered = some response ∧
      c.call env method params next k
        = if hasError response then taken.settle .failed else k response taken) ∨
    (env.writes c.written = true ∧ c.buffered = none ∧ c.call env method params next k
      = { sent with
          pending := some ((c.nextRequestId + 1 : ℕ) : ℤ), response := none
          stage := .waiting next }) := by
  simp only [Conversation.call, Conversation.buffered]
  cases hwrites : env.writes c.written with
  | false => exact Or.inl ⟨rfl, rfl⟩
  | true =>
    refine Or.inr ?_
    cases hfind : c.orphans.find? fun o => o.1 = ((c.nextRequestId + 1 : ℕ) : ℤ) with
    | some o => exact Or.inl ⟨rfl, o.2, rfl, rfl⟩
    | none => exact Or.inr ⟨rfl, rfl, rfl⟩

theorem asking_events (method : String) (params : List (String × Json))
    (hwrites : env.writes c.written = true) : (c.asking env method params).events
      = c.events ++ [Event.wrote (requestMessage (c.nextRequestId + 1) method params)] := by
  rw [Conversation.asking, Conversation.send, if_pos hwrites]

theorem Noted.asking (h : Noted protocol c) (env : Surroundings)
    (hanswers : Answers protocol surface) (method : String) (params : List (String × Json)) : Noted protocol (c.asking env method params) := by
  have hsent := h.send env (hanswers.request (c.nextRequestId + 1) method params)
  exact ⟨hsent.escalated, hsent.answered⟩

/-- The driver resumes without having noticed that it was aborted. -/
def Blind (c : Conversation σ ι) : Prop :=
  c.aborted = true ∧ ∃ target ended, c.stage = .waiting target ∧ c.resuming = some (false, ended)

/-- The next call goes through to a wait. -/
def NextWaits (env : Surroundings) (c : Conversation σ ι) : Prop :=
  env.writes c.written = true ∧ c.buffered = none

end Calls

/-! ## What is returned -/

section Returned

variable {σ ι : Type} {env : Surroundings} {surface : Surface σ ι} {protocol : Protocol}
  {W : ι → Conversation σ ι → Prop} {c : Conversation σ ι}

/-- The stream ends, and the driver resumes as often as there are looks at the watchdog. -/
def ending (looks : List Bool) : List Tick := .read .closed :: resumptions looks

/-- **The status that is returned is honest.** -/
theorem Inv.honest (h : Inv protocol W c) {status : DriverResultStatus}
    (hstage : c.stage = .returned status) :
    (status = .succeeded → Declared protocol c.events ∧ ¬ Escalated c.events) ∧
    (EscalatedFirst protocol c.events → Event.cancelled ∉ c.events → Event.timedOut ∉ c.events →
      status = .inputRequired) := by
  have hsettles := h.settled status (by rw [hstage]; rfl)
  have hfree : c.aborted = false → ¬ Escalated c.events := by
    intro haborted hescalated
    rw [h.escalated.mpr hescalated] at haborted
    cases haborted
  constructor
  · rintro rfl
    exact ⟨hsettles.1, hfree hsettles.2⟩
  · intro hfirst hcancelled htimedOut
    cases status with
    | succeeded => exact absurd hfirst.escalated (hfree hsettles.2)
    | failed => exact absurd hfirst hsettles
    | interrupted =>
      rcases hsettles with hmem | ⟨-, hnot⟩
      · exact absurd hmem hcancelled
      · exact absurd hfirst hnot
    | timeout => exact absurd hsettles htimedOut
    | inputRequired => rfl

theorem run_append (start : Conversation σ ι) (ticks more : List Tick) :
    run env surface start (ticks ++ more) = run env surface (run env surface start ticks) more :=
  List.foldl_append ..

/-- **Every run returns once the stream has ended**, however it went. -/
theorem run_ending {rank : ι → ℕ} (hforward : Forward env surface rank)
    (start : Conversation σ ι) (ticks : List Tick) : ∃ n, ∀ looks : List Bool, n ≤ looks.length →
      ∃ status, (run env surface start (ticks ++ ending looks)).stage = .returned status := by
  refine ⟨remaining rank (run env surface start (ticks ++ [.read .closed])), fun looks hlooks => ?_⟩
  have hsplit : run env surface start (ticks ++ ending looks)
      = run env surface (run env surface start (ticks ++ [.read .closed])) (resumptions looks) := by
    rw [← run_append, ending, List.append_assoc, List.singleton_append]
  rw [hsplit]
  cases hstage : (run env surface start ticks).stage with
  | returned status =>
    refine ⟨status, ?_⟩
    rw [run_concat, tick_returned hstage, run_returned hstage]
    exact hstage
  | _ =>
    refine run_returns hforward ?_ hlooks
    rw [run_concat, tick, hstage]
    simp only
    split_ifs with hreading
    · rfl
    · simpa using hreading

/-- **One honest outcome of every run whose steps are fine**, where a result keeps its status unless it
takes a success back. -/
theorem Inv.oneOutcome {Fine : Conversation σ ι → Tick → Prop} {start : Conversation σ ι}
    (h : Inv protocol W start) (hdrives : Drives env surface protocol W Fine) {rank : ι → ℕ}
    (hforward : Forward env surface rank) {build : Conversation σ ι → DriverResultStatus → DriverResult}
    (hsucceeds : ∀ c status, (build c status).status = .succeeded → status = .succeeded)
    (hasks : ∀ c, (build c .inputRequired).status = .inputRequired) {ticks : List Tick}
    (hfine : ∀ before t later, ticks = before ++ t :: later →
      Fine (Drivers.run env surface start before) t) :
    OneOutcome protocol (fun ticks => (Drivers.run env surface start ticks).events)
      (fun ticks => (Drivers.run env surface start ticks).result build) ending ticks := by
  have hinv := h.run hdrives hfine
  have hreturned : ∀ {c : Conversation σ ι} {r : DriverResult}, c.result build = some r →
      ∃ status, c.stage = .returned status ∧ r = build c status := by
    intro c r hr
    rw [Conversation.result] at hr
    cases hstage : c.stage with
    | returned status =>
      rw [hstage] at hr
      exact ⟨status, rfl, (Option.some.inj hr).symm⟩
    | _ =>
      rw [hstage] at hr
      cases hr
  refine ⟨?_, hinv.answered, ?_, ?_⟩
  · intro r hr
    obtain ⟨status, hstage, rfl⟩ := hreturned hr
    obtain ⟨hsucceeded, hescalated⟩ := hinv.honest hstage
    refine ⟨fun hstatus => hsucceeded (hsucceeds _ _ hstatus),
      fun hfirst hcancelled htimedOut => ?_, hinv.answered, DriverResult.summary_eq _⟩
    rw [hescalated hfirst hcancelled htimedOut]
    exact hasks _
  · intro r more hr
    obtain ⟨status, hstage, -⟩ := hreturned hr
    rw [run_append, run_returned hstage]
    exact hr
  · obtain ⟨n, hn⟩ := run_ending hforward start ticks
    refine ⟨n, fun looks hlooks => ?_⟩
    obtain ⟨status, hstage⟩ := hn looks hlooks
    rw [Conversation.result, hstage]
    rfl

end Returned

end Drivers
end RepoMesh
