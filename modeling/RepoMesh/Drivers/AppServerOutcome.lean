/-
# The outcome of an app-server run

What an app-server run returns is honest as long as the first success of a turn that is read is of the
turn that the prompt started, and no permission request is escalated when nobody notices.
-/
import RepoMesh.Drivers.AppServer

namespace RepoMesh
namespace Drivers
namespace AppServer

open Execution (PermissionDecision)

/-! ## The protocol -/

/-- The turn that a response to `turn/start` accepts. -/
def acceptedTurn (response : Json) : Option String :=
  ((mapping ((resultOf response).get "turn")).get "id").str?

/-- The turn and the thread that a notification names. -/
def namedTurn (message : Json) : Option String :=
  ((mapping ((mapping (message.get "params")).get "turn")).get "id").str?

def namedThread (message : Json) : Option String :=
  ((mapping (message.get "params")).get "threadId").str?

/-- The end of a turn is that of this run's prompt: the prompt has been sent, and the notification names
no other thread, and no other turn than the one that was accepted. -/
def Concerns (before : List Event) (message : Json) : Prop :=
  ∃ (id : ℕ) (params : List (String × Json)),
    Event.wrote (requestMessage id "turn/start" params) ∈ before ∧
    (∀ thread, namedThread message = some thread →
      (Json.obj params).get "threadId" = .str thread) ∧
    ∀ response accepted named, Event.read response ∈ before →
      responseId response = some (id : ℤ) → acceptedTurn response = some accepted →
      namedTurn message = some named → named = accepted

/-- What the messages mean. -/
def protocol : Protocol where
  success := fun before message =>
    Concerns before message ∧ IsNotification message ∧ turnStatus message = some .succeeded
  failure := fun before message =>
    Concerns before message ∧ IsNotification message ∧
      ∃ status, turnStatus message = some status ∧ status ≠ .succeeded
  terminal := fun message => IsNotification message ∧ (turnStatus message).isSome = true
  isAnswer := fun message => message.hasKey "result"
  answers := fun answer request => answer.get "id" = request.get "id"
  allows := fun answer _ => (answer.get "result").get "decision" = .str "accept"

theorem answers (request : Request) : Answers protocol (surface request) where
  answers := fun message decision => by simp [protocol, resultMessage, Json.get, Json.get?]
  allows := fun message decision hallows => by
    have hdecision : ((resultMessage (message.get "id") ((surface request).verdict
        (mapping (message.get "params")) decision)).get "result").get "decision"
        = .str (approvalVerdict decision) := rfl
    have haccept : Json.str (approvalVerdict decision) = .str "accept" := hdecision.symm.trans hallows
    cases decision with
    | allow => rfl
    | deny => simp [approvalVerdict] at haccept
    | escalate => simp [approvalVerdict] at haccept
  refusal := fun id => by simp [protocol, errorMessage, Json.hasKey, Json.get?]
  request := fun id method params => by simp [protocol, requestMessage, Json.hasKey, Json.get?]
  notification := fun method params => by simp [protocol, notification, Json.hasKey, Json.get?]

/-! ## The recorded outcome -/

theorem turnStatus_cases {message : Json} {status : DriverResultStatus}
    (h : turnStatus message = some status) :
    status = .succeeded ∨ status = .failed ∨ status = .interrupted := by
  have houtcome : ∀ method params, turnOutcome method params = .succeeded ∨
      turnOutcome method params = .failed ∨ turnOutcome method params = .interrupted := by
    intro method params
    unfold turnOutcome
    split <;> simp
  unfold turnStatus at h
  simp only at h
  split at h
  · obtain rfl := Option.some.inj h
    exact houtcome _ _
  · obtain rfl := Option.some.inj h
    exact houtcome _ _
  · obtain rfl := Option.some.inj h
    exact houtcome _ _
  · cases h

/-- What the events say of the outcome that is recorded. -/
structure Recorded (events : List Event) (terminal : Option DriverResultStatus) : Prop where
  unended : terminal = none → ¬ Ended protocol events
  succeeded : terminal = some .succeeded → Declared protocol events
  failed : terminal = some .failed → Ended protocol events
  interrupted : terminal = some .interrupted → Ended protocol events
  status : ∀ status, terminal = some status →
    status = .succeeded ∨ status = .failed ∨ status = .interrupted

theorem Recorded.append {events more : List Event} {terminal : Option DriverResultStatus}
    (h : Recorded events terminal)
    (hmore : ∀ message, .read message ∈ more → ¬ protocol.terminal message) :
    Recorded (events ++ more) terminal := by
  refine ⟨fun hnone => ?_, fun hs => (h.succeeded hs).append more,
    fun hs => (h.failed hs).append more, fun hs => (h.interrupted hs).append more, h.status⟩
  rintro ⟨message, hmem, hterminal⟩
  rcases List.mem_append.mp hmem with hold | hnew
  · exact h.unended hnone ⟨message, hold, hterminal⟩
  · exact hmore message hnew hterminal

theorem Recorded.record {events : List Event} {terminal : Option DriverResultStatus}
    (h : Recorded events terminal) {message : Json} {status : DriverResultStatus}
    (hnotification : IsNotification message) (hstatus : turnStatus message = some status)
    (hconcerns : terminal = none → status = .succeeded → Concerns events message) :
    Recorded (events ++ [.read message]) (some (terminal.getD status)) := by
  have hended : Ended protocol (events ++ [.read message]) :=
    ⟨message, by simp, hnotification, by rw [hstatus]; rfl⟩
  cases terminal with
  | some recorded =>
    have hdeclared := fun hs => (h.succeeded hs).append [.read message]
    exact ⟨fun hnone => absurd hnone (by simp), hdeclared, fun _ => hended, fun _ => hended, h.status⟩
  | none =>
    refine ⟨fun hnone => absurd hnone (by simp), fun hs => ?_, fun _ => hended, fun _ => hended, ?_⟩
    · obtain rfl := Option.some.inj hs
      refine ⟨events, message, [], rfl, ⟨hconcerns rfl rfl, hnotification, hstatus⟩, ?_⟩
      -- nothing that ends a turn was read before
      rintro earlier other later rfl ⟨-, hother, status, hfailed, -⟩
      exact h.unended rfl ⟨other, by simp, hother, by rw [hfailed]; rfl⟩
    · intro other hother
      obtain rfl := Option.some.inj hother
      exact turnStatus_cases hstatus

theorem adoptThread_terminal (thread : Json) (data : Data) :
    (adoptThread thread data).terminal = data.terminal := by
  unfold adoptThread
  simp only
  split <;> rfl

theorem handleNotification_terminal {data data' : Data} {message : Json}
    (hstatus : turnStatus message = none) (h : handleNotification data message = some data') :
    data'.terminal = data.terminal := by
  have hitem : ∀ params completed, onItem data params completed = some data' →
      data'.terminal = data.terminal := by
    intro params completed hsome
    unfold onItem at hsome
    simp only at hsome
    split_ifs at hsome
    · split at hsome <;> obtain rfl := Option.some.inj hsome <;> rfl
    · split at hsome <;> obtain rfl := Option.some.inj hsome <;> rfl
  unfold handleNotification at h
  simp only [hstatus] at h
  split at h
  · obtain rfl := Option.some.inj h
    exact adoptThread_terminal _ _
  · exact hitem _ _ h
  · exact hitem _ _ h
  · obtain rfl := Option.some.inj h
    unfold onAgentDelta
    split
    · simp only
      split_ifs <;> rfl
    · rfl
  · obtain rfl := Option.some.inj h
    rfl

theorem turnStatus_of_raised {data : Data} {message : Json} (h : handleNotification data message = none) :
    turnStatus message = none := by
  cases hstatus : turnStatus message with
  | none => rfl
  | some status =>
    simp only [handleNotification, hstatus] at h
    cases h

/-! ## The waits -/

variable {env : Surroundings} {request : Request} {c : Run}

/-- What holds at a wait. -/
def Waits (_target : Target) (c : Run) : Prop := Recorded c.events c.data.terminal

/-- The first success that is read must be of this run's turn. -/
def OwnTurn (c : Run) (line : Line) : Prop :=
  ∀ message, line = .json message → IsNotification message → c.data.terminal = none →
    turnStatus message = some .succeeded → Concerns c.events message

theorem not_terminal_of_request {message : Json} (h : IsRequest message) :
    ¬ protocol.terminal message := fun hterminal => h.2.2 hterminal.1.2.2

theorem not_terminal_of_response {message : Json} {id : ℤ} (h : responseId message = some id) :
    ¬ protocol.terminal message := by
  intro hterminal
  rw [responseId, if_pos hterminal.1.2.1] at h
  cases h

theorem Recorded.read (h : Recorded c.events c.data.terminal) {line : Line} (hown : OwnTurn c line) :
    Recorded (c.read env (surface request) line).events
      (c.read env (surface request) line).data.terminal := by
  have hnote : ∀ message, ¬ protocol.terminal message →
      Recorded (c.events ++ [Event.read message]) c.data.terminal := by
    intro message hnot
    refine h.append fun other hother => ?_
    rw [Event.read.inj (List.mem_singleton.mp hother)]
    exact hnot
  have hquiet : ∀ {events : List Event} {event : Event}, Recorded events c.data.terminal →
      (∀ message, event ≠ .read message) → Recorded (events ++ [event]) c.data.terminal := by
    intro events event hrecorded hevent
    refine hrecorded.append fun other hother => ?_
    exact absurd (List.mem_singleton.mp hother).symm (hevent other)
  have hreads := reads_read env (surface request) c line
  revert hreads
  generalize c.read env (surface request) line = c'
  intro hreads
  cases hreads with
  | quiet reading _ => exact h
  | dropped message _ hnot => exact hnote message fun hterminal => hnot hterminal.1
  | raised message _ _ hraised =>
    refine hnote message fun hterminal => ?_
    have hsome := hterminal.2
    rw [turnStatus_of_raised hraised] at hsome
    cases hsome
  | response message id hrouted _ => exact hnote message (not_terminal_of_response hrouted)
  | orphan message id hrouted _ => exact hnote message (not_terminal_of_response hrouted)
  | notified message data _ hnotification hdata =>
    cases hstatus : turnStatus message with
    | none =>
      show Recorded (c.events ++ [Event.read message]) data.terminal
      rw [handleNotification_terminal hstatus hdata]
      refine hnote message fun hterminal => ?_
      have hsome := hterminal.2
      rw [hstatus] at hsome
      cases hsome
    | some status =>
      have hrecord : data = recordTerminal c.data status := by
        have hsame : handleNotification c.data message = some data := hdata
        simp only [handleNotification, hstatus] at hsame
        exact (Option.some.inj hsame).symm
      rw [hrecord]
      refine h.record hnotification hstatus fun hnone hsuccess => ?_
      rw [hsuccess] at hstatus
      exact hown message rfl hnotification hnone hstatus
  | refused message _ hrequest _ =>
    have hnoted := hnote message (not_terminal_of_request hrequest)
    show Recorded ((c.note message).send env (errorMessage (message.get "id"))).events c.data.terminal
    rcases (c.note message).send_events env (errorMessage (message.get "id")) with heq | heq
    · rw [heq]
      exact hnoted
    · rw [heq]
      exact hquiet hnoted (by simp)
  | permission message question _ hrequest _ =>
    have hnoted := hnote message (not_terminal_of_request hrequest)
    have hdata : ((c.note message).answerPermission env (surface request) message question).data
        = c.data := by
      rw [Conversation.answerPermission]
      split_ifs <;> rfl
    obtain ⟨hevents, -⟩ := answerPermission_spec env (surface request) (c.note message) message question
    rw [hdata]
    rcases hevents with heq | heq
    · rw [heq]
      exact hquiet hnoted (by simp)
    · rw [heq]
      exact hquiet (hquiet hnoted (by simp)) (by simp)

/-- Before a step of the driver: what was recorded, and if an escalation has not been noticed, that the
step ends at a wait. -/
structure Ready (c : Run) : Prop where
  noted : Noted protocol c
  recorded : Recorded c.events c.data.terminal

theorem Ready.send (h : Ready c) (env : Surroundings) {message : Json}
    (hanswer : protocol.isAnswer message = false) : Ready (c.send env message) := by
  refine ⟨h.noted.send env hanswer, ?_⟩
  show Recorded (c.send env message).events c.data.terminal
  rcases c.send_events env message with heq | heq
  · rw [heq]
    exact h.recorded
  · rw [heq]
    refine h.recorded.append fun other hother => ?_
    exact absurd (List.mem_singleton.mp hother) (by simp)

/-- **A call** ends at a wait, or it fails or goes on where nothing was escalated. -/
theorem Ready.call (h : Ready c) (hfree : c.aborted = false ∨ NextWaits env c) {method : String}
    {params : List (String × Json)} {next : Target} {k : Json → Run → Run}
    (hk : ∀ response c', Ready c' → c'.aborted = false → Inv protocol Waits (k response c')) :
    Inv protocol Waits (c.call env method params next k) := by
  have hasking := @Ready.send _ h env (requestMessage (c.nextRequestId + 1) method params)
    (by simp [protocol, requestMessage, Json.hasKey, Json.get?])
  have hnoted : Noted protocol (c.asking env method params) :=
    ⟨hasking.noted.escalated, hasking.noted.answered⟩
  have hrecorded : Recorded (c.asking env method params).events (c.asking env method params).data.terminal :=
    hasking.recorded
  rcases call_cases env c method params next k with ⟨hwrites, heq⟩ |
    ⟨hwrites, response, hbuffered, heq⟩ | ⟨hwrites, hbuffered, heq⟩
  · rw [heq]
    refine hnoted.fail (hfree.resolve_right fun hwaits => ?_)
    rw [hwaits.1] at hwrites
    cases hwrites
  · have haborted : c.aborted = false := hfree.resolve_right fun hwaits => by
      rw [hwaits.2] at hbuffered
      cases hbuffered
    rw [heq]
    split_ifs
    · exact Noted.fail ⟨hnoted.escalated, hnoted.answered⟩ haborted
    · exact hk response _ ⟨⟨hnoted.escalated, hnoted.answered⟩, hrecorded⟩ haborted
  · rw [heq]
    refine ⟨hnoted.escalated, hnoted.answered, ?_, ?_⟩
    · intro status hstatus
      cases hstatus
    · exact fun target _ => hrecorded

theorem inv_afterTurn (h : Ready c) (response : Json) : Inv protocol Waits (afterTurn response c) := by
  refine ⟨h.noted.escalated, h.noted.answered, ?_, fun _ _ => h.recorded⟩
  intro status hstatus
  cases hstatus

theorem inv_runTurn (h : Ready c) (hfree : c.aborted = false ∨ NextWaits env c) :
    Inv protocol Waits (runTurn env request c) :=
  h.call hfree fun response _ hready _ => inv_afterTurn hready response

/-- The thread of a response is accepted. -/
def threadAccepted (request : Request) (response : Json) (c : Run) : Bool :=
  (adoptThread (mapping ((resultOf response).get "thread")) c.data).wireThreadId.isSome &&
    modelMatches request response

theorem inv_afterThread (h : Ready c) {response : Json}
    (hfree : c.aborted = false ∨ threadAccepted request response c = true ∧ NextWaits env c) :
    Inv protocol Waits (afterThread env request response c) := by
  have hready : Ready { c with
      data := adoptThread (mapping ((resultOf response).get "thread")) c.data } := by
    refine ⟨⟨h.noted.escalated, h.noted.answered⟩, ?_⟩
    show Recorded c.events (adoptThread _ c.data).terminal
    rw [adoptThread_terminal]
    exact h.recorded
  rw [afterThread]
  simp only
  split_ifs with haccepted
  · exact inv_runTurn hready (hfree.imp id And.right)
  · refine hready.noted.fail (hfree.resolve_right fun hboth => haccepted ?_)
    exact hboth.1

theorem inv_startThread (h : Ready c) (hfree : c.aborted = false ∨ NextWaits env c) :
    Inv protocol Waits (startThread env request c) := by
  rw [startThread]
  cases given request.resumeSessionId with
  | some resume =>
    exact h.call hfree fun response _ hready haborted => inv_afterThread hready (Or.inl haborted)
  | none =>
    exact h.call hfree fun response _ hready haborted => inv_afterThread hready (Or.inl haborted)

/-- The acknowledgement and the next call both go through. -/
def Acknowledges (env : Surroundings) (c : Run) : Prop :=
  env.writes c.written = true ∧ NextWaits env (c.send env (notification "initialized" []))

theorem inv_afterInitialize (h : Ready c) (hfree : c.aborted = false ∨ Acknowledges env c)
    (response : Json) : Inv protocol Waits (afterInitialize env request response c) := by
  have hready : Ready (c.send env (notification "initialized" [])) :=
    h.send env (by simp [protocol, notification, Json.hasKey, Json.get?])
  rw [afterInitialize]
  split_ifs with hwrites
  · exact inv_startThread hready (hfree.imp id And.right)
  · exact hready.noted.fail (hfree.resolve_right fun hboth => hwrites hboth.1)

theorem inv_start (env : Surroundings) (request : Request) :
    Inv protocol Waits (start env request) := by
  have hready : Ready fresh := by
    refine ⟨⟨?_, answeredOnce_nil⟩, fun _ => ?_, ?_, ?_, ?_, ?_⟩
    · exact iff_of_false (by simp [fresh]) not_escalated_nil
    · rintro ⟨message, hmem, -⟩
      cases hmem
    · exact fun hnone => absurd hnone (by simp [fresh])
    · exact fun hnone => absurd hnone (by simp [fresh])
    · exact fun hnone => absurd hnone (by simp [fresh])
    · exact fun status hnone => absurd hnone (by simp [fresh])
  rw [start, handshake]
  exact hready.call (Or.inl rfl) fun response _ hnext haborted =>
    inv_afterInitialize hnext (Or.inl haborted) response

/-- **The outcome that is recorded is borne out by the events.** -/
theorem Ready.settles (h : Ready c) (haborted : c.aborted = false) :
    Settles protocol (c.data.terminal.getD .failed) c := by
  have hfirst : ¬ EscalatedFirst protocol c.events := by
    intro hfirst
    rw [h.noted.escalated.mpr hfirst.escalated] at haborted
    cases haborted
  cases hterminal : c.data.terminal with
  | none => exact hfirst
  | some status =>
    rcases h.recorded.status status hterminal with rfl | rfl | rfl
    · exact ⟨h.recorded.succeeded hterminal, haborted⟩
    · exact hfirst
    · exact Or.inr ⟨h.recorded.interrupted hterminal, hfirst⟩

theorem inv_afterTerminal (h : Ready c) (haborted : c.aborted = false) :
    Inv protocol Waits (afterTerminal request c) := by
  have hsettles := h.settles haborted
  unfold afterTerminal
  cases hstatus : c.data.terminal.getD .failed with
  | succeeded =>
    rw [hstatus] at hsettles
    simp only
    split_ifs
    · refine ⟨h.noted.escalated, h.noted.answered, ?_, ?_⟩
      · intro status hsettled
        obtain rfl := Option.some.inj hsettled
        exact hsettles
      · intro target htarget
        cases htarget
    · exact h.noted.settle hsettles
  | _ =>
    rw [hstatus] at hsettles
    exact h.noted.settle hsettles

/-! ## The run -/

/-- What was waited for leads to a further wait. -/
def LeadsOn (env : Surroundings) (request : Request) (response : Json) (c : Run) : Target → Prop
  | .initializing => Acknowledges env c
  | .thread => threadAccepted request response c = true ∧ NextWaits env c
  | .turn => True
  | .terminal => False

/-- A driver that resumes with an escalation it has not noticed goes on to a further wait. -/
def GoesOn (env : Surroundings) (request : Request) (c : Run) : Prop :=
  ∀ at_ noticed, c.stage = .waiting at_ → c.resuming = some noticed →
    match target at_ c with
    | none => noticed.2 = false
    | some response => hasError response = false ∧ LeadsOn env request response c at_

/-- A step is fine: a request is not escalated when the outcome is settled, the first success that is
read is of this run's turn, and an escalation that has not been noticed yet will be. -/
def Fine (env : Surroundings) (request : Request) (c : Run) : Tick → Prop
  | .read line => c.reading = true →
      (Escalates env (surface request) c line → ¬ Lost protocol c) ∧ OwnTurn c line
  | .wake _ => Blind c → GoesOn env request c
  | _ => True

/-- **The driver resumes.** -/
theorem inv_resume {at_ : Target} {noticed : Bool × Bool} {expired : Bool}
    (hfine : Fine env request c (.wake expired)) (hstage : c.stage = .waiting at_)
    (hresuming : c.resuming = some noticed) (h : Inv protocol Waits c)
    (hnoticed : noticed.1 = false) :
    Inv protocol Waits (c.resume env (surface request) at_ noticed) := by
  have hready : Ready { c with resuming := none } :=
    ⟨⟨h.escalated, h.answered⟩, h.waits at_ hstage⟩
  have hgoes : c.aborted = true → GoesOn env request c := by
    intro haborted
    refine hfine ⟨haborted, at_, noticed.2, hstage, ?_⟩
    rw [hresuming, ← hnoticed]
  have hfree : ∀ {P : Prop}, (c.aborted = true → P) → c.aborted = false ∨ P := by
    intro P hp
    cases haborted : c.aborted with
    | false => exact Or.inl rfl
    | true => exact Or.inr (hp haborted)
  rw [Conversation.resume, if_neg (by simp [hnoticed])]
  have hsame : (surface request).target at_ { c with resuming := none } = target at_ c := by
    show target at_ { c with resuming := none } = target at_ c
    cases at_ <;> rfl
  rw [hsame]
  obtain htarget | ⟨response, htarget⟩ := Option.eq_none_or_eq_some (target at_ c)
  · have hgo : c.aborted = true → noticed.2 = false := by
      intro haborted
      have hgo := hgoes haborted at_ noticed hstage hresuming
      rw [htarget] at hgo
      exact hgo
    rw [htarget]
    simp only
    split_ifs with hended
    · have haborted : c.aborted = false := (hfree hgo).resolve_right (by simp [hended])
      exact hready.noted.settle (hready.settles haborted)
    · refine ⟨h.escalated, h.answered, ?_, fun other hother => h.waits other hother⟩
      intro status hstatus
      have hsettles := h.settled status hstatus
      cases status <;> exact hsettles
  · have hgo : c.aborted = true →
        hasError response = false ∧ LeadsOn env request response c at_ := by
      intro haborted
      have hgo := hgoes haborted at_ noticed hstage hresuming
      rw [htarget] at hgo
      exact hgo
    rw [htarget]
    simp only
    split_ifs with herror
    · refine hready.noted.fail ((hfree hgo).resolve_right fun hboth => ?_)
      rw [hboth.1] at herror
      cases herror
    · show Inv protocol Waits (proceed env request at_ response { c with resuming := none })
      cases at_ with
      | initializing => exact inv_afterInitialize hready (hfree fun haborted => (hgo haborted).2) response
      | thread => exact inv_afterThread hready (hfree fun haborted => (hgo haborted).2)
      | turn => exact inv_afterTurn hready response
      | terminal => exact inv_afterTerminal hready ((hfree hgo).resolve_right And.right)

theorem drives (env : Surroundings) (request : Request) :
    Drives env (surface request) protocol Waits (Fine env request) where
  answers := answers request
  resuming := fun _ _ _ h => h
  lost := fun _ _ hfine hreading => (hfine hreading).1
  read := fun _ target _ hfine hreading hstage h => (h.waits target hstage).read (hfine hreading).2
  resume := fun _ _ _ _ hfine hstage hresuming h hnoticed =>
    inv_resume hfine hstage hresuming h hnoticed

/-! ## The end -/

/-- How many waits come after this one, at most. -/
def rank : Target → ℕ
  | .initializing => 3
  | .thread => 2
  | .turn => 1
  | .terminal => 0

theorem call_remaining {method : String} {params : List (String × Json)} {next : Target}
    {k : Json → Run → Run} {bound : ℕ} (hbound : 2 * (rank next + 3) + 1 < bound)
    (hk : ∀ response c', remaining rank (k response c') < bound ∧
      (k response c').reading = c'.reading) :
    remaining rank (c.call env method params next k) < bound ∧
      (c.call env method params next k).reading = c.reading := by
  rcases call_cases env c method params next k with ⟨-, heq⟩ | ⟨-, response, -, heq⟩ | ⟨-, -, heq⟩
  · rw [heq, remaining_settle]
    exact ⟨by omega, rfl⟩
  · rw [heq]
    split_ifs
    · rw [remaining_settle]
      exact ⟨by omega, rfl⟩
    · exact hk response _
  · rw [heq]
    refine ⟨?_, rfl⟩
    show 2 * (rank next + 3) + _ < bound
    split_ifs <;> omega

theorem afterTurn_remaining (response : Json) (c : Run) :
    remaining rank (afterTurn response c) < 8 ∧ (afterTurn response c).reading = c.reading := by
  refine ⟨?_, rfl⟩
  show 2 * (0 + 3) + _ < 8
  split_ifs <;> omega

theorem runTurn_remaining (c : Run) : remaining rank (runTurn env request c) < 10 ∧
    (runTurn env request c).reading = c.reading := by
  refine call_remaining (by decide) fun response c' => ?_
  obtain ⟨hless, hreading⟩ := afterTurn_remaining response c'
  exact ⟨by omega, hreading⟩

theorem afterThread_remaining (response : Json) (c : Run) :
    remaining rank (afterThread env request response c) < 10 ∧
      (afterThread env request response c).reading = c.reading := by
  rw [afterThread]
  simp only
  split_ifs
  · exact runTurn_remaining _
  · exact ⟨by rw [remaining_settle]; omega, rfl⟩

theorem startThread_remaining (c : Run) : remaining rank (startThread env request c) < 12 ∧
    (startThread env request c).reading = c.reading := by
  rw [startThread]
  cases given request.resumeSessionId with
  | none =>
    refine call_remaining (by decide) fun response c' => ?_
    obtain ⟨hless, hreading⟩ := @afterThread_remaining env request response c'
    exact ⟨by omega, hreading⟩
  | some resume =>
    refine call_remaining (by decide) fun response c' => ?_
    obtain ⟨hless, hreading⟩ := @afterThread_remaining env request response c'
    exact ⟨by omega, hreading⟩

theorem forward (env : Surroundings) (request : Request) :
    Forward env (surface request) rank := by
  have hboth : ∀ target response (c : Run),
      remaining rank (proceed env request target response c) < 2 * (rank target + 3) ∧
        (proceed env request target response c).reading = c.reading := by
    intro target response c
    cases target with
    | initializing =>
      rw [proceed, afterInitialize]
      split_ifs
      · exact startThread_remaining _
      · exact ⟨by rw [remaining_settle]; decide, rfl⟩
    | thread => exact afterThread_remaining response c
    | turn => exact afterTurn_remaining response c
    | terminal =>
      rw [proceed]
      unfold afterTerminal
      cases c.data.terminal.getD .failed with
      | succeeded =>
        simp only
        split_ifs
        · refine ⟨?_, rfl⟩
          show 4 < 6
          omega
        · exact ⟨by rw [remaining_settle]; decide, rfl⟩
      | _ => exact ⟨by simp only [remaining_settle]; decide, rfl⟩
  exact ⟨fun target response c => (hboth target response c).1,
    fun target response c => (hboth target response c).2⟩

/-- **One honest outcome of every app-server run whose steps are fine.** -/
theorem oneOutcome (env : Surroundings) (request : Request) {ticks : List Tick}
    (hfine : ∀ before t later, ticks = before ++ t :: later →
      Fine env request (after env request before) t) :
    OneOutcome protocol (fun ticks => (after env request ticks).events)
      (fun ticks => result (after env request ticks)) ending ticks :=
  (inv_start env request).oneOutcome (drives env request) (forward env request)
    (fun _ _ hstatus => hstatus) (fun _ => rfl) hfine

/-- A request to run the app server with. -/
def plainRequest : Request := ⟨"/work", "do it", none, none, false⟩

/-- An agent that never answers, and says that a turn is complete. -/
def strayTicks : List Tick :=
  [.read (.json (.obj [("method", .str "turn/completed"),
      ("params", .obj [("turn", .obj [("id", .str "t"), ("status", .str "completed")])])])),
    .read .closed, .schedule, .wake false, .wake false]

/-- A policy that allows everything, and an stdin that takes everything. -/
def permissive : Surroundings := ⟨fun _ _ _ => some .allow, fun _ => true⟩

end AppServer
end Drivers
end RepoMesh
