/-
# The app-server driver

`initialize`, the notification `initialized`, `thread/start` or `thread/resume`, and `turn/start`,
whose response only accepts the turn. The turn ends with a `turn/completed`, `turn/failed` or
`turn/aborted` notification; the first of them that is read is recorded.
-/
import RepoMesh.Drivers.Rpc

namespace RepoMesh
namespace Drivers
namespace AppServer

open Execution (PermissionDecision)
open Text

/-- `DriverRequest` and `AppServerConfig`, as far as the driver reads them. -/
structure Request where
  workspace : String
  prompt : String
  model : Option String
  resumeSessionId : Option String
  /-- `quiescence_seconds > 0`. -/
  quiescence : Bool

/-- A text that is there and is not empty. -/
def given (text : Option String) : Option String := text.filter (· ≠ "")

/-- What the driver waits for: three responses, and the end of the turn. -/
inductive Target where
  | initializing | thread | turn | terminal
  deriving DecidableEq

/-- What the handlers of notifications and the handshake keep. -/
structure Data where
  deltas : List (String × List String)
  messages : List (String × String)
  terminal : Option DriverResultStatus
  toolCallCount : ℕ
  wireThreadId : Option String
  nativeSessionId : Option String
  transcriptPath : Option String

/-- `_AppServerRun`. -/
abbrev Run : Type := Conversation Data Target

/-! ## The agent's messages -/

/-- A text with something in it. -/
def nonBlank (value : Json) : Option String := value.str?.filter fun text => !isBlank text

/-- `_adopt_thread`: the first path and the first id are kept. -/
def adoptThread (thread : Json) (data : Data) : Data :=
  let data := { data with
    transcriptPath := data.transcriptPath.or ((nonBlank (thread.get "path")).map strip) }
  match nonBlank (thread.get "id"), data.wireThreadId with
  | some threadId, none =>
    { data with
      wireThreadId := some threadId, nativeSessionId := sanitizeSessionId (.str threadId) }
  | _, _ => data

/-- `_item_id`. -/
def itemId (item params : Json) : String :=
  let id := textOrEmpty (item.get "id")
  if id = "" then textOrEmpty (params.get "itemId") else id

/-- `_item_text`. -/
def itemText (item : Json) : String :=
  match item.get "text" with
  | .str text => text
  | _ => extractText (item.get "content")

/-- The text that was streamed for an item. -/
def streamed (data : Data) (id : String) : String :=
  String.join (((data.deltas.find? fun d => d.1 = id).map (·.2)).getD [])

/-- `_on_agent_message`. -/
def onAgentMessage (data : Data) (item : Json) (id : String) : Data :=
  let text := if itemText item = "" then streamed data id else itemText item
  { data with
    deltas := data.deltas.filter fun d => d.1 ≠ id
    messages := data.messages ++ [(textOrEmpty (item.get "phase"), text)] }

/-- `_on_item`. The kind of an item is looked up in a set, so it must be hashable. -/
def onItem (data : Data) (params : Json) (completed : Bool) : Option Data :=
  let item := mapping (params.get "item")
  if (item.get "type").hashable then
    match item.get "type" with
    | .str "commandExecution" =>
      some (if completed then data else { data with toolCallCount := data.toolCallCount + 1 })
    | .str "fileChange" =>
      some (if completed then data else { data with toolCallCount := data.toolCallCount + 1 })
    | .str "agentMessage" =>
      some (if completed then onAgentMessage data item (itemId item params) else data)
    | _ => some data
  else none

/-- `_on_agent_delta`. -/
def onAgentDelta (data : Data) (params : Json) : Data :=
  match params.get "delta" with
  | .str delta =>
    let id := textOrEmpty (params.get "itemId")
    if delta = "" then data
    else if data.deltas.any fun d => d.1 = id then
      { data with deltas := data.deltas.map fun d => if d.1 = id then (id, d.2 ++ [delta]) else d }
    else { data with deltas := data.deltas ++ [(id, [delta])] }
  | _ => data

/-- The error of a turn. -/
def turnError (params : Json) : Json :=
  match (mapping (params.get "turn")).get "error" with
  | .null => params.get "error"
  | error => error

/-- The outcome of `_on_turn_terminal`. -/
def turnOutcome (method : String) (params : Json) : DriverResultStatus :=
  match method, (mapping (params.get "turn")).get "status", turnError params with
  | "turn/completed", .str "completed", .null => .succeeded
  | "turn/aborted", _, _ => .interrupted
  | _, _, _ => .failed

/-- The outcome that a message declares, if it ends a turn. -/
def turnStatus (message : Json) : Option DriverResultStatus :=
  let params := mapping (message.get "params")
  match message.get "method" with
  | .str "turn/completed" => some (turnOutcome "turn/completed" params)
  | .str "turn/failed" => some (turnOutcome "turn/failed" params)
  | .str "turn/aborted" => some (turnOutcome "turn/aborted" params)
  | _ => none

/-- `_record_terminal`. -/
def recordTerminal (data : Data) (status : DriverResultStatus) : Data :=
  { data with terminal := some (data.terminal.getD status) }

/-- `_handle_notification`. The others are only observed. -/
def handleNotification (data : Data) (message : Json) : Option Data :=
  let params := mapping (message.get "params")
  match turnStatus message with
  | some status => some (recordTerminal data status)
  | none =>
    match message.get "method" with
    | .str "thread/started" => some (adoptThread (mapping (params.get "thread")) data)
    | .str "item/started" => onItem data params false
    | .str "item/completed" => onItem data params true
    | .str "item/agentMessage/delta" => some (onAgentDelta data params)
    | _ => some data

/-- `_is_approval_method`. -/
def isApprovalMethod (method : String) : Bool :=
  ["approval", "permission"].any fun hint => decide (hint.toList <:+: (lower method).toList)

/-- `_approval_tool_name`. -/
def approvalToolName (method : String) (params item : Json) : String :=
  match nonBlank (item.get "type") with
  | some itemType => itemType
  | none =>
    if params.hasKey "command" then "commandExecution"
    else if params.hasKey "changes" || params.hasKey "fileChange" then "fileChange"
    else method

/-- The question of an approval request. -/
def question (message : Json) : Option (String × Json) :=
  match message.get "method" with
  | .str method =>
    if isApprovalMethod method then
      let params := mapping (message.get "params")
      let item := mapping (params.get "item")
      some (approvalToolName method params item, item.or params)
    else none
  | _ => none

/-- `APPROVAL_VERDICTS`. -/
def approvalVerdict : PermissionDecision → String
  | .allow => "accept"
  | .deny => "decline"
  | .escalate => "cancel"

/-- The result that answers an approval request. -/
def verdict (_params : Json) (decision : PermissionDecision) : Json :=
  .obj [("decision", .str (approvalVerdict decision))]

/-! ## The turn -/

variable (env : Surroundings) (request : Request)

/-- `_result_of`. -/
def resultOf (response : Json) : Json := mapping (response.get "result")

/-- What follows the end of the turn. -/
def afterTerminal (c : Run) : Run :=
  match c.data.terminal.getD .failed with
  | .succeeded =>
    if request.quiescence then { c with stage := .quiescing } else c.settle .succeeded
  | status => c.settle status

/-- What `_run_turn` makes of the response: the turn is accepted, and its end is waited for. -/
def afterTurn (_response : Json) (c : Run) : Run := { c with stage := .waiting .terminal }

/-- The thread that goes on the wire. -/
def wireThread (c : Run) : Json := (c.data.wireThreadId.map Json.str).getD .null

/-- `_run_turn`. -/
def runTurn (c : Run) : Run :=
  c.call env "turn/start"
    [("threadId", wireThread c),
      ("input", .arr [.obj [("type", .str "text"), ("text", .str request.prompt)]])] .turn afterTurn

/-- `_verify_model`: a thread that reports another model is refused. -/
def modelMatches (response : Json) : Bool :=
  match given request.model, given ((resultOf response).get "model").str? with
  | some requested, some reported => reported = requested
  | _, _ => true

/-- What `_start_thread` makes of the response. -/
def afterThread (response : Json) (c : Run) : Run :=
  let c := { c with data := adoptThread (mapping ((resultOf response).get "thread")) c.data }
  if c.data.wireThreadId.isSome && modelMatches request response then runTurn env request c
  else c.settle .failed

/-- The model, as a parameter of `_start_thread`. -/
def modelParam : List (String × Json) :=
  match given request.model with
  | some model => [("model", .str model)]
  | none => []

/-- `_start_thread`. -/
def startThread (c : Run) : Run :=
  match given request.resumeSessionId with
  | some resume =>
    c.call env "thread/resume"
      (("cwd", .str request.workspace) :: modelParam request ++ [("threadId", .str resume)]) .thread
      (afterThread env request)
  | none =>
    c.call env "thread/start" (("cwd", .str request.workspace) :: modelParam request) .thread
      (afterThread env request)

/-- What `_handshake` makes of the response: it is acknowledged. -/
def afterInitialize (_response : Json) (c : Run) : Run :=
  if env.writes c.written then startThread env request (c.send env (notification "initialized" []))
  else (c.send env (notification "initialized" [])).settle .failed

/-- `_handshake`. -/
def handshake (c : Run) : Run :=
  c.call env "initialize"
    [("clientInfo", .obj [("name", .str "repomesh-runner"), ("version", .str "0.1.0")])]
    .initializing (afterInitialize env request)

/-- What a wait is for, when it has come. -/
def target (target : Target) (c : Run) : Option Json :=
  match target with
  | .terminal => if c.data.terminal.isSome then some .null else none
  | _ => c.response

/-- What the driver does with it, up to its next wait. -/
def proceed (target : Target) (response : Json) (c : Run) : Run :=
  match target with
  | .initializing => afterInitialize env request response c
  | .thread => afterThread env request response c
  | .turn => afterTurn response c
  | .terminal => afterTerminal request c

/-- The app-server driver. When the stream has ended, an outcome that was recorded is reported. -/
def surface : Surface Data Target where
  question := question
  verdict := verdict
  notified := handleNotification
  target := target
  proceed := fun env => proceed env request
  streamEnded := fun data => data.terminal.getD .failed

/-- `_AppServerRun.__init__`. -/
def fresh : Run where
  data := ⟨[], [], none, 0, none, none, none⟩
  nextRequestId := 0
  pending := none
  response := none
  orphans := []
  reading := true
  aborted := false
  resuming := none
  stage := .waiting .initializing
  asked := 0
  written := 0
  events := []

/-- `run`, up to its first wait. -/
def start : Run := handshake env request fresh

/-- `run` after some ticks. -/
def after (ticks : List Tick) : Run := run env (surface request) (start env request) ticks

/-- `_select_deliverable`: the last message that is an answer, or else the last one. -/
def selectDeliverable (messages : List (String × String)) : String :=
  let written := messages.reverse.filter fun m => !isBlank m.2
  strip ((((written.find? fun m => m.1 ≠ "commentary").or written.head?).map (·.2)).getD "")

/-- `_build_result`. -/
def buildResult (c : Run) (status : DriverResultStatus) : DriverResult where
  status := status
  summary := if status = .succeeded then selectDeliverable c.data.messages else ""
  nativeSessionId := c.data.nativeSessionId
  transcriptPath := c.data.transcriptPath
  toolCallCount := c.data.toolCallCount
  summary_eq := fun h => if_neg h

/-- The result of a run that has returned. -/
def result (c : Run) : Option DriverResult := c.result buildResult

end AppServer
end Drivers
end RepoMesh
