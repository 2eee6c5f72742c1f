/-
# The ACP driver

`initialize`, `session/new` or `session/resume`, an optional `session/set_model`, and `session/prompt`,
whose response ends the turn. After a success the driver gives trailing updates a moment and shuts
the process down.
-/
import RepoMesh.Drivers.Rpc

namespace RepoMesh
namespace Drivers
namespace Acp

open Execution (PermissionDecision)
open Text

/-- `DriverRequest` and `AcpConfig`, as far as the driver reads them. -/
structure Request where
  workspace : String
  prompt : String
  model : Option String
  resumeSessionId : Option String
  protocolVersion : ℤ
  /-- `quiescence_seconds > 0`. -/
  quiescence : Bool

/-- A text that is there and is not empty. -/
def given (text : Option String) : Option String := text.filter (· ≠ "")

/-- The responses that the driver waits for. -/
inductive Target where
  | initializing | session | model | prompt
  deriving DecidableEq

/-- What the handlers of `session/update` and the handshake keep. -/
structure Data where
  fullText : List String
  deliverable : List String
  toolCallCount : ℕ
  wireSessionId : Option String
  nativeSessionId : Option String

/-- `_AcpRun`. -/
abbrev Run : Type := Conversation Data Target

/-! ## The agent's messages -/

/-- `_tool_name`. -/
def toolName (payload : Json) : String :=
  (["title", "kind", "toolName"].findSome? fun key =>
    (payload.get key).str?.filter fun value => !isBlank value).getD "unknown"

/-- `_on_message_chunk`. -/
def onMessageChunk (data : Data) (update : Json) : Data :=
  let text := extractText (update.get "content")
  if text = "" then data
  else { data with fullText := data.fullText ++ [text], deliverable := data.deliverable ++ [text] }

/-- `_on_tool_call`: the text before a tool call is narration. -/
def onToolCall (data : Data) : Data :=
  { data with toolCallCount := data.toolCallCount + 1, deliverable := [] }

/-- `_handle_notification`. The other updates are only observed. -/
def handleNotification (data : Data) (message : Json) : Option Data :=
  let update := mapping ((mapping (message.get "params")).get "update")
  match message.get "method", update.get "sessionUpdate" with
  | .str "session/update", .str "agent_message_chunk" => some (onMessageChunk data update)
  | .str "session/update", .str "tool_call" => some (onToolCall data)
  | _, _ => some data

/-- The question of a `session/request_permission`. -/
def question (message : Json) : Option (String × Json) :=
  match message.get "method" with
  | .str "session/request_permission" =>
    let toolCall := mapping ((mapping (message.get "params")).get "toolCall")
    some (toolName toolCall, mapping (toolCall.get "rawInput"))
  | _ => none

/-- `option.get("kind")`, if it is a text that starts with `start`. -/
def kindStarts (start : String) (option : Json) : Bool :=
  ((option.get "kind").str?.map fun kind => startsWith kind start).getD false

/-- `_select_option`. -/
def selectOption (options : Json) (preferredKind kindStart : String) : Option String :=
  let candidates := (options.list?.getD []).filter Json.isObj
  let id := fun option : Json => (option.get "optionId").str?
  ((candidates.filter fun o => (o.get "kind").str? = some preferredKind).findSome? id).or
    ((candidates.filter (kindStarts kindStart)).findSome? id)

/-- The option that a decision selects. -/
def optionFor (params : Json) : PermissionDecision → Option String
  | .allow => selectOption (params.get "options") "allow_once" "allow"
  | .deny => selectOption (params.get "options") "reject_once" "reject"
  | .escalate => none

/-- The result that answers a permission request. -/
def verdict (params : Json) (decision : PermissionDecision) : Json :=
  .obj [("outcome", match optionFor params decision with
    | none => .obj [("outcome", .str "cancelled")]
    | some optionId => .obj [("outcome", .str "selected"), ("optionId", .str optionId)])]

/-! ## The turn -/

variable (env : Surroundings) (request : Request)

/-- `_result_of`. -/
def resultOf (response : Json) : Json := mapping (response.get "result")

/-- `stopReason` is the one of a success. -/
def isEndTurn (response : Json) : Bool :=
  ((resultOf response).get "stopReason").str? = some "end_turn"

/-- What `_run_prompt` makes of the response. -/
def afterPrompt (response : Json) (c : Run) : Run :=
  if isEndTurn response then
    if request.quiescence then { c with stage := .quiescing } else c.settle .succeeded
  else c.settle .failed

/-- The session that goes on the wire. -/
def wireSession (c : Run) : Json := (c.data.wireSessionId.map Json.str).getD .null

/-- `_run_prompt`. -/
def runPrompt (c : Run) : Run :=
  c.call env "session/prompt"
    [("sessionId", wireSession c),
      ("prompt", .arr [.obj [("type", .str "text"), ("text", .str request.prompt)]])]
    .prompt (afterPrompt request)

/-- What `_select_model` makes of the response. -/
def afterModel (_response : Json) (c : Run) : Run := runPrompt env request c

/-- `_select_model`. -/
def selectModel (c : Run) : Run :=
  match given request.model with
  | some model =>
    c.call env "session/set_model" [("sessionId", wireSession c), ("modelId", .str model)] .model
      (afterModel env request)
  | none => runPrompt env request c

/-- `_adopt_session`. -/
def adoptSession (value : String) (c : Run) : Run :=
  { c with data := { c.data with
      wireSessionId := some value, nativeSessionId := sanitizeSessionId (.str value) } }

/-- The session id that a response reports. -/
def reported (response : Json) : Option String :=
  ((resultOf response).get "sessionId").str?.filter fun value => !isBlank value

/-- The session of the run: a resumed one keeps its id unless another is reported. -/
def sessionOf (response : Json) : Option String :=
  (reported response).or (given request.resumeSessionId)

/-- What `_start_session` makes of the response. -/
def afterSession (response : Json) (c : Run) : Run :=
  match sessionOf request response with
  | some session => selectModel env request (adoptSession session c)
  | none => c.settle .failed

/-- `_start_session`. -/
def startSession (c : Run) : Run :=
  match given request.resumeSessionId with
  | some resume =>
    c.call env "session/resume"
      [("cwd", .str request.workspace), ("sessionId", .str resume), ("mcpServers", .arr [])] .session
      (afterSession env request)
  | none =>
    c.call env "session/new" [("cwd", .str request.workspace), ("mcpServers", .arr [])] .session
      (afterSession env request)

/-- What `_handshake` makes of the response. -/
def afterInitialize (_response : Json) (c : Run) : Run := startSession env request c

/-- `_handshake`. -/
def handshake (c : Run) : Run :=
  c.call env "initialize"
    [("protocolVersion", .int request.protocolVersion),
      ("clientInfo", .obj [("name", .str "repomesh-runner"), ("version", .str "0.1.0")]),
      ("clientCapabilities", .obj [])] .initializing (afterInitialize env request)

/-- What the driver does with a response, up to its next wait. -/
def proceed (target : Target) (response : Json) (c : Run) : Run :=
  match target with
  | .initializing => afterInitialize env request response c
  | .session => afterSession env request response c
  | .model => afterModel env request response c
  | .prompt => afterPrompt request response c

/-- The ACP driver. -/
def surface : Surface Data Target where
  question := question
  verdict := verdict
  notified := handleNotification
  target := fun _ c => c.response
  proceed := fun env => proceed env request
  streamEnded := fun _ => .failed

/-- `_AcpRun.__init__`. -/
def fresh : Run where
  data := ⟨[], [], 0, none, none⟩
  nextRequestId := 0
  pending := none
  response := none
  orphans := []
  reading := true
  aborted := false
  resuming := none
  stage := .waiting .initializing
  asked := 0
  written := 0
  events := []

/-- `run`, up to its first wait. -/
def start : Run := handshake env request fresh

/-- `run` after some ticks. -/
def after (ticks : List Tick) : Run := run env (surface request) (start env request) ticks

/-- `_build_result`, after `_promote_provider_error`. `detectProviderError` says whether a text reads
like a failure of the provider, and `stderr` is the tail of the process's stderr. -/
def buildResult (detectProviderError : String → Bool) (stderr : String) (c : Run)
    (status : DriverResultStatus) : DriverResult :=
  let promoted := status = .succeeded ∧
    (detectProviderError stderr = true ∨ detectProviderError (String.join c.data.fullText) = true)
  let final : DriverResultStatus := if promoted then .failed else status
  { status := final
    summary := if final = .succeeded then strip (String.join c.data.deliverable) else ""
    nativeSessionId := c.data.nativeSessionId
    transcriptPath := none
    toolCallCount := c.data.toolCallCount
    summary_eq := fun h => if_neg h }

/-- The result of a run that has returned. -/
def result (detectProviderError : String → Bool) (stderr : String) (c : Run) : Option DriverResult :=
  c.result (buildResult detectProviderError stderr)

end Acp
end Drivers
end RepoMesh
