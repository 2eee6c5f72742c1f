/-
# The stream-json driver

One JSON object per line of stdout. The prompt is a frame on stdin or an argument, permission requests
are answered on stdin, and a `result` frame ends the run.
-/
import RepoMesh.Drivers.Outcome

namespace RepoMesh
namespace Drivers
namespace StreamJson

open Execution (PermissionDecision)
open Text

/-- `str(value)` of a JSON value that is not a string. -/
class PyStr where
  jsonRepr : Json → String

/-- `DriverRequest` and `StreamJsonConfig`, as far as the driver reads them. -/
structure Request where
  prompt : String
  resumeSessionId : Option String
  promptViaStdin : Bool

/-- Where a run stands: it reads stdout, it waits for the exit of the process after the end of stdout,
it has returned, or it has raised. -/
inductive Stage where
  | reading | exiting
  | returned (result : DriverResult)
  | raised

/-- `_Run`. -/
structure Run where
  sessionId : Option String
  transcriptPath : Option String
  toolCallCount : ℕ
  candidateSummary : String
  /-- The numbers of the next question to the policy and of the next write. -/
  asked : ℕ
  written : ℕ
  events : List Event
  stage : Stage

/-- `str(value or "")`. -/
def strOr [PyStr] (value : Json) : String :=
  match value.or (.str "") with
  | .str s => s
  | other => PyStr.jsonRepr other

/-- `_as_blocks`. -/
def asBlocks (value : Json) : List Json := (value.list?.getD []).filter Json.isObj

/-- The frame of `write_prompt`. -/
def promptFrame (prompt : String) : Json :=
  .obj [("type", .str "user"), ("message", .obj [("role", .str "user"),
    ("content", .arr [.obj [("type", .str "text"), ("text", .str prompt)]])])]

/-- The answer to a permission request. -/
def controlResponse (requestId response : Json) : Json :=
  .obj [("type", .str "control_response"), ("response", .obj [("subtype", .str "success"),
    ("request_id", requestId), ("response", response)])]

/-- What is answered to a request that was not escalated. -/
def verdict (toolInput : Json) : PermissionDecision → Json
  | .allow => .obj [("behavior", .str "allow"), ("updatedInput", toolInput)]
  | _ => .obj [("behavior", .str "deny"), ("message", .str "denied by RepoMesh policy")]

/-- `result`. -/
def Run.result (c : Run) (status : DriverResultStatus) (summary : String) : DriverResult where
  status := status
  summary := if status = .succeeded then summary else ""
  nativeSessionId := c.sessionId
  transcriptPath := c.transcriptPath
  toolCallCount := c.toolCallCount
  summary_eq := fun h => if_neg h

/-- The run returns with a status. -/
def Run.finish (c : Run) (status : DriverResultStatus) (summary : String) : Run :=
  { c with stage := .returned (c.result status summary) }

/-- `_on_system`. -/
def onSystem (c : Run) (event : Json) : Run :=
  let path := ["transcript_path", "transcript"].findSome? fun key =>
    (event.get key).str?.filter fun value => !isBlank value
  let c := { c with transcriptPath := (path.map strip).or c.transcriptPath }
  match sanitizeSessionId (event.get "session_id"), c.sessionId with
  | some sessionId, none => { c with sessionId := some sessionId }
  | _, _ => c

/-- The texts of an assistant turn, and its tool calls. -/
def turnTexts (blocks : List Json) : List String :=
  blocks.filterMap fun block =>
    if (block.get "type").str? = some "text" then
      ((block.get "text").str?.filter fun text => !isBlank text).map strip
    else none

def toolCalls (blocks : List Json) : ℕ :=
  blocks.countP fun block => (block.get "type").str? = some "tool_use"

/-- `_on_assistant`: only a turn that ends without tool calls can stand in as the deliverable. -/
def onAssistant (c : Run) (event : Json) : Run :=
  let blocks := asBlocks ((mapping (event.get "message")).get "content")
  let texts := turnTexts blocks
  { c with
    toolCallCount := c.toolCallCount + toolCalls blocks
    candidateSummary :=
      if texts ≠ [] ∧ toolCalls blocks = 0 then join "\n" texts else c.candidateSummary }

/-- `_on_control_request`. A policy that raises escalates, and a write that fails raises. -/
def onControlRequest [PyStr] (env : Surroundings) (c : Run) (event : Json) : Run :=
  let payload := mapping (event.get "request")
  if (payload.get "subtype").str? = some "can_use_tool" then
    let toolInput := mapping (payload.get "input")
    let answer := env.decide c.asked (strOr (payload.get "tool_name")) toolInput
    let decision := answer.getD .escalate
    let asked := { c with asked := c.asked + 1, events := c.events ++ [Event.decided event answer] }
    if decision = .escalate then asked.finish .inputRequired ""
    else if env.writes c.written then
      { asked with
        written := c.written + 1
        events := asked.events ++
          [Event.wrote (controlResponse (event.get "request_id") (verdict toolInput decision))] }
    else { asked with written := c.written + 1, stage := .raised }
  else c

/-- `_echoes_unopened_resume`. -/
def echoesUnopenedResume (request : Request) (c : Run) (sessionId : String) : Bool :=
  c.sessionId.isNone &&
    ((request.resumeSessionId.bind fun s => sanitizeSessionId (.str s)) == some sessionId)

/-- `event.get("is_error") is False`. -/
def isFalse : Json → Bool
  | .bool false => true
  | _ => false

/-- The session id that a result frame names is taken, unless it only echoes the resume id. -/
def takeSession (request : Request) (c : Run) (event : Json) : Run :=
  match sanitizeSessionId (event.get "session_id") with
  | some sessionId =>
    if isFalse (event.get "is_error") || !echoesUnopenedResume request c sessionId then
      { c with sessionId := some sessionId }
    else c
  | none => c

/-- `_on_result`. -/
def onResult (request : Request) (c : Run) (event : Json) : Run :=
  let c := takeSession request c event
  let text := strip (textOrEmpty (event.get "result"))
  if !event.hasKey "is_error" then c.finish .failed ""
  else if (event.get "is_error").truthy then c.finish .failed ""
  else c.finish .succeeded (if text = "" then c.candidateSummary else text)

/-- `_consume` of a JSON value. -/
def consume [PyStr] (env : Surroundings) (request : Request) (c : Run) (event : Json) : Run :=
  let c := { c with events := c.events ++ [Event.read event] }
  if event.isObj then
    match (event.get "type").str? with
    | some "system" => onSystem c event
    | some "assistant" => onAssistant c event
    | some "control_request" => onControlRequest env c event
    | some "result" => onResult request c event
    | _ => c
  else c

/-- What happens next: a line or the end of the stream is read, the read fails, or times out, the wait
for the exit of the process is over, or the run is cancelled. After the end of the stream the watchdog
is looked at. -/
inductive Tick where
  | read (line : Line) (expired : Bool)
  | broken | timeout | exited | cancel

/-- `timed_out`. -/
def Run.timedOut (c : Run) : Run :=
  { c with events := c.events ++ [Event.timedOut] }.finish .timeout ""

/-- `interrupted`. -/
def Run.interrupted (c : Run) : Run :=
  { c with events := c.events ++ [Event.cancelled] }.finish .interrupted ""

/-- A line, or the end of the stream, is read. -/
def Run.read [PyStr] (env : Surroundings) (request : Request) (c : Run) (line : Line)
    (expired : Bool) : Run :=
  match line with
  | .blank => c
  | .notJson => c
  | .fatal => { c with stage := .raised }
  | .json event => consume env request c event
  | .closed => if expired then c.timedOut else { c with stage := .exiting }

/-- `read_until_terminal`, step by step. -/
def tick [PyStr] (env : Surroundings) (request : Request) (c : Run) (t : Tick) : Run :=
  match c.stage, t with
  | .reading, .read line expired => c.read env request line expired
  | .reading, .broken => { c with stage := .raised }
  | .reading, .timeout => c.timedOut
  | .reading, .cancel => c.interrupted
  | .exiting, .exited => c.finish .failed ""
  | .exiting, .cancel => c.interrupted
  | _, _ => c

/-- A run begins with its prompt: an argument, or a frame on stdin. -/
def start (env : Surroundings) (request : Request) : Run where
  sessionId := none
  transcriptPath := none
  toolCallCount := 0
  candidateSummary := ""
  asked := 0
  written := if request.promptViaStdin then 1 else 0
  events := if request.promptViaStdin && env.writes 0 then [.wrote (promptFrame request.prompt)] else []
  stage := .reading

/-- The run after some ticks. -/
def after [PyStr] (env : Surroundings) (request : Request) (ticks : List Tick) : Run :=
  ticks.foldl (tick env request) (start env request)

/-- What has been returned. -/
def returned (c : Run) : Option DriverResult :=
  match c.stage with
  | .returned result => some result
  | _ => none

end StreamJson
end Drivers
end RepoMesh
