/-
# The drivers of agent conversations

What the three protocol drivers share: the result of a run, the lines of an agent's stdout, what the
driver meets outside (the permission policy, an stdin that may refuse a write), and the events of a
conversation in the order they happen.
-/
import RepoMesh.Execution.PermissionPolicy
import RepoMesh.Foundation.JsonValues

namespace RepoMesh
namespace Drivers

open Execution (PermissionDecision)
open Text

/-- `DriverResultStatus`. -/
inductive DriverResultStatus where
  | succeeded | failed | interrupted | inputRequired | timeout
  deriving DecidableEq

/-- `DriverResult`. Its `__post_init__` refuses a summary of a run that did not succeed. -/
structure DriverResult where
  status : DriverResultStatus
  summary : String
  nativeSessionId : Option String
  transcriptPath : Option String
  toolCallCount : ℕ
  summary_eq : status ≠ .succeeded → summary = ""

def MAX_SESSION_ID_LENGTH : ℕ := 512

/-- `sanitize_session_id`. -/
def sanitizeSessionId (value : Json) : Option String :=
  match value with
  | .str s =>
    let candidate := strip s
    if candidate.isEmpty || MAX_SESSION_ID_LENGTH < candidate.length then none
    else if startsWith candidate "-" then none
    else if candidate.toList.any fun c => c.toNat < 32 || c.toNat = 127 then none
    else some candidate
  | _ => none

/-- `_mapping` and `_as_mapping`. -/
def mapping (value : Json) : Json := if value.isObj then value else .obj []

/-- `_text_or_empty`. -/
def textOrEmpty (value : Json) : String := value.str?.getD ""

/-- What is read of stdout: a line without text, a line that is not JSON, a line on which `json.loads`
raises something else than a `JSONDecodeError`, a JSON value, or the end of the stream. -/
inductive Line where
  | blank | notJson | fatal
  | json (value : Json)
  | closed

/-- What a driver meets outside. The policy answers its `n`th question, or raises; the `n`th write to
stdin goes through, or raises. -/
structure Surroundings where
  decide : ℕ → String → Json → Option PermissionDecision
  writes : ℕ → Bool

/-- What happens in a conversation. -/
inductive Event where
  /-- The driver reads a JSON value. -/
  | read (message : Json)
  /-- The driver writes a message. -/
  | wrote (message : Json)
  /-- The policy is asked about a permission request, and decides or raises. -/
  | decided (request : Json) (decision : Option PermissionDecision)
  /-- The run is cancelled. -/
  | cancelled
  /-- The watchdog fires. -/
  | timedOut

mutual

/-- `_extract_text`. -/
def extractText : Json → String
  | .str s => s
  | .obj fields => textOrEmpty ((Json.obj fields).get "text")
  | .arr items => extractTexts items
  | _ => ""

/-- `"".join(_extract_text(block) for block in content)`. -/
def extractTexts : List Json → String
  | [] => ""
  | item :: items => extractText item ++ extractTexts items

end

end Drivers
end RepoMesh
