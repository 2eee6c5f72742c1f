/-
# The assignment package as the Bridge reads it

`RepositoryAssignmentPackage.from_wire` and the records inside it, with what their readers refuse.
-/
import RepoMesh.Execution.UuidText

namespace RepoMesh
namespace Bridge
namespace Leader

open Execution (Uuid uuidOf)
open Text

/-! ## Schema primitives -/

/-- What a reader returns, or the message of its `LeaderDocumentInvalid`. -/
abbrev Read (α : Type) : Type := Except String α

/-- `_mapping`. -/
def mapping (payload : Json) (document : String) : Read Json :=
  if payload.isObj then .ok payload else .error (document ++ " must be a JSON object")

/-- The names of the fields. -/
def fieldNames : Json → List String
  | .obj entries => entries.map (·.1)
  | _ => []

/-- `sorted(set(names) - set(others))`. -/
def sortedNew (names others : List String) : List String :=
  (names.filter (· ∉ others)).dedup.insertionSort (· ≤ ·)

/-- `_fields`. -/
def fields (payload : Json) (document : String) (required optional : List String) : Read Unit :=
  let missing := sortedNew required (fieldNames payload)
  let unknown := sortedNew (fieldNames payload) (required ++ optional)
  if missing ≠ [] then .error (document ++ " is missing required fields: " ++ join ", " missing)
  else if unknown ≠ [] then .error (document ++ " carries unknown fields: " ++ join ", " unknown)
  else .ok ()

/-- `_const`. -/
def const (payload : Json) (key expected document : String) : Read Unit :=
  if (payload.get key).str? = some expected then .ok ()
  else .error (document ++ "." ++ key ++ " must be '" ++ expected ++ "'")

/-- `_string`, without a pattern. -/
def string (payload : Json) (key document : String) (minimum maximum : ℕ) : Read String :=
  match payload.get key with
  | .str value =>
    if minimum ≤ value.length ∧ value.length ≤ maximum then .ok value
    else .error (document ++ "." ++ key ++ " must be " ++ toString minimum ++ ".." ++
      toString maximum ++ " characters")
  | _ => .error (document ++ "." ++ key ++ " must be a string")

/-- A reader of a field that may be missing or `None`. -/
def optional {α : Type} (payload : Json) (key : String) (read : Read α) : Read (Option α) :=
  match payload.get key with
  | .null => .ok none
  | _ => read.map some

/-- `_uuid`. -/
def uuid (payload : Json) (key document : String) : Read Uuid :=
  match payload.get key with
  | .str value =>
    match uuidOf value with
    | some id => .ok id
    | none => .error (document ++ "." ++ key ++ " is not a uuid")
  | _ => .error (document ++ "." ++ key ++ " must be a string")

def MAX_NAME : ℕ := 100
def MAX_TEXT : ℕ := 200000
def MAX_TITLE : ℕ := 200

/-- `_enum`. -/
def enum (payload : Json) (key document : String) (allowed : List String) : Read String := do
  let value ← string payload key document 1 MAX_NAME
  if value ∈ allowed then .ok value
  else .error (document ++ "." ++ key ++ " must be one of " ++ join ", " allowed)

/-- `_array`. -/
def array (payload : Json) (key document : String) (minimumItems : ℕ) : Read (List Json) :=
  match payload.get key with
  | .arr items =>
    if items.length < minimumItems then
      .error (document ++ "." ++ key ++ " must hold at least " ++ toString minimumItems ++ " item(s)")
    else .ok items
  | _ => .error (document ++ "." ++ key ++ " must be an array")

/-- `_string_array`. -/
def stringArray (payload : Json) (key document : String) (minimumItems : ℕ) : Read (List String) := do
  let items ← array payload key document minimumItems
  items.mapM fun item =>
    match item.str?.filter (· ≠ "") with
    | some value => .ok value
    | none => .error (document ++ "." ++ key ++ " holds something that is not a non-empty string")

/-- `_integer`. -/
def integer (payload : Json) (key document : String) (minimum : Option ℤ) : Read ℤ :=
  match payload.get key with
  | .int value =>
    if minimum.any fun m => value < m then
      .error (document ++ "." ++ key ++ " must be at least " ++ toString (minimum.getD 0))
    else .ok value
  | _ => .error (document ++ "." ++ key ++ " must be an integer")

/-- The items of an array, each read under its own place in the document. -/
def each {α : Type} (items : List Json) (document : String) (read : Json → String → Read α) :
    Read (List α) :=
  items.zipIdx.mapM fun item => read item.1 (document ++ "[" ++ toString item.2 ++ "]")

/-! ## The records -/

/-- `RepositoryTaskFacts`. -/
structure RepositoryTaskFacts where
  title : String
  instruction : String
  acceptance : String

def RepositoryTaskFacts.fromWire (payload : Json) (document : String) : Read RepositoryTaskFacts := do
  let body ← mapping payload document
  fields body document ["title", "instruction", "acceptance"] []
  let title ← string body "title" document 1 MAX_TITLE
  let instruction ← string body "instruction" document 1 MAX_TEXT
  let acceptance ← string body "acceptance" document 0 MAX_TEXT
  .ok { title, instruction, acceptance }

/-- `WorkerRosterEntry`. -/
structure WorkerRosterEntry where
  workerAgentId : Uuid
  workerName : String
  responsibilityPaths : List String

def WorkerRosterEntry.fromWire (payload : Json) (document : String) : Read WorkerRosterEntry := do
  let body ← mapping payload document
  fields body document ["workerAgentId", "workerName", "responsibilityPaths"] []
  let workerAgentId ← uuid body "workerAgentId" document
  let workerName ← string body "workerName" document 1 MAX_NAME
  let responsibilityPaths ← stringArray body "responsibilityPaths" document 0
  .ok { workerAgentId, workerName, responsibilityPaths }

/-- `SafetyEnvelope`: the server-derived hard bounds a plan is validated against. -/
structure SafetyEnvelope where
  allowedPathRoots : List String
  testPaths : List String
  testCommands : List String

def SafetyEnvelope.fromWire (payload : Json) (document : String) : Read SafetyEnvelope := do
  let body ← mapping payload document
  fields body document ["allowedPathRoots", "testPaths", "testCommands"] []
  let allowedPathRoots ← stringArray body "allowedPathRoots" document 1
  let testPaths ← stringArray body "testPaths" document 0
  let testCommands ← stringArray body "testCommands" document 0
  .ok { allowedPathRoots, testPaths, testCommands }

/-- `DependencyEdge`. -/
structure DependencyEdge where
  upstreamRepositoryId : Uuid
  downstreamRepositoryId : Uuid

def DependencyEdge.fromWire (payload : Json) (document : String) : Read DependencyEdge := do
  let body ← mapping payload document
  fields body document ["upstreamRepositoryId", "downstreamRepositoryId"] []
  let upstreamRepositoryId ← uuid body "upstreamRepositoryId" document
  let downstreamRepositoryId ← uuid body "downstreamRepositoryId" document
  .ok { upstreamRepositoryId, downstreamRepositoryId }

/-- `AdvisoryContext`: everything the server offers that the leader is free to ignore. -/
structure AdvisoryContext where
  discoveryEvidence : Option String
  dependencyEdges : List DependencyEdge
  decompositionHint : Option String

def AdvisoryContext.fromWire (payload : Json) (document : String) : Read AdvisoryContext := do
  let body ← mapping payload document
  fields body document ["authoritative"] ["discoveryEvidence", "dependencyEdges", "decompositionHint"]
  match body.get "authoritative" with
  | .bool false =>
    let edges ← optional body "dependencyEdges" (array body "dependencyEdges" document 0)
    let dependencyEdges ← each (edges.getD []) (document ++ ".dependencyEdges") DependencyEdge.fromWire
    let discoveryEvidence ← optional body "discoveryEvidence"
      (string body "discoveryEvidence" document 1 MAX_TEXT)
    let decompositionHint ← optional body "decompositionHint"
      (string body "decompositionHint" document 1 MAX_TEXT)
    .ok { discoveryEvidence, dependencyEdges, decompositionHint }
  | _ => .error (document ++ ".authoritative must be the boolean false")

/-- `TestResult`. -/
structure TestResult where
  command : String
  exitCode : ℤ

def TestResult.fromWire (payload : Json) (document : String) : Read TestResult := do
  let body ← mapping payload document
  fields body document ["command", "exitCode"] []
  let command ← string body "command" document 1 MAX_TEXT
  let exitCode ← integer body "exitCode" document none
  .ok { command, exitCode }

/-- `WorkerEvidence`. -/
structure WorkerEvidence where
  workerTaskId : Uuid
  workerAgentId : Uuid
  status : String
  runId : Option Uuid
  commitSha : Option String
  changedFiles : List String
  testResults : List TestResult
  diffStat : Option String
  summary : Option String

def WORKER_EVIDENCE_STATUSES : List String :=
  ["succeeded", "failed", "blocked", "cancelled", "superseded"]

/-- `_LEADER_COMMIT_SHA`; `$` matches before a last line break too. -/
def isCommitSha (value : String) : Bool :=
  let text := if value.toList.getLast? = some '\n' then value.toList.dropLast else value.toList
  7 ≤ text.length && text.length ≤ 40 && text.all isHexDigit

/-- The commit of the evidence. -/
def leaderCommitSha (payload : Json) (document : String) : Read String := do
  let value ← string payload "commitSha" document 7 40
  if isCommitSha value then .ok value else .error (document ++ ".commitSha is not a commit sha")

def WorkerEvidence.fromWire (payload : Json) (document : String) : Read WorkerEvidence := do
  let body ← mapping payload document
  fields body document
    ["workerTaskId", "workerAgentId", "status", "runId", "commitSha", "changedFiles", "testResults"]
    ["diffStat", "summary"]
  let workerTaskId ← uuid body "workerTaskId" document
  let workerAgentId ← uuid body "workerAgentId" document
  let status ← enum body "status" document WORKER_EVIDENCE_STATUSES
  let runId ← optional body "runId" (uuid body "runId" document)
  let commitSha ← optional body "commitSha" (leaderCommitSha body document)
  let changedFiles ← stringArray body "changedFiles" document 0
  let results ← array body "testResults" document 0
  let testResults ← each results (document ++ ".testResults") TestResult.fromWire
  let diffStat ← optional body "diffStat" (string body "diffStat" document 1 MAX_TEXT)
  let summary ← optional body "summary" (string body "summary" document 1 MAX_TEXT)
  .ok { workerTaskId, workerAgentId, status, runId, commitSha, changedFiles, testResults, diffStat,
        summary }

/-- `ReviewEvidence`. -/
structure ReviewEvidence where
  reviewRevision : ℤ
  workerEvidence : List WorkerEvidence

def ReviewEvidence.fromWire (payload : Json) (document : String) : Read ReviewEvidence := do
  let body ← mapping payload document
  fields body document ["reviewRevision", "workerEvidence"] []
  let reviewRevision ← integer body "reviewRevision" document (some 1)
  let items ← array body "workerEvidence" document 1
  let workerEvidence ← each items (document ++ ".workerEvidence") WorkerEvidence.fromWire
  .ok { reviewRevision, workerEvidence }

def ASSIGNMENT_PHASES : List String := ["planning", "executing", "review_due", "closed"]

/-- The phases whose packages carry evidence. -/
def expectsEvidence (phase : String) : Bool := phase == "review_due" || phase == "closed"

/-- `RepositoryAssignmentPackage`: everything the server gives a leader. -/
structure RepositoryAssignmentPackage where
  leaderTaskId : Uuid
  phase : String
  organizationId : Uuid
  projectId : Uuid
  repositoryId : Uuid
  repositoryTask : RepositoryTaskFacts
  workerRoster : List WorkerRosterEntry
  safetyEnvelope : SafetyEnvelope
  advisoryContext : AdvisoryContext
  reviewEvidence : Option ReviewEvidence
  phase_known : phase ∈ ASSIGNMENT_PHASES
  evidence_coupled : expectsEvidence phase = reviewEvidence.isSome

/-- `RepositoryAssignmentPackage.from_wire`. -/
def RepositoryAssignmentPackage.fromWire (payload : Json) : Read RepositoryAssignmentPackage := do
  let document := "assignmentPackage"
  let body ← mapping payload document
  fields body document
    ["schemaVersion", "leaderTaskId", "phase", "organizationId", "projectId", "repositoryId",
      "repositoryTask", "workerRoster", "safetyEnvelope", "advisoryContext", "reviewEvidence"] []
  const body "schemaVersion" "repomesh.leader-actions.assignment-package.v1" document
  let leaderTaskId ← uuid body "leaderTaskId" document
  let phase ← enum body "phase" document ASSIGNMENT_PHASES
  let organizationId ← uuid body "organizationId" document
  let projectId ← uuid body "projectId" document
  let repositoryId ← uuid body "repositoryId" document
  let repositoryTask ← RepositoryTaskFacts.fromWire (body.get "repositoryTask")
    (document ++ ".repositoryTask")
  let entries ← array body "workerRoster" document 1
  let workerRoster ← each entries (document ++ ".workerRoster") WorkerRosterEntry.fromWire
  let safetyEnvelope ← SafetyEnvelope.fromWire (body.get "safetyEnvelope")
    (document ++ ".safetyEnvelope")
  let advisoryContext ← AdvisoryContext.fromWire (body.get "advisoryContext")
    (document ++ ".advisoryContext")
  let reviewEvidence ← optional body "reviewEvidence"
    (ReviewEvidence.fromWire (body.get "reviewEvidence") (document ++ ".reviewEvidence"))
  if hphase : phase ∈ ASSIGNMENT_PHASES then
    if hevidence : expectsEvidence phase = reviewEvidence.isSome then
      .ok { leaderTaskId, phase, organizationId, projectId, repositoryId, repositoryTask, workerRoster
            safetyEnvelope, advisoryContext, reviewEvidence
            phase_known := hphase, evidence_coupled := hevidence }
    else if expectsEvidence phase then
      .error ("a " ++ phase ++ " package must carry review evidence")
    else .error ("a " ++ phase ++ " package must not carry review evidence")
  else .error ("phase must be one of " ++ join ", " ASSIGNMENT_PHASES)

end Leader
end Bridge
end RepoMesh
