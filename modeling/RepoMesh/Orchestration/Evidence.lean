/-
# Runner evidence

Reading structured Runner evidence out of a task's free-text summary, and the database gate
decided on it.
-/
import RepoMesh.Orchestration.Contracts

namespace RepoMesh
namespace Orchestration

open Text

variable [Codecs]

/-! ## Parsing -/

/-- `_parse_blockers`. -/
def parseBlockers (raw : Json) : List String :=
  match raw with
  | .arr items => items.filterMap fun item =>
      match item with
      | .str s => if isBlank s then none else some s
      | _ => none
  | _ => []

/-- One entry of `_parse_test_results`; a malformed one is dropped. -/
def parseTestResult (entry : Json) : Option TaskTestResultView :=
  if entry.isObj then
    let commandValue := (entry.get "command").or (.str "")
    let command := strip (pyStr commandValue)
    match (entry.get "exitCode").int? with
    | some exitCode =>
      if command = "" ∨ (entry.get "exitCode").isBool then none
      else
        let summary := (((entry.get "stderr").or (entry.get "stdout")).or
          (entry.get "summary")).or (.str "")
        some { command, exitCode, summary := pyStr summary }
    | none => none
  else none

/-- `_parse_test_results`. -/
def parseTestResults (raw : Json) : List TaskTestResultView :=
  match raw with
  | .arr items => items.filterMap parseTestResult
  | _ => []

/-- One entry of `databaseChange.checks`. -/
def parseDatabaseCheck (entry : Json) : Option TaskTestResultView :=
  match (entry.get "name").str?, (entry.get "exitCode").int? with
  | some name, some exitCode =>
    if entry.isObj then
      some { command := name, exitCode, summary := pyStr ((entry.get "summary").or (.str "")) }
    else none
  | _, _ => none

/-- The items `for item in document.get(key, ())` goes through: those of a list, the
characters of a string, the keys of a dictionary. -/
def iterated (document : Json) (key : String) : List Json :=
  match document.get key with
  | .arr items => items
  | .str s => s.toList.map fun c => .str (String.singleton c)
  | .obj fields => fields.map fun f => .str f.1
  | _ => []

/-- The `databaseChange` part of a Runner document. -/
def parseDatabaseChange (document : Json) : Option DatabaseChangeEvidence :=
  if document.isObj then
    some
      { migrationFiles := (iterated document "migrationFiles").map pyStr
        backfillFiles := (iterated document "backfillFiles").map pyStr
        affectedTables := (iterated document "affectedTables").map pyStr
        checks := (iterated document "checks").filterMap parseDatabaseCheck }
  else none

/-- `str(value) if value else None`. -/
def textIfTruthy (value : Json) : Option String :=
  if value.truthy then some (pyStr value) else none

/-- The evidence a Runner document carries. -/
def evidenceOfDocument (document : Json) : TaskEvidenceView :=
  { commitSha := match document.get "commitSha" with
      | .str s => if isBlank s then none else some s
      | _ => none
    runId := if (document.get "runId").truthy then
        Codecs.uuidOfText (pyStr (document.get "runId")) else none
    changedFiles := match document.get "changedFiles" with
      | .arr items => items.map pyStr
      | _ => []
    baseSha := textIfTruthy (document.get "baseSha")
    workspacePath := textIfTruthy (document.get "workspacePath")
    summaryText := (document.get "summary").str?
    blockers := parseBlockers (document.get "blockers")
    testCommand := (document.get "testCommand").str?
    testResults := parseTestResults (document.get "testResults")
    artifactCount := match document.get "artifacts" with
      | .arr items => items.length
      | _ => 0
    databaseChange := parseDatabaseChange (document.get "databaseChange") }

/-- `_parse_evidence`: a dictionary with the key `commitSha` is the Runner's document. -/
def parseEvidence (resultSummary : Option String) : Option TaskEvidenceView :=
  match resultSummary with
  | none => none
  | some text =>
    if text = "" then none
    else
      match Codecs.jsonLoads text with
      | none => none
      | some document =>
        if document.isObj && document.hasKey "commitSha" then some (evidenceOfDocument document)
        else none

/-! ## The database gate -/

/-- What the database gate decides about a reported result. -/
inductive DatabaseAutomationDisposition where
  | notRequired | managerReview | workerRework | requestValidation
  deriving DecidableEq

/-- `DatabaseValidationIntent`. -/
structure DatabaseValidationIntent where
  taskId : String
  organizationId : String
  projectId : String
  repositoryId : String
  candidateSha : String
  migrationFiles : List String
  backfillFiles : List String
  checks : List String
  idempotencyKey : String
  deriving DecidableEq

/-- `DatabaseAutomationDecision`. -/
structure DatabaseAutomationDecision where
  disposition : DatabaseAutomationDisposition
  reasons : List String := []
  intent : Option DatabaseValidationIntent := none
  deriving DecidableEq

/-- `should_block` of `TaskOrchestrator.report`. -/
def DatabaseAutomationDecision.blocks (decision : DatabaseAutomationDecision) : Bool :=
  decision.disposition = .workerRework ∨
    (decision.disposition = .managerReview ∧
      decision.reasons ≠ ["database_impact_not_declared"])

/-- `DATABASE_PATH_MARKERS`. -/
def databasePathMarkers : List String := ["migrations/", "alembic/", "db/migrate/", "schema/"]

/-- `marker in text`. -/
def containsText (text marker : String) : Bool :=
  text.toList.tails.any fun t => marker.toList.isPrefixOf t

/-- `text.endswith(suffix)`. -/
def endsWithText (text suffix : String) : Bool := suffix.toList.isSuffixOf text.toList

/-- A changed path that looks like a database change. -/
def isDatabasePath (path : String) : Bool :=
  endsWithText (lower path) ".sql" ||
    databasePathMarkers.any fun marker =>
      containsText (String.ofList ((lower path).toList.map fun c => if c = '\\' then '/' else c))
        marker

end Orchestration
end RepoMesh
