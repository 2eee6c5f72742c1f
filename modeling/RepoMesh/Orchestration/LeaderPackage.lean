/-
# The assignment package on the wire

`RepositoryAssignmentPackage.to_wire`: what a leader is given, assembled from the assignment record and
the leader task row.
-/
import RepoMesh.Orchestration.Contracts

namespace RepoMesh
namespace Orchestration

open Text
open Delivery (UUID uuidStr)

/-- The repository-level task as the Organization Manager assigned it. -/
structure RepositoryTaskFactsView where
  title : String
  instruction : String
  acceptance : String
  deriving DecidableEq

/-- Discovery's cross-repository fact: downstream depends on upstream. -/
structure RepositoryDependencyEdge where
  upstreamRepositoryId : UUID
  downstreamRepositoryId : UUID
  deriving DecidableEq

/-- `RepositoryAssignmentPackage`. -/
structure RepositoryAssignmentPackage where
  assignment : LeaderAssignmentView
  repositoryTask : RepositoryTaskFactsView
  advisoryDependencyEdges : List RepositoryDependencyEdge := []
  advisoryDiscoveryEvidence : Option String := none
  advisoryDecompositionHint : Option String := none

def WIRE_TITLE_LIMIT : ℕ := 200

def WIRE_WORKER_NAME_LIMIT : ℕ := 100

/-- `list(values)` of strings. -/
def stringsWire (values : List String) : Json := .arr (values.map .str)

/-- `str(id)`. -/
def uuidWire (id : UUID) : Json := .str (uuidStr id)

/-- An optional value; `None` is `null`. -/
def optionalWire {α : Type} (wire : α → Json) (value : Option α) : Json := (value.map wire).getD .null

/-- A field that is left out where its text is missing or empty. -/
def toldField (key : String) (text : Option String) : List (String × Json) :=
  match text.filter (· ≠ "") with
  | some s => [(key, .str s)]
  | none => []

/-- The evidence of one worker. -/
def WorkerEvidenceView.toWire (item : WorkerEvidenceView) : Json :=
  .obj
    ([("workerTaskId", uuidWire item.workerTaskId),
      ("workerAgentId", uuidWire item.workerAgentId),
      ("status", .str item.status.value),
      ("runId", optionalWire uuidWire item.runId),
      ("commitSha", optionalWire .str item.commitSha),
      ("changedFiles", stringsWire item.changedFiles),
      ("testResults", .arr (item.testResults.map fun result =>
        .obj [("command", .str result.command), ("exitCode", .int result.exitCode)]))] ++
      toldField "diffStat" item.diffStat ++ toldField "summary" item.summary)

/-- `_review_evidence_wire`. -/
def LeaderReviewEvidenceView.toWire (evidence : LeaderReviewEvidenceView) : Json :=
  .obj
    [("reviewRevision", .int evidence.reviewRevision),
      ("workerEvidence", .arr (evidence.workerEvidence.map WorkerEvidenceView.toWire))]

/-- One worker of the roster. -/
def WorkerRosterEntryView.toWire (entry : WorkerRosterEntryView) : Json :=
  .obj
    [("workerAgentId", uuidWire entry.workerAgentId),
      ("workerName", .str (truncate WIRE_WORKER_NAME_LIMIT entry.workerName)),
      ("responsibilityPaths", stringsWire entry.responsibilityPaths)]

/-- The safety envelope. -/
def LeaderSafetyEnvelopeView.toWire (envelope : LeaderSafetyEnvelopeView) : Json :=
  .obj
    [("allowedPathRoots", stringsWire envelope.allowedPathRoots),
      ("testPaths", stringsWire envelope.testPaths),
      ("testCommands", stringsWire envelope.testCommands)]

namespace RepositoryAssignmentPackage

/-- Everything the server offers as a hint. -/
def advisoryWire (package : RepositoryAssignmentPackage) : Json :=
  .obj
    ([("authoritative", .bool false)] ++
      toldField "discoveryEvidence" package.advisoryDiscoveryEvidence ++
      (if package.advisoryDependencyEdges = [] then []
        else [("dependencyEdges", .arr (package.advisoryDependencyEdges.map fun edge =>
          .obj [("upstreamRepositoryId", uuidWire edge.upstreamRepositoryId),
            ("downstreamRepositoryId", uuidWire edge.downstreamRepositoryId)]))]) ++
      toldField "decompositionHint" package.advisoryDecompositionHint)

/-- The document, with the review evidence as it is shown. -/
def document (package : RepositoryAssignmentPackage) (evidence : Json) : Json :=
  let assignment := package.assignment
  .obj
    [("schemaVersion", .str "repomesh.leader-actions.assignment-package.v1"),
      ("leaderTaskId", uuidWire assignment.leaderTaskId),
      ("phase", .str assignment.phase.value),
      ("organizationId", uuidWire assignment.organizationId),
      ("projectId", uuidWire assignment.projectId),
      ("repositoryId", uuidWire assignment.repositoryId),
      ("repositoryTask", .obj
        [("title", .str (truncate WIRE_TITLE_LIMIT package.repositoryTask.title)),
          ("instruction", .str package.repositoryTask.instruction),
          ("acceptance", .str package.repositoryTask.acceptance)]),
      ("workerRoster", .arr (assignment.workerRoster.map WorkerRosterEntryView.toWire)),
      ("safetyEnvelope", assignment.safetyEnvelope.toWire),
      ("advisoryContext", package.advisoryWire),
      ("reviewEvidence", evidence)]

/-- `to_wire`: the evidence is shown from review on, and has to be there then. -/
def toWire (package : RepositoryAssignmentPackage) : Except Raised Json :=
  if package.assignment.phase = .reviewDue ∨ package.assignment.phase = .closed then
    match package.assignment.reviewEvidence with
    | some evidence => .ok (package.document evidence.toWire)
    | none => .error (.leaderActionRefused .phaseConflict
        "this assignment is in a review phase but carries no evidence package")
  else .ok (package.document .null)

end RepositoryAssignmentPackage

end Orchestration
end RepoMesh
