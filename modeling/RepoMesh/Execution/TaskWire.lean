/-
# The task on the wire

`RunnerTask` with all its fields, the document `to_wire` makes of it, and `parse_runner_task`. The
parser reads back every task that can be built, from the document or from its JSON text, so that a
payload it accepts means the same after it is encoded again.
-/
import RepoMesh.Execution.Contracts
import RepoMesh.Execution.UuidText
import RepoMesh.Foundation.IsoTime
import Mathlib.Data.Fintype.Basic

namespace RepoMesh
namespace Execution
namespace Wire

open Text

def RUNTIME_SCHEMA_VERSION : String := "runtime.v1"

/-! ## The records -/

/-- `RepositoryCheckout`. -/
structure RepositoryCheckout where
  repositoryId : Uuid
  url : String
  baseRevision : String
  url_nonblank : isBlank url = false
  baseRevision_nonblank : isBlank baseRevision = false

/-- `_validate_sha256`: a `sha256:` reference in lower-case hexadecimal. -/
def isSha256Reference (value : String) : Bool :=
  "sha256:".toList.isPrefixOf value.toList &&
    (value.toList.drop 7).length == 64 && (value.toList.drop 7).all isHexDigit

/-- `ContextBundleRef`. -/
structure ContextBundleRef where
  bundleId : Uuid
  version : ℤ
  manifestUri : String
  contentHash : String
  codingPackageHash : Option String
  version_positive : 1 ≤ version
  manifestUri_nonblank : isBlank manifestUri = false
  contentHash_valid : isSha256Reference contentHash = true
  codingPackageHash_valid : codingPackageHash.all isSha256Reference = true

/-- `RunnerTask`. -/
structure RunnerTask where
  organizationId : Uuid
  projectId : Uuid
  taskId : Uuid
  runId : Uuid
  correlationId : Uuid
  attempt : ℤ
  adapterId : String
  instruction : String
  repository : RepositoryCheckout
  contextBundle : ContextBundleRef
  permissions : RunnerPermissions
  idempotencyKey : String
  issuedAt : DateTime
  resumeSessionId : Option String
  credentialRefs : List String
  workspace : Option WorkspaceAssignment
  workerAgentId : Option Uuid
  testCommands : List String
  assignmentAttemptId : Option Uuid
  assignmentGeneration : Option ℤ
  executionId : Option Uuid
  executionVersion : Option ℤ
  attempt_positive : 1 ≤ attempt
  adapterId_nonblank : isBlank adapterId = false
  instruction_nonblank : isBlank instruction = false
  idempotencyKey_nonblank : isBlank idempotencyKey = false
  issuedAt_aware : issuedAt.moment.offset.isSome = true
  credentialRefs_unique : uniqueStrings credentialRefs = true
  testCommands_unique : uniqueStrings testCommands = true

/-! ## Writing -/

/-- A list of strings. -/
def strings (values : List String) : Json := .arr (values.map .str)

/-- An optional value; `None` is `null`. -/
def optional {α : Type} (wire : α → Json) (value : Option α) : Json := (value.map wire).getD .null

/-- `str(id)`. -/
def uuid (id : Uuid) : Json := .str id.str

/-- The repository part of `to_wire`. -/
def RepositoryCheckout.toWire (repository : RepositoryCheckout) : Json :=
  .obj
    [("repositoryId", uuid repository.repositoryId), ("url", .str repository.url),
      ("baseRevision", .str repository.baseRevision)]

/-- The context bundle part of `to_wire`. -/
def ContextBundleRef.toWire (bundle : ContextBundleRef) : Json :=
  .obj
    [("bundleId", uuid bundle.bundleId), ("version", .int bundle.version),
      ("manifestUri", .str bundle.manifestUri), ("contentHash", .str bundle.contentHash),
      ("codingPackageHash", optional .str bundle.codingPackageHash)]

/-- The permissions part of `to_wire`. -/
def permissionsToWire (permissions : RunnerPermissions) : Json :=
  .obj
    [("mode", .str permissions.mode.value), ("allowedTools", strings permissions.allowedTools),
      ("disallowedTools", strings permissions.disallowedTools),
      ("networkTargets", strings permissions.networkTargets),
      ("allowedPaths", strings permissions.allowedPaths),
      ("deniedPaths", strings permissions.deniedPaths)]

/-- `RunnerTask.to_wire`. -/
def RunnerTask.toWire (task : RunnerTask) : Json :=
  .obj
    [("schemaVersion", .str RUNTIME_SCHEMA_VERSION),
      ("organizationId", uuid task.organizationId),
      ("projectId", uuid task.projectId),
      ("taskId", uuid task.taskId),
      ("runId", uuid task.runId),
      ("correlationId", uuid task.correlationId),
      ("attempt", .int task.attempt),
      ("adapterId", .str task.adapterId),
      ("instruction", .str task.instruction),
      ("repository", task.repository.toWire),
      ("workspace", optional WorkspaceAssignment.toWire task.workspace),
      ("contextBundle", task.contextBundle.toWire),
      ("permissions", permissionsToWire task.permissions),
      ("resumeSessionId", optional .str task.resumeSessionId),
      ("credentialRefs", strings task.credentialRefs),
      ("workerAgentId", optional uuid task.workerAgentId),
      ("testCommands", strings task.testCommands),
      ("assignmentAttemptId", optional uuid task.assignmentAttemptId),
      ("assignmentGeneration", optional .int task.assignmentGeneration),
      ("executionId", optional uuid task.executionId),
      ("executionVersion", optional .int task.executionVersion),
      ("idempotencyKey", .str task.idempotencyKey),
      ("issuedAt", .str (String.ofList (IsoTime.isoformat task.issuedAt)))]

/-! ## Reading -/

/-- `WireError`: the message is the text, after the path of the field; two of them quote the value
they got. -/
inductive WireError where
  | notAnObject
  | schemaVersion (got : Json)
  | unknownMode (got : Json)
  | field (path text : String)

abbrev Read (α : Type) : Type := Except WireError α

/-- A value that must be there. -/
def required (payload : Json) (key path : String) : Read Json :=
  match payload.get key with
  | .null => .error (.field path "is required")
  | value => .ok value

/-- `_object_field`. -/
def objectField (payload : Json) (key path : String) : Read Json := do
  let value ← required payload key path
  if value.isObj then .ok value else .error (.field path "must be an object")

/-- `_string_field`. -/
def stringField (payload : Json) (key path : String) : Read String := do
  match ← required payload key path with
  | .str s => .ok s
  | _ => .error (.field path "must be a string")

/-- `_optional_string`. -/
def optionalString (payload : Json) (key path : String) : Read (Option String) :=
  match payload.get key with
  | .null => .ok none
  | .str s => .ok (some s)
  | _ => .error (.field path "must be a string or null")

/-- `_int_field`. -/
def intField (payload : Json) (key path : String) : Read ℤ := do
  match ← required payload key path with
  | .int n => .ok n
  | _ => .error (.field path "must be an integer")

/-- `_optional_int`. -/
def optionalInt (payload : Json) (key path : String) : Read (Option ℤ) :=
  match payload.get key with
  | .null => .ok none
  | .int n => .ok (some n)
  | _ => .error (.field path "must be an integer or null")

/-- `_parse_uuid`. -/
def parseUuid (text path : String) : Read Uuid :=
  match uuidOf text with
  | some id => .ok id
  | none => .error (.field path "must be a UUID")

/-- `_uuid_field`. -/
def uuidField (payload : Json) (key path : String) : Read Uuid := do
  parseUuid (← stringField payload key path) path

/-- `_optional_uuid`. -/
def optionalUuid (payload : Json) (key path : String) : Read (Option Uuid) := do
  match ← optionalString payload key path with
  | none => .ok none
  | some text => (parseUuid text path).map some

/-- `_datetime_field`. -/
def datetimeField (payload : Json) (key path : String) : Read DateTime := do
  match IsoTime.fromisoformat (← stringField payload key path).toList with
  | some d => .ok d
  | none => .error (.field path "must be an ISO-8601 timestamp")

/-- The items of `_string_tuple`, from a position on. -/
def stringItems (path : String) : ℕ → List Json → Read (List String)
  | _, [] => .ok []
  | i, .str s :: items => (stringItems path (i + 1) items).map (s :: ·)
  | i, _ :: _ => .error (.field (path ++ "[" ++ toString i ++ "]") "must be a string")

/-- `_string_tuple`. -/
def stringTuple (payload : Json) (key path : String) : Read (List String) :=
  match payload.get key with
  | .null => .ok []
  | .arr items => stringItems path 0 items
  | _ => .error (.field path "must be an array of strings")

/-- `_build`, for one check of a constructor: a `ValueError` of it names the record. -/
def check (record text : String) (p : Prop) [Decidable p] : Read (PLift p) :=
  if h : p then .ok ⟨h⟩ else .error (.field (record ++ ":") text)

/-- `_validate_unique_strings`. -/
def checkUnique (record name : String) (values : List String) :
    Read (PLift (uniqueStrings values = true)) :=
  if h : uniqueStrings values = true then .ok ⟨h⟩
  else .error (.field (record ++ ":")
    (name ++ if values.any isBlank then " cannot contain empty values"
      else " must contain unique values"))

/-- `_validate_sha256`. -/
def checkSha256 (record value : String) : Read (PLift (isSha256Reference value = true)) :=
  if h : isSha256Reference value = true then .ok ⟨h⟩
  else .error (.field (record ++ ":")
    (if "sha256:".toList.isPrefixOf value.toList && (value.toList.drop 7).length == 64 then
      "content_hash must use lowercase hexadecimal"
    else "content_hash must be a sha256 reference"))

/-- `_parse_repository`. -/
def parseRepository (payload : Json) : Read RepositoryCheckout := do
  let repositoryId ← uuidField payload "repositoryId" "repository.repositoryId"
  let url ← stringField payload "url" "repository.url"
  let baseRevision ← stringField payload "baseRevision" "repository.baseRevision"
  let ⟨h₁⟩ ← check "repository" "repository url is required" (isBlank url = false)
  let ⟨h₂⟩ ← check "repository" "base_revision is required" (isBlank baseRevision = false)
  .ok ⟨repositoryId, url, baseRevision, h₁, h₂⟩

/-- The check of an optional hash. -/
def checkOptionalSha256 (record : String) : (value : Option String) →
    Read (PLift (value.all isSha256Reference = true))
  | none => .ok ⟨rfl⟩
  | some value => (checkSha256 record value).map fun h => ⟨h.down⟩

/-- `_parse_context_bundle`. -/
def parseContextBundle (payload : Json) : Read ContextBundleRef := do
  let bundleId ← uuidField payload "bundleId" "contextBundle.bundleId"
  let version ← intField payload "version" "contextBundle.version"
  let manifestUri ← stringField payload "manifestUri" "contextBundle.manifestUri"
  let contentHash ← stringField payload "contentHash" "contextBundle.contentHash"
  let codingPackageHash ←
    optionalString payload "codingPackageHash" "contextBundle.codingPackageHash"
  let ⟨h₁⟩ ← check "contextBundle" "context bundle version must be positive" (1 ≤ version)
  let ⟨h₂⟩ ← check "contextBundle" "context bundle manifest_uri is required"
    (isBlank manifestUri = false)
  let ⟨h₃⟩ ← checkSha256 "contextBundle" contentHash
  let ⟨h₄⟩ ← checkOptionalSha256 "contextBundle" codingPackageHash
  .ok ⟨bundleId, version, manifestUri, contentHash, codingPackageHash, h₁, h₂, h₃, h₄⟩

/-- `RunnerPermissionMode(value)`. -/
def modeOf : Json → Option RunnerPermissionMode
  | .str text =>
    [RunnerPermissionMode.default, .acceptEdits, .auto, .bypassPermissions].find? fun mode =>
      mode.value == text
  | _ => none

/-- `permissions.mode`. -/
def modeField (payload : Json) : Read RunnerPermissionMode := do
  let raw ← required payload "mode" "permissions.mode"
  match modeOf raw with
  | some mode => .ok mode
  | none => .error (.unknownMode raw)

/-- `_parse_permissions`. -/
def parsePermissions (payload : Json) : Read RunnerPermissions := do
  let mode ← modeField payload
  let allowedTools ← stringTuple payload "allowedTools" "permissions.allowedTools"
  let disallowedTools ← stringTuple payload "disallowedTools" "permissions.disallowedTools"
  let networkTargets ← stringTuple payload "networkTargets" "permissions.networkTargets"
  let allowedPaths ← stringTuple payload "allowedPaths" "permissions.allowedPaths"
  let deniedPaths ← stringTuple payload "deniedPaths" "permissions.deniedPaths"
  let ⟨h₁⟩ ← checkUnique "permissions" "allowed_tools" allowedTools
  let ⟨h₂⟩ ← checkUnique "permissions" "disallowed_tools" disallowedTools
  let ⟨h₃⟩ ← checkUnique "permissions" "network_targets" networkTargets
  let ⟨h₄⟩ ← checkUnique "permissions" "allowed_paths" allowedPaths
  let ⟨h₅⟩ ← checkUnique "permissions" "denied_paths" deniedPaths
  .ok ⟨mode, allowedTools, disallowedTools, networkTargets, allowedPaths, deniedPaths, h₁, h₂, h₃, h₄,
    h₅⟩

/-- The workspace of `_parse_workspace`, of a value that is no `null`. -/
def parseAssignment (value : Json) : Read WorkspaceAssignment := do
  let workspaceId ← stringField value "workspaceId" "workspace.workspaceId"
  let path ← stringField value "path" "workspace.path"
  let baseSha ← stringField value "baseSha" "workspace.baseSha"
  let ⟨h₁⟩ ← check "workspace" "workspace_id is required" (isBlank workspaceId = false)
  let ⟨h₂⟩ ← check "workspace" "workspace path is required" (isBlank path = false)
  let ⟨h₃⟩ ← check "workspace" "workspace base_sha is required" (isBlank baseSha = false)
  .ok ⟨workspaceId, path, baseSha, h₁, h₂, h₃⟩

/-- `_parse_workspace`. -/
def parseWorkspace : Json → Read (Option WorkspaceAssignment)
  | .null => .ok none
  | .obj fields => (parseAssignment (.obj fields)).map some
  | _ => .error (.field "workspace" "must be an object or null")

/-- The schema version has to be this one. -/
def checkVersion (payload : Json) : Read Unit :=
  match payload.get "schemaVersion" with
  | .str version =>
    if version = RUNTIME_SCHEMA_VERSION then .ok () else .error (.schemaVersion (.str version))
  | got => .error (.schemaVersion got)

/-- `parse_runner_task`. -/
def parseRunnerTask (payload : Json) : Read RunnerTask := do
  if !payload.isObj then .error .notAnObject
  checkVersion payload
  let repository ← parseRepository (← objectField payload "repository" "repository")
  let contextBundle ← parseContextBundle (← objectField payload "contextBundle" "contextBundle")
  let permissions ← parsePermissions (← objectField payload "permissions" "permissions")
  let workspace ← parseWorkspace (payload.get "workspace")
  let organizationId ← uuidField payload "organizationId" "organizationId"
  let projectId ← uuidField payload "projectId" "projectId"
  let taskId ← uuidField payload "taskId" "taskId"
  let runId ← uuidField payload "runId" "runId"
  let correlationId ← uuidField payload "correlationId" "correlationId"
  let attempt ← intField payload "attempt" "attempt"
  let adapterId ← stringField payload "adapterId" "adapterId"
  let instruction ← stringField payload "instruction" "instruction"
  let idempotencyKey ← stringField payload "idempotencyKey" "idempotencyKey"
  let issuedAt ← datetimeField payload "issuedAt" "issuedAt"
  let resumeSessionId ← optionalString payload "resumeSessionId" "resumeSessionId"
  let credentialRefs ← stringTuple payload "credentialRefs" "credentialRefs"
  let workerAgentId ← optionalUuid payload "workerAgentId" "workerAgentId"
  let testCommands ← stringTuple payload "testCommands" "testCommands"
  let assignmentAttemptId ← optionalUuid payload "assignmentAttemptId" "assignmentAttemptId"
  let assignmentGeneration ← optionalInt payload "assignmentGeneration" "assignmentGeneration"
  let executionId ← optionalUuid payload "executionId" "executionId"
  let executionVersion ← optionalInt payload "executionVersion" "executionVersion"
  let ⟨h₁⟩ ← check "task" "attempt must be positive" (1 ≤ attempt)
  let ⟨h₂⟩ ← check "task" "adapter_id is required" (isBlank adapterId = false)
  let ⟨h₃⟩ ← check "task" "instruction is required" (isBlank instruction = false)
  let ⟨h₄⟩ ← check "task" "idempotency_key is required" (isBlank idempotencyKey = false)
  let ⟨h₅⟩ ← check "task" "issued_at must include a timezone"
    (issuedAt.moment.offset.isSome = true)
  let ⟨h₆⟩ ← checkUnique "task" "credential_refs" credentialRefs
  let ⟨h₇⟩ ← checkUnique "task" "test_commands" testCommands
  .ok
    { organizationId, projectId, taskId, runId, correlationId, attempt, adapterId, instruction,
      repository, contextBundle, permissions, idempotencyKey, issuedAt, resumeSessionId,
      credentialRefs, workspace, workerAgentId, testCommands, assignmentAttemptId,
      assignmentGeneration, executionId, executionVersion
      attempt_positive := h₁
      adapterId_nonblank := h₂
      instruction_nonblank := h₃
      idempotencyKey_nonblank := h₄
      issuedAt_aware := h₅
      credentialRefs_unique := h₆
      testCommands_unique := h₇ }

/-! ## Fields are read back -/

section

variable {payload : Json} {key path record name : String}

theorem required_of {value : Json} (h : payload.get key = value) (hnull : value ≠ .null) :
    required payload key path = .ok value := by
  rw [required, h]
  split
  · exact absurd rfl hnull
  · rfl

theorem stringField_of {s : String} (h : payload.get key = .str s) :
    stringField payload key path = .ok s := by
  rw [stringField, required_of h (by simp)]
  rfl

theorem intField_of {n : ℤ} (h : payload.get key = .int n) : intField payload key path = .ok n := by
  rw [intField, required_of h (by simp)]
  rfl

theorem objectField_of (h : (payload.get key).isObj = true) :
    objectField payload key path = .ok (payload.get key) := by
  have hnull : payload.get key ≠ .null := by
    intro hnull
    rw [hnull] at h
    cases h
  rw [objectField, required_of rfl hnull]
  exact if_pos h

theorem parseUuid_str (id : Uuid) : parseUuid id.str path = .ok id := by
  rw [parseUuid, uuidOf_str]

theorem uuidField_of {id : Uuid} (h : payload.get key = uuid id) :
    uuidField payload key path = .ok id := by
  rw [uuidField, stringField_of h, Fallible.ok_bind, parseUuid_str]

theorem optionalString_of {value : Option String} (h : payload.get key = optional .str value) :
    optionalString payload key path = .ok value := by
  rw [optionalString, h]
  cases value <;> rfl

theorem optionalInt_of {value : Option ℤ} (h : payload.get key = optional .int value) :
    optionalInt payload key path = .ok value := by
  rw [optionalInt, h]
  cases value <;> rfl

theorem optionalUuid_of {value : Option Uuid} (h : payload.get key = optional uuid value) :
    optionalUuid payload key path = .ok value := by
  cases value with
  | none =>
    have hread : optionalString payload key path = .ok none := by
      rw [optionalString, h]
      rfl
    rw [optionalUuid, hread, Fallible.ok_bind]
  | some id =>
    have htext : payload.get key = .str id.str := h
    have hread : optionalString payload key path = .ok (some id.str) := by
      rw [optionalString, htext]
    rw [optionalUuid, hread, Fallible.ok_bind]
    dsimp only
    rw [parseUuid_str]
    rfl

theorem datetimeField_of {d : DateTime}
    (h : payload.get key = .str (String.ofList (IsoTime.isoformat d))) :
    datetimeField payload key path = .ok d := by
  rw [datetimeField, stringField_of h, Fallible.ok_bind, String.toList_ofList,
    IsoTime.fromisoformat_isoformat]

theorem stringItems_strings (values : List String) (i : ℕ) :
    stringItems path i (values.map .str) = .ok values := by
  induction values generalizing i with
  | nil => rfl
  | cons value values ih =>
    rw [List.map_cons, stringItems, ih]
    rfl

theorem stringTuple_of {values : List String} (h : payload.get key = strings values) :
    stringTuple payload key path = .ok values := by
  rw [stringTuple, h]
  exact stringItems_strings values 0

theorem check_of {text : String} {p : Prop} [Decidable p] (h : p) : check record text p = .ok ⟨h⟩ :=
  dif_pos h

theorem checkUnique_of {values : List String} (h : uniqueStrings values = true) :
    checkUnique record name values = .ok ⟨h⟩ :=
  dif_pos h

theorem checkSha256_of {value : String} (h : isSha256Reference value = true) :
    checkSha256 record value = .ok ⟨h⟩ :=
  dif_pos h

theorem checkOptionalSha256_of {value : Option String}
    (h : value.all isSha256Reference = true) : checkOptionalSha256 record value = .ok ⟨h⟩ := by
  cases value with
  | none => rfl
  | some value =>
    rw [checkOptionalSha256, checkSha256_of h]
    rfl

theorem modeField_of {mode : RunnerPermissionMode} (h : payload.get "mode" = .str mode.value) :
    modeField payload = .ok mode := by
  have hmode : modeOf (.str mode.value) = some mode := by
    cases mode <;> decide
  rw [modeField, required_of h (by simp), Fallible.ok_bind, hmode]

end

/-! ## Documents that carry a task -/

/-- A document with the entries of a repository. -/
structure CarriesRepository (document : Json) (repository : RepositoryCheckout) : Prop where
  isObj : document.isObj = true
  repositoryId : document.get "repositoryId" = uuid repository.repositoryId
  url : document.get "url" = .str repository.url
  baseRevision : document.get "baseRevision" = .str repository.baseRevision

/-- A document with the entries of a context bundle. -/
structure CarriesBundle (document : Json) (bundle : ContextBundleRef) : Prop where
  isObj : document.isObj = true
  bundleId : document.get "bundleId" = uuid bundle.bundleId
  version : document.get "version" = .int bundle.version
  manifestUri : document.get "manifestUri" = .str bundle.manifestUri
  contentHash : document.get "contentHash" = .str bundle.contentHash
  codingPackageHash : document.get "codingPackageHash" = optional .str bundle.codingPackageHash

/-- A document with the entries of permissions. -/
structure CarriesPermissions (document : Json) (permissions : RunnerPermissions) : Prop where
  isObj : document.isObj = true
  mode : document.get "mode" = .str permissions.mode.value
  allowedTools : document.get "allowedTools" = strings permissions.allowedTools
  disallowedTools : document.get "disallowedTools" = strings permissions.disallowedTools
  networkTargets : document.get "networkTargets" = strings permissions.networkTargets
  allowedPaths : document.get "allowedPaths" = strings permissions.allowedPaths
  deniedPaths : document.get "deniedPaths" = strings permissions.deniedPaths

/-- A document with the entries of a workspace, or no document. -/
def CarriesWorkspace (document : Json) : Option WorkspaceAssignment → Prop
  | none => document = .null
  | some workspace =>
    document.isObj = true ∧ document.get "workspaceId" = .str workspace.workspaceId ∧
      document.get "path" = .str workspace.path ∧ document.get "baseSha" = .str workspace.baseSha

/-- A document with the entries of a task, in whatever order. -/
structure Carries (document : Json) (task : RunnerTask) : Prop where
  isObj : document.isObj = true
  schemaVersion : document.get "schemaVersion" = .str RUNTIME_SCHEMA_VERSION
  organizationId : document.get "organizationId" = uuid task.organizationId
  projectId : document.get "projectId" = uuid task.projectId
  taskId : document.get "taskId" = uuid task.taskId
  runId : document.get "runId" = uuid task.runId
  correlationId : document.get "correlationId" = uuid task.correlationId
  attempt : document.get "attempt" = .int task.attempt
  adapterId : document.get "adapterId" = .str task.adapterId
  instruction : document.get "instruction" = .str task.instruction
  repository : CarriesRepository (document.get "repository") task.repository
  workspace : CarriesWorkspace (document.get "workspace") task.workspace
  contextBundle : CarriesBundle (document.get "contextBundle") task.contextBundle
  permissions : CarriesPermissions (document.get "permissions") task.permissions
  resumeSessionId : document.get "resumeSessionId" = optional .str task.resumeSessionId
  credentialRefs : document.get "credentialRefs" = strings task.credentialRefs
  workerAgentId : document.get "workerAgentId" = optional uuid task.workerAgentId
  testCommands : document.get "testCommands" = strings task.testCommands
  assignmentAttemptId : document.get "assignmentAttemptId" = optional uuid task.assignmentAttemptId
  assignmentGeneration :
    document.get "assignmentGeneration" = optional .int task.assignmentGeneration
  executionId : document.get "executionId" = optional uuid task.executionId
  executionVersion : document.get "executionVersion" = optional .int task.executionVersion
  idempotencyKey : document.get "idempotencyKey" = .str task.idempotencyKey
  issuedAt : document.get "issuedAt" = .str (String.ofList (IsoTime.isoformat task.issuedAt))

theorem parseRepository_of {document : Json} {repository : RepositoryCheckout}
    (h : CarriesRepository document repository) : parseRepository document = .ok repository := by
  simp only [parseRepository, uuidField_of h.repositoryId, stringField_of h.url,
    stringField_of h.baseRevision, check_of repository.url_nonblank,
    check_of repository.baseRevision_nonblank, Fallible.ok_bind]

theorem parseContextBundle_of {document : Json} {bundle : ContextBundleRef}
    (h : CarriesBundle document bundle) : parseContextBundle document = .ok bundle := by
  simp only [parseContextBundle, uuidField_of h.bundleId, intField_of h.version,
    stringField_of h.manifestUri, stringField_of h.contentHash,
    optionalString_of h.codingPackageHash, check_of bundle.version_positive,
    check_of bundle.manifestUri_nonblank, checkSha256_of bundle.contentHash_valid,
    checkOptionalSha256_of bundle.codingPackageHash_valid, Fallible.ok_bind]

theorem parsePermissions_of {document : Json} {permissions : RunnerPermissions}
    (h : CarriesPermissions document permissions) : parsePermissions document = .ok permissions := by
  simp only [parsePermissions, modeField_of h.mode, stringTuple_of h.allowedTools,
    stringTuple_of h.disallowedTools, stringTuple_of h.networkTargets,
    stringTuple_of h.allowedPaths, stringTuple_of h.deniedPaths,
    checkUnique_of permissions.allowedTools_unique,
    checkUnique_of permissions.disallowedTools_unique,
    checkUnique_of permissions.networkTargets_unique,
    checkUnique_of permissions.allowedPaths_unique, checkUnique_of permissions.deniedPaths_unique,
    Fallible.ok_bind]

theorem parseWorkspace_of {document : Json} {workspace : Option WorkspaceAssignment}
    (h : CarriesWorkspace document workspace) : parseWorkspace document = .ok workspace := by
  cases workspace with
  | none =>
    rw [CarriesWorkspace] at h
    rw [h]
    rfl
  | some workspace =>
    obtain ⟨hobj, hid, hpath, hsha⟩ := h
    have hread : parseAssignment document = .ok workspace := by
      simp only [parseAssignment, stringField_of hid, stringField_of hpath, stringField_of hsha,
        check_of workspace.workspaceId_nonblank, check_of workspace.path_nonblank,
        check_of workspace.baseSha_nonblank, Fallible.ok_bind]
    cases document with
    | obj fields =>
      rw [parseWorkspace, hread]
      rfl
    | _ => cases hobj

theorem checkVersion_of {document : Json}
    (h : document.get "schemaVersion" = .str RUNTIME_SCHEMA_VERSION) :
    checkVersion document = .ok () := by
  rw [checkVersion, h]
  exact if_pos rfl

/-- **A document that carries a task is parsed to it.** -/
theorem parseRunnerTask_of {document : Json} {task : RunnerTask} (h : Carries document task) :
    parseRunnerTask document = .ok task := by
  simp only [parseRunnerTask, h.isObj, Bool.not_true, Bool.false_eq_true, if_false,
    checkVersion_of h.schemaVersion, objectField_of h.repository.isObj,
    objectField_of h.contextBundle.isObj, objectField_of h.permissions.isObj,
    parseRepository_of h.repository, parseContextBundle_of h.contextBundle,
    parsePermissions_of h.permissions, parseWorkspace_of h.workspace,
    uuidField_of h.organizationId, uuidField_of h.projectId, uuidField_of h.taskId,
    uuidField_of h.runId, uuidField_of h.correlationId, intField_of h.attempt,
    stringField_of h.adapterId, stringField_of h.instruction, stringField_of h.idempotencyKey,
    datetimeField_of h.issuedAt, optionalString_of h.resumeSessionId,
    stringTuple_of h.credentialRefs, optionalUuid_of h.workerAgentId,
    stringTuple_of h.testCommands, optionalUuid_of h.assignmentAttemptId,
    optionalInt_of h.assignmentGeneration, optionalUuid_of h.executionId,
    optionalInt_of h.executionVersion, check_of task.attempt_positive,
    check_of task.adapterId_nonblank, check_of task.instruction_nonblank,
    check_of task.idempotencyKey_nonblank, check_of task.issuedAt_aware,
    checkUnique_of task.credentialRefs_unique, checkUnique_of task.testCommands_unique, Fallible.ok_bind]

theorem carriesRepository_toWire (repository : RepositoryCheckout) :
    CarriesRepository repository.toWire repository :=
  ⟨rfl, rfl, rfl, rfl⟩

theorem carriesBundle_toWire (bundle : ContextBundleRef) : CarriesBundle bundle.toWire bundle :=
  ⟨rfl, rfl, rfl, rfl, rfl, rfl⟩

theorem carriesPermissions_toWire (permissions : RunnerPermissions) :
    CarriesPermissions (permissionsToWire permissions) permissions :=
  ⟨rfl, rfl, rfl, rfl, rfl, rfl, rfl⟩

theorem carriesWorkspace_toWire (workspace : Option WorkspaceAssignment) :
    CarriesWorkspace (optional WorkspaceAssignment.toWire workspace) workspace := by
  cases workspace with
  | none => rfl
  | some workspace => exact ⟨rfl, rfl, rfl, rfl⟩

/-- **What is written carries the task.** -/
theorem carries_toWire (task : RunnerTask) : Carries task.toWire task where
  isObj := rfl
  schemaVersion := rfl
  organizationId := rfl
  projectId := rfl
  taskId := rfl
  runId := rfl
  correlationId := rfl
  attempt := rfl
  adapterId := rfl
  instruction := rfl
  repository := carriesRepository_toWire task.repository
  workspace := carriesWorkspace_toWire task.workspace
  contextBundle := carriesBundle_toWire task.contextBundle
  permissions := carriesPermissions_toWire task.permissions
  resumeSessionId := rfl
  credentialRefs := rfl
  workerAgentId := rfl
  testCommands := rfl
  assignmentAttemptId := rfl
  assignmentGeneration := rfl
  executionId := rfl
  executionVersion := rfl
  idempotencyKey := rfl
  issuedAt := rfl

/-! ## JSON texts -/

open Json (Plain sorted)

theorem plain_optional {α : Type} {wire : α → Json} (h : ∀ a, Plain (wire a)) (value : Option α) :
    Plain (optional wire value) := by
  cases value with
  | none => exact .null
  | some a => exact h a

theorem plain_strings (values : List String) : Plain (strings values) := by
  refine .arr fun item hitem => ?_
  obtain ⟨value, -, rfl⟩ := List.mem_map.mp hitem
  exact .str value

theorem plain_uuid (id : Uuid) : Plain (uuid id) := .str id.str

/-- **No float is written, and no key twice.** -/
theorem plain_toWire (task : RunnerTask) : Plain task.toWire := by
  have hrepository : Plain task.repository.toWire := by
    refine .obj (by simp) ?_
    simp only [List.forall_mem_cons]
    exact ⟨plain_uuid _, .str _, .str _, by simp⟩
  have hworkspace : ∀ workspace : WorkspaceAssignment, Plain workspace.toWire := by
    intro workspace
    refine .obj (by simp) ?_
    simp only [List.forall_mem_cons]
    exact ⟨.str _, .str _, .str _, by simp⟩
  have hbundle : Plain task.contextBundle.toWire := by
    refine .obj (by simp) ?_
    simp only [List.forall_mem_cons]
    exact ⟨plain_uuid _, .int _, .str _, .str _, plain_optional .str _, by simp⟩
  have hpermissions : Plain (permissionsToWire task.permissions) := by
    refine .obj (by simp) ?_
    simp only [List.forall_mem_cons]
    exact ⟨.str _, plain_strings _, plain_strings _, plain_strings _, plain_strings _,
      plain_strings _, by simp⟩
  refine .obj (by simp) ?_
  simp only [List.forall_mem_cons]
  exact ⟨.str _, plain_uuid _, plain_uuid _, plain_uuid _, plain_uuid _, plain_uuid _, .int _, .str _,
    .str _, hrepository, plain_optional hworkspace _, hbundle, hpermissions, plain_optional .str _,
    plain_strings _, plain_optional plain_uuid _, plain_strings _, plain_optional plain_uuid _,
    plain_optional .int _, plain_optional plain_uuid _, plain_optional .int _, .str _, .str _,
    by simp⟩

theorem plain_get {document : Json} (h : Plain document) (key : String) :
    Plain (document.get key) := by
  cases h with
  | @obj fields hkeys hfields =>
    rw [Json.get, Json.get?]
    cases hfind : fields.find? fun f => f.1 == key with
    | none => exact .null
    | some f => exact hfields f (List.mem_of_find?_eq_some hfind)
  | _ => exact .null

theorem get_sorted_of {document value : Json} {key : String} (hplain : Plain document)
    (h : document.get key = value) (hvalue : sorted value = value) :
    (sorted document).get key = value := by
  rw [Json.get_sorted hplain, h, hvalue]

theorem sorted_strings (values : List String) : sorted (strings values) = strings values := by
  rw [strings, Json.sorted_arr, List.map_map]
  rfl

theorem sorted_optional {α : Type} {wire : α → Json} (h : ∀ a, sorted (wire a) = wire a)
    (value : Option α) : sorted (optional wire value) = optional wire value := by
  cases value with
  | none => rfl
  | some a => exact h a

theorem carriesRepository_sorted {document : Json} {repository : RepositoryCheckout}
    (hplain : Plain document) (h : CarriesRepository document repository) :
    CarriesRepository (sorted document) repository where
  isObj := (Json.isObj_sorted document).trans h.isObj
  repositoryId := get_sorted_of hplain h.repositoryId rfl
  url := get_sorted_of hplain h.url rfl
  baseRevision := get_sorted_of hplain h.baseRevision rfl

theorem carriesBundle_sorted {document : Json} {bundle : ContextBundleRef}
    (hplain : Plain document) (h : CarriesBundle document bundle) :
    CarriesBundle (sorted document) bundle where
  isObj := (Json.isObj_sorted document).trans h.isObj
  bundleId := get_sorted_of hplain h.bundleId rfl
  version := get_sorted_of hplain h.version rfl
  manifestUri := get_sorted_of hplain h.manifestUri rfl
  contentHash := get_sorted_of hplain h.contentHash rfl
  codingPackageHash := get_sorted_of hplain h.codingPackageHash (sorted_optional (fun _ => rfl) _)

theorem carriesPermissions_sorted {document : Json} {permissions : RunnerPermissions}
    (hplain : Plain document) (h : CarriesPermissions document permissions) :
    CarriesPermissions (sorted document) permissions where
  isObj := (Json.isObj_sorted document).trans h.isObj
  mode := get_sorted_of hplain h.mode rfl
  allowedTools := get_sorted_of hplain h.allowedTools (sorted_strings _)
  disallowedTools := get_sorted_of hplain h.disallowedTools (sorted_strings _)
  networkTargets := get_sorted_of hplain h.networkTargets (sorted_strings _)
  allowedPaths := get_sorted_of hplain h.allowedPaths (sorted_strings _)
  deniedPaths := get_sorted_of hplain h.deniedPaths (sorted_strings _)

theorem carriesWorkspace_sorted {document : Json} {workspace : Option WorkspaceAssignment}
    (hplain : Plain document) (h : CarriesWorkspace document workspace) :
    CarriesWorkspace (sorted document) workspace := by
  cases workspace with
  | none =>
    rw [CarriesWorkspace] at h ⊢
    rw [h]
    rfl
  | some workspace =>
    obtain ⟨hobj, hid, hpath, hsha⟩ := h
    exact ⟨(Json.isObj_sorted document).trans hobj, get_sorted_of hplain hid rfl,
      get_sorted_of hplain hpath rfl, get_sorted_of hplain hsha rfl⟩

theorem carries_sorted {document : Json} {task : RunnerTask} (hplain : Plain document)
    (h : Carries document task) : Carries (sorted document) task where
  isObj := (Json.isObj_sorted document).trans h.isObj
  schemaVersion := get_sorted_of hplain h.schemaVersion rfl
  organizationId := get_sorted_of hplain h.organizationId rfl
  projectId := get_sorted_of hplain h.projectId rfl
  taskId := get_sorted_of hplain h.taskId rfl
  runId := get_sorted_of hplain h.runId rfl
  correlationId := get_sorted_of hplain h.correlationId rfl
  attempt := get_sorted_of hplain h.attempt rfl
  adapterId := get_sorted_of hplain h.adapterId rfl
  instruction := get_sorted_of hplain h.instruction rfl
  repository := by
    rw [Json.get_sorted hplain]
    exact carriesRepository_sorted (plain_get hplain _) h.repository
  workspace := by
    rw [Json.get_sorted hplain]
    exact carriesWorkspace_sorted (plain_get hplain _) h.workspace
  contextBundle := by
    rw [Json.get_sorted hplain]
    exact carriesBundle_sorted (plain_get hplain _) h.contextBundle
  permissions := by
    rw [Json.get_sorted hplain]
    exact carriesPermissions_sorted (plain_get hplain _) h.permissions
  resumeSessionId := get_sorted_of hplain h.resumeSessionId (sorted_optional (fun _ => rfl) _)
  credentialRefs := get_sorted_of hplain h.credentialRefs (sorted_strings _)
  workerAgentId := get_sorted_of hplain h.workerAgentId (sorted_optional (fun _ => rfl) _)
  testCommands := get_sorted_of hplain h.testCommands (sorted_strings _)
  assignmentAttemptId :=
    get_sorted_of hplain h.assignmentAttemptId (sorted_optional (fun _ => rfl) _)
  assignmentGeneration :=
    get_sorted_of hplain h.assignmentGeneration (sorted_optional (fun _ => rfl) _)
  executionId := get_sorted_of hplain h.executionId (sorted_optional (fun _ => rfl) _)
  executionVersion := get_sorted_of hplain h.executionVersion (sorted_optional (fun _ => rfl) _)
  idempotencyKey := get_sorted_of hplain h.idempotencyKey rfl
  issuedAt := get_sorted_of hplain h.issuedAt rfl

/-! ## The codec -/

theorem parseRunnerTask_toWire (task : RunnerTask) : parseRunnerTask task.toWire = .ok task :=
  parseRunnerTask_of (carries_toWire task)

end Wire
end Execution
end RepoMesh
