/-
# Context bundles and their store

What a run may read: a bundle of versioned items, and deltas that add items to it one after the
other. The store is `InMemoryContextStore`; the database behind `PostgresContextStore` has
constraints of its own, so a publication may also be refused from outside (`refused`). Nothing is
ever removed.
-/
import RepoMesh.Context.Permissions
import RepoMesh.Foundation.Fallible
import RepoMesh.Foundation.Keyed
import RepoMesh.Foundation.PurePath

namespace RepoMesh
namespace Context

open Delivery (UUID Instant uuidStr)
open Text (isBlank isHexDigit)

/-- What the context module raises. -/
inductive ContextError where
  | valueError (message : String)
  | notFound (message : String)
  | alreadyExists (message : String)
  | conflict (message : String)
  | sequenceConflict (message : String)
  | permissionDenied (message : String)
  | accessDenied (message : String)
  | changeRequestRequired (message : String)
  deriving DecidableEq

/-! ## The records -/

/-- `_validate_sha256` passes. -/
def isSha256 (value : String) : Bool :=
  let digest := value.toList.dropWhile (· ≠ ':')
  value.toList.takeWhile (· ≠ ':') = "sha256".toList && digest.length = 65 &&
    (digest.drop 1).all isHexDigit

/-- `_validate_relative_path` passes. -/
def isRelativePath (value : String) : Bool :=
  let path := PurePath.parse (slashed value)
  value ≠ "" && !path.isAbsolute && !path.parts.contains ['.', '.'] && !path.parts.contains ['.']

/-- `ContextObject`, as far as a decision reads it. -/
structure ContextObject where
  id : UUID
  scope : ContextScope
  deriving DecidableEq

/-- `ContextObjectVersion`, as far as a decision reads it. -/
structure ContextObjectVersion where
  id : UUID
  contextObjectId : UUID
  version : ℤ
  contentHash : String
  supersedesVersionId : Option UUID
  version_positive : 1 ≤ version
  contentHash_valid : isSha256 contentHash = true
  supersedes_iff : supersedesVersionId = none ↔ version = 1
  deriving DecidableEq

/-- `ContextBundleItem`. -/
structure ContextBundleItem where
  contextObjectId : UUID
  versionId : UUID
  contentHash : String
  mountPath : String
  requiredRead : Bool
  contentHash_valid : isSha256 contentHash = true
  mountPath_valid : isRelativePath mountPath = true
  deriving DecidableEq

/-- `ContextBundle`, without what it grants a run beside its items. -/
structure ContextBundle where
  id : UUID
  projectId : UUID
  runId : UUID
  agentId : UUID
  repositoryId : UUID
  items : List ContextBundleItem
  createdAt : Instant
  expiresAt : Instant
  lives : createdAt < expiresAt
  versions_nodup : (items.map (·.versionId)).Nodup
  mountPaths_nodup : (items.map (·.mountPath)).Nodup
  deriving DecidableEq

inductive DeltaKind where
  | supplemental | executionChange
  deriving DecidableEq

/-- `ContextDelta`. Its constructor looks at version ids only. -/
structure ContextDelta where
  id : UUID
  bundleId : UUID
  sequence : ℤ
  summary : String
  items : List ContextBundleItem
  kind : DeltaKind
  sequence_positive : 1 ≤ sequence
  summary_required : isBlank summary = false
  versions_nodup : (items.map (·.versionId)).Nodup

theorem ContextDelta.eq_iff {a b : ContextDelta} : a = b ↔
    a.id = b.id ∧ a.bundleId = b.bundleId ∧ a.sequence = b.sequence ∧
    a.summary = b.summary ∧ a.items = b.items ∧ a.kind = b.kind := by
  cases a
  cases b
  simp only [ContextDelta.mk.injEq]

instance : DecidableEq ContextDelta := fun _ _ => decidable_of_iff' _ ContextDelta.eq_iff

inductive ContextAccessResult where
  | allowed | denied | notFound | hashMismatch
  deriving DecidableEq

/-- The value of the enumeration. -/
def ContextAccessResult.value : ContextAccessResult → String
  | allowed => "allowed"
  | denied => "denied"
  | notFound => "not_found"
  | hashMismatch => "hash_mismatch"

/-- `ContextAccessEvent`. -/
structure ContextAccessEvent where
  projectId : UUID
  bundleId : UUID
  runId : UUID
  agentId : UUID
  versionId : UUID
  path : String
  contentHash : String
  result : ContextAccessResult
  accessedAt : Instant
  path_valid : isRelativePath path = true
  contentHash_valid : isSha256 contentHash = true
  deriving DecidableEq

/-! ## The store -/

/-- `InMemoryContextStore`. -/
structure ContextStore where
  objects : List ContextObject
  versions : List ContextObjectVersion
  bundles : List ContextBundle
  deltas : List ContextDelta
  accessEvents : List ContextAccessEvent

namespace ContextStore

/-- Nothing is published yet. -/
def empty : ContextStore := ⟨[], [], [], [], []⟩

variable (store : ContextStore)

def getObject (id : UUID) : Option ContextObject := Keyed.find (·.id) store.objects id

def getVersion (id : UUID) : Option ContextObjectVersion := Keyed.find (·.id) store.versions id

def getBundle (id : UUID) : Option ContextBundle := Keyed.find (·.id) store.bundles id

/-- `list_deltas`, in the order they were appended. -/
def listDeltas (bundleId : UUID) : List ContextDelta :=
  store.deltas.filter fun delta => delta.bundleId = bundleId

/-- `latest_version`: `max` takes the first of the largest. -/
def latestVersion (objectId : UUID) : Option ContextObjectVersion :=
  (store.versions.filter fun v => v.contextObjectId = objectId).foldl
    (fun best v => match best with
      | none => some v
      | some b => if b.version < v.version then some v else some b) none

/-- `create_object`. -/
def createObject (object : ContextObject) (version : ContextObjectVersion) :
    Except ContextError ContextStore :=
  if (store.getObject object.id).isSome ∨ (store.getVersion version.id).isSome then
    .error (.alreadyExists "context object or version already exists")
  else
    .ok { store with
      objects := store.objects ++ [object], versions := store.versions ++ [version] }

/-- `append_version`. -/
def appendVersion (version : ContextObjectVersion) : Except ContextError ContextStore :=
  if (store.getObject version.contextObjectId).isNone then
    .error (.notFound ("context object not found: " ++ uuidStr version.contextObjectId))
  else if (store.getVersion version.id).isSome then
    .error (.alreadyExists ("context version already exists: " ++ uuidStr version.id))
  else
    match store.latestVersion version.contextObjectId with
    | none => .error (.conflict "context version sequence conflict")
    | some latest =>
      if version.version ≠ latest.version + 1 then
        .error (.conflict "context version sequence conflict")
      else if version.supersedesVersionId ≠ some latest.id then
        .error (.conflict "context version must supersede the current version")
      else .ok { store with versions := store.versions ++ [version] }

/-- `publish_bundle`. -/
def publishBundle (bundle : ContextBundle) : Except ContextError ContextStore :=
  if (store.getBundle bundle.id).isSome ∨ store.bundles.any fun b => b.runId = bundle.runId then
    .error (.alreadyExists "a context bundle already exists for this run")
  else .ok { store with bundles := store.bundles ++ [bundle] }

/-- `append_delta`. -/
def appendDelta (delta : ContextDelta) : Except ContextError ContextStore :=
  if (store.getBundle delta.bundleId).isNone then
    .error (.notFound ("context bundle not found: " ++ uuidStr delta.bundleId))
  else if delta.sequence ≠ (store.listDeltas delta.bundleId).length + 1 then
    .error (.sequenceConflict "context delta sequence conflict")
  else if (store.listDeltas delta.bundleId).any fun d => d.id = delta.id then
    .error (.alreadyExists ("context delta already exists: " ++ uuidStr delta.id))
  else .ok { store with deltas := store.deltas ++ [delta] }

/-- `record_access`. -/
def recordAccess (access : ContextAccessEvent) : ContextStore :=
  { store with accessEvents := store.accessEvents ++ [access] }

/-- The items a run can read: those of its bundle, then those of its deltas. -/
def mounted (bundle : ContextBundle) : List ContextBundleItem :=
  bundle.items ++ (store.listDeltas bundle.id).flatMap (·.items)

end ContextStore

/-! ## The services -/

/-- Who asks for a permission, and when: the layers and denies of a call, and what the clock shows
at each of its evaluations. -/
structure Permissions where
  layers : List PermissionLayer
  explicitDenies : List PermissionLayer
  clock : ℕ → Instant

/-- The request that is put to the layers for one object at one path. -/
def requestFor (action : ContextAction) (object : ContextObject) (repositoryId : UUID)
    (path : String) (now : Instant) : PermissionRequest where
  action := action
  scope := object.scope
  contextObjectId := object.id
  repositoryId := some repositoryId
  path := some path
  tool := none
  commandCategory := none
  networkTarget := none
  secretPurpose := none
  requestedAt := now
  useNumber := 1

/-- One turn of `_validate_items`. -/
def validateItem (store : ContextStore) (repositoryId : UUID) (permissions : Permissions)
    (now : Instant) (item : ContextBundleItem) : Except ContextError Unit :=
  match store.getVersion item.versionId with
  | none => .error (.notFound ("context version not found: " ++ uuidStr item.versionId))
  | some version =>
    if version.contextObjectId ≠ item.contextObjectId then
      .error (.conflict "bundle item object and version do not match")
    else if version.contentHash ≠ item.contentHash then
      .error (.conflict "bundle item content hash does not match the stored version")
    else
      match store.getObject item.contextObjectId with
      | none => .error (.notFound ("context object not found: " ++ uuidStr item.contextObjectId))
      | some object =>
        let decision := evaluatePermission
          (requestFor .mount object repositoryId item.mountPath now)
          permissions.layers permissions.explicitDenies
        if decision.allowed then .ok () else .error (.permissionDenied decision.reason)

/-- `_validate_items`, the clock read again for each item. -/
def validateItems (store : ContextStore) (repositoryId : UUID) (permissions : Permissions) :
    ℕ → List ContextBundleItem → Except ContextError Unit
  | _, [] => .ok ()
  | n, item :: items => do
    validateItem store repositoryId permissions (permissions.clock n) item
    validateItems store repositoryId permissions (n + 1) items

/-- The refusal of a constraint that only the database has. -/
def constraint (refused : Bool) (error : ContextError) : Except ContextError Unit :=
  if refused then .error error else .ok ()

/-- `PublishContextObject.execute`. -/
def publishContextObject (store : ContextStore) (object : ContextObject)
    (version : ContextObjectVersion) : Except ContextError ContextStore :=
  if version.contextObjectId ≠ object.id ∨ version.version ≠ 1 then
    .error (.conflict "a new context object requires its own first version")
  else store.createObject object version

/-- `PublishContextVersion.execute`. -/
def publishContextVersion (store : ContextStore) (version : ContextObjectVersion) :
    Except ContextError ContextStore :=
  match store.getObject version.contextObjectId with
  | none => .error (.notFound ("context object not found: " ++ uuidStr version.contextObjectId))
  | some object =>
    match store.latestVersion object.id with
    | none => .error (.conflict "context object has no current version")
    | some latest =>
      if version.version ≠ latest.version + 1 ∨ version.supersedesVersionId ≠ some latest.id then
        .error (.conflict "new version must directly supersede the current version")
      else store.appendVersion version

/-- `PublishContextBundle.execute`. -/
def publishContextBundle (store : ContextStore) (bundle : ContextBundle)
    (permissions : Permissions) (refused : Bool) : Except ContextError ContextStore := do
  validateItems store bundle.repositoryId permissions 0 bundle.items
  constraint refused (.alreadyExists "a context bundle already exists for this run")
  store.publishBundle bundle

/-- `AppendContextDelta.execute`. -/
def appendContextDelta (store : ContextStore) (delta : ContextDelta) (permissions : Permissions)
    (refused : Bool) : Except ContextError ContextStore :=
  if delta.kind = .executionChange then
    .error (.changeRequestRequired
      "execution premise changes require a ChangeRequest and a new bundle")
  else
    match store.getBundle delta.bundleId with
    | none => .error (.notFound ("context bundle not found: " ++ uuidStr delta.bundleId))
    | some bundle =>
      let expected : ℤ := (store.listDeltas bundle.id).length + 1
      if delta.sequence ≠ expected then
        .error (.sequenceConflict ("expected delta sequence " ++ toString expected ++ ", got " ++
          toString delta.sequence))
      else if delta.items.any fun item =>
          ((store.mounted bundle).map (·.versionId)).contains item.versionId then
        .error (.conflict "a delta cannot add a version already available to the run")
      else do
        validateItems store bundle.repositoryId permissions 0 delta.items
        constraint refused (.sequenceConflict "context delta sequence conflict")
        store.appendDelta delta

/-- The arguments of `RecordContextAccess.execute`. -/
structure AccessRequest where
  bundleId : UUID
  runId : UUID
  agentId : UUID
  versionId : UUID
  path : String
  contentHash : String
  deriving DecidableEq

/-- The item a request is for: `next` over the mounted items. -/
def itemFor (store : ContextStore) (bundle : ContextBundle) (request : AccessRequest) :
    Option ContextBundleItem :=
  (store.mounted bundle).find? fun candidate =>
    candidate.versionId = request.versionId && candidate.mountPath = request.path

/-- What `RecordContextAccess.execute` decides for a bundle it has found. -/
def accessResult (store : ContextStore) (bundle : ContextBundle) (request : AccessRequest)
    (permissions : Permissions) : ContextAccessResult :=
  if bundle.runId ≠ request.runId ∨ bundle.agentId ≠ request.agentId then .denied
  else
    match itemFor store bundle request with
    | none => .notFound
    | some item =>
      if item.contentHash ≠ request.contentHash then .hashMismatch
      else
        match store.getObject item.contextObjectId with
        | none => .notFound
        | some object =>
          if (evaluatePermission
              (requestFor .read object bundle.repositoryId request.path (permissions.clock 0))
              permissions.layers permissions.explicitDenies).allowed then
            .allowed
          else .denied

/-- `ContextAccessEvent(...)`, whose constructor checks the path and the hash of the request. -/
def accessEvent (bundle : ContextBundle) (request : AccessRequest) (result : ContextAccessResult)
    (accessedAt : Instant) : Except ContextError ContextAccessEvent :=
  if hpath : isRelativePath request.path = true then
    if hhash : isSha256 request.contentHash = true then
      .ok {
        projectId := bundle.projectId, bundleId := bundle.id, runId := bundle.runId
        agentId := request.agentId, versionId := request.versionId, path := request.path
        contentHash := request.contentHash, result := result, accessedAt := accessedAt
        path_valid := hpath, contentHash_valid := hhash }
    else .error (.valueError "content_hash must use sha256:<64 lowercase hex characters>")
  else .error (.valueError "context mount paths must be normalized relative paths")

/-- `RecordContextAccess.execute`: what it returns or raises, and the store it leaves. -/
def recordContextAccess (store : ContextStore) (request : AccessRequest)
    (permissions : Permissions) : Except ContextError ContextAccessEvent × ContextStore :=
  match store.getBundle request.bundleId with
  | none => (.error (.notFound ("context bundle not found: " ++ uuidStr request.bundleId)), store)
  | some bundle =>
    let result := accessResult store bundle request permissions
    match accessEvent bundle request result (permissions.clock 1) with
    | .error e => (.error e, store)
    | .ok access =>
      (if result = .allowed then .ok access else .error (.accessDenied result.value),
        store.recordAccess access)

/-- A call of the context module. -/
inductive ContextCall where
  | publishObject (object : ContextObject) (version : ContextObjectVersion)
  | publishVersion (version : ContextObjectVersion)
  | publishBundle (bundle : ContextBundle) (permissions : Permissions) (refused : Bool)
  | appendDelta (delta : ContextDelta) (permissions : Permissions) (refused : Bool)
  | recordAccess (request : AccessRequest) (permissions : Permissions)

/-- What is left of the store where a call may raise. -/
def storeAfter (store : ContextStore) : Except ContextError ContextStore → ContextStore
  | .ok store' => store'
  | .error _ => store

/-- The store after a call. A call that raises before it writes leaves it as it was. -/
def ContextStore.next (store : ContextStore) : ContextCall → ContextStore
  | .publishObject object version => storeAfter store (publishContextObject store object version)
  | .publishVersion version => storeAfter store (publishContextVersion store version)
  | .publishBundle bundle permissions refused =>
    storeAfter store (publishContextBundle store bundle permissions refused)
  | .appendDelta delta permissions refused =>
    storeAfter store (appendContextDelta store delta permissions refused)
  | .recordAccess request permissions => (recordContextAccess store request permissions).2

end Context
end RepoMesh
