/-
# Permission layers

A request to read or mount a context object is put to several layers, each of which names what it
admits in up to ten dimensions, and to explicit denies, which are layers too: a deny holds where it
would admit. The request is allowed where every layer admits it and no deny does.
-/
import RepoMesh.Delivery.Contracts
import RepoMesh.Foundation.Fnmatch

namespace RepoMesh
namespace Context

open Delivery (UUID Instant)

inductive ContextScope where
  | organization | projectShared | teamPrivate | taskPrivate | runPrivate | secret
  deriving DecidableEq

inductive ContextAction where
  | discover | read | mount | publish | approve | export
  deriving DecidableEq

/-- `PermissionRequest`. -/
structure PermissionRequest where
  action : ContextAction
  scope : ContextScope
  contextObjectId : UUID
  repositoryId : Option UUID
  path : Option String
  tool : Option String
  commandCategory : Option String
  networkTarget : Option String
  secretPurpose : Option String
  requestedAt : Instant
  useNumber : ℤ
  deriving DecidableEq

/-- `PermissionLayer`. A dimension without a set admits everything. -/
structure PermissionLayer where
  name : String
  actions : List ContextAction
  scopes : List ContextScope
  contextObjectIds : Option (List UUID)
  repositoryIds : Option (List UUID)
  pathPatterns : Option (List String)
  tools : Option (List String)
  commandCategories : Option (List String)
  networkTargets : Option (List String)
  secretPurposes : Option (List String)
  validUntil : Option Instant
  maxUses : Option ℤ
  deriving DecidableEq

/-- `value.replace("\\", "/")`. -/
def slashed (value : String) : List Char := value.toList.map fun c => if c = '\\' then '/' else c

/-- `any(fnmatchcase(normalized_path, pattern) for pattern in path_patterns)`. -/
def matchesAny (path : String) (patterns : List String) : Bool :=
  patterns.any fun pattern => Fnmatch.fnmatch (slashed path) pattern.toList

/-- A named value outside a set that has no `*`. -/
def namedOutside (value : Option String) (allowed : Option (List String)) : Bool :=
  match value, allowed with
  | some value, some allowed => !allowed.contains value && !allowed.contains "*"
  | _, _ => false

namespace PermissionLayer

/-- The loop over the four named dimensions: the first that is outside its set. -/
def outsideDimension (layer : PermissionLayer) (request : PermissionRequest) : Option String :=
  ([(request.tool, layer.tools, "tool"),
    (request.commandCategory, layer.commandCategories, "command_category"),
    (request.networkTarget, layer.networkTargets, "network_target"),
    (request.secretPurpose, layer.secretPurposes, "secret_purpose")].find? fun d =>
      namedOutside d.1 d.2.1).map fun d => d.2.2

/-- `PermissionLayer.rejection_reason`. -/
def rejectionReason (layer : PermissionLayer) (request : PermissionRequest) : Option String :=
  if request.action ∉ layer.actions then some (layer.name ++ ":action")
  else if request.scope ∉ layer.scopes then some (layer.name ++ ":scope")
  else if layer.contextObjectIds.any fun ids => request.contextObjectId ∉ ids then
    some (layer.name ++ ":context_object")
  else if request.repositoryId.any fun id => layer.repositoryIds.any fun ids => id ∉ ids then
    some (layer.name ++ ":repository")
  else if request.path.any fun path => layer.pathPatterns.any fun patterns =>
      !matchesAny path patterns then
    some (layer.name ++ ":path")
  else
    match layer.outsideDimension request with
    | some dimension => some (layer.name ++ ":" ++ dimension)
    | none =>
      if layer.validUntil.any fun until_ => until_ ≤ request.requestedAt then
        some (layer.name ++ ":expired")
      else if layer.maxUses.any fun uses => uses < request.useNumber then
        some (layer.name ++ ":usage_limit")
      else none

end PermissionLayer

/-- `PermissionDecision`. -/
structure PermissionDecision where
  allowed : Bool
  reason : String
  deriving DecidableEq

/-- `evaluate_permission`. -/
def evaluatePermission (request : PermissionRequest) (layers explicitDenies : List PermissionLayer) :
    PermissionDecision :=
  if layers = [] then ⟨false, "no_permission_layers"⟩
  else
    match explicitDenies.find? fun deny => (deny.rejectionReason request).isNone with
    | some deny => ⟨false, "explicit_deny:" ++ deny.name⟩
    | none =>
      match layers.findSome? fun layer => layer.rejectionReason request with
      | some reason => ⟨false, reason⟩
      | none => ⟨true, "allowed"⟩

/-! ## What is admitted -/

/-- A value that a dimension admits: there is none, there is no set, or the set has it or `*`. -/
def AdmitsName (value : Option String) (allowed : Option (List String)) : Prop :=
  ∀ v ∈ value, ∀ names ∈ allowed, v ∈ names ∨ "*" ∈ names

/-- **A layer admits a request** when it does in each of the ten dimensions. -/
structure PermissionLayer.Admits (layer : PermissionLayer) (request : PermissionRequest) : Prop where
  action : request.action ∈ layer.actions
  scope : request.scope ∈ layer.scopes
  contextObject : ∀ ids ∈ layer.contextObjectIds, request.contextObjectId ∈ ids
  repository : ∀ id ∈ request.repositoryId, ∀ ids ∈ layer.repositoryIds, id ∈ ids
  path : ∀ path ∈ request.path, ∀ patterns ∈ layer.pathPatterns,
    ∃ pattern ∈ patterns, Fnmatch.fnmatch (slashed path) pattern.toList = true
  tool : AdmitsName request.tool layer.tools
  commandCategory : AdmitsName request.commandCategory layer.commandCategories
  networkTarget : AdmitsName request.networkTarget layer.networkTargets
  secretPurpose : AdmitsName request.secretPurpose layer.secretPurposes
  time : (∀ until_ ∈ layer.validUntil, request.requestedAt < until_) ∧
    ∀ uses ∈ layer.maxUses, request.useNumber ≤ uses

theorem namedOutside_eq_false {value : Option String} {allowed : Option (List String)} :
    namedOutside value allowed = false ↔ AdmitsName value allowed := by
  cases value with
  | none => simp [namedOutside, AdmitsName]
  | some value =>
    cases allowed with
    | none => simp [namedOutside, AdmitsName]
    | some allowed =>
      simp only [namedOutside, AdmitsName, Option.mem_def, Option.some.injEq, forall_eq']
      rw [Bool.and_eq_false_iff, Bool.not_eq_false', Bool.not_eq_false', List.contains_iff_mem,
        List.contains_iff_mem]

theorem outsideDimension_eq_none {layer : PermissionLayer} {request : PermissionRequest} :
    layer.outsideDimension request = none ↔
      AdmitsName request.tool layer.tools ∧
        AdmitsName request.commandCategory layer.commandCategories ∧
        AdmitsName request.networkTarget layer.networkTargets ∧
        AdmitsName request.secretPurpose layer.secretPurposes := by
  rw [PermissionLayer.outsideDimension, Option.map_eq_none_iff, List.find?_eq_none]
  simp only [List.forall_mem_cons, Bool.not_eq_true, namedOutside_eq_false]
  simp

theorem ite_some_eq_none {α : Type*} {c : Prop} [Decidable c] {reason : α} {rest : Option α} :
    (if c then some reason else rest) = none ↔ ¬ c ∧ rest = none := by
  split_ifs with h <;> simp [h]

theorem not_any_outside {α : Type*} [DecidableEq α] {x : α} {sets : Option (List α)} :
    (¬ (sets.any fun ids => decide (x ∉ ids)) = true) ↔ ∀ ids ∈ sets, x ∈ ids := by
  cases sets <;> simp

/-- **What `rejection_reason` rejects.** It has no reason exactly for what the layer admits. -/
theorem rejectionReason_eq_none {layer : PermissionLayer} {request : PermissionRequest} :
    layer.rejectionReason request = none ↔ layer.Admits request := by
  have hrepository : (¬ (request.repositoryId.any fun id =>
      layer.repositoryIds.any fun ids => decide (id ∉ ids)) = true) ↔
      ∀ id ∈ request.repositoryId, ∀ ids ∈ layer.repositoryIds, id ∈ ids := by
    cases request.repositoryId with
    | none => simp
    | some id => cases layer.repositoryIds <;> simp
  have hpath : (¬ (request.path.any fun path =>
      layer.pathPatterns.any fun patterns => !matchesAny path patterns) = true) ↔
      ∀ path ∈ request.path, ∀ patterns ∈ layer.pathPatterns,
        ∃ pattern ∈ patterns, Fnmatch.fnmatch (slashed path) pattern.toList = true := by
    cases request.path with
    | none => simp
    | some path => cases layer.pathPatterns <;> simp [matchesAny]
  have hnames : (match layer.outsideDimension request with
      | some dimension => some (layer.name ++ ":" ++ dimension)
      | none =>
        if layer.validUntil.any fun until_ => until_ ≤ request.requestedAt then
          some (layer.name ++ ":expired")
        else if layer.maxUses.any fun uses => uses < request.useNumber then
          some (layer.name ++ ":usage_limit")
        else none) = none ↔
      layer.outsideDimension request = none ∧
        (∀ until_ ∈ layer.validUntil, request.requestedAt < until_) ∧
        ∀ uses ∈ layer.maxUses, request.useNumber ≤ uses := by
    cases layer.outsideDimension request with
    | some dimension => simp
    | none => cases layer.validUntil <;> cases layer.maxUses <;> simp [ite_some_eq_none]
  rw [PermissionLayer.rejectionReason]
  simp only [ite_some_eq_none, not_not, not_any_outside, hrepository, hpath, hnames,
    outsideDimension_eq_none]
  constructor
  · rintro ⟨action, scope, object, repository, path, ⟨tool, command, network, secret⟩, time⟩
    exact ⟨action, scope, object, repository, path, tool, command, network, secret, time⟩
  · rintro ⟨action, scope, object, repository, path, tool, command, network, secret, time⟩
    exact ⟨action, scope, object, repository, path, ⟨tool, command, network, secret⟩, time⟩

/-- **The intersection.** What is allowed is admitted by every layer, there is one, and no deny
admits it. -/
theorem evaluatePermission_allowed {request : PermissionRequest}
    {layers explicitDenies : List PermissionLayer} :
    (evaluatePermission request layers explicitDenies).allowed = true ↔
      layers ≠ [] ∧ (∀ layer ∈ layers, layer.Admits request) ∧
        ∀ deny ∈ explicitDenies, ¬ deny.Admits request := by
  rw [evaluatePermission]
  by_cases hlayers : layers = []
  · simp [hlayers]
  · rw [if_neg hlayers]
    cases hdeny : explicitDenies.find? fun deny => (deny.rejectionReason request).isNone with
    | some deny =>
      have hadmits : deny.Admits request := by
        have hnone : (deny.rejectionReason request).isNone = true := by
          simpa using List.find?_some hdeny
        exact rejectionReason_eq_none.mp (Option.isNone_iff_eq_none.mp hnone)
      have hmem := List.mem_of_find?_eq_some hdeny
      simp only [Bool.false_eq_true, false_iff]
      exact fun h => h.2.2 deny hmem hadmits
    | none =>
      have hdenies : ∀ deny ∈ explicitDenies, ¬ deny.Admits request := by
        intro deny hmem hadmits
        rw [List.find?_eq_none] at hdeny
        exact hdeny deny hmem (by simp [rejectionReason_eq_none.mpr hadmits])
      cases hreason : layers.findSome? fun layer => layer.rejectionReason request with
      | some reason =>
        obtain ⟨layer, hmem, hsome⟩ := List.exists_of_findSome?_eq_some hreason
        simp only [Bool.false_eq_true, false_iff]
        intro h
        rw [rejectionReason_eq_none.mpr (h.2.1 layer hmem)] at hsome
        cases hsome
      | none =>
        rw [List.findSome?_eq_none_iff] at hreason
        simp only [true_iff]
        exact ⟨hlayers, fun layer hmem => rejectionReason_eq_none.mp (hreason layer hmem), hdenies⟩

end Context
end RepoMesh
