/-
# The classification in the discovery block

`run_classification` writes the confirmation summary into the discovery block and approvers add their
edits beside it; `effective_tiers` and `summary_in_force` read it back.
-/
import RepoMesh.Foundation.JsonValues
import RepoMesh.Planning.Approval

namespace RepoMesh
namespace Planning
namespace Confirmation

open Json (Fault)
open Latest (latest)

/-! ## The records -/

/-- `RepositoryPlan`: structured change plan produced by the Team Manager. -/
structure RepositoryPlan where
  changedApis : List String := []
  changedModules : List String := []
  dependsOn : List String := []
  impacts : List String := []
  risk : String := "medium"
  deriving DecidableEq

/-- `ConfirmationResult`: result of a single Repository Manager confirmation. The confidence is a float,
by its text. -/
structure ConfirmationResult where
  repository : String
  status : String
  confidence : String := "0.0"
  reason : String := ""
  planSummary : String := ""
  plan : Option RepositoryPlan := none
  missingDependencies : List String := []
  isSupplemented : Bool := false
  graphConflict : Bool := false
  deriving DecidableEq

/-- `SupplementEvidence`, as the block keeps it. -/
structure SupplementEvidence where
  repository : String
  via : String
  confidence : String
  mechanism : String
  matchReason : String
  deriving DecidableEq

/-- `GraphEdge`, as the block keeps it. -/
structure GraphEdge where
  producer : String
  consumer : String
  confidence : String
  mechanism : String := "SOURCE"
  matchReason : String := ""
  deriving DecidableEq

/-- `GraphConflict`: a graph-vs-model disagreement, surfaced for the approver. -/
structure GraphConflict where
  repository : String
  status : String
  via : List String
  edges : List GraphEdge
  deriving DecidableEq

/-- `SupplementObservation`: a name the model reported, with no edge behind it. -/
structure SupplementObservation where
  repository : String
  via : String
  deriving DecidableEq

/-- `ConfirmationSummary`: each bucket holds the results of its own status only. -/
structure ConfirmationSummary where
  required : List ConfirmationResult
  maybe : List ConfirmationResult
  excluded : List ConfirmationResult
  supplements : List SupplementEvidence := []
  conflicts : List GraphConflict := []
  observations : List SupplementObservation := []
  required_only : ∀ result ∈ required, result.status = "REQUIRED"
  maybe_only : ∀ result ∈ maybe, result.status = "MAYBE"
  excluded_only : ∀ result ∈ excluded, result.status = "EXCLUDED"

/-- The bucket of a tier. -/
def ConfirmationSummary.bucket (summary : ConfirmationSummary) : Tier → List ConfirmationResult
  | .required => summary.required
  | .maybe => summary.maybe
  | .excluded => summary.excluded

theorem ConfirmationSummary.bucket_only (summary : ConfirmationSummary) {tier : Tier}
    {result : ConfirmationResult} (h : result ∈ summary.bucket tier) :
    result.status = tier.status := by
  cases tier with
  | required => exact summary.required_only result h
  | maybe => exact summary.maybe_only result h
  | excluded => exact summary.excluded_only result h

/-- All results, in the order of the tiers. -/
def ConfirmationSummary.results (summary : ConfirmationSummary) : List ConfirmationResult :=
  summary.required ++ summary.maybe ++ summary.excluded

/-! ## What Python makes of the block -/

/-- What `str` and `float` make of a value that is not of their type. -/
class Conversions where
  /-- `str(value)` of a value that is not a string. -/
  jsonRepr : Json → String
  /-- `float(value)` of a value that is not a float. -/
  jsonFloat : Json → Except Fault String

section

variable [Conversions]

/-- `str(value)`. -/
def pyStr : Json → String
  | .str s => s
  | value => Conversions.jsonRepr value

/-- `float(value)`. -/
def pyFloat : Json → Except Fault String
  | .float text => .ok text
  | value => Conversions.jsonFloat value

/-- `str(payload.get(key, default))`. -/
def textAt (payload : Json) (key default : String) : Except Fault String :=
  return pyStr (← payload.getOr key (.str default))

/-- A value that Python keeps as it is. The records hold texts, and a value of another type has no place
in them. -/
def kept : Json → Except Fault String
  | .str s => .ok s
  | _ => .error .typeError

/-- `payload.get(key) or ()`, as what is iterated over. -/
def itemsAt (payload : Json) (key : String) : Except Fault (List Json) := do
  ((← payload.getOr key .null).or (.arr [])).listOf

/-- `tuple(payload.get(key) or ())`. -/
def textsAt (payload : Json) (key : String) : Except Fault (List String) := do
  (← itemsAt payload key).mapM kept

/-- `bool(payload.get(key, False))`. -/
def flagAt (payload : Json) (key : String) : Except Fault Bool :=
  return (← payload.getOr key (.bool false)).truthy

/-! ## `_result_to_dict` and its siblings -/

/-- A list of texts. -/
def textsJson (texts : List String) : Json := .arr (texts.map .str)

/-- The plan of `_result_to_dict`. -/
def planToDict (plan : RepositoryPlan) : Json :=
  .obj [("changed_apis", textsJson plan.changedApis),
    ("changed_modules", textsJson plan.changedModules),
    ("depends_on", textsJson plan.dependsOn), ("impacts", textsJson plan.impacts),
    ("risk", .str plan.risk)]

/-- `_result_to_dict`: the ConfirmationResultView shape, produced once. -/
def resultToDict (result : ConfirmationResult) : Json :=
  .obj [("repository", .str result.repository), ("status", .str result.status),
    ("confidence", .float result.confidence), ("reason", .str result.reason),
    ("plan_summary", .str result.planSummary),
    ("plan", match result.plan with
      | none => .null
      | some plan => planToDict plan),
    ("missing_dependencies", textsJson result.missingDependencies),
    ("is_supplemented", .bool result.isSupplemented),
    ("graph_conflict", .bool result.graphConflict)]

/-- The plan of `_result_from_dict`, where it is a dictionary. -/
def planFromDict (payload : Json) : Except Fault RepositoryPlan := do
  let changedApis ← textsAt payload "changed_apis"
  let changedModules ← textsAt payload "changed_modules"
  let dependsOn ← textsAt payload "depends_on"
  let impacts ← textsAt payload "impacts"
  let risk ← textAt payload "risk" "medium"
  return { changedApis, changedModules, dependsOn, impacts, risk }

/-- The plan of `_result_from_dict`. -/
def planAt (payload : Json) : Except Fault (Option RepositoryPlan) := do
  let planPayload ← payload.getOr "plan" .null
  if planPayload.isObj then return some (← planFromDict planPayload) else return none

/-- `_result_from_dict`. -/
def resultFromDict (payload : Json) : Except Fault ConfirmationResult := do
  let plan ← planAt payload
  let repository ← textAt payload "repository" ""
  let status ← textAt payload "status" "REQUIRED"
  let confidence ← pyFloat (← payload.getOr "confidence" (.float "0.0"))
  let reason ← textAt payload "reason" ""
  let planSummary ← textAt payload "plan_summary" ""
  let missingDependencies ← textsAt payload "missing_dependencies"
  let isSupplemented ← flagAt payload "is_supplemented"
  let graphConflict ← flagAt payload "graph_conflict"
  return { repository, status, confidence, reason, planSummary, plan, missingDependencies,
           isSupplemented, graphConflict }

/-- `_supplement_to_dict`. -/
def supplementToDict (evidence : SupplementEvidence) : Json :=
  .obj [("repository", .str evidence.repository), ("via", .str evidence.via),
    ("confidence", .str evidence.confidence), ("mechanism", .str evidence.mechanism),
    ("match_reason", .str evidence.matchReason)]

/-- `_supplement_from_dict`. -/
def supplementFromDict (payload : Json) : Except Fault SupplementEvidence := do
  let repository ← textAt payload "repository" ""
  let via ← textAt payload "via" ""
  let confidence ← textAt payload "confidence" "declared"
  let mechanism ← textAt payload "mechanism" ""
  let matchReason ← textAt payload "match_reason" ""
  return { repository, via, confidence, mechanism, matchReason }

/-- An edge of `_conflict_to_dict`. -/
def edgeToDict (edge : GraphEdge) : Json :=
  .obj [("producer", .str edge.producer), ("consumer", .str edge.consumer),
    ("confidence", .str edge.confidence), ("mechanism", .str edge.mechanism),
    ("match_reason", .str edge.matchReason)]

/-- An edge of `_conflict_from_dict`. -/
def edgeFromDict (edge : Json) : Except Fault GraphEdge := do
  let producer ← textAt edge "producer" ""
  let consumer ← textAt edge "consumer" ""
  let confidence ← textAt edge "confidence" "declared"
  let mechanism ← kept (← edge.getOr "mechanism" (.str "SOURCE"))
  let matchReason ← textAt edge "match_reason" ""
  return { producer, consumer, confidence, mechanism, matchReason }

/-- `_conflict_to_dict`. -/
def conflictToDict (conflict : GraphConflict) : Json :=
  .obj [("repository", .str conflict.repository), ("status", .str conflict.status),
    ("via", textsJson conflict.via), ("edges", .arr (conflict.edges.map edgeToDict))]

/-- `_conflict_from_dict`. -/
def conflictFromDict (payload : Json) : Except Fault GraphConflict := do
  let repository ← textAt payload "repository" ""
  let status ← textAt payload "status" "EXCLUDED"
  let via := (← itemsAt payload "via").map pyStr
  let edges ← (← itemsAt payload "edges").mapM edgeFromDict
  return { repository, status, via, edges }

/-- `_observation_to_dict`. -/
def observationToDict (observation : SupplementObservation) : Json :=
  .obj [("repository", .str observation.repository), ("via", .str observation.via)]

/-- `_observation_from_dict`. -/
def observationFromDict (payload : Json) : Except Fault SupplementObservation := do
  let repository ← textAt payload "repository" ""
  let via ← textAt payload "via" ""
  return { repository, via }

/-! ## Round trips -/

omit [Conversions] in
theorem itemsAt_arr {payload : Json} {key : String} {items : List Json}
    (h : payload.getOr key .null = .ok (.arr items)) : itemsAt payload key = .ok items := by
  rw [itemsAt, h]
  cases items with
  | nil => rfl
  | cons item items => rfl

omit [Conversions] in
theorem textsAt_textsJson {payload : Json} {key : String} {texts : List String}
    (h : payload.getOr key .null = .ok (textsJson texts)) : textsAt payload key = .ok texts := by
  have hkept : (texts.map Json.str).mapM kept = .ok texts :=
    @Fallible.mapM_map_ok _ _ _ Json.str kept (fun _ => rfl) texts
  rw [textsAt, itemsAt_arr h, Fallible.ok_bind, hkept]

theorem textAt_str {payload : Json} {key default text : String}
    (h : payload.getOr key (.str default) = .ok (.str text)) : textAt payload key default = .ok text := by
  rw [textAt, h]
  rfl

theorem planFromDict_planToDict (plan : RepositoryPlan) :
    planFromDict (planToDict plan) = .ok plan := by
  have hapis : textsAt (planToDict plan) "changed_apis" = .ok plan.changedApis :=
    textsAt_textsJson rfl
  have hmodules : textsAt (planToDict plan) "changed_modules" = .ok plan.changedModules :=
    textsAt_textsJson rfl
  have hdepends : textsAt (planToDict plan) "depends_on" = .ok plan.dependsOn :=
    textsAt_textsJson rfl
  have himpacts : textsAt (planToDict plan) "impacts" = .ok plan.impacts := textsAt_textsJson rfl
  have hrisk : textAt (planToDict plan) "risk" "medium" = .ok plan.risk := textAt_str rfl
  rw [planFromDict, hapis, hmodules, hdepends, himpacts, hrisk]
  rfl

theorem planAt_resultToDict (result : ConfirmationResult) :
    planAt (resultToDict result) = .ok result.plan := by
  cases hplan : result.plan with
  | none =>
    have hpayload : (resultToDict result).getOr "plan" .null = .ok .null := by
      rw [resultToDict, hplan]
      rfl
    rw [planAt, hpayload]
    rfl
  | some plan =>
    have hpayload : (resultToDict result).getOr "plan" .null = .ok (planToDict plan) := by
      rw [resultToDict, hplan]
      rfl
    rw [planAt, hpayload, Fallible.ok_bind, planFromDict_planToDict]
    rfl

theorem resultFromDict_resultToDict (result : ConfirmationResult) :
    resultFromDict (resultToDict result) = .ok result := by
  have hmissing : textsAt (resultToDict result) "missing_dependencies" =
      .ok result.missingDependencies := textsAt_textsJson rfl
  rw [resultFromDict, planAt_resultToDict, hmissing]
  rfl

theorem supplementFromDict_supplementToDict (evidence : SupplementEvidence) :
    supplementFromDict (supplementToDict evidence) = .ok evidence := rfl

theorem edgeFromDict_edgeToDict (edge : GraphEdge) : edgeFromDict (edgeToDict edge) = .ok edge := rfl

theorem conflictFromDict_conflictToDict (conflict : GraphConflict) :
    conflictFromDict (conflictToDict conflict) = .ok conflict := by
  have hvia : itemsAt (conflictToDict conflict) "via" = .ok (conflict.via.map .str) :=
    itemsAt_arr rfl
  have hedges : itemsAt (conflictToDict conflict) "edges" = .ok (conflict.edges.map edgeToDict) :=
    itemsAt_arr rfl
  have hread : (conflict.edges.map edgeToDict).mapM edgeFromDict = .ok conflict.edges :=
    Fallible.mapM_map_ok edgeFromDict_edgeToDict conflict.edges
  have hnames : (conflict.via.map Json.str).map pyStr = conflict.via := by
    rw [List.map_map]
    exact List.map_id _
  rw [conflictFromDict, hvia, hedges]
  simp only [Fallible.ok_bind, hread, hnames]
  rfl

theorem observationFromDict_observationToDict (observation : SupplementObservation) :
    observationFromDict (observationToDict observation) = .ok observation := rfl

/-! ## The block -/

omit [Conversions] in
/-- An edit of `approve`, with the time it was made. -/
def adjustmentToDict (adjustment : Adjustment × String) : Json :=
  .obj [("repository", .str adjustment.1.repository),
    ("from", match adjustment.1.from_ with
      | none => .null
      | some tier => .str tier),
    ("to", .str adjustment.1.to_), ("by_agent_id", .str (Delivery.uuidStr adjustment.1.byAgentId)),
    ("at", .str adjustment.2)]

/-- The classification `run_classification` writes, with the adjustments of approvers in it. -/
def classificationToDict (summary : ConfirmationSummary) (adjustments : List (Adjustment × String))
    (idempotencyKey ranAt : String) (byAgentId : Delivery.UUID) : Json :=
  .obj [("required", .arr (summary.required.map resultToDict)),
    ("maybe", .arr (summary.maybe.map resultToDict)),
    ("excluded", .arr (summary.excluded.map resultToDict)),
    ("supplements", .arr (summary.supplements.map supplementToDict)),
    ("conflicts", .arr (summary.conflicts.map conflictToDict)),
    ("observations", .arr (summary.observations.map observationToDict)),
    ("adjustments", .arr (adjustments.map adjustmentToDict)),
    ("idempotency_key", .str idempotencyKey), ("ran_at", .str ranAt),
    ("by_agent_id", .str (Delivery.uuidStr byAgentId)), ("error", .null)]

/-- `str(item.get("repository", ""))` of a row that `effective_tiers` reads. -/
def namedResult (item : Json) : Except Fault Planning.ConfirmationResult :=
  return { repository := ← textAt item "repository" "", status := "" }

/-- What `effective_tiers` reads of an adjustment. -/
def adjustmentFromDict (item : Json) : Except Fault Adjustment := do
  let repository ← textAt item "repository" ""
  let to_ ← textAt item "to" ""
  return { repository, from_ := none, to_, byAgentId := 0 }

/-- What `effective_tiers` reads of a classification: the names in the buckets, and the adjustments. -/
def tiersFromDict (classification : Json) : Except Fault ClassificationRecord := do
  let required ← (← itemsAt classification "required").mapM namedResult
  let maybe ← (← itemsAt classification "maybe").mapM namedResult
  let excluded ← (← itemsAt classification "excluded").mapM namedResult
  let adjustments ← (← itemsAt classification "adjustments").mapM adjustmentFromDict
  return { required, maybe, excluded, adjustments, idempotencyKey := "", byAgentId := 0 }

/-- `effective_tiers` of a block. -/
def effectiveTiersOf (classification : Json) : Except Fault (List TierRow) :=
  return effectiveTiers (← tiersFromDict classification)

/-- The result of a row in force: what the model said under the tier in force, or what is said of a
repository that the approver alone added. -/
def resultInForce (byName : List ConfirmationResult) (row : TierRow) : ConfirmationResult :=
  match latest ConfirmationResult.repository byName row.repository with
  | none =>
    { repository := row.repository
      status := row.tier.status
      confidence := "0.0"
      reason := "Added by the approver during classification review" }
  | some result =>
    if result.status ≠ row.tier.status then { result with status := row.tier.status } else result

/-- `buckets[tier]`. -/
def bucketInForce (byName : List ConfirmationResult) (rows : List TierRow) (tier : Tier) :
    List ConfirmationResult :=
  (rows.filter fun row => row.tier = tier).map (resultInForce byName)

omit [Conversions] in
theorem resultInForce_status (byName : List ConfirmationResult) (row : TierRow) :
    (resultInForce byName row).status = row.tier.status := by
  unfold resultInForce
  split
  · rfl
  · split_ifs with hstatus
    · rfl
    · exact not_not.mp hstatus

omit [Conversions] in
theorem bucketInForce_only {byName : List ConfirmationResult} {rows : List TierRow} {tier : Tier} :
    ∀ result ∈ bucketInForce byName rows tier, result.status = tier.status := by
  intro result h
  obtain ⟨row, hrow, rfl⟩ := List.mem_map.mp h
  have htier : row.tier = tier := by simpa using (List.mem_filter.mp hrow).2
  rw [resultInForce_status, htier]

/-- `summary_in_force`: rebuild the confirmation summary the approver released, not the model's. -/
def summaryInForce (classification : Json) : Except Fault ConfirmationSummary := do
  let required ← (← itemsAt classification "required").mapM resultFromDict
  let maybe ← (← itemsAt classification "maybe").mapM resultFromDict
  let excluded ← (← itemsAt classification "excluded").mapM resultFromDict
  let byName := required ++ maybe ++ excluded
  let rows ← effectiveTiersOf classification
  let supplements ← (← itemsAt classification "supplements").mapM supplementFromDict
  let conflicts ← (← itemsAt classification "conflicts").mapM conflictFromDict
  let observations ← (← itemsAt classification "observations").mapM observationFromDict
  return {
    required := bucketInForce byName rows .required
    maybe := bucketInForce byName rows .maybe
    excluded := bucketInForce byName rows .excluded
    supplements
    conflicts
    observations
    required_only := bucketInForce_only
    maybe_only := bucketInForce_only
    excluded_only := bucketInForce_only }

/-- The record of the names in the buckets, and of the adjustments. -/
def ConfirmationSummary.tiersRecord (summary : ConfirmationSummary) (adjustments : List Adjustment) :
    ClassificationRecord :=
  let named (results : List ConfirmationResult) : List Planning.ConfirmationResult :=
    results.map fun result => { repository := result.repository, status := "" }
  { required := named summary.required
    maybe := named summary.maybe
    excluded := named summary.excluded
    adjustments := adjustments.map fun adjustment =>
      { adjustment with from_ := none, byAgentId := 0 }
    idempotencyKey := ""
    byAgentId := 0 }

/-- The summary under a tiering. -/
def ConfirmationSummary.inForce (summary : ConfirmationSummary) (rows : List TierRow) :
    ConfirmationSummary where
  required := bucketInForce summary.results rows .required
  maybe := bucketInForce summary.results rows .maybe
  excluded := bucketInForce summary.results rows .excluded
  supplements := summary.supplements
  conflicts := summary.conflicts
  observations := summary.observations
  required_only := bucketInForce_only
  maybe_only := bucketInForce_only
  excluded_only := bucketInForce_only

theorem mapM_namedResult (results : List ConfirmationResult) :
    (results.map resultToDict).mapM namedResult =
      .ok (results.map fun result => { repository := result.repository, status := "" }) := by
  refine Fallible.mapM_eq_ok ?_
  induction results with
  | nil => exact .nil
  | cons result results ih => exact .cons rfl ih

theorem mapM_adjustmentFromDict (adjustments : List (Adjustment × String)) :
    (adjustments.map adjustmentToDict).mapM adjustmentFromDict =
      .ok ((adjustments.map Prod.fst).map fun adjustment =>
        { adjustment with from_ := none, byAgentId := 0 }) := by
  refine Fallible.mapM_eq_ok ?_
  induction adjustments with
  | nil => exact .nil
  | cons adjustment adjustments ih => exact .cons rfl ih

section

variable (summary : ConfirmationSummary) (adjustments : List (Adjustment × String))
  (idempotencyKey ranAt : String) (byAgentId : Delivery.UUID)

theorem effectiveTiersOf_classificationToDict :
    effectiveTiersOf (classificationToDict summary adjustments idempotencyKey ranAt byAgentId) =
      .ok (effectiveTiers (summary.tiersRecord (adjustments.map Prod.fst))) := by
  have hread : tiersFromDict
      (classificationToDict summary adjustments idempotencyKey ranAt byAgentId) =
        .ok (summary.tiersRecord (adjustments.map Prod.fst)) := by
    rw [tiersFromDict, classificationToDict, itemsAt_arr rfl, itemsAt_arr rfl, itemsAt_arr rfl,
      itemsAt_arr rfl]
    simp only [Fallible.ok_bind, mapM_namedResult, mapM_adjustmentFromDict]
    rfl
  rw [effectiveTiersOf, hread]
  rfl

/-- **The block is read back** under the tiering in force. -/
theorem summaryInForce_classificationToDict :
    summaryInForce (classificationToDict summary adjustments idempotencyKey ranAt byAgentId) =
      .ok (summary.inForce (effectiveTiers (summary.tiersRecord (adjustments.map Prod.fst)))) := by
  have hresults (results : List ConfirmationResult) :
      (results.map resultToDict).mapM resultFromDict = .ok results :=
    Fallible.mapM_map_ok resultFromDict_resultToDict results
  have hsupplements : (summary.supplements.map supplementToDict).mapM supplementFromDict =
      .ok summary.supplements := Fallible.mapM_map_ok supplementFromDict_supplementToDict _
  have hconflicts : (summary.conflicts.map conflictToDict).mapM conflictFromDict =
      .ok summary.conflicts := Fallible.mapM_map_ok conflictFromDict_conflictToDict _
  have hobservations : (summary.observations.map observationToDict).mapM observationFromDict =
      .ok summary.observations := Fallible.mapM_map_ok observationFromDict_observationToDict _
  rw [summaryInForce, effectiveTiersOf_classificationToDict, classificationToDict, itemsAt_arr rfl,
    itemsAt_arr rfl, itemsAt_arr rfl, itemsAt_arr rfl, itemsAt_arr rfl, itemsAt_arr rfl]
  simp only [Fallible.ok_bind, hresults, hsupplements, hconflicts, hobservations]
  rfl

end

end

end Confirmation
end Planning
end RepoMesh
