/-
# The discovery block

The record of a discovery chain, kept in one column of its draft: four steps and an approval, each
with what it answered or the error it ended in, and the receipt of the attempt to start the plan.
-/
import RepoMesh.Delivery.Contracts
import RepoMesh.Foundation.JsonCompact
import RepoMesh.Foundation.Sha256
import RepoMesh.Planning.PlanIntegration

namespace RepoMesh
namespace Planning

open Text
open Delivery (UUID)

/-! ## The records -/

/-- "Continue, ignoring these questions". -/
structure ForcedContinue where
  ignoredQuestionCount : ℕ
  byAgentId : UUID
  deriving DecidableEq

/-- Step 0. -/
structure AnalysisRecord where
  answers : List (String × String)
  analyzedRequirement : String
  idempotencyKey : String
  byAgentId : UUID
  forcedContinue : Option ForcedContinue := none
  error : Option String := none
  sufficient : Bool := false
  questions : List String := []
  deriving DecidableEq

/-- A scored candidate. -/
structure Candidate where
  repositoryId : String
  repositoryName : String
  rationale : String := ""
  deriving DecidableEq

/-- Step 1. -/
structure CandidatesRecord where
  items : List Candidate := []
  llmUsed : Bool := false
  limit : ℤ
  entryPoint : Option String
  idempotencyKey : String
  byAgentId : UUID
  error : Option String := none
  deriving DecidableEq

/-- `ConfirmationSummary`, with the repositories integration does not read. -/
structure TieredSummary extends ConfirmationSummary where
  excluded : List ConfirmationResult := []
  supplements : List String := []
  deriving DecidableEq

/-- What an approver changed. -/
structure Adjustment where
  repository : String
  from_ : Option String
  to_ : String
  byAgentId : UUID
  deriving DecidableEq

/-- Step 2: the model's buckets, and what approvers changed. -/
structure ClassificationRecord where
  required : List ConfirmationResult := []
  maybe : List ConfirmationResult := []
  excluded : List ConfirmationResult := []
  supplements : List String := []
  adjustments : List Adjustment := []
  idempotencyKey : String
  byAgentId : UUID
  error : Option String := none
  deriving DecidableEq

/-- The leader's decision on a classification. -/
structure ApprovalRecord where
  state : String
  evidenceVersion : String
  decidedByAgentId : UUID
  reason : String
  idempotencyKey : String
  deriving DecidableEq

/-- Step 3. -/
structure PlanRecord where
  idempotencyKey : String
  byAgentId : UUID
  error : Option String := none
  deriving DecidableEq

/-- How an attempt to start the plan ended. -/
inductive ReceiptStatus where
  | materialized | failed | blocked
  deriving DecidableEq

/-- The receipt of an attempt to start the plan. -/
structure MaterializationReceipt where
  idempotencyKey : String
  prefix_ : String
  planFingerprint : String
  status : ReceiptStatus
  byAgentId : UUID
  planId : Option UUID := none
  taskIds : List UUID := []
  teamCount : ℕ := 0
  repositories : List String := []
  deriving DecidableEq

/-- `plan_snapshots.discovery`. A key that was removed is `none`. -/
structure DiscoveryBlock where
  analysis : Option AnalysisRecord := none
  candidates : Option CandidatesRecord := none
  classification : Option ClassificationRecord := none
  approval : Option ApprovalRecord := none
  plan : Option PlanRecord := none
  materialization : Option MaterializationReceipt := none
  deriving DecidableEq

/-! ## Where the chain stands -/

/-! ## The tiering -/

/-- The panel's tiers. -/
inductive Tier where
  | required | maybe | excluded
  deriving DecidableEq

/-- A tier as the panel spells it. -/
def Tier.name : Tier → String
  | .required => "required"
  | .maybe => "maybe"
  | .excluded => "excluded"

/-- A tier as the pipeline spells it. -/
def Tier.status : Tier → String
  | .required => "REQUIRED"
  | .maybe => "MAYBE"
  | .excluded => "EXCLUDED"

/-- `tier_of`. -/
def tierOf (status : String) : Tier :=
  let lowered := normalize status
  if lowered = "maybe" then .maybe
  else if lowered = "excluded" then .excluded
  else .required

theorem tierOf_status (tier : Tier) : tierOf tier.status = tier := by
  cases tier <;> decide +kernel

/-- A row of the tiering in force. -/
structure TierRow where
  repository : String
  tier : Tier
  adjusted : Bool := false
  originalTier : Option Tier := none
  deriving DecidableEq

/-- The model's results with their buckets, in order. -/
def ClassificationRecord.tiered (record : ClassificationRecord) : List (Tier × ConfirmationResult) :=
  record.required.map (.required, ·) ++ record.maybe.map (.maybe, ·) ++
    record.excluded.map (.excluded, ·)

/-- The tier the model gave a repository; of several the last. -/
def ClassificationRecord.modelled (record : ClassificationRecord) (repository : String) :
    Option Tier :=
  (record.tiered.reverse.find? fun item => item.2.repository == repository).map (·.1)

/-- `rows[name] = row` of a dictionary that keeps its order. -/
def setTierRow (rows : List TierRow) (row : TierRow) : List TierRow :=
  if row.repository ∈ rows.map TierRow.repository then
    Keyed.write TierRow.repository rows row.repository fun _ => row
  else rows ++ [row]

/-- An adjustment of the tiering in force. -/
def adjustRow (record : ClassificationRecord) (rows : List TierRow) (adjustment : Adjustment) :
    List TierRow :=
  let tier := tierOf adjustment.to_
  let original := record.modelled adjustment.repository
  setTierRow rows
    { repository := adjustment.repository
      tier := tier
      adjusted := decide (original ≠ some tier)
      originalTier := if original = some tier then none else original }

/-- `effective_tiers`: the model's call with the approver's edits on top. -/
def effectiveTiers (record : ClassificationRecord) : List TierRow :=
  let modelled := record.tiered.foldl (fun rows item =>
    setTierRow rows { repository := item.2.repository, tier := item.1 }) []
  (record.adjustments.foldl (adjustRow record) modelled).insertionSort fun a b =>
    a.repository ≤ b.repository

/-- The result of a row in force: the model's under the tier in force, or one of the approver
alone. -/
def resultInForce (record : ClassificationRecord) (row : TierRow) : ConfirmationResult :=
  match record.tiered.reverse.find? fun item => item.2.repository == row.repository with
  | none => { repository := row.repository, status := row.tier.status }
  | some item => { item.2 with status := row.tier.status }

/-- `summary_in_force`: the confirmation summary the approver released. -/
def summaryInForce (record : ClassificationRecord) : TieredSummary :=
  let bucket (tier : Tier) :=
    ((effectiveTiers record).filter fun row => row.tier == tier).map (resultInForce record)
  { required := bucket .required
    maybe := bucket .maybe
    excluded := bucket .excluded
    supplements := record.supplements }

/-! ## Fingerprints -/

/-- `f"sha256:{hashlib.sha256(text.encode()).hexdigest()}"`. -/
def sha256Of (text : List Char) : String :=
  "sha256:" ++ Sha256.hexdigest ((text.flatMap String.utf8EncodeChar).map UInt8.toNat)

/-- A pair of texts as a JSON list. -/
def pairJson (pair : String × String) : Json := .arr [.str pair.1, .str pair.2]

/-- `classification_fingerprint`: over the tiering an approver looks at. -/
def classificationFingerprint (record : ClassificationRecord) : String :=
  let pairs := (record.tiered.map fun item =>
    (item.2.repository, (tierOf item.2.status).name)).insertionSort fun a b => toLex a ≤ toLex b
  sha256Of (Json.compactLayout.dumps (.obj [
    ("tiers", .arr (pairs.map pairJson)),
    ("supplemented_repos", .arr ((sortedSet record.supplements).map .str))]))

end Planning
end RepoMesh
