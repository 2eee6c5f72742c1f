/-
# The plan snapshots of a project

`PlanSnapshotStore`: the rows of one project, told apart by their identifier and by their version.
A row without an execution plan is a draft; linking a plan consumes it. Two of the updates are
conditional, on the version of the discovery block and on the row being unconsumed; the one that
writes a plan into a row is not.
-/
import Mathlib.Data.List.MinMax
import RepoMesh.Planning.DiscoveryBlock

namespace RepoMesh
namespace Planning

open Delivery (UUID)

-- Versions are compared by an order that computes.
local instance versionOrder : Preorder ℤ := Int.instLinearOrder.toPreorder

/-- A plan version. -/
abbrev PlanVersion := {version : ℤ // 1 ≤ version}

/-- `PlanSnapshotRecord`. -/
structure PlanSnapshot where
  id : UUID
  planVersion : PlanVersion
  columns : PlanColumns := {}
  createdByAgentId : Option UUID := none
  executionPlanId : Option UUID := none
  requirementText : Option String := none
  discovery : Option DiscoveryBlock := none
  discoveryVersion : ℕ := 0
  deriving DecidableEq

/-- A draft: no plan has consumed it. -/
def PlanSnapshot.isDraft (row : PlanSnapshot) : Bool := row.executionPlanId.isNone

/-- `dict(draft.discovery or {})`. -/
def PlanSnapshot.block (row : PlanSnapshot) : DiscoveryBlock := row.discovery.getD {}

/-- The snapshots of one project. Identifiers and versions are unique. -/
@[ext] structure PlanSnapshots where
  rows : List PlanSnapshot
  nodup_ids : (rows.map (·.id)).Nodup
  nodup_versions : (rows.map (·.planVersion)).Nodup
  deriving DecidableEq

namespace PlanSnapshots

/-- Write the row of an identifier, but for its identifier and version. -/
def write (s : PlanSnapshots) (id : UUID) (update : PlanSnapshot → PlanSnapshot)
    (hid : ∀ r, (update r).id = r.id) (hversion : ∀ r, (update r).planVersion = r.planVersion) :
    PlanSnapshots where
  rows := Keyed.write PlanSnapshot.id s.rows id update
  nodup_ids := by
    have hkept : (Keyed.write PlanSnapshot.id s.rows id update).map (·.id) = s.rows.map (·.id) :=
      Keyed.keys_write fun r hr => (hid r).trans hr
    rw [hkept]
    exact s.nodup_ids
  nodup_versions := by
    have hkept : (Keyed.write PlanSnapshot.id s.rows id update).map (·.planVersion) =
        s.rows.map (·.planVersion) := by
      rw [Keyed.write, List.map_map]
      refine List.map_congr_left fun r _ => ?_
      show (if r.id = id then update r else r).planVersion = r.planVersion
      split_ifs
      · exact hversion r
      · rfl
    rw [hkept]
    exact s.nodup_versions

/-- The row of an identifier. -/
def find (s : PlanSnapshots) (id : UUID) : Option PlanSnapshot := Keyed.find PlanSnapshot.id s.rows id

theorem find_eq_some {s : PlanSnapshots} {id : UUID} {r : PlanSnapshot} :
    s.find id = some r ↔ r ∈ s.rows ∧ r.id = id := Keyed.find_eq_some s.nodup_ids

end PlanSnapshots

/-! ## Operations -/

/-- What a snapshot is made of. -/
structure NewSnapshot where
  planVersion : PlanVersion
  columns : PlanColumns := {}
  createdByAgentId : Option UUID := none
  executionPlanId : Option UUID := none
  requirementText : Option String := none
  deriving DecidableEq

/-- The row of a new snapshot. -/
def NewSnapshot.row (fields : NewSnapshot) (id : UUID) : PlanSnapshot where
  id := id
  planVersion := fields.planVersion
  columns := fields.columns
  createdByAgentId := fields.createdByAgentId
  executionPlanId := fields.executionPlanId
  requirementText := fields.requirementText

/-- The integration products written back into a row. -/
structure Integration where
  engineeringSpec : String
  contracts : List ContractSpec
  taskDag : List TaskNode
  executionBatches : List (List String)
  graphEdges : Option (List GraphEdge) := none
  deriving DecidableEq

/-- The columns after they are written; without edges the row keeps its own. -/
def Integration.over (products : Integration) (columns : PlanColumns) : PlanColumns where
  engineeringSpec := products.engineeringSpec
  contracts := products.contracts
  taskDag := products.taskDag
  executionBatches := products.executionBatches
  graphEdges := products.graphEdges.getD columns.graphEdges

/-- The exceptions of the store. -/
inductive SnapshotError where
  | alreadyExists | versionConflict
  deriving DecidableEq

/-- The methods of `PlanSnapshotStore`, on one project. -/
inductive SnapshotOp where
  | save (id : UUID) (fields : NewSnapshot)
  | getLatest
  | getByVersion (planVersion : PlanVersion)
  | listAll
  | nextVersion
  | currentDraft
  | linkExecutionPlan (snapshotId executionPlanId : UUID)
  | setDiscovery (snapshotId : UUID) (block : DiscoveryBlock) (expectedVersion : ℕ)
  | setIntegration (snapshotId : UUID) (products : Integration)
  deriving DecidableEq

/-- What they are answered with. -/
@[reducible] def SnapshotAnswer : SnapshotOp → Type
  | .save .. => PlanSnapshot
  | .getLatest => Option PlanSnapshot
  | .getByVersion _ => Option PlanSnapshot
  | .listAll => List PlanSnapshot
  | .nextVersion => PlanVersion
  | .currentDraft => Option PlanSnapshot
  | .linkExecutionPlan .. => Unit
  | .setDiscovery .. => Unit
  | .setIntegration .. => Unit

namespace PlanSnapshots

variable (s : PlanSnapshots)

/-- `get_latest`. -/
def getLatest : Option PlanSnapshot := s.rows.argmax fun r => r.planVersion.1

/-- `list_all`, by version descending. -/
def listAll : List PlanSnapshot := s.rows.insertionSort fun a b => b.planVersion ≤ a.planVersion

/-- `next_version`. -/
def nextVersion : PlanVersion :=
  match s.getLatest with
  | some latest => ⟨latest.planVersion.1 + 1, by have := latest.planVersion.2; omega⟩
  | none => ⟨1, le_rfl⟩

/-- `current_draft`: the highest unconsumed version. -/
def currentDraft : Option PlanSnapshot :=
  (s.rows.filter (·.isDraft)).argmax fun r => r.planVersion.1

/-- A new snapshot collides with none. -/
def Admits (id : UUID) (fields : NewSnapshot) : Prop :=
  id ∉ s.rows.map (·.id) ∧ fields.planVersion ∉ s.rows.map (·.planVersion)

instance (id : UUID) (fields : NewSnapshot) : Decidable (s.Admits id fields) :=
  inferInstanceAs (Decidable (_ ∧ _))

variable {s} in
/-- Insert a new snapshot. -/
def insert {id : UUID} {fields : NewSnapshot} (h : s.Admits id fields) : PlanSnapshots where
  rows := s.rows ++ [fields.row id]
  nodup_ids := Keyed.nodup_append s.nodup_ids fun r hr heq => h.1 (List.mem_map.mpr ⟨r, hr, heq⟩)
  nodup_versions :=
    Keyed.nodup_append s.nodup_versions fun r hr heq => h.2 (List.mem_map.mpr ⟨r, hr, heq⟩)

/-- The row is listed with a discovery block of a version. -/
def AtVersion (id : UUID) (version : ℕ) : Prop := ∃ r ∈ s.rows, r.id = id ∧ r.discoveryVersion = version

/-- The row is listed and unconsumed. -/
def Unconsumed (id : UUID) : Prop := ∃ r ∈ s.rows, r.id = id ∧ r.isDraft = true

instance (id : UUID) (version : ℕ) : Decidable (s.AtVersion id version) :=
  inferInstanceAs (Decidable (∃ r ∈ s.rows, _))

instance (id : UUID) : Decidable (s.Unconsumed id) :=
  inferInstanceAs (Decidable (∃ r ∈ s.rows, _))

/-- The row, consumed by a plan. -/
def linked (id executionPlanId : UUID) : PlanSnapshots :=
  s.write id (fun r => { r with executionPlanId := some executionPlanId }) (fun _ => rfl) fun _ => rfl

/-- The row with another discovery block, under the next version. -/
def withDiscovery (id : UUID) (block : DiscoveryBlock) (expectedVersion : ℕ) : PlanSnapshots :=
  s.write id
    (fun r => { r with discovery := some block, discoveryVersion := expectedVersion + 1 })
    (fun _ => rfl) fun _ => rfl

/-- The row with the integration products. -/
def integrated (id : UUID) (products : Integration) : PlanSnapshots :=
  s.write id (fun r => { r with columns := products.over r.columns }) (fun _ => rfl) fun _ => rfl

/-- The store answers an operation. -/
def exec : (op : SnapshotOp) → PlanSnapshots → Except SnapshotError (SnapshotAnswer op) × PlanSnapshots
  | .save id fields, s =>
    if h : s.Admits id fields then (.ok (fields.row id), insert h) else (.error .alreadyExists, s)
  | .getLatest, s => (.ok s.getLatest, s)
  | .getByVersion version, s => (.ok (s.rows.find? fun r => r.planVersion == version), s)
  | .listAll, s => (.ok s.listAll, s)
  | .nextVersion, s => (.ok s.nextVersion, s)
  | .currentDraft, s => (.ok s.currentDraft, s)
  | .linkExecutionPlan id executionPlanId, s =>
    if s.Unconsumed id then (.ok (), s.linked id executionPlanId) else (.error .alreadyExists, s)
  | .setDiscovery id block expectedVersion, s =>
    if s.AtVersion id expectedVersion then (.ok (), s.withDiscovery id block expectedVersion)
    else (.error .versionConflict, s)
  | .setIntegration id products, s => (.ok (), s.integrated id products)

end PlanSnapshots

end Planning
end RepoMesh
