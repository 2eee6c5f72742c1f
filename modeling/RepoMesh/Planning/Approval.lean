/-
# Approving a classification

`DiscoveryChainService.approve`: the leader's edits are put on top of the edits before them, and a
fingerprint binds the call to the tiering its author read. The fingerprint covers what the model said
and nothing of what approvers changed, so a call releases the tiering its author read exactly when no
other edit moved a repository that the author leaves alone.
-/
import RepoMesh.Foundation.Fallible
import RepoMesh.Foundation.Latest
import RepoMesh.Foundation.Runs
import RepoMesh.Foundation.Versioned
import RepoMesh.Orchestration.Contracts
import RepoMesh.Planning.SnapshotStore

namespace RepoMesh
namespace Planning

open Delivery (UUID)
open Latest (latest)
open Orchestration (AgentRole AgentPrincipalStatus)

/-! ## The command -/

/-- `DiscoveryApprovalCommand`: the organization leader's decision on a classification. -/
structure DiscoveryApprovalCommand where
  decidedByAgentId : UUID
  idempotencyKey : String
  decision : String
  reason : String
  evidenceVersion : String
  adjustments : List (String × String) := []
  deriving DecidableEq

/-- What the directory tells of an agent. -/
structure AgentPrincipalView where
  id : UUID
  organizationId : UUID
  role : AgentRole
  status : AgentPrincipalStatus
  deriving DecidableEq

/-- Why an approval is refused. -/
inductive ApprovalRefusal where
  | issueNotFound | alreadyMaterialised
  | actorNotFound | notALeader | otherOrganization
  | nothingToApprove | unknownDecision (decision : String) | evidenceStale
  | versionConflict (snapshotId : UUID) (expectedVersion : ℕ)
  deriving DecidableEq

/-- `DiscoveryTarget`: the draft a chain write is going to land on. -/
structure DiscoveryTarget where
  snapshotId : UUID
  discoveryVersion : ℕ
  discovery : DiscoveryBlock
  deriving DecidableEq

/-- The target of a draft. -/
def PlanSnapshot.target (draft : PlanSnapshot) : DiscoveryTarget where
  snapshotId := draft.id
  discoveryVersion := draft.discoveryVersion
  discovery := draft.block

/-- `DiscoveryChainService.target`. -/
def target (s : PlanSnapshots) : Except ApprovalRefusal DiscoveryTarget :=
  match s.currentDraft with
  | some draft => .ok draft.target
  | none => if s.listAll = [] then .error .issueNotFound else .error .alreadyMaterialised

/-- `_issue_organization`: the workspace of whoever created the issue. -/
def issueOrganization (directory : UUID → Option AgentPrincipalView) (s : PlanSnapshots) :
    Option UUID := do
  let first ← s.listAll.getLast?
  let creator ← first.createdByAgentId.bind directory
  some creator.organizationId

/-- `require_organization_leader`. -/
def requireOrganizationLeader (directory : UUID → Option AgentPrincipalView) (s : PlanSnapshots)
    (agentId : UUID) : Except ApprovalRefusal AgentPrincipalView :=
  match directory agentId with
  | none => .error .actorNotFound
  | some actor =>
    if actor.status ≠ .active ∨ actor.role ≠ .organizationLeader then .error .notALeader
    else if (issueOrganization directory s).any fun owner => owner != actor.organizationId then
      .error .otherOrganization
    else .ok actor

/-- The tier the model's status gave a repository; of several the last. -/
def ClassificationRecord.original (record : ClassificationRecord) (repository : String) :
    Option Tier :=
  (record.tiered.reverse.find? fun item => item.2.repository == repository).map fun item =>
    tierOf item.2.status

/-- The edits of a command, as they are recorded. -/
def ClassificationRecord.edits (record : ClassificationRecord) (actorId : UUID)
    (adjustments : List (String × String)) : List Adjustment :=
  adjustments.map fun adjustment =>
    { repository := adjustment.1
      from_ := (record.original adjustment.1).map Tier.status
      to_ := (tierOf adjustment.2).status
      byAgentId := actorId }

/-- The classification with more edits. -/
def ClassificationRecord.adjusted (record : ClassificationRecord) (edits : List Adjustment) :
    ClassificationRecord :=
  { record with adjustments := record.adjustments ++ edits }

/-- What `approve` writes into the block; a replay writes nothing. -/
def approvedBlock (actorId : UUID) (block : DiscoveryBlock) (command : DiscoveryApprovalCommand) :
    Except ApprovalRefusal (Option DiscoveryBlock) :=
  match block.classification with
  | none => .error .nothingToApprove
  | some record =>
    if command.decision ∉ ["approved", "changes_requested"] then
      .error (.unknownDecision command.decision)
    else if block.approval.map (·.idempotencyKey) = some command.idempotencyKey then .ok none
    else if command.evidenceVersion ≠ classificationFingerprint record then .error .evidenceStale
    else
      .ok (some
        { block with
          classification := some (record.adjusted (record.edits actorId command.adjustments))
          approval := some
            { state := command.decision
              evidenceVersion := classificationFingerprint record
              decidedByAgentId := actorId
              reason := command.reason
              idempotencyKey := command.idempotencyKey } })

/-- `_commit`: the block lands when the version read is still the version stored. -/
def commit (target : DiscoveryTarget) (block : DiscoveryBlock) (s : PlanSnapshots) :
    Except ApprovalRefusal PlanSnapshots :=
  match s.exec (.setDiscovery target.snapshotId block target.discoveryVersion) with
  | (.ok _, s') => .ok s'
  | (.error _, _) => .error (.versionConflict target.snapshotId target.discoveryVersion)

/-- How an accepted call ends. -/
inductive Approval where
  | replayed (target : DiscoveryTarget)
  | released (target : DiscoveryTarget) (after : PlanSnapshots)

/-- `approve`: the draft is read from the store as it was, and written into the store as it is. -/
def approve (directory : UUID → Option AgentPrincipalView) (command : DiscoveryApprovalCommand)
    (read current : PlanSnapshots) : Except ApprovalRefusal Approval := do
  let target ← target read
  let actor ← requireOrganizationLeader directory read command.decidedByAgentId
  match ← approvedBlock actor.id target.discovery command with
  | none => .ok (.replayed target)
  | some block => return .released target (← commit target block current)

/-! ## Calls of several people -/

/-- A call: what the directory says when it is made, and after how many of the writes made so far the
draft is read, counted back from the last one. -/
structure ApprovalCall where
  command : DiscoveryApprovalCommand
  directory : UUID → Option AgentPrincipalView
  writesAgo : ℕ

/-- The store, and what it was before each write. -/
structure Reviews where
  current : PlanSnapshots
  past : List PlanSnapshots := []

/-- The store as it was before the last writes. -/
def Reviews.ago (reviews : Reviews) (writes : ℕ) : PlanSnapshots :=
  (reviews.current :: reviews.past).getD writes reviews.current

/-- What a call is answered with. -/
def Reviews.answer (reviews : Reviews) (call : ApprovalCall) : Except ApprovalRefusal Approval :=
  approve call.directory call.command (reviews.ago call.writesAgo) reviews.current

/-- One call after the others. -/
def Reviews.next (reviews : Reviews) (call : ApprovalCall) : Reviews :=
  match reviews.answer call with
  | .ok (.released _ after) => { current := after, past := reviews.current :: reviews.past }
  | _ => reviews

/-- The classification a store has for a draft. -/
def PlanSnapshots.classification (s : PlanSnapshots) (id : UUID) : Option ClassificationRecord :=
  (s.find id).bind fun row => row.block.classification

/-! ## The tiering in force -/

/-- The tier of a repository in a tiering. -/
def tierOfRow (rows : List TierRow) (repository : String) : Option Tier :=
  (Keyed.find TierRow.repository rows repository).map (·.tier)

/-- The tier of the last edit that names a repository. -/
def editedTier (edits : List Adjustment) (repository : String) : Option Tier :=
  (latest Adjustment.repository edits repository).map fun edit => tierOf edit.to_

/-- The tier a classification comes to: of the last edit that names the repository, or of the last of
the model's buckets that lists it. -/
def ClassificationRecord.tierOfLast (record : ClassificationRecord) (repository : String) :
    Option Tier :=
  (editedTier record.adjustments repository).or (record.modelled repository)

theorem find_setTierRow (rows : List TierRow) (row : TierRow) (repository : String) :
    Keyed.find TierRow.repository (setTierRow rows row) repository =
      if row.repository = repository then some row
      else Keyed.find TierRow.repository rows repository := by
  by_cases hlisted : row.repository ∈ rows.map TierRow.repository
  · rw [setTierRow, if_pos hlisted]
    by_cases hrow : row.repository = repository
    · subst hrow
      rw [if_pos rfl, Keyed.find_write_self fun _ _ => rfl]
      obtain ⟨old, hold, hkey⟩ := List.mem_map.mp hlisted
      cases hfind : Keyed.find TierRow.repository rows row.repository with
      | none => exact absurd hkey (Keyed.find_eq_none.mp hfind old hold)
      | some found => rfl
    · rw [if_neg hrow, Keyed.find_write_of_ne (fun _ _ => rfl) (Ne.symm hrow)]
  · rw [setTierRow, if_neg hlisted]
    by_cases hrow : row.repository = repository
    · subst hrow
      rw [if_pos rfl, Keyed.find_append_self fun r hr hkey =>
        hlisted (List.mem_map.mpr ⟨r, hr, hkey⟩)]
    · rw [if_neg hrow, Keyed.find_append_of_ne hrow]

theorem keys_setTierRow {rows : List TierRow} (hnd : (rows.map TierRow.repository).Nodup)
    (row : TierRow) : ((setTierRow rows row).map TierRow.repository).Nodup := by
  by_cases hlisted : row.repository ∈ rows.map TierRow.repository
  · rw [setTierRow, if_pos hlisted, Keyed.keys_write fun _ _ => rfl]
    exact hnd
  · rw [setTierRow, if_neg hlisted]
    exact Keyed.nodup_append hnd fun s hs hkey => hlisted (List.mem_map.mpr ⟨s, hs, hkey⟩)

theorem tierOfRow_foldl {α : Type} (items : List α) (row : α → TierRow) (rows : List TierRow)
    (repository : String) :
    tierOfRow (items.foldl (fun rows item => setTierRow rows (row item)) rows) repository =
      ((latest (fun item => (row item).repository) items repository).map fun item =>
        (row item).tier).or (tierOfRow rows repository) := by
  induction items using List.reverseRecOn with
  | nil => simp
  | append_singleton items item ih =>
    rw [List.foldl_append, List.foldl_cons, List.foldl_nil, tierOfRow, find_setTierRow,
      Latest.latest_snoc]
    by_cases hrow : (row item).repository = repository
    · simp [hrow]
    · rw [if_neg hrow, if_neg hrow]
      exact ih

theorem keys_foldl_setTierRow {α : Type} (items : List α) (row : α → TierRow) {rows : List TierRow}
    (hnd : (rows.map TierRow.repository).Nodup) :
    ((items.foldl (fun rows item => setTierRow rows (row item)) rows).map
      TierRow.repository).Nodup := by
  induction items generalizing rows with
  | nil => exact hnd
  | cons item items ih => exact ih (keys_setTierRow hnd (row item))

theorem tierOfRow_perm {rows rows' : List TierRow} (hperm : rows.Perm rows')
    (hnd : (rows.map TierRow.repository).Nodup) (repository : String) :
    tierOfRow rows repository = tierOfRow rows' repository := by
  have hnd' : (rows'.map TierRow.repository).Nodup := (hperm.map _).nodup_iff.mp hnd
  have hfind : Keyed.find TierRow.repository rows repository =
      Keyed.find TierRow.repository rows' repository := by
    refine Option.ext fun row => ?_
    rw [Keyed.find_eq_some hnd, Keyed.find_eq_some hnd', hperm.mem_iff]
  rw [tierOfRow, tierOfRow, hfind]

/-- The row an edit sets. -/
def ClassificationRecord.editRow (record : ClassificationRecord) (edit : Adjustment) : TierRow where
  repository := edit.repository
  tier := tierOf edit.to_
  adjusted := decide (record.modelled edit.repository ≠ some (tierOf edit.to_))
  originalTier :=
    if record.modelled edit.repository = some (tierOf edit.to_) then none
    else record.modelled edit.repository

@[simp] theorem editRow_repository (record : ClassificationRecord) (edit : Adjustment) :
    (record.editRow edit).repository = edit.repository := rfl

@[simp] theorem editRow_tier (record : ClassificationRecord) (edit : Adjustment) :
    (record.editRow edit).tier = tierOf edit.to_ := by
  rw [ClassificationRecord.editRow]

/-- The rows of the model's buckets. -/
def ClassificationRecord.modelledRows (record : ClassificationRecord) : List TierRow :=
  record.tiered.foldl (fun rows item =>
    setTierRow rows { repository := item.2.repository, tier := item.1 }) []

theorem tierOfRow_modelledRows (record : ClassificationRecord) (repository : String) :
    tierOfRow record.modelledRows repository = record.modelled repository := by
  have hbuckets := tierOfRow_foldl record.tiered
    (fun item => { repository := item.2.repository, tier := item.1 }) [] repository
  have hnone : tierOfRow [] repository = none := rfl
  rw [hnone, Option.or_none] at hbuckets
  exact hbuckets

theorem effectiveTiers_perm (record : ClassificationRecord) :
    (effectiveTiers record).Perm (record.adjustments.foldl
      (fun rows edit => setTierRow rows (record.editRow edit)) record.modelledRows) :=
  List.perm_insertionSort _ _

theorem keys_effectiveTiers (record : ClassificationRecord) :
    ((effectiveTiers record).map TierRow.repository).Nodup := by
  have hmodelled : (record.modelledRows.map TierRow.repository).Nodup :=
    keys_foldl_setTierRow record.tiered _ List.nodup_nil
  have hkeys := keys_foldl_setTierRow record.adjustments record.editRow hmodelled
  exact ((effectiveTiers_perm record).map _).nodup_iff.mpr hkeys

/-- **The tiering in force** gives each repository the tier of its last edit, or the model's. -/
theorem tierOfRow_effectiveTiers (record : ClassificationRecord) (repository : String) :
    tierOfRow (effectiveTiers record) repository = record.tierOfLast repository := by
  rw [tierOfRow_perm (effectiveTiers_perm record) (keys_effectiveTiers record), tierOfRow_foldl,
    tierOfRow_modelledRows, ClassificationRecord.tierOfLast, editedTier]
  simp only [editRow_repository, editRow_tier]

/-! ## What approvals do to a classification -/

@[simp] theorem adjusted_adjusted (record : ClassificationRecord) (edits more : List Adjustment) :
    (record.adjusted edits).adjusted more = record.adjusted (edits ++ more) := by
  simp [ClassificationRecord.adjusted]

@[simp] theorem adjusted_nil (record : ClassificationRecord) : record.adjusted [] = record := by
  simp [ClassificationRecord.adjusted]

@[simp] theorem classificationFingerprint_adjusted (record : ClassificationRecord)
    (edits : List Adjustment) :
    classificationFingerprint (record.adjusted edits) = classificationFingerprint record := rfl

theorem tierOfLast_adjusted (record : ClassificationRecord) (edits : List Adjustment)
    (repository : String) :
    (record.adjusted edits).tierOfLast repository =
      (editedTier edits repository).or (record.tierOfLast repository) := by
  have hmodelled : (record.adjusted edits).modelled repository = record.modelled repository := rfl
  have hedits : (record.adjusted edits).adjustments = record.adjustments ++ edits := rfl
  rw [ClassificationRecord.tierOfLast, hmodelled, hedits, editedTier, Latest.latest_append,
    ClassificationRecord.tierOfLast, editedTier, editedTier]
  cases latest Adjustment.repository edits repository with
  | none => rfl
  | some edit => rfl

/-- The tier an author gives a repository: the last one named. -/
def ownTier (own : List (String × String)) (repository : String) : Option Tier :=
  (latest Prod.fst own repository).map fun adjustment => tierOf adjustment.2

theorem editedTier_edits (record : ClassificationRecord) (actorId : UUID)
    (own : List (String × String)) (repository : String) :
    editedTier (record.edits actorId own) repository = ownTier own repository := by
  rw [editedTier, ClassificationRecord.edits, Latest.latest_map Prod.fst own repository
    Adjustment.repository _ fun _ => rfl, Option.map_map, ownTier]
  simp only [Function.comp_def, tierOf_status]

theorem ownTier_eq_none {own : List (String × String)} {repository : String} :
    ownTier own repository = none ↔ repository ∉ own.map Prod.fst := by
  rw [ownTier, Option.map_eq_none_iff, Latest.latest_eq_none, List.mem_map]
  constructor
  · rintro h ⟨adjustment, hadjustment, heq⟩
    exact h adjustment hadjustment heq
  · intro h adjustment hadjustment heq
    exact h ⟨adjustment, hadjustment, heq⟩

/-- **Released as seen**: the tiering in force is the one the author saw, overridden by the author's own
adjustments. -/
def ReleasedAsSeen (released seen : ClassificationRecord) (own : List (String × String)) : Prop :=
  ∀ repository, tierOfRow (effectiveTiers released) repository =
    (ownTier own repository).or (tierOfRow (effectiveTiers seen) repository)

/-- **Unmoved**: what is stored and what the author saw agree on every repository the author leaves
alone, by their last edit or else by the model's buckets. -/
def Unmoved (stored seen : ClassificationRecord) (own : List (String × String)) : Prop :=
  ∀ repository ∉ own.map Prod.fst, stored.tierOfLast repository = seen.tierOfLast repository

/-- **One release.** An accepted call releases what its author saw exactly when the repositories the
author leaves alone are unmoved. -/
theorem releasedAsSeen_iff (stored seen : ClassificationRecord) (actorId : UUID)
    (own : List (String × String)) :
    ReleasedAsSeen (stored.adjusted (stored.edits actorId own)) seen own ↔ Unmoved stored seen own := by
  have hrow : ∀ repository, tierOfRow (effectiveTiers (stored.adjusted (stored.edits actorId own)))
      repository = (ownTier own repository).or (stored.tierOfLast repository) := by
    intro repository
    rw [tierOfRow_effectiveTiers, tierOfLast_adjusted, editedTier_edits]
  constructor
  · intro h repository hown
    have hsame := h repository
    rw [hrow, tierOfRow_effectiveTiers, ownTier_eq_none.mpr hown] at hsame
    exact hsame
  · intro h repository
    rw [hrow, tierOfRow_effectiveTiers]
    cases hown : ownTier own repository with
    | some tier => rfl
    | none => rw [h repository (ownTier_eq_none.mp hown)]

/-- **Later edits.** What was seen is unmoved exactly when the last edit since, of each repository the
author leaves alone, gives it the tier it had. -/
theorem unmoved_adjusted_iff (seen : ClassificationRecord) (since : List Adjustment)
    (own : List (String × String)) :
    Unmoved (seen.adjusted since) seen own ↔
      ∀ repository ∉ own.map Prod.fst, ∀ tier, editedTier since repository = some tier →
        seen.tierOfLast repository = some tier := by
  refine forall₂_congr fun repository _ => ?_
  rw [tierOfLast_adjusted]
  cases editedTier since repository with
  | none => simp
  | some tier =>
    rw [Option.some_or]
    constructor
    · rintro heq tier' htier
      rw [← heq, htier]
    · intro h
      exact (h tier rfl).symm

/-! ## Drafts over a run -/

/-- What becomes of a draft: it stays, or it is written with edits on top of its classification. -/
structure Edited (r r' : PlanSnapshot) : Prop where
  later : r' = r ∨ r.discoveryVersion < r'.discoveryVersion
  sameVersion : r'.planVersion = r.planVersion
  samePlan : r'.executionPlanId = r.executionPlanId
  edits : ∀ record, r.block.classification = some record →
    ∃ since, r'.block.classification = some (record.adjusted since)

theorem Edited.keeps : Versioned.Keeps PlanSnapshot.discoveryVersion Edited where
  refl := fun r => ⟨.inl rfl, rfl, rfl, fun record h => ⟨[], by rw [adjusted_nil]; exact h⟩⟩
  trans := by
    intro a b c hab hbc
    refine ⟨(Versioned.keeps_version _).trans a b c hab.later hbc.later,
      hbc.sameVersion.trans hab.sameVersion, hbc.samePlan.trans hab.samePlan, ?_⟩
    intro record hrecord
    obtain ⟨since, hsince⟩ := hab.edits record hrecord
    obtain ⟨more, hmore⟩ := hbc.edits _ hsince
    exact ⟨since ++ more, by rw [hmore, adjusted_adjusted]⟩
  version := fun _ _ h => h.later

/-- The second store lists the drafts of the first, as approvals leave them. -/
structure Carried (a b : PlanSnapshots) : Prop where
  kept : Versioned.Kept PlanSnapshots.find Edited a b
  ids : b.rows.map (·.id) = a.rows.map (·.id)

theorem Carried.refl (s : PlanSnapshots) : Carried s s := ⟨Versioned.Kept.refl Edited.keeps s, rfl⟩

theorem Carried.trans {a b c : PlanSnapshots} (hab : Carried a b) (hbc : Carried b c) : Carried a c :=
  ⟨hab.kept.trans Edited.keeps hbc.kept, hbc.ids.trans hab.ids⟩

theorem find_withDiscovery (s : PlanSnapshots) (id : UUID) (block : DiscoveryBlock) (version : ℕ) :
    (s.withDiscovery id block version).find id =
      (s.find id).map fun r => { r with discovery := some block, discoveryVersion := version + 1 } :=
  Keyed.find_write_self fun _ h => h

theorem find_withDiscovery_of_ne (s : PlanSnapshots) {id id' : UUID} (hne : id' ≠ id)
    (block : DiscoveryBlock) (version : ℕ) :
    (s.withDiscovery id block version).find id' = s.find id' := by
  have hkeys : ∀ r : PlanSnapshot, r.id = id →
      ({ r with discovery := some block, discoveryVersion := version + 1 } : PlanSnapshot).id = id :=
    fun _ h => h
  exact Keyed.find_write_of_ne hkeys hne

theorem carried_withDiscovery {s : PlanSnapshots} {draft : PlanSnapshot} {block : DiscoveryBlock}
    (hdraft : s.find draft.id = some draft)
    (hedits : ∀ record, draft.block.classification = some record →
      ∃ since, block.classification = some (record.adjusted since)) :
    Carried s (s.withDiscovery draft.id block draft.discoveryVersion) := by
  refine ⟨?_, Keyed.keys_write fun _ hid => hid⟩
  intro id r hr
  by_cases hid : id = draft.id
  · subst hid
    obtain rfl : draft = r := Option.some.inj (hdraft.symm.trans hr)
    rw [find_withDiscovery, hdraft]
    exact ⟨_, rfl, .inr (Nat.lt_succ_self _), rfl, rfl, hedits⟩
  · rw [find_withDiscovery_of_ne _ hid]
    exact ⟨r, hr, Edited.keeps.refl r⟩

theorem currentDraft_eq_some {s : PlanSnapshots} {draft : PlanSnapshot} :
    s.currentDraft = some draft ↔ (draft ∈ s.rows ∧ draft.isDraft = true) ∧
      ∀ row ∈ s.rows, row.isDraft = true → row.planVersion ≤ draft.planVersion := by
  rw [PlanSnapshots.currentDraft, ← Option.mem_def, List.mem_argmax_iff]
  simp only [List.mem_filter, and_imp]
  constructor
  · rintro ⟨hmem, hmax, -⟩
    exact ⟨hmem, fun row hrow hopen => hmax row hrow hopen⟩
  · rintro ⟨hmem, hmax⟩
    refine ⟨hmem, fun row hrow hopen => hmax row hrow hopen, fun row hrow hopen hle => ?_⟩
    have hversion : draft.planVersion = row.planVersion :=
      Subtype.ext (le_antisymm hle (hmax row hrow hopen))
    rw [List.inj_on_of_nodup_map s.nodup_versions hmem.1 hrow hversion]

theorem find_of_currentDraft {s : PlanSnapshots} {draft : PlanSnapshot}
    (h : s.currentDraft = some draft) : s.find draft.id = some draft :=
  PlanSnapshots.find_eq_some.mpr ⟨(currentDraft_eq_some.mp h).1.1, rfl⟩

/-! ## One call -/

/-- **What is written.** The edits of the command on top of the classification, and its approval. -/
theorem approvedBlock_some {actorId : UUID} {block written : DiscoveryBlock}
    {command : DiscoveryApprovalCommand} (h : approvedBlock actorId block command = .ok (some written)) :
    ∃ record, block.classification = some record ∧
      command.decision ∈ ["approved", "changes_requested"] ∧
      block.approval.map (·.idempotencyKey) ≠ some command.idempotencyKey ∧
      command.evidenceVersion = classificationFingerprint record ∧
      written.classification = some (record.adjusted (record.edits actorId command.adjustments)) ∧
      written.approval.map (·.idempotencyKey) = some command.idempotencyKey := by
  unfold approvedBlock at h
  split at h
  · cases h
  · rename_i record hrecord
    split at h
    · cases h
    · rename_i hdecision
      split at h
      · simp at h
      · rename_i hkey
        split at h
        · cases h
        · rename_i hfresh
          obtain rfl := Option.some.inj (Except.ok.inj h)
          exact ⟨record, hrecord, not_not.mp hdecision, hkey, not_not.mp hfresh, rfl, rfl⟩

theorem commit_ok {found : DiscoveryTarget} {block : DiscoveryBlock} {s after : PlanSnapshots} :
    commit found block s = .ok after ↔ s.AtVersion found.snapshotId found.discoveryVersion ∧
      after = s.withDiscovery found.snapshotId block found.discoveryVersion := by
  unfold commit PlanSnapshots.exec
  by_cases hat : s.AtVersion found.snapshotId found.discoveryVersion
  · simp [hat, eq_comm]
  · simp [hat]

theorem target_ok {s : PlanSnapshots} {found : DiscoveryTarget} :
    target s = .ok found ↔ ∃ draft, s.currentDraft = some draft ∧ found = draft.target := by
  unfold target
  cases s.currentDraft with
  | none =>
    by_cases hempty : s.listAll = []
    · simp [hempty]
    · simp [hempty]
  | some draft => simp [eq_comm]

/-- What a released call found and wrote. -/
structure Release (call : ApprovalCall) (read current : PlanSnapshots) (target : DiscoveryTarget)
    (after : PlanSnapshots) (draft : PlanSnapshot) (actor : AgentPrincipalView)
    (record : ClassificationRecord) (written : DiscoveryBlock) : Prop where
  draft_read : read.currentDraft = some draft
  target_eq : target = draft.target
  record_read : draft.block.classification = some record
  decision_known : call.command.decision ∈ ["approved", "changes_requested"]
  fingerprint : call.command.evidenceVersion = classificationFingerprint record
  version_current : current.AtVersion draft.id draft.discoveryVersion
  after_eq : after = current.withDiscovery draft.id written draft.discoveryVersion
  edited : written.classification =
    some (record.adjusted (record.edits actor.id call.command.adjustments))
  keyed : written.approval.map (·.idempotencyKey) = some call.command.idempotencyKey

/-- **What a call does.** -/
theorem approve_released {call : ApprovalCall} {read current after : PlanSnapshots}
    {found : DiscoveryTarget}
    (h : approve call.directory call.command read current = .ok (.released found after)) :
    ∃ draft actor record written,
      Release call read current found after draft actor record written := by
  obtain ⟨goal, htarget, h⟩ := Fallible.bind_ok h
  obtain ⟨actor, -, h⟩ := Fallible.bind_ok h
  obtain ⟨written, hwritten, h⟩ := Fallible.bind_ok h
  cases written with
  | none => cases h
  | some block =>
    obtain ⟨stored, hcommit, h⟩ := Fallible.bind_ok h
    obtain ⟨rfl, rfl⟩ : goal = found ∧ stored = after := by
      have hpair := Except.ok.inj h
      injection hpair with hgoal hstored
      exact ⟨hgoal, hstored⟩
    obtain ⟨draft, hdraft, rfl⟩ := target_ok.mp htarget
    obtain ⟨hversion, hafter⟩ := commit_ok.mp hcommit
    obtain ⟨record, hrecord, hdecision, -, hfresh, hedited, hkey⟩ := approvedBlock_some hwritten
    exact ⟨draft, actor, record, block, hdraft, rfl, hrecord, hdecision, hfresh, hversion, hafter,
      hedited, hkey⟩

/-! ## Runs of calls -/

/-- Every store of the past is kept in the present one. -/
def Reviews.Continuous (reviews : Reviews) : Prop :=
  ∀ s ∈ reviews.current :: reviews.past, Carried s reviews.current

theorem Reviews.ago_mem (reviews : Reviews) (writes : ℕ) :
    reviews.ago writes ∈ reviews.current :: reviews.past := by
  rw [Reviews.ago, List.getD_eq_getElem?_getD]
  cases h : (reviews.current :: reviews.past)[writes]? with
  | none => exact List.mem_cons_self
  | some s => exact List.mem_of_getElem? h

/-- **What was read is still there.** A call that is released found the draft as it is stored. -/
theorem Reviews.Continuous.current_draft {reviews : Reviews} (hcontinuous : reviews.Continuous)
    {call : ApprovalCall} {found : DiscoveryTarget} {after : PlanSnapshots} {draft : PlanSnapshot}
    {actor : AgentPrincipalView} {record : ClassificationRecord} {written : DiscoveryBlock}
    (h : Release call (reviews.ago call.writesAgo) reviews.current found after draft actor record
      written) : reviews.current.find draft.id = some draft := by
  have hread := find_of_currentDraft h.draft_read
  have hseen : Versioned.Seen PlanSnapshots.find Edited reviews.current draft.id draft :=
    (hcontinuous _ (reviews.ago_mem _)).kept _ _ hread
  obtain ⟨row, hrow, hid, hversion⟩ := h.version_current
  have hfound : reviews.current.find draft.id = some row := PlanSnapshots.find_eq_some.mpr ⟨hrow, hid⟩
  rw [hfound, hseen.current Edited.keeps hfound hversion]

/-- **Step.** One call keeps the past in the present. -/
theorem Reviews.Continuous.next {reviews : Reviews} (hcontinuous : reviews.Continuous)
    (call : ApprovalCall) : (reviews.next call).Continuous := by
  unfold Reviews.next
  split
  · rename_i found after hanswer
    obtain ⟨draft, actor, record, written, h⟩ := approve_released hanswer
    have hcarried : Carried reviews.current after := by
      rw [h.after_eq]
      refine carried_withDiscovery (hcontinuous.current_draft h) fun record' hrecord => ?_
      obtain rfl := Option.some.inj (h.record_read.symm.trans hrecord)
      exact ⟨_, h.edited⟩
    intro s hs
    rcases List.mem_cons.mp hs with rfl | hs
    · exact Carried.refl _
    · exact (hcontinuous s hs).trans hcarried
  · exact hcontinuous

/-- The stores after several calls. -/
def reviewsAfter (start : PlanSnapshots) (calls : List ApprovalCall) : Reviews :=
  calls.foldl Reviews.next { current := start }

/-- **Run.** So do all calls. -/
theorem continuous_reviewsAfter (start : PlanSnapshots) (calls : List ApprovalCall) :
    (reviewsAfter start calls).Continuous := by
  have hstart : Reviews.Continuous { current := start } := by
    intro s hs
    rw [List.mem_singleton.mp hs]
    exact Carried.refl _
  exact Runs.states_invariant (fun reviews call h => h.next call) hstart calls _
    (Runs.foldl_mem_states _ _)

theorem carried_foldl {reviews : Reviews} (hcontinuous : reviews.Continuous)
    (calls : List ApprovalCall) :
    Carried reviews.current (calls.foldl Reviews.next reviews).current := by
  induction calls generalizing reviews with
  | nil => exact Carried.refl _
  | cons call calls ih =>
    refine Carried.trans ?_ (ih (hcontinuous.next call))
    have hnext := hcontinuous.next call
    unfold Reviews.next at hnext ⊢
    split
    · rename_i found after hanswer
      rw [hanswer] at hnext
      exact hnext _ (List.mem_cons_of_mem _ List.mem_cons_self)
    · exact Carried.refl _

theorem isSome_find_iff {s : PlanSnapshots} {id : UUID} :
    (s.find id).isSome ↔ id ∈ s.rows.map (·.id) := by
  rw [Option.isSome_iff_exists, List.mem_map]
  exact exists_congr fun row => PlanSnapshots.find_eq_some

theorem Carried.currentDraft {a b : PlanSnapshots} (hcarried : Carried a b)
    {draft draft' : PlanSnapshot} (hdraft : a.currentDraft = some draft)
    (hfound : b.find draft.id = some draft') : b.currentDraft = some draft' := by
  obtain ⟨⟨hmem, hopen⟩, hnewest⟩ := currentDraft_eq_some.mp hdraft
  have hsame : Edited draft draft' := by
    obtain ⟨row, hrow, hedited⟩ := hcarried.kept _ _ (find_of_currentDraft hdraft)
    rwa [Option.some.inj (hfound.symm.trans hrow)]
  refine currentDraft_eq_some.mpr ⟨⟨(PlanSnapshots.find_eq_some.mp hfound).1, ?_⟩, ?_⟩
  · rw [PlanSnapshot.isDraft, hsame.samePlan]
    exact hopen
  · intro row hrow hrowOpen
    have hrowFound : b.find row.id = some row := PlanSnapshots.find_eq_some.mpr ⟨hrow, rfl⟩
    have hlisted : row.id ∈ a.rows.map (·.id) := hcarried.ids ▸ List.mem_map.mpr ⟨row, hrow, rfl⟩
    obtain ⟨old, hold⟩ := Option.isSome_iff_exists.mp (isSome_find_iff.mpr hlisted)
    obtain ⟨row', hrow', hedited⟩ := hcarried.kept _ _ hold
    obtain rfl := Option.some.inj (hrowFound.symm.trans hrow')
    rw [hsame.sameVersion, hedited.sameVersion]
    refine hnewest old (PlanSnapshots.find_eq_some.mp hold).1 ?_
    rw [PlanSnapshot.isDraft, ← hedited.samePlan]
    exact hrowOpen

/-- The key of the approval a store has for a draft. -/
def PlanSnapshots.approvalKey (s : PlanSnapshots) (id : UUID) : Option String :=
  (s.find id).bind fun row => row.block.approval.map (·.idempotencyKey)

/-- The block a call writes. -/
def releasedBlock (actorId : UUID) (block : DiscoveryBlock) (record : ClassificationRecord)
    (command : DiscoveryApprovalCommand) : DiscoveryBlock :=
  { block with
    classification := some (record.adjusted (record.edits actorId command.adjustments))
    approval := some
      { state := command.decision
        evidenceVersion := classificationFingerprint record
        decidedByAgentId := actorId
        reason := command.reason
        idempotencyKey := command.idempotencyKey } }

section Fresh

variable {reviews : Reviews} {call : ApprovalCall} {draft : PlanSnapshot}
  {record : ClassificationRecord} {actor : AgentPrincipalView}

theorem answer_fresh (hread : call.writesAgo = 0)
    (hdraft : reviews.current.currentDraft = some draft)
    (hactor : requireOrganizationLeader call.directory reviews.current
      call.command.decidedByAgentId = .ok actor) {written : Option DiscoveryBlock}
    (hwritten : approvedBlock actor.id draft.block call.command = .ok written) :
    reviews.answer call = .ok (match written with
      | none => .replayed draft.target
      | some block => .released draft.target
        (reviews.current.withDiscovery draft.id block draft.discoveryVersion)) := by
  have hago : reviews.ago call.writesAgo = reviews.current := by rw [hread]; rfl
  have hblock : approvedBlock actor.id draft.target.discovery call.command = .ok written := hwritten
  rw [Reviews.answer, approve, hago, target_ok.mpr ⟨draft, hdraft, rfl⟩, Fallible.ok_bind, hactor,
    Fallible.ok_bind, hblock, Fallible.ok_bind]
  cases written with
  | none => rfl
  | some block =>
    have hversion : reviews.current.AtVersion draft.id draft.discoveryVersion :=
      ⟨draft, (currentDraft_eq_some.mp hdraft).1.1, rfl, rfl⟩
    have hcommit : commit draft.target block reviews.current =
        .ok (reviews.current.withDiscovery draft.id block draft.discoveryVersion) :=
      commit_ok.mpr ⟨hversion, rfl⟩
    simp only [hcommit, Fallible.ok_bind]
    rfl

theorem approvedBlock_fresh {actorId : UUID} {block : DiscoveryBlock}
    {command : DiscoveryApprovalCommand} (hrecord : block.classification = some record)
    (hdecision : command.decision ∈ ["approved", "changes_requested"])
    (hkey : block.approval.map (·.idempotencyKey) ≠ some command.idempotencyKey)
    (hfresh : command.evidenceVersion = classificationFingerprint record) :
    approvedBlock actorId block command = .ok (some (releasedBlock actorId block record command)) := by
  unfold approvedBlock
  rw [hrecord]
  simp only
  rw [if_neg (not_not.mpr hdecision), if_neg hkey, if_neg (not_not.mpr hfresh)]
  rfl

/-- **The same call again.** A call that was released before, made again by someone who may make it and
read from the store as it is, changes nothing exactly when the approval stored still bears its key. -/
theorem next_eq_self_iff (hread : call.writesAgo = 0)
    (hdraft : reviews.current.currentDraft = some draft)
    (hactor : requireOrganizationLeader call.directory reviews.current
      call.command.decidedByAgentId = .ok actor)
    (hrecord : draft.block.classification = some record)
    (hdecision : call.command.decision ∈ ["approved", "changes_requested"])
    (hfresh : call.command.evidenceVersion = classificationFingerprint record) :
    reviews.next call = reviews ↔
      reviews.current.approvalKey draft.id = some call.command.idempotencyKey := by
  have hfind := find_of_currentDraft hdraft
  have hkey : reviews.current.approvalKey draft.id = draft.block.approval.map (·.idempotencyKey) := by
    rw [PlanSnapshots.approvalKey, hfind, Option.bind_some]
  rw [hkey]
  by_cases hsame : draft.block.approval.map (·.idempotencyKey) = some call.command.idempotencyKey
  · have hreplay : approvedBlock actor.id draft.block call.command = .ok none := by
      simp [approvedBlock, hrecord, hdecision, hsame]
    refine iff_of_true ?_ hsame
    rw [Reviews.next, answer_fresh hread hdraft hactor hreplay]
  · have hwritten := @approvedBlock_fresh record actor.id _ _ hrecord hdecision hsame hfresh
    refine iff_of_false (fun hnext => ?_) hsame
    have hafter : (reviews.next call).current = reviews.current.withDiscovery draft.id
        (releasedBlock actor.id draft.block record call.command) draft.discoveryVersion := by
      rw [Reviews.next, answer_fresh hread hdraft hactor hwritten]
    have hfound := find_withDiscovery reviews.current draft.id
      (releasedBlock actor.id draft.block record call.command) draft.discoveryVersion
    rw [← hafter, hnext, hfind, Option.map_some, Option.some.injEq] at hfound
    have hraised : draft.discoveryVersion = draft.discoveryVersion + 1 :=
      congrArg PlanSnapshot.discoveryVersion hfound
    omega

end Fresh

/-- **Approvals over a run.** After any calls, a call that is released leaves a draft whose tiering in
force is the one its author saw, with the author's adjustments on top, exactly when the repositories
the author leaves alone are unmoved: when no edit recorded since the reading moved one. A call answered
as replayed changes nothing; a call that was released and is made again changes nothing exactly when
the approval stored still bears its key. -/
theorem approvals_release (start : PlanSnapshots) (calls : List ApprovalCall) (call : ApprovalCall) :
    (∀ found after, (reviewsAfter start calls).answer call = .ok (.released found after) →
      ∃ stored released,
        (reviewsAfter start calls).current.classification found.snapshotId = some stored ∧
        after.classification found.snapshotId = some released ∧
        (∀ seen, call.command.evidenceVersion = classificationFingerprint seen →
          (ReleasedAsSeen released seen call.command.adjustments ↔
            Unmoved stored seen call.command.adjustments)) ∧
        ∀ writes seen, ((reviewsAfter start calls).ago writes).classification found.snapshotId =
            some seen →
          ∃ since, stored = seen.adjusted since ∧
            (ReleasedAsSeen released seen call.command.adjustments ↔
              ∀ repository ∉ call.command.adjustments.map Prod.fst, ∀ tier,
                editedTier since repository = some tier →
                seen.tierOfLast repository = some tier)) ∧
    (∀ found, (reviewsAfter start calls).answer call = .ok (.replayed found) →
      (reviewsAfter start calls).next call = reviewsAfter start calls) ∧
    ∀ before first later found after actor, calls = before ++ first :: later →
      (reviewsAfter start before).answer first = .ok (.released found after) →
      call.command = first.command → call.writesAgo = 0 →
      requireOrganizationLeader call.directory (reviewsAfter start calls).current
        call.command.decidedByAgentId = .ok actor →
      ((reviewsAfter start calls).next call = reviewsAfter start calls ↔
        (reviewsAfter start calls).current.approvalKey found.snapshotId =
          some call.command.idempotencyKey) := by
  refine ⟨?_, ?_, ?_⟩
  · intro found after hanswer
    have hcontinuous := continuous_reviewsAfter start calls
    obtain ⟨draft, actor, record, written, h⟩ := approve_released hanswer
    obtain rfl := h.target_eq
    have hdraft := hcontinuous.current_draft h
    have hstored : (reviewsAfter start calls).current.classification draft.id = some record := by
      rw [PlanSnapshots.classification, hdraft]
      exact h.record_read
    have hreleased : after.classification draft.id =
        some (record.adjusted (record.edits actor.id call.command.adjustments)) := by
      rw [PlanSnapshots.classification, h.after_eq, find_withDiscovery, hdraft]
      exact h.edited
    refine ⟨record, _, hstored, hreleased, fun seen _ => releasedAsSeen_iff .., ?_⟩
    intro writes seen hseen
    obtain ⟨row, hrow, hrowSeen⟩ := Option.bind_eq_some_iff.mp hseen
    obtain ⟨row', hrow', hedited⟩ := (hcontinuous _ (Reviews.ago_mem _ writes)).kept _ _ hrow
    obtain rfl : draft = row' := Option.some.inj (hdraft.symm.trans hrow')
    obtain ⟨since, hsince⟩ := hedited.edits seen hrowSeen
    obtain rfl := Option.some.inj (h.record_read.symm.trans hsince)
    exact ⟨since, rfl, (releasedAsSeen_iff ..).trans (unmoved_adjusted_iff ..)⟩
  · intro found hanswer
    rw [Reviews.next, hanswer]
  · rintro before first later found after actor rfl hanswer hcommand hread hactor
    obtain ⟨draft, actor', record, written, h⟩ := approve_released hanswer
    obtain rfl := h.target_eq
    have hcontinuous := continuous_reviewsAfter start before
    have hdraft := hcontinuous.current_draft h
    have hrun : reviewsAfter start (before ++ first :: later) =
        (first :: later).foldl Reviews.next (reviewsAfter start before) := List.foldl_append
    have hcarried : Carried (reviewsAfter start before).current
        (reviewsAfter start (before ++ first :: later)).current := by
      rw [hrun]
      exact carried_foldl hcontinuous _
    have hfirst : (reviewsAfter start before).current.currentDraft = some draft :=
      (hcontinuous _ (Reviews.ago_mem _ _)).currentDraft h.draft_read hdraft
    obtain ⟨draft', hdraft', hedited⟩ := hcarried.kept _ _ hdraft
    have hnow := hcarried.currentDraft hfirst hdraft'
    obtain ⟨since, hsince⟩ := hedited.edits record h.record_read
    have hid : draft'.id = draft.id := (PlanSnapshots.find_eq_some.mp hdraft').2
    have hiff := next_eq_self_iff hread hnow hactor hsince (hcommand ▸ h.decision_known)
      (by rw [classificationFingerprint_adjusted, hcommand]; exact h.fingerprint)
    rw [hid] at hiff
    exact hiff

/-! ## An edit in between -/

/-- A classification that requires one repository. -/
def webRecord : ClassificationRecord where
  required := [{ repository := "web", status := "REQUIRED" }]
  idempotencyKey := "classification-1"
  byAgentId := 1

/-- The draft with that classification. -/
def webDraft : PlanSnapshot where
  id := 10
  planVersion := ⟨1, first_version⟩
  discovery := some { classification := some webRecord }

/-- The store with that draft. -/
def webStore : PlanSnapshots := ⟨[webDraft], by simp, by simp⟩

/-- Everyone is an organization leader. -/
def leaders (id : UUID) : Option AgentPrincipalView :=
  some { id := id, organizationId := 7, role := .organizationLeader, status := .active }

/-- An approval of that classification. -/
def webApproval (agentId : UUID) (key : String) (adjustments : List (String × String)) :
    ApprovalCall where
  command :=
    { decidedByAgentId := agentId
      idempotencyKey := key
      decision := "approved"
      reason := "as discussed"
      evidenceVersion := classificationFingerprint webRecord
      adjustments := adjustments }
  directory := leaders
  writesAgo := 0

/-- The first leader excludes the repository. -/
def firstApproval : ApprovalCall := webApproval 1 "first" [("web", "excluded")]

/-- The second leader releases the classification as it was, unchanged. -/
def secondApproval : ApprovalCall := webApproval 2 "second" []

/-- The block after the first approval. -/
def firstBlock : DiscoveryBlock :=
  releasedBlock 1 webDraft.block webRecord firstApproval.command

/-- The store after the first approval. -/
def firstStore : PlanSnapshots := webStore.withDiscovery 10 firstBlock 0

theorem reviewsAfter_first :
    reviewsAfter webStore [firstApproval] = { current := firstStore, past := [webStore] } := by
  have hwritten : approvedBlock 1 webDraft.block firstApproval.command = .ok (some firstBlock) :=
    approvedBlock_fresh rfl (by decide) (by decide) rfl
  have hanswer : Reviews.answer { current := webStore } firstApproval =
      .ok (.released webDraft.target firstStore) :=
    @answer_fresh _ _ _ ⟨1, 7, .organizationLeader, .active⟩ rfl rfl rfl _ hwritten
  rw [reviewsAfter, List.foldl_cons, List.foldl_nil, Reviews.next, hanswer]

/-- The classification after the first approval. -/
def firstRecord : ClassificationRecord :=
  webRecord.adjusted (webRecord.edits 1 [("web", "excluded")])

/-- The draft after the first approval. -/
def firstDraft : PlanSnapshot :=
  { webDraft with discovery := some firstBlock, discoveryVersion := 1 }

/-- The store after the second approval. -/
def secondStore : PlanSnapshots :=
  firstStore.withDiscovery 10 (releasedBlock 2 firstBlock firstRecord secondApproval.command) 1

theorem answer_second :
    (reviewsAfter webStore [firstApproval]).answer secondApproval =
      .ok (.released firstDraft.target secondStore) := by
  have hwritten : approvedBlock 2 firstDraft.block secondApproval.command =
      .ok (some (releasedBlock 2 firstBlock firstRecord secondApproval.command)) :=
    approvedBlock_fresh rfl (by decide) (by decide) rfl
  rw [reviewsAfter_first]
  exact @answer_fresh _ _ _ ⟨2, 7, .organizationLeader, .active⟩ rfl rfl rfl _ hwritten

/-- The classification after both. -/
def secondRecord : ClassificationRecord := firstRecord.adjusted (firstRecord.edits 2 [])

/-- **An unseen tiering is released.** The second leader saw the repository required and changed
nothing; released is the first leader's exclusion. -/
theorem unseen_released :
    (reviewsAfter webStore [firstApproval]).answer secondApproval =
        .ok (.released firstDraft.target secondStore) ∧
      ((reviewsAfter webStore [firstApproval]).ago 1).classification 10 = some webRecord ∧
      secondApproval.command.evidenceVersion = classificationFingerprint webRecord ∧
      secondStore.classification 10 = some secondRecord ∧
      tierOfRow (effectiveTiers webRecord) "web" = some .required ∧
      tierOfRow (effectiveTiers secondRecord) "web" = some .excluded ∧
      ¬ ReleasedAsSeen secondRecord webRecord secondApproval.command.adjustments := by
  have hseen : tierOfRow (effectiveTiers webRecord) "web" = some .required := by
    rw [tierOfRow_effectiveTiers]
    decide
  have hreleased : tierOfRow (effectiveTiers secondRecord) "web" = some .excluded := by
    rw [tierOfRow_effectiveTiers, secondRecord, firstRecord, tierOfLast_adjusted, tierOfLast_adjusted,
      editedTier_edits, editedTier_edits]
    decide +kernel
  refine ⟨answer_second, ?_, rfl, ?_, hseen, hreleased, fun h => ?_⟩
  · rw [reviewsAfter_first]
    rfl
  · rfl
  · have hsame := h "web"
    rw [hreleased, hseen] at hsame
    revert hsame
    decide

end Planning
end RepoMesh
