/-
# The tiering in force

`summary_in_force` rebuilds the summary that integration is fed: each repository of the effective tiers
once, in the bucket and with the status of its tier, with all else the model said. Integration plans for
the repositories whose effective tier is `required` or `maybe`.
-/
import RepoMesh.Planning.ClassificationBlock

namespace RepoMesh
namespace Planning
namespace Confirmation

open Latest (latest)

/-! ## The tiering -/

/-- The names of all results. -/
def ConfirmationSummary.repositories (summary : ConfirmationSummary) : List String :=
  summary.results.map ConfirmationResult.repository

section

variable {summary : ConfirmationSummary} {adjustments : List Adjustment} {name : String} {tier : Tier}
  {result : ConfirmationResult} {row : TierRow} {rows : List TierRow}

theorem ConfirmationSummary.mem_results :
    result ∈ summary.results ↔ ∃ tier, result ∈ summary.bucket tier := by
  rw [ConfirmationSummary.results, List.mem_append, List.mem_append]
  constructor
  · rintro ((h | h) | h)
    · exact ⟨.required, h⟩
    · exact ⟨.maybe, h⟩
    · exact ⟨.excluded, h⟩
  · rintro ⟨tier, h⟩
    cases tier with
    | required => exact .inl (.inl h)
    | maybe => exact .inl (.inr h)
    | excluded => exact .inr h

theorem mem_tiered_tiersRecord :
    (∃ item ∈ (summary.tiersRecord adjustments).tiered, item.2.repository = name ∧ item.1 = tier) ↔
      ∃ result ∈ summary.bucket tier, result.repository = name := by
  rw [ClassificationRecord.tiered, ConfirmationSummary.tiersRecord]
  simp only [List.map_map, List.mem_append, List.mem_map, Function.comp_apply]
  constructor
  · rintro ⟨item, (⟨result, h, rfl⟩ | ⟨result, h, rfl⟩) | ⟨result, h, rfl⟩, hname, rfl⟩
    · exact ⟨result, h, hname⟩
    · exact ⟨result, h, hname⟩
    · exact ⟨result, h, hname⟩
  · rintro ⟨result, h, hname⟩
    cases tier with
    | required => exact ⟨_, .inl (.inl ⟨result, h, rfl⟩), hname, rfl⟩
    | maybe => exact ⟨_, .inl (.inr ⟨result, h, rfl⟩), hname, rfl⟩
    | excluded => exact ⟨_, .inr ⟨result, h, rfl⟩, hname, rfl⟩

theorem names_tiersRecord (summary : ConfirmationSummary) (adjustments : List Adjustment) :
    ((summary.tiersRecord adjustments).tiered.map fun item => item.2.repository) =
      summary.repositories := by
  rw [ClassificationRecord.tiered, ConfirmationSummary.tiersRecord, ConfirmationSummary.repositories,
    ConfirmationSummary.results]
  simp only [List.map_append, List.map_map]
  rfl

theorem modelled_iff (hdistinct : summary.repositories.Nodup) :
    (summary.tiersRecord adjustments).modelled name = some tier ↔
      ∃ result ∈ summary.bucket tier, result.repository = name := by
  let key (item : Tier × Planning.ConfirmationResult) : String := item.2.repository
  have hnd : (((summary.tiersRecord adjustments).tiered.reverse).map key).Nodup := by
    rw [List.map_reverse, List.nodup_reverse]
    exact (names_tiersRecord summary adjustments).symm ▸ hdistinct
  have hfind : (summary.tiersRecord adjustments).modelled name =
      (Keyed.find key (summary.tiersRecord adjustments).tiered.reverse name).map (·.1) := rfl
  rw [hfind, Option.map_eq_some_iff, ← @mem_tiered_tiersRecord summary adjustments]
  simp only [Keyed.find_eq_some hnd, List.mem_reverse, and_assoc]
  rfl

theorem tierOfRow_iff (hnd : (rows.map TierRow.repository).Nodup) :
    tierOfRow rows name = some tier ↔ ∃ row ∈ rows, row.repository = name ∧ row.tier = tier := by
  rw [tierOfRow, Option.map_eq_some_iff]
  simp only [Keyed.find_eq_some hnd, and_assoc]

theorem editedTier_tiersRecord (name : String) :
    editedTier (summary.tiersRecord adjustments).adjustments name = editedTier adjustments name := by
  let bare (adjustment : Adjustment) : Adjustment :=
    { adjustment with from_ := none, byAgentId := 0 }
  have hlatest : latest Adjustment.repository (adjustments.map bare) name =
      (latest Adjustment.repository adjustments name).map bare :=
    Latest.latest_map Adjustment.repository adjustments name Adjustment.repository bare fun _ => rfl
  have hadjustments : (summary.tiersRecord adjustments).adjustments = adjustments.map bare := rfl
  have hto (adjustment : Adjustment) : (bare adjustment).to_ = adjustment.to_ := rfl
  rw [editedTier, editedTier, hadjustments, hlatest, Option.map_map]
  simp only [Function.comp_def, hto]

theorem latest_results (hdistinct : summary.repositories.Nodup) :
    latest ConfirmationResult.repository summary.results name = some result ↔
      result ∈ summary.results ∧ result.repository = name := by
  have hnd : (summary.results.reverse.map ConfirmationResult.repository).Nodup := by
    rw [List.map_reverse, List.nodup_reverse]
    exact hdistinct
  have hfind : latest ConfirmationResult.repository summary.results name =
      Keyed.find ConfirmationResult.repository summary.results.reverse name := rfl
  rw [hfind, Keyed.find_eq_some hnd, List.mem_reverse]

@[simp] theorem resultInForce_repository (byName : List ConfirmationResult) (row : TierRow) :
    (resultInForce byName row).repository = row.repository := by
  unfold resultInForce
  split
  · rfl
  · rename_i result hlatest
    split_ifs
    · exact (Latest.mem_of_latest hlatest).2
    · exact (Latest.mem_of_latest hlatest).2

theorem resultInForce_of_modelled (hdistinct : summary.repositories.Nodup)
    (hresult : result ∈ summary.results) (hname : result.repository = row.repository) :
    resultInForce summary.results row = { result with status := row.tier.status } := by
  have hlatest := (latest_results hdistinct).mpr ⟨hresult, hname⟩
  rw [resultInForce, hlatest]
  by_cases hstatus : result.status = row.tier.status
  · rw [← hstatus]
    exact if_neg (not_not.mpr rfl)
  · exact if_pos hstatus

theorem resultInForce_of_added (hname : row.repository ∉ summary.repositories) :
    resultInForce summary.results row =
      { repository := row.repository
        status := row.tier.status
        reason := "Added by the approver during classification review" } := by
  have hlatest : latest ConfirmationResult.repository summary.results row.repository = none :=
    Latest.latest_eq_none.mpr fun result hresult hsame =>
      hname (List.mem_map.mpr ⟨result, hresult, hsame⟩)
  rw [resultInForce, hlatest]

theorem tiers_perm (rows : List TierRow) :
    ((rows.filter fun row => row.tier = .required) ++ (rows.filter fun row => row.tier = .maybe) ++
      rows.filter fun row => row.tier = .excluded).Perm rows := by
  induction rows with
  | nil => exact .refl _
  | cons row rows ih =>
    cases htier : row.tier with
    | required => simpa [htier] using ih
    | maybe =>
      have hmiddle := @List.perm_middle _ row (rows.filter fun row => row.tier = .required)
        ((rows.filter fun row => row.tier = .maybe) ++ rows.filter fun row => row.tier = .excluded)
      simpa [htier] using hmiddle.trans (by simpa using ih)
    | excluded =>
      have hmiddle := @List.perm_middle _ row
        ((rows.filter fun row => row.tier = .required) ++ rows.filter fun row => row.tier = .maybe)
        (rows.filter fun row => row.tier = .excluded)
      simpa [htier] using hmiddle.trans (by simpa using ih)

/-- A summary is another one under a tiering: each repository of the tiering once, in the bucket and with
the status of its tier, with all else that was said of it. -/
structure InForce (summary : ConfirmationSummary) (rows : List TierRow)
    (released : ConfirmationSummary) : Prop where
  once : released.repositories.Perm (rows.map TierRow.repository)
  placed : ∀ row ∈ rows, ∃ result ∈ released.bucket row.tier,
    result.repository = row.repository ∧ result.status = row.tier.status
  modelled : ∀ tier, ∀ result ∈ released.bucket tier, ∀ said ∈ summary.results,
    said.repository = result.repository → result = { said with status := tier.status }
  added : ∀ tier, ∀ result ∈ released.bucket tier, result.repository ∉ summary.repositories →
    result =
      { repository := result.repository
        status := tier.status
        reason := "Added by the approver during classification review" }
  supplements_eq : released.supplements = summary.supplements
  conflicts_eq : released.conflicts = summary.conflicts
  observations_eq : released.observations = summary.observations

theorem bucket_inForce (rows : List TierRow) (tier : Tier) :
    (summary.inForce rows).bucket tier = bucketInForce summary.results rows tier := by
  cases tier with
  | required => rfl
  | maybe => rfl
  | excluded => rfl

theorem mem_bucket_inForce :
    result ∈ (summary.inForce rows).bucket tier ↔
      ∃ row ∈ rows, row.tier = tier ∧ resultInForce summary.results row = result := by
  rw [bucket_inForce, bucketInForce, List.mem_map]
  simp only [List.mem_filter, decide_eq_true_eq, and_assoc]

theorem repositories_bucketInForce (byName : List ConfirmationResult) (rows : List TierRow)
    (tier : Tier) :
    (bucketInForce byName rows tier).map ConfirmationResult.repository =
      (rows.filter fun row => row.tier = tier).map TierRow.repository := by
  rw [bucketInForce, List.map_map]
  exact List.map_congr_left fun row _ => resultInForce_repository byName row

/-- **The summary under a tiering.** -/
theorem inForce_inForce (hdistinct : summary.repositories.Nodup) (rows : List TierRow) :
    InForce summary rows (summary.inForce rows) where
  once := by
    have hnames : (summary.inForce rows).repositories =
        ((rows.filter fun row => row.tier = .required) ++
          (rows.filter fun row => row.tier = .maybe) ++
          rows.filter fun row => row.tier = .excluded).map TierRow.repository := by
      rw [List.map_append, List.map_append, ← repositories_bucketInForce summary.results,
        ← repositories_bucketInForce summary.results, ← repositories_bucketInForce summary.results,
        ← List.map_append, ← List.map_append]
      rfl
    rw [hnames]
    exact (tiers_perm rows).map _
  placed row hrow := by
    refine ⟨_, mem_bucket_inForce.mpr ⟨row, hrow, rfl, rfl⟩, ?_, ?_⟩
    · exact resultInForce_repository _ row
    · exact resultInForce_status _ row
  modelled tier result hresult said hsaid hname := by
    obtain ⟨row, -, rfl, rfl⟩ := mem_bucket_inForce.mp hresult
    rw [resultInForce_repository] at hname
    exact resultInForce_of_modelled hdistinct hsaid hname
  added tier result hresult hname := by
    obtain ⟨row, -, rfl, rfl⟩ := mem_bucket_inForce.mp hresult
    rw [resultInForce_repository] at hname ⊢
    exact resultInForce_of_added hname
  supplements_eq := rfl
  conflicts_eq := rfl
  observations_eq := rfl

theorem tierOfRow_tiersRecord (hdistinct : summary.repositories.Nodup) (name : String) (tier : Tier) :
    tierOfRow (effectiveTiers (summary.tiersRecord adjustments)) name = some tier ↔
      editedTier adjustments name = some tier ∨
        (editedTier adjustments name = none ∧
          ∃ result ∈ summary.bucket tier, result.repository = name) := by
  rw [tierOfRow_effectiveTiers, ClassificationRecord.tierOfLast, editedTier_tiersRecord,
    Option.or_eq_some_iff, modelled_iff hdistinct]

theorem bucket_inForce_perm (hdistinct : summary.repositories.Nodup) (tier : Tier) :
    ((summary.inForce (effectiveTiers (summary.tiersRecord []))).bucket tier).Perm
      (summary.bucket tier) := by
  have hkeys := keys_effectiveTiers (summary.tiersRecord [])
  have hreleased : ((summary.inForce (effectiveTiers (summary.tiersRecord []))).bucket tier).Nodup := by
    refine List.Nodup.of_map ConfirmationResult.repository ?_
    rw [bucket_inForce, repositories_bucketInForce]
    exact hkeys.sublist (List.filter_sublist.map _)
  have hsummary : (summary.bucket tier).Nodup := by
    refine List.Nodup.of_map ConfirmationResult.repository (hdistinct.sublist ?_)
    refine List.Sublist.map _ ?_
    rw [ConfirmationSummary.results]
    cases tier with
    | required => exact (List.sublist_append_left _ _).trans (List.sublist_append_left _ _)
    | maybe => exact (List.sublist_append_right _ _).trans (List.sublist_append_left _ _)
    | excluded => exact List.sublist_append_right _ _
  -- A repository has a row of a tier exactly when the bucket of the tier lists it.
  have hrow (name : String) :
      (∃ row ∈ effectiveTiers (summary.tiersRecord []), row.repository = name ∧ row.tier = tier) ↔
        ∃ result ∈ summary.bucket tier, result.repository = name := by
    rw [← tierOfRow_iff hkeys, tierOfRow_tiersRecord hdistinct]
    simp [editedTier]
  rw [List.perm_ext_iff_of_nodup hreleased hsummary]
  intro result
  rw [mem_bucket_inForce]
  constructor
  · rintro ⟨row, hmem, htier, rfl⟩
    obtain ⟨said, hsaid, hname⟩ := (hrow row.repository).mp ⟨row, hmem, rfl, htier⟩
    have hstatus := summary.bucket_only hsaid
    rw [resultInForce_of_modelled hdistinct (ConfirmationSummary.mem_results.mpr ⟨tier, hsaid⟩) hname,
      htier, ← hstatus]
    exact hsaid
  · intro hresult
    obtain ⟨row, hmem, hname, htier⟩ := (hrow result.repository).mpr ⟨result, hresult, rfl⟩
    refine ⟨row, hmem, htier, ?_⟩
    have hstatus := summary.bucket_only hresult
    rw [resultInForce_of_modelled hdistinct (ConfirmationSummary.mem_results.mpr ⟨tier, hresult⟩)
      hname.symm, htier, ← hstatus]

end

/-! ## What integration is fed -/

/-- A result, as integration reads it. -/
def ConfirmationResult.confirmed (result : ConfirmationResult) : Planning.ConfirmationResult where
  repository := result.repository
  status := result.status
  plan := result.plan.map fun plan => { dependsOn := plan.dependsOn, impacts := plan.impacts }

/-- A summary, as integration reads it. -/
def ConfirmationSummary.confirmed (summary : ConfirmationSummary) : Planning.ConfirmationSummary where
  required := summary.required.map ConfirmationResult.confirmed
  maybe := summary.maybe.map ConfirmationResult.confirmed

/-- `repo_names`: the repositories `integrate` plans for. -/
def repoNames (summary : Planning.ConfirmationSummary) : List String :=
  ((summary.required ++ summary.maybe).filter fun r => decide (r.status ≠ "EXCLUDED")).map
    (·.repository)

theorem repoNames_confirmed (summary : ConfirmationSummary) :
    repoNames summary.confirmed =
      (summary.required ++ summary.maybe).map ConfirmationResult.repository := by
  rw [repoNames, ConfirmationSummary.confirmed, ← List.map_append, List.filter_eq_self.mpr,
    List.map_map]
  · rfl
  · intro read hread
    obtain ⟨result, hresult, rfl⟩ := List.mem_map.mp hread
    rw [decide_eq_true_eq]
    rcases List.mem_append.mp hresult with h | h
    · have hstatus := summary.required_only result h
      show result.status ≠ "EXCLUDED"
      rw [hstatus]
      decide
    · have hstatus := summary.maybe_only result h
      show result.status ≠ "EXCLUDED"
      rw [hstatus]
      decide

theorem mem_repoNames_inForce {summary : ConfirmationSummary} {rows : List TierRow} {name : String} :
    name ∈ repoNames (summary.inForce rows).confirmed ↔
      ∃ row ∈ rows, row.repository = name ∧ (row.tier = .required ∨ row.tier = .maybe) := by
  have hnames : repoNames (summary.inForce rows).confirmed =
      (rows.filter fun row => row.tier = .required).map TierRow.repository ++
        (rows.filter fun row => row.tier = .maybe).map TierRow.repository := by
    rw [repoNames_confirmed, List.map_append, ← repositories_bucketInForce summary.results,
      ← repositories_bucketInForce summary.results]
    rfl
  rw [hnames, List.mem_append, List.mem_map, List.mem_map]
  simp only [List.mem_filter, decide_eq_true_eq]
  constructor
  · rintro (⟨row, ⟨hrow, htier⟩, hname⟩ | ⟨row, ⟨hrow, htier⟩, hname⟩)
    · exact ⟨row, hrow, hname, .inl htier⟩
    · exact ⟨row, hrow, hname, .inr htier⟩
  · rintro ⟨row, hrow, hname, htier | htier⟩
    · exact .inl ⟨row, ⟨hrow, htier⟩, hname⟩
    · exact .inr ⟨row, ⟨hrow, htier⟩, hname⟩

/-- The record of a summary and of the edits of approvers, as the chain of one draft keeps it. -/
def ConfirmationSummary.record (summary : ConfirmationSummary) (adjustments : List Adjustment)
    (idempotencyKey : String) (byAgentId : Delivery.UUID) : ClassificationRecord where
  required := summary.required.map ConfirmationResult.confirmed
  maybe := summary.maybe.map ConfirmationResult.confirmed
  excluded := summary.excluded.map ConfirmationResult.confirmed
  supplements := summary.supplements.map SupplementEvidence.repository
  adjustments
  idempotencyKey
  byAgentId

theorem effectiveTiers_congr {record record' : ClassificationRecord}
    (hnames : (record.tiered.map fun item => (item.1, item.2.repository)) =
      record'.tiered.map fun item => (item.1, item.2.repository))
    (hedits : (record.adjustments.map fun edit => (edit.repository, edit.to_)) =
      record'.adjustments.map fun edit => (edit.repository, edit.to_)) :
    effectiveTiers record = effectiveTiers record' := by
  have hmodelled (record : ClassificationRecord) (name : String) : record.modelled name =
      (latest Prod.snd (record.tiered.map fun item => (item.1, item.2.repository)) name).map
        Prod.fst := by
    rw [Latest.latest_map (fun item : Tier × Planning.ConfirmationResult => item.2.repository)
      record.tiered name Prod.snd (fun item => (item.1, item.2.repository)) fun _ => rfl,
      Option.map_map]
    rfl
  have hsame : record.modelled = record'.modelled := by
    funext name
    rw [hmodelled, hmodelled, hnames]
  have hrows (record : ClassificationRecord) : record.modelledRows =
      (record.tiered.map fun item => (item.1, item.2.repository)).foldl
        (fun rows item => setTierRow rows { repository := item.2, tier := item.1 }) [] := by
    rw [List.foldl_map]
    rfl
  have hfold (record : ClassificationRecord) (rows : List TierRow) :
      record.adjustments.foldl (adjustRow record) rows =
        (record.adjustments.map fun edit => (edit.repository, edit.to_)).foldl
          (fun rows edit => setTierRow rows
            { repository := edit.1
              tier := tierOf edit.2
              adjusted := decide (record.modelled edit.1 ≠ some (tierOf edit.2))
              originalTier :=
                if record.modelled edit.1 = some (tierOf edit.2) then none
                else record.modelled edit.1 }) rows := by
    have hstep : adjustRow record = fun rows edit => setTierRow rows (record.editRow edit) := by
      funext rows edit
      rw [adjustRow, ClassificationRecord.editRow]
    rw [List.foldl_map, hstep]
    rfl
  have heffective (record : ClassificationRecord) : effectiveTiers record =
      (record.adjustments.foldl (adjustRow record) record.modelledRows).insertionSort
        fun a b => a.repository ≤ b.repository := rfl
  rw [heffective, heffective, hfold, hfold, hrows, hrows, hsame, hnames, hedits]

/-- **The block comes to the record of the draft**: it is read back, and what integration reads of it is
what the record gives. -/
theorem confirmed_inForce [Conversions] (summary : ConfirmationSummary)
    (adjustments : List (Adjustment × String)) (idempotencyKey ranAt : String)
    (byAgentId : Delivery.UUID) :
    (summaryInForce (classificationToDict summary adjustments idempotencyKey ranAt byAgentId)).map
        ConfirmationSummary.confirmed =
      .ok (Planning.summaryInForce (summary.record (adjustments.map Prod.fst) idempotencyKey
        byAgentId)).toConfirmationSummary := by
  rw [summaryInForce_classificationToDict]
  generalize adjustments.map Prod.fst = adjustments
  refine congrArg Except.ok ?_
  have htiers : effectiveTiers (summary.tiersRecord adjustments) =
      effectiveTiers (summary.record adjustments idempotencyKey byAgentId) := by
    refine effectiveTiers_congr ?_ ?_
    · simp only [ClassificationRecord.tiered, ConfirmationSummary.tiersRecord,
        ConfirmationSummary.record, List.map_append, List.map_map]
      rfl
    · simp only [ConfirmationSummary.tiersRecord, ConfirmationSummary.record, List.map_map]
      rfl
  have hresult (row : TierRow) : (resultInForce summary.results row).confirmed =
      Planning.resultInForce (summary.record adjustments idempotencyKey byAgentId) row := by
    let key (item : Tier × Planning.ConfirmationResult) : String := item.2.repository
    let record := summary.record adjustments idempotencyKey byAgentId
    have hmap : record.tiered.map Prod.snd = summary.results.map ConfirmationResult.confirmed := by
      simp only [record, ClassificationRecord.tiered, ConfirmationSummary.record,
        ConfirmationSummary.results, List.map_append, List.map_map]
      rfl
    have hsame : (latest key record.tiered row.repository).map Prod.snd =
        (latest ConfirmationResult.repository summary.results row.repository).map
          ConfirmationResult.confirmed := by
      rw [← Latest.latest_map key record.tiered row.repository Planning.ConfirmationResult.repository
        Prod.snd fun _ => rfl, hmap]
      exact Latest.latest_map ConfirmationResult.repository summary.results row.repository
        Planning.ConfirmationResult.repository ConfirmationResult.confirmed fun _ => rfl
    have hread : Planning.resultInForce record row =
        (latest key record.tiered row.repository).elim
          { repository := row.repository, status := row.tier.status }
          fun item => { item.2 with status := row.tier.status } := by
      rw [Planning.resultInForce, latest]
      cases record.tiered.reverse.find? fun item => item.2.repository == row.repository with
      | none => rfl
      | some item => rfl
    rw [hread]
    cases hlatest : latest key record.tiered row.repository with
    | none =>
      rw [hlatest, Option.map_none, eq_comm, Option.map_eq_none_iff] at hsame
      rw [resultInForce, hsame]
      rfl
    | some item =>
      rw [hlatest, Option.map_some, eq_comm, Option.map_eq_some_iff] at hsame
      obtain ⟨result, hresult, hitem⟩ := hsame
      rw [resultInForce, hresult]
      show (if result.status ≠ row.tier.status then { result with status := row.tier.status }
        else result).confirmed = { item.2 with status := row.tier.status }
      rw [← hitem]
      split_ifs with hstatus
      · rfl
      · rw [← not_not.mp hstatus]
        rfl
  have hbucket (tier : Tier) :
      (bucketInForce summary.results (effectiveTiers (summary.tiersRecord adjustments)) tier).map
        ConfirmationResult.confirmed =
      ((effectiveTiers (summary.record adjustments idempotencyKey byAgentId)).filter
        fun row => row.tier == tier).map
          (Planning.resultInForce (summary.record adjustments idempotencyKey byAgentId)) := by
    rw [bucketInForce, List.map_map, htiers]
    have hfilter (rows : List TierRow) : (rows.filter fun row => row.tier = tier) =
        rows.filter fun row => row.tier == tier := List.filter_congr fun row _ => rfl
    rw [hfilter]
    exact List.map_congr_left fun row _ => hresult row
  have hinForce (summary : ConfirmationSummary) (rows : List TierRow) :
      (summary.inForce rows).confirmed =
        { required := (bucketInForce summary.results rows .required).map ConfirmationResult.confirmed
          maybe := (bucketInForce summary.results rows .maybe).map ConfirmationResult.confirmed } := rfl
  rw [hinForce, hbucket, hbucket]
  rfl

/-- **Integration is fed the tiering in force.** The block that `run_classification` writes of a summary
with distinct repositories, with whatever edits of approvers in it, is read back as the summary under the
effective tiers; without edits that is the summary, up to order; and the repositories integration plans
for are those whose effective tier is `required` or `maybe`, each once. -/
theorem summaryInForce_spec [Conversions] (summary : ConfirmationSummary)
    (hdistinct : summary.repositories.Nodup) (adjustments : List (Adjustment × String))
    (idempotencyKey ranAt : String) (byAgentId : Delivery.UUID) :
    ∃ rows released,
      effectiveTiersOf (classificationToDict summary adjustments idempotencyKey ranAt byAgentId) =
        .ok rows ∧
      summaryInForce (classificationToDict summary adjustments idempotencyKey ranAt byAgentId) =
        .ok released ∧
      (rows.map TierRow.repository).Nodup ∧
      (∀ name tier, (∃ row ∈ rows, row.repository = name ∧ row.tier = tier) ↔
        editedTier (adjustments.map Prod.fst) name = some tier ∨
          (editedTier (adjustments.map Prod.fst) name = none ∧
            ∃ result ∈ summary.bucket tier, result.repository = name)) ∧
      InForce summary rows released ∧
      (adjustments = [] → ∀ tier, (released.bucket tier).Perm (summary.bucket tier)) ∧
      (repoNames released.confirmed).Nodup ∧
      ∀ name, name ∈ repoNames released.confirmed ↔
        ∃ row ∈ rows, row.repository = name ∧ (row.tier = .required ∨ row.tier = .maybe) := by
  have hkeys := keys_effectiveTiers (summary.tiersRecord (adjustments.map Prod.fst))
  have hinForce := inForce_inForce hdistinct
    (effectiveTiers (summary.tiersRecord (adjustments.map Prod.fst)))
  refine ⟨_, _, effectiveTiersOf_classificationToDict summary adjustments idempotencyKey ranAt byAgentId,
    summaryInForce_classificationToDict summary adjustments idempotencyKey ranAt byAgentId, hkeys, ?_,
    hinForce, ?_, ?_, fun name => mem_repoNames_inForce⟩
  · intro name tier
    rw [← tierOfRow_iff hkeys, tierOfRow_tiersRecord hdistinct]
  · rintro rfl tier
    exact bucket_inForce_perm hdistinct tier
  · have hnd := hinForce.once.nodup_iff.mpr hkeys
    rw [repoNames_confirmed]
    refine hnd.sublist (List.Sublist.map _ ?_)
    exact List.sublist_append_left _ _

/-- Texts and floats only: nothing is converted. -/
@[reducible] def plainConversions : Conversions where
  jsonRepr _ := ""
  jsonFloat _ := .error .typeError

/-- Orders need the shop, and the model sees no need of the legacy store. -/
def ordersSummary : ConfirmationSummary where
  required := [{ repository := "shop", status := "REQUIRED", plan := some { impacts := ["legacy"] } }]
  maybe := []
  excluded := [{ repository := "legacy", status := "EXCLUDED", graphConflict := true }]
  required_only := by simp
  maybe_only := by simp
  excluded_only := by simp

/-- Leaders add the ledger, drop the legacy store and then require it. -/
def ordersEdits : List (Adjustment × String) :=
  [({ repository := "ledger", from_ := none, to_ := "MAYBE", byAgentId := 1 }, "10:00"),
    ({ repository := "legacy", from_ := some "EXCLUDED", to_ := "MAYBE", byAgentId := 1 }, "10:00"),
    ({ repository := "legacy", from_ := some "EXCLUDED", to_ := "REQUIRED", byAgentId := 2 }, "11:00")]

theorem summaryInForce_spec_orders :
    (∃ released, @summaryInForce plainConversions
        (classificationToDict ordersSummary ordersEdits "classification-1" "09:00" 1) = .ok released ∧
      "legacy" ∈ repoNames released.confirmed ∧ "ledger" ∈ repoNames released.confirmed) ∧
    ∃ released, @summaryInForce plainConversions
        (classificationToDict ordersSummary [] "classification-1" "09:00" 1) = .ok released ∧
      ∀ tier, (released.bucket tier).Perm (ordersSummary.bucket tier) := by
  have hdistinct : ordersSummary.repositories.Nodup := by decide
  constructor
  · obtain ⟨rows, released, -, hreleased, -, hrows, -, -, -, hplanned⟩ :=
      @summaryInForce_spec plainConversions ordersSummary hdistinct ordersEdits "classification-1"
        "09:00" 1
    have hedited (name : String) (tier : Tier)
        (h : editedTier (ordersEdits.map Prod.fst) name = some tier) :
        ∃ row ∈ rows, row.repository = name ∧ row.tier = tier := (hrows name tier).mpr (.inl h)
    obtain ⟨legacy, hlegacy, hname, htier⟩ := hedited "legacy" .required (by decide +kernel)
    obtain ⟨ledger, hledger, hname', htier'⟩ := hedited "ledger" .maybe (by decide +kernel)
    exact ⟨released, hreleased, (hplanned _).mpr ⟨legacy, hlegacy, hname, .inl htier⟩,
      (hplanned _).mpr ⟨ledger, hledger, hname', .inr htier'⟩⟩
  · obtain ⟨_, released, -, hreleased, -, -, -, hsame, -, -⟩ :=
      @summaryInForce_spec plainConversions ordersSummary hdistinct [] "classification-1" "09:00" 1
    exact ⟨released, hreleased, hsame rfl⟩

end Confirmation
end Planning
end RepoMesh
