/-
# Graph supplements

`_supplement_candidates` adds the first-degree neighbours of the candidates to the confirmation list. A
neighbour is recorded under the first edge that reaches it, over the candidates in their order, so a
confirmed edge of a later candidate is not seen. Confirmed edges win exactly when no neighbour is first
reached by a declared edge beside a confirmed one, or the cap is filled by those first reached by a
confirmed edge.
-/
import Mathlib.Data.List.Sort
import RepoMesh.Scan.EvidenceGraph

namespace RepoMesh
namespace Scan

open Planning (Confidence)

/-- `SupplementEvidence`: a neighbour, and the edge that brought it in. -/
structure SupplementEvidence where
  repository : String
  via : String
  confidence : Confidence
  mechanism : Mechanism
  matchReason : String
  deriving DecidableEq

/-- `forward_dependencies`. -/
def forwardDependencies (edges : List EvidenceEdge) (name : String) : List EvidenceEdge :=
  edges.filter fun edge => edge.consumer = name

/-- `reverse_dependencies`. -/
def reverseDependencies (edges : List EvidenceEdge) (name : String) : List EvidenceEdge :=
  edges.filter fun edge => edge.producer = name

/-- The record of a neighbour that an edge of a candidate reaches. -/
def EvidenceEdge.supplement (edge : EvidenceEdge) (repository via : String) : SupplementEvidence where
  repository
  via
  confidence := edge.confidence
  mechanism := edge.mechanism
  matchReason := edge.matchReason

/-- The neighbours that the edges of one candidate reach, in the order in which they are met. -/
def reachedFrom (edges : List EvidenceEdge) (names : List String) (name : String) :
    List SupplementEvidence :=
  ((forwardDependencies edges name).map (fun edge => edge.supplement edge.producer name) ++
    (reverseDependencies edges name).map fun edge => edge.supplement edge.consumer name).filter
      fun reached => reached.repository ≠ name ∧ reached.repository ∉ names

/-- The neighbours of all candidates, in that order. -/
def reached (edges : List EvidenceEdge) (names : List String) : List SupplementEvidence :=
  names.flatMap (reachedFrom edges names)

/-- The sort key: hard evidence first. -/
def SupplementEvidence.rank (supplement : SupplementEvidence) : ℕ :=
  if supplement.confidence = .confirmed then 0 else 1

/-- `_supplement_candidates`. -/
def supplementCandidates (edges : List EvidenceEdge) (names : List String) (cap : ℤ) :
    List SupplementEvidence :=
  if cap ≤ 0 then []
  else
    let collected := (reached edges names).foldl (Keyed.insertNew SupplementEvidence.repository) []
    (collected.insertionSort fun a b => a.rank ≤ b.rank).take cap.toNat

/-! ## Neighbours -/

/-- An edge joins two repositories, in whichever direction. -/
def EvidenceEdge.Joins (edge : EvidenceEdge) (a b : String) : Prop :=
  (edge.consumer = a ∧ edge.producer = b) ∨ (edge.producer = a ∧ edge.consumer = b)

/-- A first-degree neighbour of the candidates that is none of them. -/
def Neighbour (edges : List EvidenceEdge) (names : List String) (repository : String) : Prop :=
  repository ∉ names ∧ ∃ name ∈ names, ∃ edge ∈ edges, edge.Joins name repository

/-- Some candidate is joined to the repository by a confirmed edge. -/
def HardNeighbour (edges : List EvidenceEdge) (names : List String) (repository : String) : Prop :=
  ∃ name ∈ names, ∃ edge ∈ edges, edge.Joins name repository ∧ edge.confidence = .confirmed

/-- The confidence of the first edge that reaches a repository. -/
def firstConfidence (edges : List EvidenceEdge) (names : List String) (repository : String) :
    Option Confidence :=
  (Keyed.find SupplementEvidence.repository (reached edges names) repository).map (·.confidence)

variable {edges : List EvidenceEdge} {names : List String} {cap : ℤ} {supplement : SupplementEvidence}

theorem mem_reached :
    supplement ∈ reached edges names ↔ supplement.repository ∉ names ∧ ∃ name ∈ names,
      ∃ edge ∈ edges, edge.Joins name supplement.repository ∧
        supplement = edge.supplement supplement.repository name := by
  unfold reached reachedFrom forwardDependencies reverseDependencies
  simp only [List.mem_flatMap, List.mem_filter, List.mem_append, List.mem_map, decide_eq_true_eq]
  constructor
  · rintro ⟨name, hname, ⟨edge, ⟨hedge, rfl⟩, rfl⟩ | ⟨edge, ⟨hedge, rfl⟩, rfl⟩, -, hnew⟩
    · exact ⟨hnew, _, hname, edge, hedge, .inl ⟨rfl, rfl⟩, rfl⟩
    · exact ⟨hnew, _, hname, edge, hedge, .inr ⟨rfl, rfl⟩, rfl⟩
  · rintro ⟨hnew, name, hname, edge, hedge, hjoins, hrecord⟩
    refine ⟨name, hname, ?_, fun heq => hnew (heq ▸ hname), hnew⟩
    rcases hjoins with ⟨hconsumer, hproducer⟩ | ⟨hproducer, hconsumer⟩
    · exact .inl ⟨edge, ⟨hedge, hconsumer⟩, by rw [hproducer]; exact hrecord.symm⟩
    · exact .inr ⟨edge, ⟨hedge, hproducer⟩, by rw [hconsumer]; exact hrecord.symm⟩

theorem neighbour_of_reached (h : supplement ∈ reached edges names) :
    Neighbour edges names supplement.repository := by
  obtain ⟨hnew, name, hname, edge, hedge, hjoins, -⟩ := mem_reached.mp h
  exact ⟨hnew, name, hname, edge, hedge, hjoins⟩

theorem hardNeighbour_of_reached (h : supplement ∈ reached edges names)
    (hconfirmed : supplement.confidence = .confirmed) :
    HardNeighbour edges names supplement.repository := by
  obtain ⟨-, name, hname, edge, hedge, hjoins, hrecord⟩ := mem_reached.mp h
  refine ⟨name, hname, edge, hedge, hjoins, ?_⟩
  rw [hrecord] at hconfirmed
  exact hconfirmed

theorem firstConfidence_ne_none {repository : String} (h : Neighbour edges names repository) :
    firstConfidence edges names repository ≠ none := by
  obtain ⟨hnew, name, hname, edge, hedge, hjoins⟩ := h
  have hmem : edge.supplement repository name ∈ reached edges names :=
    mem_reached.mpr ⟨hnew, name, hname, edge, hedge, hjoins, rfl⟩
  rw [firstConfidence, Ne, Option.map_eq_none_iff, Keyed.find_eq_none]
  exact fun hnone => hnone _ hmem rfl

/-! ## The records -/

/-- The neighbours that are collected, each under the first edge that reaches it. -/
def collected (edges : List EvidenceEdge) (names : List String) : List SupplementEvidence :=
  (reached edges names).foldl (Keyed.insertNew SupplementEvidence.repository) []

theorem nodup_collected : ((collected edges names).map (·.repository)).Nodup :=
  Keyed.nodup_foldl_insertNew List.nodup_nil

theorem mem_collected :
    supplement ∈ collected edges names ↔
      Keyed.find SupplementEvidence.repository (reached edges names) supplement.repository =
        some supplement := by
  have hfind : Keyed.find SupplementEvidence.repository (collected edges names) supplement.repository =
      Keyed.find SupplementEvidence.repository (reached edges names) supplement.repository := by
    rw [collected, Keyed.find_foldl_insertNew]
    rfl
  rw [← hfind, Keyed.find_eq_some nodup_collected]
  simp

theorem firstConfidence_of_mem (h : supplement ∈ collected edges names) :
    firstConfidence edges names supplement.repository = some supplement.confidence := by
  rw [firstConfidence, mem_collected.mp h]
  rfl

theorem exists_collected {repository : String} {confidence : Confidence}
    (h : firstConfidence edges names repository = some confidence) :
    ∃ record ∈ collected edges names,
      record.repository = repository ∧ record.confidence = confidence := by
  unfold firstConfidence at h
  obtain ⟨record, hrecord, hconfidence⟩ := Option.map_eq_some_iff.mp h
  obtain ⟨-, rfl⟩ := Keyed.mem_of_find hrecord
  exact ⟨record, mem_collected.mpr hrecord, rfl, hconfidence⟩

theorem orderedInsert_confirmed {record : SupplementEvidence} (h : record.confidence = .confirmed)
    (records : List SupplementEvidence) :
    records.orderedInsert (fun a b => a.rank ≤ b.rank) record = record :: records := by
  have hrank : record.rank = 0 := if_pos h
  cases records with
  | nil => rfl
  | cons first rest =>
    refine List.orderedInsert_cons_of_le _ _ ?_
    rw [hrank]
    exact Nat.zero_le _

theorem orderedInsert_declared {record : SupplementEvidence} (h : record.confidence ≠ .confirmed)
    {front back : List SupplementEvidence} (hfront : ∀ a ∈ front, a.confidence = .confirmed)
    (hback : ∀ a ∈ back, a.confidence ≠ .confirmed) :
    (front ++ back).orderedInsert (fun a b => a.rank ≤ b.rank) record = front ++ record :: back := by
  have hrank : record.rank = 1 := if_neg h
  induction front with
  | nil =>
    cases back with
    | nil => rfl
    | cons first rest =>
      have hfirst : first.rank = 1 := if_neg (hback first (List.mem_cons_self ..))
      refine List.orderedInsert_cons_of_le _ _ ?_
      rw [hrank, hfirst]
  | cons first front ih =>
    have hfirst : first.rank = 0 := if_pos (hfront first (List.mem_cons_self ..))
    have hnot : ¬ record.rank ≤ first.rank := by omega
    rw [List.cons_append, List.orderedInsert, if_neg hnot,
      ih fun a ha => hfront a (List.mem_cons_of_mem _ ha)]
    rfl

/-- The records under a confirmed first edge. -/
def hardRecords (edges : List EvidenceEdge) (names : List String) : List SupplementEvidence :=
  (collected edges names).filter fun record => record.confidence = .confirmed

/-- The records under a declared first edge. -/
def softRecords (edges : List EvidenceEdge) (names : List String) : List SupplementEvidence :=
  (collected edges names).filter fun record => record.confidence ≠ .confirmed

theorem insertionSort_rank (records : List SupplementEvidence) :
    (records.insertionSort fun a b => a.rank ≤ b.rank) =
      (records.filter fun record => record.confidence = .confirmed) ++
        records.filter fun record => record.confidence ≠ .confirmed := by
  induction records with
  | nil => rfl
  | cons record records ih =>
    rw [List.insertionSort_cons, ih]
    by_cases h : record.confidence = .confirmed
    · rw [orderedInsert_confirmed h, List.filter_cons_of_pos (by simpa using h),
        List.filter_cons_of_neg (by simpa using h)]
      rfl
    · rw [orderedInsert_declared h (fun a ha => by simpa using (List.mem_filter.mp ha).2)
        (fun a ha => by simpa using (List.mem_filter.mp ha).2),
        List.filter_cons_of_neg (by simpa using h), List.filter_cons_of_pos (by simpa using h)]

theorem supplementCandidates_eq (hcap : 0 < cap) :
    supplementCandidates edges names cap =
      (hardRecords edges names).take cap.toNat ++
        (softRecords edges names).take (cap.toNat - (hardRecords edges names).length) := by
  unfold supplementCandidates
  rw [if_neg (by omega)]
  show ((collected edges names).insertionSort fun a b => a.rank ≤ b.rank).take cap.toNat = _
  rw [insertionSort_rank, List.take_append]
  rfl

theorem mem_collected_of_mem (h : supplement ∈ supplementCandidates edges names cap) :
    supplement ∈ collected edges names := by
  by_cases hcap : 0 < cap
  · rw [supplementCandidates_eq hcap] at h
    rcases List.mem_append.mp h with h | h
    · exact List.mem_of_mem_filter (List.mem_of_mem_take h)
    · exact List.mem_of_mem_filter (List.mem_of_mem_take h)
  · rw [supplementCandidates, if_pos (by omega)] at h
    cases h

/-! ## Hard evidence first -/

/-- What is returned: so many distinct neighbours at most, none a candidate. -/
structure Supplements (edges : List EvidenceEdge) (names : List String) (cap : ℤ)
    (supplements : List SupplementEvidence) : Prop where
  length_le : supplements.length ≤ cap.toNat
  distinct : (supplements.map (·.repository)).Nodup
  neighbour : ∀ supplement ∈ supplements, Neighbour edges names supplement.repository

/-- An entry is marked confirmed for a hard neighbour, and no other neighbour is returned while a hard one
is left out. -/
structure PrefersHard (edges : List EvidenceEdge) (names : List String)
    (supplements : List SupplementEvidence) : Prop where
  marked : ∀ supplement ∈ supplements,
    supplement.confidence = .confirmed ↔ HardNeighbour edges names supplement.repository
  covered : ∀ supplement ∈ supplements, ¬ HardNeighbour edges names supplement.repository →
    ∀ repository, Neighbour edges names repository → HardNeighbour edges names repository →
      repository ∈ supplements.map (·.repository)

theorem supplements_supplementCandidates :
    Supplements edges names cap (supplementCandidates edges names cap) := by
  refine ⟨?_, ?_, fun supplement h => ?_⟩
  · by_cases hcap : 0 < cap
    · unfold supplementCandidates
      rw [if_neg (by omega), List.length_take]
      exact Nat.min_le_left _ _
    · rw [supplementCandidates, if_pos (by omega)]
      exact Nat.zero_le _
  · by_cases hcap : 0 < cap
    · unfold supplementCandidates
      rw [if_neg (by omega)]
      have hperm := (List.perm_insertionSort (fun a b : SupplementEvidence => a.rank ≤ b.rank)
        (collected edges names)).map (·.repository)
      exact (hperm.nodup_iff.mpr nodup_collected).sublist ((List.take_sublist _ _).map _)
    · rw [supplementCandidates, if_pos (by omega)]
      exact List.nodup_nil
  · have hmem := Keyed.mem_of_find (mem_collected.mp (mem_collected_of_mem h))
    exact neighbour_of_reached hmem.1

theorem hard_of_marked (h : supplement ∈ supplementCandidates edges names cap)
    (hconfirmed : supplement.confidence = .confirmed) :
    HardNeighbour edges names supplement.repository := by
  have hmem := Keyed.mem_of_find (mem_collected.mp (mem_collected_of_mem h))
  exact hardNeighbour_of_reached hmem.1 hconfirmed

theorem hardRecords_subset (h : supplement ∈ supplementCandidates edges names cap)
    (hsoft : supplement.confidence ≠ .confirmed) :
    ∀ record ∈ hardRecords edges names, record ∈ supplementCandidates edges names cap := by
  intro record hrecord
  by_cases hcap : 0 < cap
  · rw [supplementCandidates_eq hcap] at h ⊢
    rcases List.mem_append.mp h with hhard | hmem
    · have hconfirmed := (List.mem_filter.mp (List.mem_of_mem_take hhard)).2
      exact absurd (by simpa using hconfirmed) hsoft
    · have hroom : (hardRecords edges names).length ≤ cap.toNat := by
        by_contra hfull
        rw [Nat.sub_eq_zero_of_le (by omega), List.take_zero] at hmem
        cases hmem
      rw [List.take_of_length_le hroom]
      exact List.mem_append_left _ hrecord
  · rw [supplementCandidates, if_pos (by omega)] at h
    cases h

/-- **When confirmed edges win.** At most so many distinct first-degree neighbours are returned, none a
candidate. An entry is marked confirmed exactly for a neighbour that has a confirmed edge, and none
without is returned while one with is left out, if and only if nothing is asked for, or every neighbour
with a confirmed edge is first reached by one, or as many neighbours as are asked for are. -/
theorem supplementCandidates_iff :
    ∀ (edges : List EvidenceEdge) (names : List String) (cap : ℤ),
      Supplements edges names cap (supplementCandidates edges names cap) ∧
      (PrefersHard edges names (supplementCandidates edges names cap) ↔
        cap ≤ 0 ∨
        (∀ repository, Neighbour edges names repository → HardNeighbour edges names repository →
          firstConfidence edges names repository = some .confirmed) ∨
        ∃ hard : List String, hard.Nodup ∧ cap ≤ hard.length ∧
          ∀ repository ∈ hard, firstConfidence edges names repository = some .confirmed) := by
  intro edges names cap
  refine ⟨supplements_supplementCandidates, fun h => ?_, fun h => ?_⟩
  · by_contra hnot
    push Not at hnot
    obtain ⟨hcap, ⟨masked, hneighbour, hhard, hfirst⟩, hfew⟩ := hnot
    -- Fewer hard records than are asked for: a soft one is returned.
    have hroom : (hardRecords edges names).length < cap.toNat := by
      by_contra hfull
      obtain ⟨repository, hrepository, hne⟩ := hfew ((hardRecords edges names).map (·.repository))
        (nodup_collected.sublist (List.filter_sublist.map _)) (by rw [List.length_map]; omega)
      obtain ⟨record, hrecord, rfl⟩ := List.mem_map.mp hrepository
      obtain ⟨hmem, hconfirmed⟩ := List.mem_filter.mp hrecord
      refine hne ?_
      rw [firstConfidence_of_mem hmem]
      simpa using hconfirmed
    obtain ⟨confidence, hconfidence⟩ :=
      Option.ne_none_iff_exists'.mp (firstConfidence_ne_none hneighbour)
    obtain ⟨record, hrecord, hname, rfl⟩ := exists_collected hconfidence
    have hsoftmem : record ∈ softRecords edges names := by
      refine List.mem_filter.mpr ⟨hrecord, ?_⟩
      have hne : record.confidence ≠ .confirmed := fun heq => hfirst (by rw [hconfidence, heq])
      simpa using hne
    -- No returned record is a soft one of a hard neighbour.
    have hmarked : ∀ soft ∈ supplementCandidates edges names cap, soft.confidence ≠ .confirmed →
        ¬ HardNeighbour edges names soft.repository :=
      fun soft hsoft hne hhardSoft => hne ((h.marked soft hsoft).mpr hhardSoft)
    obtain ⟨soft, rest, hsplit⟩ := List.exists_cons_of_ne_nil (List.ne_nil_of_mem hsoftmem)
    have hreturned : soft ∈ supplementCandidates edges names cap := by
      rw [supplementCandidates_eq hcap, hsplit]
      refine List.mem_append_right _ ?_
      obtain ⟨room, hn⟩ := Nat.exists_eq_add_of_lt hroom
      rw [show cap.toNat - (hardRecords edges names).length = room + 1 by omega, List.take_succ_cons]
      exact List.mem_cons_self ..
    have hsoft : soft.confidence ≠ .confirmed := by
      have hmem : soft ∈ softRecords edges names := by
        rw [hsplit]
        exact List.mem_cons_self ..
      simpa using (List.mem_filter.mp hmem).2
    have hcovered := h.covered soft hreturned (hmarked soft hreturned hsoft) masked hneighbour hhard
    obtain ⟨other, hother, hsame⟩ := List.mem_map.mp hcovered
    have hotherFirst := firstConfidence_of_mem (mem_collected_of_mem hother)
    rw [hsame] at hotherFirst
    refine hmarked other hother (fun heq => hfirst ?_) (hsame ▸ hhard)
    rw [hotherFirst, heq]
  · rcases h with hcap | hnone | ⟨hard, hnodup, hlength, hfirst⟩
    · have hnil : supplementCandidates edges names cap = [] := by
        rw [supplementCandidates, if_pos hcap]
      rw [hnil]
      exact ⟨by simp, by simp⟩
    · refine ⟨fun supplement hmem => ⟨hard_of_marked hmem, fun hhard => ?_⟩,
        fun supplement hmem hsoft repository hneighbour hhard => ?_⟩
      · have hfirst := hnone _ (supplements_supplementCandidates.neighbour supplement hmem) hhard
        rw [firstConfidence_of_mem (mem_collected_of_mem hmem)] at hfirst
        exact Option.some.inj hfirst
      · obtain ⟨record, hrecord, rfl, hconfirmed⟩ :=
          exists_collected (hnone repository hneighbour hhard)
        refine List.mem_map_of_mem (hardRecords_subset hmem
          (fun heq => hsoft (hard_of_marked hmem heq)) record ?_)
        exact List.mem_filter.mpr ⟨hrecord, by simpa using hconfirmed⟩
    · -- Enough hard records: nothing else is returned.
      have hfull : cap.toNat ≤ (hardRecords edges names).length := by
        have hsub : hard ⊆ (hardRecords edges names).map (·.repository) := by
          intro repository hrepository
          obtain ⟨record, hrecord, rfl, hconfirmed⟩ := exists_collected (hfirst repository hrepository)
          exact List.mem_map_of_mem (List.mem_filter.mpr ⟨hrecord, by simpa using hconfirmed⟩)
        have hle := (List.subperm_of_subset hnodup hsub).length_le
        rw [List.length_map] at hle
        omega
      have hall : ∀ supplement ∈ supplementCandidates edges names cap,
          supplement.confidence = .confirmed := by
        intro supplement hmem
        by_cases hcap : 0 < cap
        · rw [supplementCandidates_eq hcap, Nat.sub_eq_zero_of_le hfull, List.take_zero,
            List.append_nil] at hmem
          simpa using (List.mem_filter.mp (List.mem_of_mem_take hmem)).2
        · rw [supplementCandidates, if_pos (by omega)] at hmem
          cases hmem
      exact ⟨fun supplement hmem => iff_of_true (hall supplement hmem) (hard_of_marked hmem (hall _ hmem)),
        fun supplement hmem hsoft => absurd (hard_of_marked hmem (hall _ hmem)) hsoft⟩

/-- A neighbour that a declared edge of the first candidate reaches, and a confirmed one of the second. -/
theorem supplementCandidates_masked :
    ¬ ∀ (edges : List EvidenceEdge) (names : List String) (cap : ℤ),
      PrefersHard edges names (supplementCandidates edges names cap) := by
  intro h
  let declared : EvidenceEdge :=
    { producer := "orders", consumer := "web", confidence := .declared, mechanism := .deploy }
  let confirmed : EvidenceEdge :=
    { producer := "orders", consumer := "billing", confidence := .confirmed, mechanism := .build }
  have hmarked := (h [declared, confirmed] ["web", "billing"] 8).marked
    (declared.supplement "orders" "web") (by decide)
  have hhard : HardNeighbour [declared, confirmed] ["web", "billing"] "orders" :=
    ⟨"billing", by simp, confirmed, by simp, .inl ⟨rfl, rfl⟩, rfl⟩
  exact absurd (hmarked.mpr hhard) (by decide)

end Scan
end RepoMesh
