/-
# The graph of dependency evidence

`DependencyGraphService._build_edges`: evidence names an identifier, the registry tells the repository
that answers to it, and of several edges for one pair the first is kept. Confirmed evidence is never
masked, and the graph depends on no order, exactly when no repository has evidence of both confidences
for one producer.
-/
import RepoMesh.Foundation.Fallible
import RepoMesh.Scan.Registry

namespace RepoMesh
namespace Scan

open Text
open Planning (Confidence ScanEdge DependencyGraphService sortedSet)

/-! ## The edges -/

/-- `GraphEdge` of the service, with the mechanism that proved it and the reason of the match. -/
structure EvidenceEdge extends ScanEdge where
  mechanism : Mechanism := .source
  matchReason : String := ""
  deriving DecidableEq

/-- The pair an edge is kept for. -/
def EvidenceEdge.pair (edge : EvidenceEdge) : String × String := (edge.consumer, edge.producer)

/-- `_resolve_evidence`. -/
def resolveEvidence (registry : ServiceRegistry) (identifier consumer : String) : Option String :=
  (registry.resolve identifier).filter fun producer => producer ≠ consumer

/-- The edges the evidence of a profile proves. -/
def evidenceEdges (registry : ServiceRegistry) (profile : RepositoryProfile) : List EvidenceEdge :=
  profile.evidence.filterMap fun ref =>
    (resolveEvidence registry ref.name profile.name).map fun producer =>
      { producer := producer
        consumer := profile.name
        confidence := ref.confidence
        mechanism := ref.mechanism
        matchReason := ref.mechanism.name ++ ": '" ++ ref.name ++ "' resolves to repo '" ++ producer ++
          "'" }

/-- The shared resources a profile declares. -/
def RepositoryProfile.resources (profile : RepositoryProfile) : List String :=
  (profile.evidence.filter fun ref => ref.mechanism = .sharedResource).map fun ref => lower ref.name

/-- `_shared_resource_groups`: the resources that several repositories declare, with these. -/
def sharedResourceGroups (profiles : List RepositoryProfile) : List (String × List String) :=
  let resources := (profiles.flatMap RepositoryProfile.resources).foldl (Keyed.insertNew id) []
  (resources.map fun resource =>
    (resource, sortedSet ((profiles.filter fun profile => resource ∈ profile.resources).map
      (·.name)))).filter fun group => 2 ≤ group.2.length

/-- `permutations(repos, 2)` of distinct names. -/
def orderedPairs (repos : List String) : List (String × String) :=
  repos.flatMap fun consumer => (repos.filter (· ≠ consumer)).map fun producer => (consumer, producer)

/-- The edges of the shared resources. -/
def sharedEdges (profiles : List RepositoryProfile) : List EvidenceEdge :=
  (sharedResourceGroups profiles).flatMap fun group =>
    (orderedPairs group.2).map fun pair =>
      { producer := pair.2
        consumer := pair.1
        confidence := .declared
        mechanism := .sharedResource
        matchReason := "SHARED_RESOURCE: '" ++ pair.1 ++ "' and '" ++ pair.2 ++ "' share resource '" ++
          group.1 ++ "'" }

/-- `_build_edges`: the first edge of each pair. -/
def buildEdges (registry : ServiceRegistry) (profiles : List RepositoryProfile) :
    List EvidenceEdge :=
  (profiles.flatMap (evidenceEdges registry) ++ sharedEdges profiles).foldl
    (Keyed.insertNew EvidenceEdge.pair) []

/-- The service built from profiles. -/
def dependencyGraphOf (profiles : List RepositoryProfile) : DependencyGraphService where
  edges := (buildEdges (buildServiceRegistry profiles) profiles).map EvidenceEdge.toScanEdge

/-! ## Which edges are kept -/

/-- The edges in the order in which they arrive. -/
def arrivingEdges (registry : ServiceRegistry) (profiles : List RepositoryProfile) :
    List EvidenceEdge :=
  profiles.flatMap (evidenceEdges registry) ++ sharedEdges profiles

/-- **First arrival.** An edge is kept when it is the first of its pair to arrive. -/
theorem mem_buildEdges {registry : ServiceRegistry} {profiles : List RepositoryProfile}
    {edge : EvidenceEdge} :
    edge ∈ buildEdges registry profiles ↔
      Keyed.find EvidenceEdge.pair (arrivingEdges registry profiles) edge.pair = some edge := by
  have hkeys : ((buildEdges registry profiles).map EvidenceEdge.pair).Nodup :=
    Keyed.nodup_foldl_insertNew List.nodup_nil
  have hnone : Keyed.find EvidenceEdge.pair [] edge.pair = none := rfl
  have hfind : Keyed.find EvidenceEdge.pair (buildEdges registry profiles) edge.pair =
      Keyed.find EvidenceEdge.pair (arrivingEdges registry profiles) edge.pair := by
    rw [buildEdges, Keyed.find_foldl_insertNew, hnone, Option.none_or, arrivingEdges]
  rw [← hfind, Keyed.find_eq_some hkeys]
  simp

theorem eq_of_mem_buildEdges {registry : ServiceRegistry} {profiles : List RepositoryProfile}
    {edge edge' : EvidenceEdge} (h : edge ∈ buildEdges registry profiles)
    (h' : edge' ∈ buildEdges registry profiles) (hpair : edge.pair = edge'.pair) : edge = edge' := by
  rw [mem_buildEdges] at h h'
  rw [hpair, h'] at h
  exact (Option.some.inj h).symm

theorem exists_mem_buildEdges {registry : ServiceRegistry} {profiles : List RepositoryProfile}
    {edge : EvidenceEdge} (h : edge ∈ arrivingEdges registry profiles) :
    ∃ kept ∈ buildEdges registry profiles, kept.pair = edge.pair := by
  cases hfound : Keyed.find EvidenceEdge.pair (arrivingEdges registry profiles) edge.pair with
  | none => exact absurd rfl (Keyed.find_eq_none.mp hfound edge h)
  | some kept =>
    have hpair := (Keyed.mem_of_find hfound).2
    exact ⟨kept, mem_buildEdges.mpr (hpair ▸ hfound), hpair⟩

theorem mem_arriving {registry : ServiceRegistry} {profiles : List RepositoryProfile}
    {edge : EvidenceEdge} (h : edge ∈ buildEdges registry profiles) :
    edge ∈ arrivingEdges registry profiles := (Keyed.mem_of_find (mem_buildEdges.mp h)).1

theorem evidence_first {registry : ServiceRegistry} {profiles : List RepositoryProfile}
    {edge kept : EvidenceEdge} (hedge : edge ∈ profiles.flatMap (evidenceEdges registry))
    (hkept : kept ∈ buildEdges registry profiles) (hpair : kept.pair = edge.pair) :
    kept ∈ profiles.flatMap (evidenceEdges registry) := by
  rw [mem_buildEdges, arrivingEdges, Keyed.find_append] at hkept
  cases hfound : Keyed.find EvidenceEdge.pair (profiles.flatMap (evidenceEdges registry))
      kept.pair with
  | none => exact absurd hpair.symm (Keyed.find_eq_none.mp hfound edge hedge)
  | some first =>
    rw [hfound, Option.some_or] at hkept
    obtain rfl := Option.some.inj hkept
    exact (Keyed.mem_of_find hfound).1

/-! ## Evidence and shared resources -/

/-- Evidence of a repository resolves to a producer. -/
def Proves (registry : ServiceRegistry) (profile : RepositoryProfile) (ref : DepEvidence)
    (producer : String) : Prop :=
  ref ∈ profile.evidence ∧ resolveEvidence registry ref.name profile.name = some producer

theorem mem_evidenceEdges {registry : ServiceRegistry} {profile : RepositoryProfile}
    {producer consumer : String} {confidence : Confidence} :
    (∃ edge ∈ evidenceEdges registry profile, edge.producer = producer ∧ edge.consumer = consumer ∧
        edge.confidence = confidence) ↔
      profile.name = consumer ∧ ∃ ref, Proves registry profile ref producer ∧
        ref.confidence = confidence := by
  simp only [evidenceEdges, List.mem_filterMap, Option.map_eq_some_iff, Proves]
  constructor
  · rintro ⟨edge, ⟨ref, href, producer', hresolve, rfl⟩, rfl, rfl, rfl⟩
    exact ⟨rfl, ref, ⟨href, hresolve⟩, rfl⟩
  · rintro ⟨rfl, ref, ⟨href, hresolve⟩, rfl⟩
    exact ⟨_, ⟨ref, href, producer, hresolve, rfl⟩, rfl, rfl, rfl⟩

/-- Two repositories declare one resource. -/
def Share (profiles : List RepositoryProfile) (consumer producer : String) : Prop :=
  consumer ≠ producer ∧ ∃ p ∈ profiles, ∃ q ∈ profiles, p.name = consumer ∧ q.name = producer ∧
    ∃ resource ∈ p.resources, resource ∈ q.resources

theorem mem_sharedResourceGroups {profiles : List RepositoryProfile} {group : String × List String} :
    group ∈ sharedResourceGroups profiles ↔
      (∃ p ∈ profiles, group.1 ∈ p.resources) ∧
      group.2 = sortedSet ((profiles.filter fun profile => group.1 ∈ profile.resources).map (·.name)) ∧
      2 ≤ group.2.length := by
  have hlisted : ∀ resource, resource ∈ (profiles.flatMap RepositoryProfile.resources).foldl
      (Keyed.insertNew id) [] ↔ ∃ p ∈ profiles, resource ∈ p.resources := by
    intro resource
    have hkeys := @Keyed.mem_keys_foldl_insertNew _ _ _ id [] resource
      (profiles.flatMap RepositoryProfile.resources)
    simpa using hkeys
  obtain ⟨resource, repos⟩ := group
  simp only [sharedResourceGroups, List.mem_filter, List.mem_map, decide_eq_true_eq, Prod.mk.injEq]
  constructor
  · rintro ⟨⟨resource', hresource, rfl, rfl⟩, hlength⟩
    exact ⟨(hlisted _).mp hresource, rfl, hlength⟩
  · rintro ⟨hresource, hrepos, hlength⟩
    exact ⟨⟨resource, (hlisted _).mpr hresource, rfl, hrepos.symm⟩, hlength⟩

theorem mem_orderedPairs {repos : List String} {consumer producer : String} :
    (consumer, producer) ∈ orderedPairs repos ↔
      consumer ∈ repos ∧ producer ∈ repos ∧ producer ≠ consumer := by
  simp [orderedPairs]

theorem mem_sharedEdges {profiles : List RepositoryProfile} {producer consumer : String}
    {confidence : Confidence} :
    (∃ edge ∈ sharedEdges profiles, edge.producer = producer ∧ edge.consumer = consumer ∧
        edge.confidence = confidence) ↔
      confidence = .declared ∧ Share profiles consumer producer := by
  simp only [sharedEdges, List.mem_flatMap, List.mem_map]
  constructor
  · rintro ⟨edge, ⟨group, hgroup, ⟨consumer', producer'⟩, hpair, rfl⟩, rfl, rfl, rfl⟩
    obtain ⟨-, hrepos, -⟩ := mem_sharedResourceGroups.mp hgroup
    obtain ⟨hconsumer, hproducer, hne⟩ := mem_orderedPairs.mp hpair
    rw [hrepos, Planning.mem_sortedSet, List.mem_map] at hconsumer hproducer
    obtain ⟨p, hp, hpname⟩ := hconsumer
    obtain ⟨q, hq, hqname⟩ := hproducer
    rw [List.mem_filter, decide_eq_true_eq] at hp hq
    exact ⟨rfl, hne.symm, p, hp.1, q, hq.1, hpname, hqname, group.1, hp.2, hq.2⟩
  · rintro ⟨rfl, hne, p, hp, q, hq, rfl, rfl, resource, hpresource, hqresource⟩
    let repos := sortedSet ((profiles.filter fun profile => resource ∈ profile.resources).map (·.name))
    have hpmem : p.name ∈ repos := by
      rw [Planning.mem_sortedSet]
      exact List.mem_map.mpr ⟨p, List.mem_filter.mpr ⟨hp, by simpa using hpresource⟩, rfl⟩
    have hqmem : q.name ∈ repos := by
      rw [Planning.mem_sortedSet]
      exact List.mem_map.mpr ⟨q, List.mem_filter.mpr ⟨hq, by simpa using hqresource⟩, rfl⟩
    have hlength : 2 ≤ repos.length := by
      have hsub : [p.name, q.name] ⊆ repos := by
        intro name hname
        rcases List.mem_pair.mp hname with rfl | rfl
        · exact hpmem
        · exact hqmem
      have hnodup : [p.name, q.name].Nodup := by simpa using hne
      simpa using (List.subperm_of_subset hnodup hsub).length_le
    exact ⟨_, ⟨(resource, repos), mem_sharedResourceGroups.mpr ⟨⟨p, hp, hpresource⟩, rfl, hlength⟩,
      (p.name, q.name), mem_orderedPairs.mpr ⟨hpmem, hqmem, hne.symm⟩, rfl⟩, rfl, rfl, rfl⟩

/-! ## The graph of an organization -/

/-- The triples of the graph: producer, consumer and confidence. -/
def Organization.triples (org : Organization) : List ScanEdge := (dependencyGraphOf org.profiles).edges

/-- **One confidence**: no repository has evidence of two confidences for one other repository. -/
def Organization.OneConfidence (org : Organization) : Prop :=
  ∀ profile ∈ org.profiles, ∀ a ∈ profile.evidence, ∀ b ∈ profile.evidence,
    ∀ producer ∈ org.profiles, producer.name ≠ profile.name → producer.AnswersTo a.name →
      producer.AnswersTo b.name → a.confidence = b.confidence

theorem Organization.resolveEvidence_iff (org : Organization) {identifier consumer producer : String} :
    resolveEvidence org.registry identifier consumer = some producer ↔
      ∃ q ∈ org.profiles, q.name = producer ∧ q.AnswersTo identifier ∧ q.name ≠ consumer := by
  rw [resolveEvidence, Option.filter_eq_some_iff, org.resolve_iff, decide_eq_true_eq]
  constructor
  · rintro ⟨⟨q, hq, rfl, hanswers⟩, hne⟩
    exact ⟨q, hq, rfl, hanswers, hne⟩
  · rintro ⟨q, hq, rfl, hanswers, hne⟩
    exact ⟨⟨q, hq, rfl, hanswers⟩, hne⟩

theorem Organization.eq_of_name (org : Organization) {p q : RepositoryProfile} (hp : p ∈ org.profiles)
    (hq : q ∈ org.profiles) (h : p.name = q.name) : p = q :=
  List.inj_on_of_nodup_map org.names_nodup hp hq h

theorem Organization.OneConfidence.same {org : Organization} (h : org.OneConfidence)
    {p : RepositoryProfile} (hp : p ∈ org.profiles) {a b : DepEvidence} {producer : String}
    (ha : Proves org.registry p a producer) (hb : Proves org.registry p b producer) :
    a.confidence = b.confidence := by
  obtain ⟨q, hq, hqname, hqa, hne⟩ := org.resolveEvidence_iff.mp ha.2
  obtain ⟨q', hq', hqname', hqb, -⟩ := org.resolveEvidence_iff.mp hb.2
  obtain rfl := org.eq_of_name hq hq' (hqname.trans hqname'.symm)
  exact h p hp a ha.1 b hb.1 q hq hne hqa hqb

theorem mem_triples {org : Organization} {producer consumer : String} {confidence : Confidence} :
    ⟨producer, consumer, confidence⟩ ∈ org.triples ↔
      ∃ edge ∈ buildEdges org.registry org.profiles, edge.producer = producer ∧
        edge.consumer = consumer ∧ edge.confidence = confidence := by
  rw [Organization.triples, dependencyGraphOf, List.mem_map]
  refine exists_congr fun edge => and_congr_right fun _ => ?_
  obtain ⟨⟨p, c, confidence'⟩, mechanism, reason⟩ := edge
  simp

/-- Some evidence of a consumer proves an edge to a producer, with a confidence. -/
def Organization.Proved (org : Organization) (producer consumer : String) (confidence : Confidence) :
    Prop :=
  ∃ p ∈ org.profiles, p.name = consumer ∧ ∃ ref, Proves org.registry p ref producer ∧
    ref.confidence = confidence

/-- **The triples, whatever the order.** Where there is one confidence, the graph has what evidence
proves, and declared what only a resource joins. -/
theorem mem_triples_iff {org : Organization} (h : org.OneConfidence) {producer consumer : String}
    {confidence : Confidence} :
    ⟨producer, consumer, confidence⟩ ∈ org.triples ↔
      org.Proved producer consumer confidence ∨
        confidence = .declared ∧ Share org.profiles consumer producer ∧
          ∀ other, ¬ org.Proved producer consumer other := by
  have hproved : ∀ {confidence}, org.Proved producer consumer confidence ↔
      ∃ edge ∈ org.profiles.flatMap (evidenceEdges org.registry), edge.producer = producer ∧
        edge.consumer = consumer ∧ edge.confidence = confidence := by
    intro confidence
    constructor
    · rintro ⟨p, hp, hname, ref, href⟩
      obtain ⟨edge, hedge, hparts⟩ := mem_evidenceEdges.mpr ⟨hname, ref, href⟩
      exact ⟨edge, List.mem_flatMap.mpr ⟨p, hp, hedge⟩, hparts⟩
    · rintro ⟨edge, hedge, hparts⟩
      obtain ⟨p, hp, hedge⟩ := List.mem_flatMap.mp hedge
      exact ⟨p, hp, mem_evidenceEdges.mp ⟨edge, hedge, hparts⟩⟩
  have hsame : ∀ {a b}, org.Proved producer consumer a → org.Proved producer consumer b → a = b := by
    rintro a b ⟨p, hp, rfl, ref, href, rfl⟩ ⟨q, hq, hname, ref', href', rfl⟩
    obtain rfl := org.eq_of_name hq hp hname
    exact h.same hq href href'
  rw [mem_triples]
  constructor
  · rintro ⟨edge, hedge, rfl, rfl, rfl⟩
    by_cases hevidence : ∃ other, org.Proved edge.producer edge.consumer other
    · obtain ⟨other, hother⟩ := hevidence
      obtain ⟨first, hfirst, hproducer, hconsumer, -⟩ := hproved.mp hother
      have hpair : edge.pair = first.pair := by
        rw [EvidenceEdge.pair, EvidenceEdge.pair, hproducer, hconsumer]
      exact .inl (hproved.mpr ⟨edge, evidence_first hfirst hedge hpair, rfl, rfl, rfl⟩)
    · rcases List.mem_append.mp (mem_arriving hedge) with harrived | hshared
      · exact absurd ⟨_, hproved.mpr ⟨edge, harrived, rfl, rfl, rfl⟩⟩ hevidence
      · obtain ⟨hdeclared, hshare⟩ := mem_sharedEdges.mp ⟨edge, hshared, rfl, rfl, rfl⟩
        exact .inr ⟨hdeclared, hshare, fun other hother => hevidence ⟨other, hother⟩⟩
  · rintro (hevidence | ⟨rfl, hshare, hnone⟩)
    · obtain ⟨first, hfirst, rfl, rfl, rfl⟩ := hproved.mp hevidence
      obtain ⟨kept, hkept, hpair⟩ :=
        exists_mem_buildEdges (List.mem_append_left (sharedEdges org.profiles) hfirst)
      have hconsumer : kept.consumer = first.consumer := congrArg Prod.fst hpair
      have hproducer : kept.producer = first.producer := congrArg Prod.snd hpair
      have hproved' := hproved.mpr ⟨kept, evidence_first hfirst hkept hpair, hproducer, hconsumer, rfl⟩
      exact ⟨kept, hkept, hproducer, hconsumer, hsame hproved' hevidence⟩
    · obtain ⟨edge, hedge, rfl, rfl, hdeclared⟩ := mem_sharedEdges.mpr ⟨rfl, hshare⟩
      obtain ⟨kept, hkept, hpair⟩ :=
        exists_mem_buildEdges (List.mem_append_right (org.profiles.flatMap _) hedge)
      have hconsumer : kept.consumer = edge.consumer := congrArg Prod.fst hpair
      have hproducer : kept.producer = edge.producer := congrArg Prod.snd hpair
      refine ⟨kept, hkept, hproducer, hconsumer, ?_⟩
      rcases List.mem_append.mp (mem_arriving hkept) with harrived | hshared
      · exact absurd (hproved.mpr ⟨kept, harrived, hproducer, hconsumer, rfl⟩) (hnone _)
      · exact (mem_sharedEdges.mp ⟨kept, hshared, rfl, rfl, rfl⟩).1

/-! ## Other orders -/

/-- The same card, with its evidence in any order. -/
structure CardReordered (card card' : AutoCard) : Prop where
  evidence : card.depEvidence.Perm card'.depEvidence
  identities : card'.identities = card.identities
  deployIdentities : card'.deployIdentities = card.deployIdentities

/-- The same profile, with its evidence in any order. -/
structure ProfileReordered (p p' : RepositoryProfile) : Prop where
  name : p'.name = p.name
  card : Option.Rel CardReordered p.autoCard p'.autoCard

theorem ProfileReordered.evidence {p p' : RepositoryProfile} (h : ProfileReordered p p') :
    p.evidence.Perm p'.evidence := by
  have hcard := h.card
  rw [RepositoryProfile.evidence, RepositoryProfile.evidence]
  generalize p.autoCard = card at hcard ⊢
  generalize p'.autoCard = card' at hcard ⊢
  cases hcard with
  | none => exact .nil
  | some hcard => exact hcard.evidence

theorem ProfileReordered.answersTo {p p' : RepositoryProfile} (h : ProfileReordered p p')
    (name : String) : p'.AnswersTo name ↔ p.AnswersTo name := by
  have hnames : p'.names = p.names := by
    have hcard := h.card
    rw [RepositoryProfile.names, RepositoryProfile.names, h.name]
    generalize p.autoCard = card at hcard ⊢
    generalize p'.autoCard = card' at hcard ⊢
    cases hcard with
    | none => rfl
    | some hcard => rw [Option.map_some, Option.map_some, hcard.identities, hcard.deployIdentities]
  rw [RepositoryProfile.AnswersTo, RepositoryProfile.AnswersTo, hnames]

theorem ProfileReordered.mem_resources {p p' : RepositoryProfile} (h : ProfileReordered p p')
    (resource : String) : resource ∈ p'.resources ↔ resource ∈ p.resources := by
  rw [RepositoryProfile.resources, RepositoryProfile.resources]
  exact ((h.evidence.filter _).map _).symm.mem_iff

/-- **Reordered**: the same profiles in any order, each with its evidence in any order. -/
def Organization.Reordered (org org' : Organization) : Prop :=
  ∃ profiles, org.profiles.Perm profiles ∧ List.Forall₂ ProfileReordered profiles org'.profiles

theorem Organization.Reordered.forward {org org' : Organization} (h : org.Reordered org')
    {p : RepositoryProfile} (hp : p ∈ org.profiles) : ∃ p' ∈ org'.profiles, ProfileReordered p p' := by
  obtain ⟨profiles, hperm, hpairs⟩ := h
  exact Fallible.forall₂_exists_right hpairs (hperm.mem_iff.mp hp)

theorem Organization.Reordered.backward {org org' : Organization} (h : org.Reordered org')
    {p' : RepositoryProfile} (hp : p' ∈ org'.profiles) : ∃ p ∈ org.profiles, ProfileReordered p p' := by
  obtain ⟨profiles, hperm, hpairs⟩ := h
  obtain ⟨p, hmem, hsame⟩ := Fallible.forall₂_exists_left hpairs hp
  exact ⟨p, hperm.mem_iff.mpr hmem, hsame⟩

section Reordered

variable {org org' : Organization}

theorem Organization.Reordered.resolveEvidence (h : org.Reordered org')
    {identifier consumer producer : String} :
    resolveEvidence org'.registry identifier consumer = some producer ↔
      resolveEvidence org.registry identifier consumer = some producer := by
  rw [org'.resolveEvidence_iff, org.resolveEvidence_iff]
  constructor
  · rintro ⟨q', hq', rfl, hanswers, hne⟩
    obtain ⟨q, hq, hsame⟩ := h.backward hq'
    exact ⟨q, hq, hsame.name.symm, (hsame.answersTo _).mp hanswers, hsame.name ▸ hne⟩
  · rintro ⟨q, hq, rfl, hanswers, hne⟩
    obtain ⟨q', hq', hsame⟩ := h.forward hq
    exact ⟨q', hq', hsame.name, (hsame.answersTo _).mpr hanswers, hsame.name.symm ▸ hne⟩

theorem Organization.Reordered.proved (h : org.Reordered org') {producer consumer : String}
    {confidence : Confidence} :
    org'.Proved producer consumer confidence ↔ org.Proved producer consumer confidence := by
  constructor
  · rintro ⟨p', hp', hname, ref, ⟨href, hresolve⟩, hconfidence⟩
    obtain ⟨p, hp, hsame⟩ := h.backward hp'
    rw [hsame.name] at hname hresolve
    exact ⟨p, hp, hname, ref, ⟨hsame.evidence.mem_iff.mpr href, h.resolveEvidence.mp hresolve⟩,
      hconfidence⟩
  · rintro ⟨p, hp, hname, ref, ⟨href, hresolve⟩, hconfidence⟩
    obtain ⟨p', hp', hsame⟩ := h.forward hp
    rw [← hsame.name] at hname hresolve
    exact ⟨p', hp', hname, ref, ⟨hsame.evidence.mem_iff.mp href, h.resolveEvidence.mpr hresolve⟩,
      hconfidence⟩

theorem Organization.Reordered.share (h : org.Reordered org') {consumer producer : String} :
    Share org'.profiles consumer producer ↔ Share org.profiles consumer producer := by
  constructor
  · rintro ⟨hne, p', hp', q', hq', rfl, rfl, resource, hpresource, hqresource⟩
    obtain ⟨p, hp, hsamep⟩ := h.backward hp'
    obtain ⟨q, hq, hsameq⟩ := h.backward hq'
    exact ⟨hne, p, hp, q, hq, hsamep.name.symm, hsameq.name.symm, resource,
      (hsamep.mem_resources _).mp hpresource, (hsameq.mem_resources _).mp hqresource⟩
  · rintro ⟨hne, p, hp, q, hq, rfl, rfl, resource, hpresource, hqresource⟩
    obtain ⟨p', hp', hsamep⟩ := h.forward hp
    obtain ⟨q', hq', hsameq⟩ := h.forward hq
    exact ⟨hne, p', hp', q', hq', hsamep.name, hsameq.name, resource,
      (hsamep.mem_resources _).mpr hpresource, (hsameq.mem_resources _).mpr hqresource⟩

theorem Organization.Reordered.oneConfidence (h : org.Reordered org') (hone : org.OneConfidence) :
    org'.OneConfidence := by
  intro p' hp' a ha b hb q' hq' hne hqa hqb
  obtain ⟨p, hp, hsamep⟩ := h.backward hp'
  obtain ⟨q, hq, hsameq⟩ := h.backward hq'
  rw [hsamep.name, hsameq.name] at hne
  exact hone p hp a (hsamep.evidence.mem_iff.mpr ha) b (hsamep.evidence.mem_iff.mpr hb) q hq hne
    ((hsameq.answersTo _).mp hqa) ((hsameq.answersTo _).mp hqb)

end Reordered

/-- The profile with other evidence. -/
def RepositoryProfile.withEvidence (p : RepositoryProfile) (evidence : List DepEvidence) :
    RepositoryProfile :=
  { p with autoCard := p.autoCard.map fun card => { card with depEvidence := evidence } }

theorem profileReordered_withEvidence {p : RepositoryProfile} {evidence : List DepEvidence}
    (h : p.evidence.Perm evidence) : ProfileReordered p (p.withEvidence evidence) := by
  refine ⟨rfl, ?_⟩
  rw [RepositoryProfile.evidence] at h
  rw [RepositoryProfile.withEvidence]
  cases hcard : p.autoCard with
  | none => exact .none
  | some card =>
    rw [hcard] at h
    exact .some ⟨h, rfl, rfl⟩

/-- The organization with the evidence of each profile in another order. -/
def Organization.withEvidence (org : Organization) (evidence : RepositoryProfile → List DepEvidence)
    (h : ∀ p : RepositoryProfile, p.evidence.Perm (evidence p)) : Organization where
  profiles := org.profiles.map fun p => p.withEvidence (evidence p)
  names_nodup := by
    rw [List.map_map]
    exact org.names_nodup
  apart := by
    intro p' hp' q' hq' name hpname hqname
    obtain ⟨p, hp, rfl⟩ := List.mem_map.mp hp'
    obtain ⟨q, hq, rfl⟩ := List.mem_map.mp hq'
    have hpname' := ((profileReordered_withEvidence (h p)).answersTo name).mp hpname
    have hqname' := ((profileReordered_withEvidence (h q)).answersTo name).mp hqname
    rw [org.apart p hp q hq name hpname' hqname']

theorem reordered_withEvidence (org : Organization) {evidence : RepositoryProfile → List DepEvidence}
    (h : ∀ p : RepositoryProfile, p.evidence.Perm (evidence p)) : org.Reordered (org.withEvidence evidence h) := by
  refine ⟨org.profiles, List.Perm.refl _, ?_⟩
  rw [Organization.withEvidence, List.forall₂_map_right_iff, List.forall₂_same]
  exact fun p _ => profileReordered_withEvidence (h p)

theorem first_mem_triples {org : Organization} {p : RepositoryProfile} (hp : p ∈ org.profiles)
    {ref : DepEvidence} {rest : List DepEvidence} (hevidence : p.evidence = ref :: rest)
    {producer : String} (hresolve : resolveEvidence org.registry ref.name p.name = some producer) :
    ⟨producer, p.name, ref.confidence⟩ ∈ org.triples := by
  obtain ⟨before, after, hsplit⟩ := List.append_of_mem hp
  have hfresh : ∀ edge ∈ before.flatMap (evidenceEdges org.registry),
      edge.pair ≠ (p.name, producer) := by
    intro edge hedge hpair
    obtain ⟨q, hq, hedge⟩ := List.mem_flatMap.mp hedge
    have hconsumer : edge.consumer = p.name := congrArg Prod.fst hpair
    obtain ⟨hname, -⟩ := mem_evidenceEdges.mp ⟨edge, hedge, rfl, hconsumer, rfl⟩
    have hnodup := org.names_nodup
    rw [hsplit, List.map_append, List.nodup_append] at hnodup
    exact hnodup.2.2 q.name (List.mem_map.mpr ⟨q, hq, rfl⟩) p.name (by simp) hname
  obtain ⟨first, hfirst, hedges⟩ : ∃ first : EvidenceEdge, first.toScanEdge =
      ⟨producer, p.name, ref.confidence⟩ ∧ ∃ others, evidenceEdges org.registry p = first :: others := by
    rw [evidenceEdges, hevidence, List.filterMap_cons, hresolve]
    exact ⟨_, rfl, _, rfl⟩
  obtain ⟨others, hedges⟩ := hedges
  have hpair : first.pair = (p.name, producer) := by
    rw [EvidenceEdge.pair, hfirst]
  have hkept : first ∈ buildEdges org.registry org.profiles := by
    rw [mem_buildEdges, arrivingEdges, hsplit, List.flatMap_append, List.flatMap_cons, hedges, hpair,
      Keyed.find_append, Keyed.find_append, Keyed.find_eq_none.mpr hfresh, Option.none_or,
      List.cons_append, Keyed.find]
    simp [hpair]
  exact mem_triples.mpr ⟨first, hkept, congrArg ScanEdge.producer hfirst,
    congrArg ScanEdge.consumer hfirst, congrArg ScanEdge.confidence hfirst⟩

theorem exists_first (org : Organization) {p : RepositoryProfile} (hp : p ∈ org.profiles)
    {ref : DepEvidence} {producer : String} (h : Proves org.registry p ref producer) :
    ∃ org', org.Reordered org' ∧ ⟨producer, p.name, ref.confidence⟩ ∈ org'.triples := by
  let evidence : RepositoryProfile → List DepEvidence := fun q =>
    if ref ∈ q.evidence then ref :: q.evidence.erase ref else q.evidence
  have hperm : ∀ q : RepositoryProfile, q.evidence.Perm (evidence q) := by
    intro q
    by_cases hq : ref ∈ q.evidence
    · simpa only [evidence, if_pos hq] using List.perm_cons_erase hq
    · simpa only [evidence, if_neg hq] using List.Perm.refl _
  have hreordered := reordered_withEvidence org hperm
  have hevidence : (p.withEvidence (evidence p)).evidence = ref :: p.evidence.erase ref := by
    have hcard := h.1
    rw [RepositoryProfile.evidence] at hcard
    rw [RepositoryProfile.withEvidence, RepositoryProfile.evidence]
    cases hauto : p.autoCard with
    | none => simp [hauto] at hcard
    | some card => simp only [evidence, if_pos h.1, Option.map_some, Option.getD_some]
  refine ⟨org.withEvidence evidence hperm, hreordered, ?_⟩
  exact @first_mem_triples (org.withEvidence evidence hperm) (p.withEvidence (evidence p))
    (List.mem_map.mpr ⟨p, hp, rfl⟩) _ _ hevidence _ (hreordered.resolveEvidence.mpr h.2)

/-! ## Hard evidence -/

/-- **Hard evidence is kept**: a confirmed edge is there exactly when confirmed evidence resolves to its
producer, and the triples depend on no order of the profiles or of their evidence. -/
structure Organization.KeepsHardEvidence (org : Organization) : Prop where
  confirmed : ∀ producer consumer, ⟨producer, consumer, .confirmed⟩ ∈ org.triples ↔
    ∃ p ∈ org.profiles, p.name = consumer ∧ ∃ ref ∈ p.evidence, ref.confidence = .confirmed ∧
      resolveEvidence org.registry ref.name consumer = some producer
  ordered : ∀ org', org.Reordered org' → ∀ triple, triple ∈ org'.triples ↔ triple ∈ org.triples

/-- **When hard evidence is kept**: exactly when no repository has evidence of two confidences for one
other repository. -/
theorem keepsHardEvidence_iff (org : Organization) : org.KeepsHardEvidence ↔ org.OneConfidence := by
  constructor
  · intro h p hp a ha b hb q hq hne hqa hqb
    have hproves : ∀ ref ∈ p.evidence, q.AnswersTo ref.name → Proves org.registry p ref q.name :=
      fun ref href hanswers => ⟨href, org.resolveEvidence_iff.mpr ⟨q, hq, rfl, hanswers, hne⟩⟩
    have htriple : ∀ ref ∈ p.evidence, q.AnswersTo ref.name →
        ⟨q.name, p.name, ref.confidence⟩ ∈ org.triples := by
      intro ref href hanswers
      obtain ⟨org', hreordered, hmem⟩ := exists_first org hp (hproves ref href hanswers)
      exact (h.ordered org' hreordered _).mp hmem
    -- one pair has one edge, so both confidences are its own
    obtain ⟨edge, hedge, hproducer, hconsumer, hconfidence⟩ := mem_triples.mp (htriple a ha hqa)
    obtain ⟨edge', hedge', hproducer', hconsumer', hconfidence'⟩ := mem_triples.mp (htriple b hb hqb)
    have hpair : edge.pair = edge'.pair := by
      rw [EvidenceEdge.pair, EvidenceEdge.pair, hproducer, hconsumer, hproducer', hconsumer']
    rw [← hconfidence, ← hconfidence', eq_of_mem_buildEdges hedge hedge' hpair]
  · intro h
    constructor
    · intro producer consumer
      rw [mem_triples_iff h]
      constructor
      · rintro (⟨p, hp, rfl, ref, ⟨href, hresolve⟩, hconfidence⟩ | ⟨hdeclared, -⟩)
        · exact ⟨p, hp, rfl, ref, href, hconfidence, hresolve⟩
        · cases hdeclared
      · rintro ⟨p, hp, rfl, ref, href, hconfidence, hresolve⟩
        exact .inl ⟨p, hp, rfl, ref, ⟨href, hresolve⟩, hconfidence⟩
    · rintro org' hreordered ⟨producer, consumer, confidence⟩
      rw [mem_triples_iff h, mem_triples_iff (hreordered.oneConfidence h), hreordered.proved,
        hreordered.share]
      simp only [hreordered.proved]

/-- A repository whose deployment declares, and whose workspace proves, that it depends on another. -/
def maskedProfiles : List RepositoryProfile :=
  [{ name := "web"
     autoCard := some
      { depEvidence := [⟨"api", .deploy, .declared⟩, ⟨"api", .source, .confirmed⟩] } },
   { name := "api" }]

/-- The organization of the two. -/
def maskedOrganization : Organization where
  profiles := maskedProfiles
  names_nodup := by decide
  apart := by
    have hown : ∀ p ∈ maskedProfiles, p.names = [p.name] := by decide
    have hnormal : ∀ p ∈ maskedProfiles, ∀ q ∈ maskedProfiles,
        normalize p.name = normalize q.name → p = q := by decide +kernel
    rintro p hp q hq name ⟨-, own, hpown, hpname⟩ ⟨-, own', hqown, hqname⟩
    rw [hown p hp, List.mem_singleton] at hpown
    rw [hown q hq, List.mem_singleton] at hqown
    subst hpown hqown
    exact hnormal p hp q hq (hpname.trans hqname.symm)

/-- **Confirmed evidence is masked** by the declared evidence before it. -/
theorem confirmed_masked : ¬ maskedOrganization.KeepsHardEvidence := by
  intro h
  have hmem := (h.confirmed "api" "web").mpr
    ⟨_, List.mem_cons_self, rfl, ⟨"api", .source, .confirmed⟩, by decide, rfl, by decide +kernel⟩
  have hmissing : ⟨"api", "web", .confirmed⟩ ∉ maskedOrganization.triples := by decide +kernel
  exact hmissing hmem

end Scan
end RepoMesh
