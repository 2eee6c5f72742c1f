/-
# The service registry

`RepositoryProfile` and `ServiceRegistry`: every name a scanned repository goes by, with the repository
that registered it first. Where no two repositories share a name, an identifier resolves to the
repository that answers to it, whatever the order of the scan.
-/
import RepoMesh.Foundation.Keyed
import RepoMesh.Foundation.Text
import RepoMesh.Planning.DependencyGraph

namespace RepoMesh
namespace Scan

open Text
open Planning (Confidence)

/-! ## Profiles -/

/-- The mechanisms a dependency is proved by. -/
inductive Mechanism where
  | build | runtimeCall | sharedResource | deploy | source | observed
  deriving DecidableEq

/-- A mechanism as evidence spells it. -/
def Mechanism.name : Mechanism → String
  | .build => "BUILD"
  | .runtimeCall => "RUNTIME_CALL"
  | .sharedResource => "SHARED_RESOURCE"
  | .deploy => "DEPLOY"
  | .source => "SOURCE"
  | .observed => "OBSERVED"

/-- `DepEvidence`: one structured dependency fact extracted from a repository. -/
structure DepEvidence where
  name : String
  mechanism : Mechanism
  confidence : Confidence
  deriving DecidableEq

/-- `AutoCard`, as far as the graph reads it. -/
structure AutoCard where
  depEvidence : List DepEvidence := []
  identities : List String := []
  deployIdentities : List String := []
  deriving DecidableEq

/-- `RepositoryProfile`, as far as the graph reads it. -/
structure RepositoryProfile where
  name : String
  autoCard : Option AutoCard := none
  deriving DecidableEq

/-- The evidence of a profile. -/
def RepositoryProfile.evidence (profile : RepositoryProfile) : List DepEvidence :=
  (profile.autoCard.map (·.depEvidence)).getD []

/-! ## The registry -/

/-- `ServiceAliases`: every identifier that resolves to one repository. -/
structure ServiceAliases where
  repoName : String
  buildIds : List String := []
  springNames : List String := []
  feignNames : List String := []
  deployNames : List String := []

/-- `iter_names`. -/
def ServiceAliases.iterNames (aliases : ServiceAliases) : List String :=
  aliases.repoName :: (aliases.buildIds ++ aliases.springNames ++ aliases.feignNames ++
    aliases.deployNames)

/-- `ServiceRegistry`: aliases with the repository that registered them first. -/
structure ServiceRegistry where
  byAlias : List (String × String) := []

/-- `register`, under every name that is not blank. -/
def ServiceRegistry.register (registry : ServiceRegistry) (aliases : ServiceAliases) :
    ServiceRegistry where
  byAlias := aliases.iterNames.foldl (fun byAlias name =>
    let key := normalize name
    if key = "" then byAlias
    else Keyed.insertNew Prod.fst byAlias (key, aliases.repoName)) registry.byAlias

/-- `resolve`. -/
def ServiceRegistry.resolve (registry : ServiceRegistry) (alias_ : String) : Option String :=
  (Keyed.find Prod.fst registry.byAlias (normalize alias_)).map Prod.snd

/-- The aliases a profile declares for itself in its build and deployment files. -/
def RepositoryProfile.declared (profile : RepositoryProfile) : Option ServiceAliases :=
  profile.autoCard.bind fun card =>
    if card.identities ≠ [] ∨ card.deployIdentities ≠ [] then
      some { repoName := profile.name, buildIds := card.identities
             deployNames := card.deployIdentities }
    else none

/-- `build_service_registry`: first the names of the platform, then what the profiles declare. -/
def buildServiceRegistry (profiles : List RepositoryProfile) : ServiceRegistry :=
  let platform := profiles.map fun profile => { repoName := profile.name : ServiceAliases }
  (platform ++ profiles.filterMap RepositoryProfile.declared).foldl ServiceRegistry.register {}

/-! ## What an identifier resolves to -/

/-- The names a profile goes by. -/
def RepositoryProfile.names (profile : RepositoryProfile) : List String :=
  profile.name :: ((profile.autoCard.map fun card => card.identities ++ card.deployIdentities).getD [])

/-- A profile answers to a name that is not blank and is one of its own, up to case and blanks around
it. -/
def RepositoryProfile.AnswersTo (profile : RepositoryProfile) (name : String) : Prop :=
  normalize name ≠ "" ∧ ∃ own ∈ profile.names, normalize own = normalize name

/-- The entries a registration asks for. -/
def ServiceAliases.entries (aliases : ServiceAliases) : List (String × String) :=
  (aliases.iterNames.filter fun name => normalize name ≠ "").map fun name =>
    (normalize name, aliases.repoName)

theorem register_eq (registry : ServiceRegistry) (aliases : ServiceAliases) :
    (registry.register aliases).byAlias =
      aliases.entries.foldl (Keyed.insertNew Prod.fst) registry.byAlias := by
  rw [ServiceRegistry.register, ServiceAliases.entries]
  generalize aliases.iterNames = names
  generalize registry.byAlias = byAlias
  induction names generalizing byAlias with
  | nil => rfl
  | cons name names ih =>
    rw [List.foldl_cons]
    by_cases hblank : normalize name = ""
    · simpa [hblank] using ih byAlias
    · simpa [hblank] using ih _

theorem foldl_register (registry : ServiceRegistry) (list : List ServiceAliases) :
    (list.foldl ServiceRegistry.register registry).byAlias =
      (list.flatMap ServiceAliases.entries).foldl (Keyed.insertNew Prod.fst) registry.byAlias := by
  induction list generalizing registry with
  | nil => rfl
  | cons aliases list ih =>
    rw [List.foldl_cons, ih, register_eq, List.flatMap_cons, List.foldl_append]

/-- Everything the profiles register, the names of the platform first. -/
def registrations (profiles : List RepositoryProfile) : List ServiceAliases :=
  (profiles.map fun profile => { repoName := profile.name : ServiceAliases }) ++
    profiles.filterMap RepositoryProfile.declared

theorem resolve_eq (profiles : List RepositoryProfile) (name : String) :
    (buildServiceRegistry profiles).resolve name =
      (Keyed.find Prod.fst ((registrations profiles).flatMap ServiceAliases.entries)
        (normalize name)).map Prod.snd := by
  have hbuilt : (buildServiceRegistry profiles).byAlias =
      ((registrations profiles).flatMap ServiceAliases.entries).foldl (Keyed.insertNew Prod.fst) [] :=
    foldl_register {} (registrations profiles)
  have hnone : Keyed.find Prod.fst ([] : List (String × String)) (normalize name) = none := rfl
  rw [ServiceRegistry.resolve, hbuilt, Keyed.find_foldl_insertNew, hnone, Option.none_or]

theorem mem_entries_iff {profiles : List RepositoryProfile} {key repo : String} :
    (key, repo) ∈ (registrations profiles).flatMap ServiceAliases.entries ↔
      key ≠ "" ∧ ∃ profile ∈ profiles, profile.name = repo ∧ ∃ own ∈ profile.names,
        normalize own = key := by
  have hentries : ∀ aliases : ServiceAliases, (key, repo) ∈ aliases.entries ↔
      key ≠ "" ∧ aliases.repoName = repo ∧ ∃ own ∈ aliases.iterNames, normalize own = key := by
    intro aliases
    rw [ServiceAliases.entries, List.mem_map]
    simp only [List.mem_filter, decide_eq_true_eq, Prod.mk.injEq]
    constructor
    · rintro ⟨own, ⟨hown, hblank⟩, rfl, rfl⟩
      exact ⟨hblank, rfl, own, hown, rfl⟩
    · rintro ⟨hblank, rfl, own, hown, rfl⟩
      exact ⟨own, ⟨hown, hblank⟩, rfl, rfl⟩
  simp only [List.mem_flatMap, hentries, registrations, List.mem_append, List.mem_map,
    List.mem_filterMap]
  constructor
  · rintro ⟨aliases, ⟨profile, hprofile, rfl⟩ | ⟨profile, hprofile, hdeclared⟩, hkey, hrepo, own, hown,
      hnormal⟩
    · have hname : own = profile.name := by simpa [ServiceAliases.iterNames] using hown
      exact ⟨hkey, profile, hprofile, hrepo, own, by simp [RepositoryProfile.names, hname], hnormal⟩
    · obtain ⟨card, hcard, hsome⟩ := Option.bind_eq_some_iff.mp hdeclared
      split_ifs at hsome
      obtain rfl := Option.some.inj hsome
      refine ⟨hkey, profile, hprofile, hrepo, own, ?_, hnormal⟩
      simpa [ServiceAliases.iterNames, RepositoryProfile.names, hcard] using hown
  · rintro ⟨hkey, profile, hprofile, hrepo, own, hown, hnormal⟩
    rcases List.mem_cons.mp hown with rfl | hown
    · exact ⟨_, .inl ⟨profile, hprofile, rfl⟩, hkey, hrepo, profile.name,
        by simp [ServiceAliases.iterNames], hnormal⟩
    · cases hcard : profile.autoCard with
      | none => simp [hcard] at hown
      | some card =>
        rw [hcard, Option.map_some, Option.getD_some] at hown
        have hdeclared : card.identities ≠ [] ∨ card.deployIdentities ≠ [] := by
          by_contra hnone
          obtain ⟨hbuild, hdeploy⟩ := not_or.mp hnone
          rw [not_not.mp hbuild, not_not.mp hdeploy] at hown
          cases hown
        refine ⟨{ repoName := profile.name, buildIds := card.identities
                  deployNames := card.deployIdentities }, .inr ⟨profile, hprofile, ?_⟩, hkey, hrepo,
          own, ?_, hnormal⟩
        · rw [RepositoryProfile.declared, hcard, Option.bind_some, if_pos hdeclared]
        · simpa [ServiceAliases.iterNames] using Or.inr (List.mem_append.mp hown)

/-- **A scanned organization**: distinct repositories have distinct names, and answer to no name in
common. -/
structure Organization where
  profiles : List RepositoryProfile
  names_nodup : (profiles.map (·.name)).Nodup
  apart : ∀ p ∈ profiles, ∀ q ∈ profiles, ∀ name, p.AnswersTo name → q.AnswersTo name → p = q

/-- The registry of an organization. -/
def Organization.registry (org : Organization) : ServiceRegistry := buildServiceRegistry org.profiles

/-- **Resolution.** An identifier resolves to the repository that answers to it. -/
theorem Organization.resolve_iff (org : Organization) {name repo : String} :
    org.registry.resolve name = some repo ↔
      ∃ profile ∈ org.profiles, profile.name = repo ∧ profile.AnswersTo name := by
  rw [Organization.registry, resolve_eq]
  constructor
  · intro h
    obtain ⟨⟨key, repo'⟩, hfound, rfl⟩ := Option.map_eq_some_iff.mp h
    obtain ⟨hmem, hkey⟩ := Keyed.mem_of_find hfound
    obtain ⟨hblank, profile, hprofile, hrepo, own, hown, hnormal⟩ := mem_entries_iff.mp hmem
    have hkey' : key = normalize name := hkey
    rw [hkey'] at hblank hnormal
    exact ⟨profile, hprofile, hrepo, hblank, own, hown, hnormal⟩
  · rintro ⟨profile, hprofile, rfl, hanswers⟩
    obtain ⟨hblank, own, hown, hnormal⟩ := hanswers
    have hmem : (normalize name, profile.name) ∈
        (registrations org.profiles).flatMap ServiceAliases.entries :=
      mem_entries_iff.mpr ⟨hblank, profile, hprofile, rfl, own, hown, hnormal⟩
    cases hfound : Keyed.find Prod.fst
        ((registrations org.profiles).flatMap ServiceAliases.entries) (normalize name) with
    | none =>
      have hfree := Keyed.find_eq_none.mp hfound
      exact absurd (hfree _ hmem) (by simp)
    | some entry =>
      obtain ⟨hentry, hkey⟩ := Keyed.mem_of_find hfound
      obtain ⟨key, repo⟩ := entry
      obtain ⟨-, other, hother, hrepo, own', hown', hnormal'⟩ := mem_entries_iff.mp hentry
      have hkey' : key = normalize name := hkey
      rw [hkey'] at hnormal'
      have hother' : other.AnswersTo name := ⟨hblank, own', hown', hnormal'⟩
      obtain rfl := org.apart profile hprofile other hother name ⟨hblank, own, hown, hnormal⟩ hother'
      rw [Option.map_some, hrepo]

end Scan
end RepoMesh
