/-
# The dependency graph service

The scan-derived graph and its queries: the edges within a set of repositories, and their own
topological sort, which is the plan-layer projection wherever both read the same confirmed edges.
-/
import RepoMesh.Planning.Graph

namespace RepoMesh
namespace Planning

open Levels

/-- The confidence of a scan-derived edge. -/
inductive Confidence where
  | confirmed
  | declared
  deriving DecidableEq

/-- `GraphEdge` of the service: the consumer calls the producer. -/
structure ScanEdge where
  producer : String
  consumer : String
  confidence : Confidence
  deriving DecidableEq

/-- Result of topological sort. -/
structure TopoResult where
  batches : List (List String)
  cyclicRepos : List String := []
  deriving DecidableEq

/-- `DependencyGraphService`: the edges it was built with. -/
structure DependencyGraphService where
  edges : List ScanEdge

namespace DependencyGraphService

/-- `edges_in`: all directed edges within the given repo set. -/
def edgesIn (service : DependencyGraphService) (repos : List String) : List ScanEdge :=
  service.edges.filter fun e => decide (e.producer ∈ repos) && decide (e.consumer ∈ repos)

/-- The edges that constrain the order of the given repositories. -/
def relevant (service : DependencyGraphService) (repos : List String) : List ScanEdge :=
  service.edges.filter fun e => decide (e.confidence = .confirmed) &&
    decide (e.producer ∈ repos) && decide (e.consumer ∈ repos)

/-- The producers that relevant edges give a consumer. -/
def producers (edges : List ScanEdge) (consumer : String) : List String :=
  (edges.filter fun e => decide (e.consumer = consumer)).map (·.producer)

/-- The loop of `topological_batches`. -/
def topologicalFrom (deps : String → List String) :
    ℕ → List (List String) → List String → List String → TopoResult
  | 0, batches, _, _ => { batches := batches }
  | rounds + 1, batches, placed, remaining =>
    if remaining = [] then { batches := batches }
    else
      let ready := remaining.filter fun r => (deps r).all (· ∈ placed)
      if ready = [] then { batches := batches ++ [remaining], cyclicRepos := remaining }
      else topologicalFrom deps rounds (batches ++ [ready]) (placed ++ ready)
        (remaining.filter (· ∉ ready))

/-- `topological_batches`: sort repositories into execution batches. -/
def topologicalBatches (service : DependencyGraphService) (repos : List String) : TopoResult :=
  let repoSet := sortedSet repos
  topologicalFrom (producers (service.relevant repos)) repoSet.length [] [] repoSet

theorem batches_topologicalFrom (deps : String → List String) (rounds : ℕ)
    (batches : List (List String)) (placed remaining : List String) :
    (topologicalFrom deps rounds batches placed remaining).batches =
      batches ++ levels deps rounds placed remaining := by
  induction rounds generalizing batches placed remaining with
  | zero => simp [topologicalFrom, levels]
  | succ rounds ih =>
    by_cases hdone : remaining = []
    · simp [topologicalFrom, hdone]
    · by_cases hready : ready deps placed remaining = []
      · rw [levels_blocked hdone hready]
        rw [ready] at hready
        simp [topologicalFrom, hdone, hready]
      · rw [levels_ready hready, ← List.singleton_append, ← List.append_assoc, ← ih]
        rw [ready] at hready
        simp only [topologicalFrom, hdone, hready, if_false]
        rfl

theorem mem_producers_relevant {service : DependencyGraphService} {repos : List String}
    {producer consumer : String} :
    producer ∈ producers (service.relevant repos) consumer ↔
      (∃ e ∈ service.edges, e.confidence = .confirmed ∧ e.producer = producer ∧
        e.consumer = consumer) ∧ producer ∈ repos ∧ consumer ∈ repos := by
  simp only [producers, relevant, List.mem_map, List.mem_filter, Bool.and_eq_true,
    decide_eq_true_eq]
  constructor
  · rintro ⟨e, ⟨⟨he, ⟨hconfirmed, hproducer⟩, hconsumer⟩, rfl⟩, rfl⟩
    exact ⟨⟨e, he, hconfirmed, rfl, rfl⟩, hproducer, hconsumer⟩
  · rintro ⟨⟨e, he, hconfirmed, rfl, rfl⟩, hproducer, hconsumer⟩
    exact ⟨e, ⟨⟨he, ⟨hconfirmed, hproducer⟩, hconsumer⟩, rfl⟩, rfl⟩

end DependencyGraphService

/-- Between the given repositories, the confirmed edges of a scan are those of a plan-layer graph, in
any order and number. -/
def SameConfirmed (service : DependencyGraphService) (repos : List String)
    (edges : List GraphEdge) : Prop :=
  ∀ producer ∈ repos, ∀ consumer ∈ repos,
    (∃ e ∈ service.edges, e.confidence = .confirmed ∧ e.producer = producer ∧
      e.consumer = consumer) ↔ Confirmed edges producer consumer

end Planning
end RepoMesh
