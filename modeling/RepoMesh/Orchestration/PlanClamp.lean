/-
# The clamp of a leader's plan

What `_assert_plan_is_within_envelope` establishes. Its graph can be carried out: Kahn's algorithm ends
and finds the cycles there are, so an accepted plan has an order in which every edge leads forward.
-/
import RepoMesh.Foundation.Fallible
import RepoMesh.Foundation.Kahn
import RepoMesh.Orchestration.LeaderPlan

namespace RepoMesh
namespace Orchestration

open Text

/-! ## What is checked -/

theorem assertPlan_ok_iff (decision : RepositoryPlanDecision) (assignment : LeaderAssignmentView) :
    assertPlanIsWithinEnvelope decision assignment = .ok () ↔
      decision.provenance.source = leaderProvenanceSource ∧
        decision.nodes.Nodup ∧
        ((decision.workerTasks.map (·.nodeId)).Nodup ∧
          decision.workerTasks.map (·.nodeId) ⊆ decision.nodes ∧
          decision.nodes ⊆ decision.workerTasks.map (·.nodeId)) ∧
        (decision.edges.any fun edge =>
          !(decision.nodes.contains edge.1 && decision.nodes.contains edge.2)) = false ∧
        hasCycle decision.nodes decision.edges = false ∧
        ∀ draft ∈ decision.workerTasks, assertDraftWithinEnvelope assignment draft = .ok () := by
  simp only [assertPlanIsWithinEnvelope, Fallible.checked_ok_iff, not_or, not_not, ne_eq,
    Bool.not_eq_true]
  exact Iff.rfl.and (Iff.rfl.and (Iff.rfl.and (Iff.rfl.and (Iff.rfl.and Fallible.forM_ok_iff))))

/-! ## Cycles -/

/-- The in-degrees `_has_cycle` starts from. -/
def startDegree (edges : List (String × String)) (node : String) : ℤ :=
  (edges.countP fun edge => edge.2 == node : ℕ)

theorem le_of_drains {edges : List (String × String)} {ready : List String}
    {indegree : String → ℤ} {taken total : ℕ} (h : Kahn.Drains edges ready indegree taken total) :
    taken ≤ total := by
  induction h with
  | done => exact le_rfl
  | take _ _ ih => omega

theorem orderedNodes_of_drains {edges : List (String × String)} {ready : List String}
    {indegree : String → ℤ} {taken total : ℕ} (h : Kahn.Drains edges ready indegree taken total) :
    ∀ rounds, total ≤ taken + rounds → orderedNodes edges rounds ready indegree taken = total := by
  induction h with
  | done indegree taken =>
    intro rounds _
    cases rounds with
    | zero => rfl
    | succ rounds => rfl
  | @take ready node indegree taken total hlast hrest ih =>
    intro rounds hrounds
    have hle := le_of_drains hrest
    obtain ⟨rounds, rfl⟩ : ∃ n, rounds = n + 1 := ⟨rounds - 1, by omega⟩
    rw [orderedNodes, hlast]
    exact ih rounds (by omega)

theorem startDegree_eq (edges : List (String × String)) (node : String) :
    startDegree edges node = Kahn.pending edges [] node := by
  simp [startDegree, Kahn.pending]

theorem hasCycle_spec {nodes : List String} {edges : List (String × String)} (hnodes : nodes.Nodup)
    (hedges : ∀ edge ∈ edges, edge.1 ∈ nodes ∧ edge.2 ∈ nodes) :
    ∃ order, Kahn.Drains edges (nodes.filter fun node => startDegree edges node = 0)
        (startDegree edges) 0 order.length ∧
      hasCycle nodes edges = (order.length != nodes.length) ∧
      order.Nodup ∧ order ⊆ nodes ∧ Kahn.Topological edges order ∧
      (order.length = nodes.length ↔
        ¬ ∃ node, Relation.TransGen (Kahn.Edge edges) node node) := by
  obtain ⟨order, hdrains, hnodup, hsub, hforward, hiff⟩ :=
    Kahn.drains_iff hnodes hedges (startDegree edges) (startDegree_eq edges)
  have hlength : order.length ≤ nodes.length := (List.subperm_of_subset hnodup hsub).length_le
  have hordered := orderedNodes_of_drains hdrains nodes.length (by omega)
  refine ⟨order, hdrains, ?_, hnodup, hsub, hforward, hiff⟩
  rw [← hordered]
  rfl

/-- An order of all nodes in which every edge leads from an earlier one to a later one. -/
structure CarriedOut (decision : RepositoryPlanDecision) (order : List String) : Prop where
  perm : order.Perm decision.nodes
  forward : Kahn.Topological decision.edges order

/-- **Cycles are found.** Over distinct nodes and edges between them `_has_cycle` ends, and it is true
exactly when the graph has a cycle; so an accepted plan names each node with one worker task, has edges
between its nodes only, and can be carried out. -/
theorem hasCycle_decides :
    (∀ (nodes : List String) (edges : List (String × String)), nodes.Nodup →
      (∀ edge ∈ edges, edge.1 ∈ nodes ∧ edge.2 ∈ nodes) →
        (∃ ordered, Kahn.Drains edges (nodes.filter fun node => startDegree edges node = 0)
            (startDegree edges) 0 ordered ∧ hasCycle nodes edges = (ordered != nodes.length)) ∧
          (hasCycle nodes edges = true ↔
            ∃ node, Relation.TransGen (fun a b => (a, b) ∈ edges) node node)) ∧
      ∀ (decision : RepositoryPlanDecision) (assignment : LeaderAssignmentView),
        assertPlanIsWithinEnvelope decision assignment = .ok () →
          decision.nodes.Nodup ∧
            (decision.workerTasks.map (·.nodeId)).Perm decision.nodes ∧
            (∀ edge ∈ decision.edges, edge.1 ∈ decision.nodes ∧ edge.2 ∈ decision.nodes) ∧
            ∃ order, CarriedOut decision order := by
  constructor
  · intro nodes edges hnodes hedges
    obtain ⟨order, hdrains, hcycle, -, -, -, hiff⟩ := hasCycle_spec hnodes hedges
    refine ⟨⟨order.length, hdrains, hcycle⟩, ?_⟩
    rw [hcycle, bne_iff_ne, Ne, hiff, not_not]
    rfl
  · intro decision assignment haccepted
    obtain ⟨-, hnodes, ⟨hclaimed, hsub, hsup⟩, hedges, hcycle, -⟩ :=
      (assertPlan_ok_iff decision assignment).mp haccepted
    have hbetween : ∀ edge ∈ decision.edges,
        edge.1 ∈ decision.nodes ∧ edge.2 ∈ decision.nodes := by
      intro edge hedge
      have hin := List.any_eq_false.mp hedges edge hedge
      simpa using hin
    obtain ⟨order, -, hsame, hnodup, hordersub, hforward, -⟩ := hasCycle_spec hnodes hbetween
    have hlength : order.length = decision.nodes.length := by
      rw [hcycle] at hsame
      simpa using hsame.symm
    refine ⟨hnodes, ?_, hbetween, order, ?_, hforward⟩
    · exact (List.perm_ext_iff_of_nodup hclaimed hnodes).mpr fun name =>
        ⟨fun hname => hsub hname, fun hname => hsup hname⟩
    · exact (List.subperm_of_subset hnodup hordersub).perm_of_length_le hlength.ge

/-- A plan of two nodes, one after the other. -/
def twoNodes : RepositoryPlanDecision where
  nodes := ["a", "b"]
  edges := [("a", "b")]
  workerTasks :=
    [{ nodeId := "a", assigneeWorkerAgentId := 3, title := "Migrate", instruction := "Migrate it"
       allowedPaths := ["src/a"], tests := [] },
     { nodeId := "b", assigneeWorkerAgentId := 3, title := "Switch", instruction := "Switch it"
       allowedPaths := ["src/b"], tests := [] }]
  provenance := ⟨"leader-codex-session", "thread", none⟩
  raw := .null

/-- An assignment that takes it. -/
def twoNodesAssignment : LeaderAssignmentView where
  leaderTaskId := 0
  organizationId := 1
  projectId := 2
  repositoryId := 10
  leaderAgentId := 2
  phase := .planning
  safetyEnvelope := ⟨["src/**"], [], []⟩
  workerRoster := [⟨3, "worker", ["src/**"]⟩]

theorem twoNodes_accepted :
    assertPlanIsWithinEnvelope twoNodes twoNodesAssignment = .ok () := by
  rw [assertPlan_ok_iff]
  refine ⟨rfl, by decide, by decide, by decide, by decide, ?_⟩
  intro draft hdraft
  simp only [twoNodes, List.mem_cons, List.not_mem_nil, or_false] at hdraft
  rcases hdraft with rfl | rfl <;> decide +kernel

theorem hasCycle_decides_two :
    (hasCycle ["a", "b"] [("a", "b"), ("b", "a")] = true ↔
      ∃ node, Relation.TransGen (fun a b => (a, b) ∈ [("a", "b"), ("b", "a")]) node node) ∧
      ∃ order, CarriedOut twoNodes order :=
  ⟨(hasCycle_decides.1 _ _ (by decide) (by decide)).2,
    (hasCycle_decides.2 twoNodes twoNodesAssignment twoNodes_accepted).2.2.2⟩

/-! ## The envelope of a roster -/

theorem startsWith_self (s : String) : startsWith s s = true := by simp [startsWith]

theorem startsWith_trans {s t u : String} (h : startsWith s t = true) (h' : startsWith t u = true) :
    startsWith s u = true := by
  simp only [startsWith, List.isPrefixOf_iff_prefix] at h h' ⊢
  exact h'.trans h

theorem startsWith_removeSuffix (text suffix : String) :
    startsWith text (removeSuffix text suffix) = true := by
  rw [removeSuffix]
  split
  · rw [startsWith, truncate, String.toList_ofList, List.isPrefixOf_iff_prefix]
    exact List.take_prefix _ _
  · exact startsWith_self text

/-- A root as the clamp compares it. -/
def normalisedRoot (root : String) : String :=
  removeSuffix (removeSuffix (lstripDotSlash (strip root)) "**") "*"

theorem withinRoots_iff (path : String) (roots : List String) :
    withinRoots path roots = true ↔
      ∃ root ∈ roots, startsWith (lstripDotSlash (strip path)) (normalisedRoot root) = true := by
  have hempty : ∀ s, startsWith s "" = true := by simp [startsWith]
  rw [withinRoots, List.any_eq_true]
  constructor
  · rintro ⟨root, hroot, h⟩
    rcases of_decide_eq_true h with h | h
    · refine ⟨root, hroot, ?_⟩
      rw [normalisedRoot, h]
      exact hempty _
    · exact ⟨root, hroot, h⟩
  · rintro ⟨root, hroot, h⟩
    exact ⟨root, hroot, decide_eq_true (.inr h)⟩

theorem withinRoots_of_mem {path : String} {roots : List String} (h : path ∈ roots) :
    withinRoots path roots = true :=
  (withinRoots_iff path roots).mpr ⟨path, h,
    startsWith_trans (startsWith_removeSuffix _ _) (startsWith_removeSuffix _ _)⟩

/-- The permits of every member are inside the envelope of the roster. -/
def CoversMembers (roster : List WorkerRosterEntryView) (tests testPaths : List String) : Prop :=
  ∀ entry ∈ roster, ∀ path ∈ deriveAllowedPaths entry.responsibilityPaths testPaths,
    withinRoots path (safetyEnvelope roster tests testPaths).allowedPathRoots = true

/-- **The envelope of a team.** It covers the permit of every member exactly when a member without
responsibility paths is in a team where no member has any, or where some root is so short that `**` begins
with it. -/
theorem coversMembers_iff (roster : List WorkerRosterEntryView) (tests testPaths : List String) :
    CoversMembers roster tests testPaths ↔
      ((∃ entry ∈ roster, entry.responsibilityPaths = []) →
        (∀ entry ∈ roster, entry.responsibilityPaths = []) ∨
          ∃ root ∈ roster.flatMap (·.responsibilityPaths) ++ testPaths,
            startsWith "**" (normalisedRoot root) = true) := by
  have hstars : lstripDotSlash (strip "**") = "**" := by decide
  have hderived : ∀ path, path ∈ deriveAllowedPaths [] testPaths ↔ path = "**" := by
    intro path
    rw [deriveAllowedPaths, if_pos rfl, List.mem_singleton]
  by_cases hnone : ∀ entry ∈ roster, entry.responsibilityPaths = []
  · -- No member has a path: the envelope is everything.
    have hunion : roster.flatMap (·.responsibilityPaths) = [] := by simpa using hnone
    have hroots : (safetyEnvelope roster tests testPaths).allowedPathRoots = ["**"] := by
      rw [safetyEnvelope, hunion]
      rfl
    refine iff_of_true ?_ fun _ => .inl hnone
    intro entry _ path _
    rw [hroots, withinRoots_iff]
    have hempty : normalisedRoot "**" = "" := by decide
    exact ⟨"**", List.mem_singleton_self _, by rw [hempty]; simp [startsWith]⟩
  · have hunion : (roster.flatMap (·.responsibilityPaths)).eraseDups ≠ [] := by
      intro heq
      refine hnone fun entry hentry => List.eq_nil_iff_forall_not_mem.mpr fun path hpath => ?_
      have hmem : path ∈ (roster.flatMap (·.responsibilityPaths)).eraseDups :=
        List.mem_eraseDups.mpr (List.mem_flatMap.mpr ⟨entry, hentry, hpath⟩)
      rw [heq] at hmem
      cases hmem
    have hroots : ∀ root, root ∈ (safetyEnvelope roster tests testPaths).allowedPathRoots ↔
        root ∈ roster.flatMap (·.responsibilityPaths) ++ testPaths := by
      intro root
      simp only [safetyEnvelope, deriveAllowedPaths, if_neg hunion, List.mem_eraseDups,
        List.mem_append]
    constructor
    · rintro hcovers ⟨entry, hentry, hempty⟩
      have hall := hcovers entry hentry "**" (by rw [hempty]; exact (hderived _).mpr rfl)
      obtain ⟨root, hroot, hstart⟩ := (withinRoots_iff _ _).mp hall
      rw [hstars] at hstart
      exact .inr ⟨root, (hroots root).mp hroot, hstart⟩
    · intro hcondition entry hentry path hpath
      by_cases hempty : entry.responsibilityPaths = []
      · rw [hempty] at hpath
        obtain rfl := (hderived path).mp hpath
        obtain ⟨root, hroot, hstart⟩ :=
          (hcondition ⟨entry, hentry, hempty⟩).resolve_left hnone
        exact (withinRoots_iff _ _).mpr ⟨root, (hroots root).mpr hroot, by rw [hstars]; exact hstart⟩
      · rw [deriveAllowedPaths, if_neg hempty, List.mem_eraseDups] at hpath
        refine withinRoots_of_mem ((hroots path).mpr ?_)
        rcases List.mem_append.mp hpath with hpath | hpath
        · exact List.mem_append_left _ (List.mem_flatMap.mpr ⟨entry, hentry, hpath⟩)
        · exact List.mem_append_right _ hpath

/-- A member without responsibility paths may write everywhere, beside one who may not. -/
theorem mixedRoster_uncovered :
    ¬ CoversMembers [⟨3, "backend", ["src/**"]⟩, ⟨4, "generalist", []⟩] [] [] := by
  intro h
  have hall := h ⟨4, "generalist", []⟩ (by simp) "**" (by decide)
  revert hall
  decide +kernel

end Orchestration
end RepoMesh
