/-
# The Bridge's check of a plan

`RepositoryPlanDecision` checks what the plan itself decides, `refuse_plan` checks it against the
assignment package, and the server checks both again. The two agree on every plan, whenever the Bridge
can read the package.
-/
import Mathlib.Data.List.Perm.Subperm
import RepoMesh.Bridge.LeaderDocuments
import RepoMesh.Orchestration.LeaderPackage
import RepoMesh.Orchestration.PlanClamp

namespace RepoMesh
namespace Bridge
namespace Leader

open Execution (Uuid uuidOf)
open Orchestration (LeaderAssignmentView LeaderWorkerTaskDraft endsWithText)
open Text

/-! ## The plan -/

/-- `TaskDagEdge`: `from_node` executes before `to_node`. -/
structure TaskDagEdge where
  fromNode : String
  toNode : String
  deriving DecidableEq

/-- `TaskDag`: the leader's decomposition graph. -/
structure TaskDag where
  nodeIds : List String
  edges : List TaskDagEdge

/-- `dict.fromkeys(names)`: each name once, in the order of the first ones. -/
def fromKeys (names : List String) : List String := names.foldl (Keyed.insertNew id) []

/-- The inner loop of `has_cycle`: the dependants of a drained node, the frontier and what remains. -/
def release : List String → List String → (String → ℤ) → List String × (String → ℤ)
  | [], frontier, remaining => (frontier, remaining)
  | dependant :: rest, frontier, remaining =>
    let degree := remaining dependant - 1
    release rest (if degree = 0 then frontier ++ [dependant] else frontier)
      (fun node => if node = dependant then degree else remaining node)

/-- The outer loop of `has_cycle`: how many nodes are drained. A node enters the frontier at most
once. -/
def drain (edges : List TaskDagEdge) : ℕ → List String → (String → ℤ) → ℕ → ℕ
  | 0, _, _, drained => drained
  | rounds + 1, frontier, remaining, drained =>
    match frontier.getLast? with
    | none => drained
    | some node =>
      let dependants := (edges.filter fun edge => edge.fromNode == node).map (·.toNode)
      let released := release dependants frontier.dropLast remaining
      drain edges rounds released.1 released.2 (drained + 1)

/-- `TaskDag.has_cycle`. -/
def TaskDag.hasCycle (dag : TaskDag) : Bool :=
  let remaining : String → ℤ := fun node =>
    ((dag.edges.filter fun edge => edge.toNode == node).length : ℕ)
  drain dag.edges dag.nodeIds.length ((fromKeys dag.nodeIds).filter fun node => remaining node = 0)
    remaining 0 != dag.nodeIds.length

/-- `PlannedWorkerTask`: one unit of work the leader is handing to one worker. -/
structure PlannedWorkerTask where
  nodeId : String
  assigneeWorkerAgentId : Uuid
  title : String
  instruction : String
  allowedPaths : List String
  tests : List String

/-- `DecisionProvenance`. -/
structure DecisionProvenance where
  sessionThreadId : String
  turnId : Option String
  source : String

def DECISION_PROVENANCE_SOURCE : String := "leader-codex-session"

/-- `DecisionProvenance.__post_init__`. -/
def DecisionProvenance.check (provenance : DecisionProvenance) : Except String Unit :=
  if provenance.source ≠ DECISION_PROVENANCE_SOURCE then
    .error ("provenance.source must be '" ++ DECISION_PROVENANCE_SOURCE ++ "'")
  else .ok ()

/-- What `RepositoryPlanDecision.__post_init__` refuses. -/
inductive PlanFault where
  | twice | notOneToOne | cyclic
  | undeclared (edge : TaskDagEdge)
  deriving DecidableEq

/-- `sorted` of texts. -/
def sortedTexts (texts : List String) : List String := texts.insertionSort (· ≤ ·)

/-- `RepositoryPlanDecision.__post_init__`. -/
def planFault (dag : TaskDag) (tasks : List PlannedWorkerTask) : Option PlanFault :=
  if (fromKeys dag.nodeIds).length ≠ dag.nodeIds.length then some .twice
  else if sortedTexts (tasks.map (·.nodeId)) ≠ sortedTexts dag.nodeIds then some .notOneToOne
  else
    match dag.edges.find? fun edge =>
      !(dag.nodeIds.contains edge.fromNode && dag.nodeIds.contains edge.toNode) with
    | some edge => some (.undeclared edge)
    | none => if dag.hasCycle then some .cyclic else none

/-- `RepositoryPlanDecision`: the leader's product. -/
structure RepositoryPlanDecision where
  taskDag : TaskDag
  workerTasks : List PlannedWorkerTask
  provenance : DecisionProvenance
  provenance_checked : provenance.check = .ok ()
  plan_sound : planFault taskDag workerTasks = none

/-! ## The package's refusals -/

/-- `text.lstrip("./")`. -/
def lstripDotSlash (text : String) : String :=
  String.ofList (text.toList.dropWhile fun c => c == '.' || c == '/')

/-- `text.removesuffix(suffix)`. -/
def removeSuffix (text suffix : String) : String :=
  if endsWithText text suffix then truncate (text.length - suffix.length) text else text

/-- `_within_roots`: is this path under one of the envelope's roots? -/
def withinRoots (path : String) (roots : List String) : Bool :=
  let candidate := lstripDotSlash (strip path)
  roots.any fun root =>
    let normalised := removeSuffix (removeSuffix (lstripDotSlash (strip root)) "**") "*"
    normalised == "" || startsWith candidate normalised

/-- Why a package refuses a plan. -/
inductive PlanRefusal where
  | notOnRoster (nodeId : String) (assignee : Uuid)
  | outsideRoots (nodeId allowed : String) (roots : List String)
  | dropsTests (nodeId : String) (dropped : List String)

/-- What `refuse_plan` says of one worker task. -/
def refuseTask (package : RepositoryAssignmentPackage) (task : PlannedWorkerTask) :
    Option PlanRefusal :=
  let roots := package.safetyEnvelope.allowedPathRoots
  if task.assigneeWorkerAgentId ∉ package.workerRoster.map (·.workerAgentId) then
    some (.notOnRoster task.nodeId task.assigneeWorkerAgentId)
  else
    match task.allowedPaths.find? fun allowed => !withinRoots allowed roots with
    | some allowed => some (.outsideRoots task.nodeId allowed roots)
    | none =>
      let dropped := sortedNew package.safetyEnvelope.testCommands task.tests
      if dropped ≠ [] then some (.dropsTests task.nodeId dropped) else none

/-- `refuse_plan`. -/
def refusePlan (package : RepositoryAssignmentPackage) (plan : RepositoryPlanDecision) :
    Option PlanRefusal :=
  plan.workerTasks.findSome? (refuseTask package)

/-! ## The two checks of a plan -/

/-- A plan as it is written down: the parts of a decision. -/
structure PlanDocument where
  taskDag : TaskDag
  workerTasks : List PlannedWorkerTask
  provenance : DecisionProvenance
  /-- The document as it is submitted. -/
  raw : Json

/-- The decision as the server has it. -/
def PlanDocument.decision (plan : PlanDocument) : Orchestration.RepositoryPlanDecision where
  nodes := plan.taskDag.nodeIds
  edges := plan.taskDag.edges.map fun edge => (edge.fromNode, edge.toNode)
  workerTasks := plan.workerTasks.map fun task =>
    { nodeId := task.nodeId
      assigneeWorkerAgentId := task.assigneeWorkerAgentId.value
      title := task.title
      instruction := task.instruction
      allowedPaths := task.allowedPaths
      tests := task.tests }
  provenance := ⟨plan.provenance.source, plan.provenance.sessionThreadId, plan.provenance.turnId⟩
  raw := plan.raw

/-- **The Bridge accepts** a plan for a package: the decision is constructed and not refused. -/
def BridgeAccepts (package : RepositoryAssignmentPackage) (plan : PlanDocument) : Prop :=
  ∃ decision : RepositoryPlanDecision, decision.taskDag = plan.taskDag ∧
    decision.workerTasks = plan.workerTasks ∧ decision.provenance = plan.provenance ∧
    refusePlan package decision = none

/-! ## The same graph, the same paths -/

theorem fromKeys_of_nodup {names : List String} (h : names.Nodup) : fromKeys names = names := by
  have hkeys : (names.map id).Nodup := by simpa using h
  rw [fromKeys, Keyed.foldl_insertNew hkeys]
  simp

theorem length_fromKeys_eq_iff {names : List String} :
    (fromKeys names).length = names.length ↔ names.Nodup := by
  constructor
  · intro h
    have hnodup : (fromKeys names).Nodup := by
      have hkeys := @Keyed.nodup_foldl_insertNew _ _ _ id [] names List.nodup_nil
      simpa [fromKeys] using hkeys
    have hsub : ∀ name, name ∈ fromKeys names ↔ name ∈ names := by
      intro name
      have hkeys := @Keyed.mem_keys_foldl_insertNew _ _ _ id [] name names
      simpa [fromKeys] using hkeys
    have hperm : (fromKeys names).Perm names :=
      (List.subperm_of_subset hnodup fun name => (hsub name).mp).perm_of_length_le h.ge
    exact hperm.nodup_iff.mp hnodup
  · intro h
    rw [fromKeys_of_nodup h]

theorem release_eq (targets frontier : List String) (remaining : String → ℤ) :
    release targets frontier remaining =
      Orchestration.releaseTargets targets frontier remaining := by
  induction targets generalizing frontier remaining with
  | nil => rfl
  | cons target rest ih =>
    rw [release, ih]
    rfl

/-- The edges as the server has them. -/
def TaskDag.pairs (dag : TaskDag) : List (String × String) :=
  dag.edges.map fun edge => (edge.fromNode, edge.toNode)

theorem drain_eq (edges : List TaskDagEdge) (rounds : ℕ) (frontier : List String)
    (remaining : String → ℤ) (drained : ℕ) :
    drain edges rounds frontier remaining drained =
      Orchestration.orderedNodes (edges.map fun edge => (edge.fromNode, edge.toNode)) rounds frontier
        remaining drained := by
  induction rounds generalizing frontier remaining drained with
  | zero => rfl
  | succ rounds ih =>
    rw [drain, Orchestration.orderedNodes]
    cases frontier.getLast? with
    | none => rfl
    | some node =>
      have htargets : ((edges.map fun edge => (edge.fromNode, edge.toNode)).filter
          fun edge => edge.1 == node).map (·.2) =
          (edges.filter fun edge => edge.fromNode == node).map (·.toNode) := by
        rw [List.filter_map, List.map_map]
        rfl
      simp only [htargets, release_eq, ih]

/-- **One cycle.** Over distinct nodes the two searches find the same cycles. -/
theorem hasCycle_eq {dag : TaskDag} (h : dag.nodeIds.Nodup) :
    dag.hasCycle = Orchestration.hasCycle dag.nodeIds dag.pairs := by
  have hdegree : ∀ node, (dag.edges.filter fun edge => edge.toNode == node).length =
      dag.pairs.countP fun edge => edge.2 == node := by
    intro node
    rw [TaskDag.pairs, List.countP_map, List.countP_eq_length_filter]
    rfl
  simp only [TaskDag.hasCycle, Orchestration.hasCycle, fromKeys_of_nodup h, drain_eq, hdegree]
  rfl

theorem sortedTexts_eq_iff {xs ys : List String} : sortedTexts xs = sortedTexts ys ↔ xs.Perm ys := by
  constructor
  · intro h
    have hxs : (sortedTexts xs).Perm xs := List.perm_insertionSort _ xs
    have hys : (sortedTexts ys).Perm ys := List.perm_insertionSort _ ys
    exact hxs.symm.trans (h ▸ hys)
  · intro h
    have hperm : (sortedTexts xs).Perm (sortedTexts ys) :=
      (List.perm_insertionSort _ xs).trans (h.trans (List.perm_insertionSort _ ys).symm)
    exact hperm.eq_of_pairwise' (List.pairwise_insertionSort _ xs) (List.pairwise_insertionSort _ ys)

/-- **One coverage.** Over distinct nodes, the sorted names agree when the two sets do and no name is
claimed twice. -/
theorem sorted_eq_iff {claimed nodes : List String} (h : nodes.Nodup) :
    sortedTexts claimed = sortedTexts nodes ↔
      claimed.Nodup ∧ claimed ⊆ nodes ∧ nodes ⊆ claimed := by
  rw [sortedTexts_eq_iff]
  constructor
  · intro hperm
    exact ⟨hperm.nodup_iff.mpr h, hperm.subset, hperm.symm.subset⟩
  · rintro ⟨hclaimed, hsub, hsup⟩
    exact (List.perm_ext_iff_of_nodup hclaimed h).mpr fun name => ⟨fun hn => hsub hn, fun hn => hsup hn⟩

/-- **One prefix test.** A path is under the roots on both sides alike. -/
theorem withinRoots_eq (path : String) (roots : List String) :
    withinRoots path roots = Orchestration.withinRoots path roots := by
  have hstrip : ∀ text, lstripDotSlash text = Orchestration.lstripDotSlash text := fun _ => rfl
  have hsuffix : ∀ text suffix, removeSuffix text suffix = Orchestration.removeSuffix text suffix :=
    fun _ _ => rfl
  rw [Bool.eq_iff_iff, withinRoots, Orchestration.withinRoots, List.any_eq_true, List.any_eq_true]
  simp only [hstrip, hsuffix, Bool.or_eq_true, beq_iff_eq, decide_eq_true_eq]

/-! ## One verdict inside an envelope -/

/-- A package tells an assignment's roster and envelope. -/
structure Tells (package : RepositoryAssignmentPackage) (assignment : LeaderAssignmentView) : Prop where
  roster : package.workerRoster.map (·.workerAgentId.value) =
    assignment.workerRoster.map (·.workerAgentId)
  roots : package.safetyEnvelope.allowedPathRoots = assignment.safetyEnvelope.allowedPathRoots
  commands : package.safetyEnvelope.testCommands = assignment.safetyEnvelope.testCommands

/-- The draft a planned task is for the server. -/
def PlannedWorkerTask.draft (task : PlannedWorkerTask) : LeaderWorkerTaskDraft where
  nodeId := task.nodeId
  assigneeWorkerAgentId := task.assigneeWorkerAgentId.value
  title := task.title
  instruction := task.instruction
  allowedPaths := task.allowedPaths
  tests := task.tests

theorem uuid_ext {a b : Uuid} (h : a.value = b.value) : a = b := by
  obtain ⟨value, hvalue⟩ := a
  obtain ⟨value', hvalue'⟩ := b
  subst h
  rfl

theorem sortedNew_eq_nil_iff {names others : List String} :
    sortedNew names others = [] ↔ names ⊆ others := by
  have hmem : ∀ name, name ∈ sortedNew names others ↔ name ∈ names ∧ name ∉ others := by
    intro name
    rw [sortedNew, List.mem_insertionSort, List.mem_dedup, List.mem_filter, decide_eq_true_eq]
  rw [List.eq_nil_iff_forall_not_mem]
  simp only [hmem, not_and, not_not]
  rfl

/-- **One task.** The package refuses nothing of a task exactly when the clamp takes its draft. -/
theorem refuseTask_none_iff {package : RepositoryAssignmentPackage}
    {assignment : LeaderAssignmentView} (h : Tells package assignment) (task : PlannedWorkerTask) :
    refuseTask package task = none ↔
      Orchestration.assertDraftWithinEnvelope assignment task.draft = .ok () := by
  have hroster : task.assigneeWorkerAgentId ∉ package.workerRoster.map (·.workerAgentId) ↔
      (assignment.workerRoster.all fun entry =>
        entry.workerAgentId != task.draft.assigneeWorkerAgentId) = true := by
    have hvalues : task.assigneeWorkerAgentId ∈ package.workerRoster.map (·.workerAgentId) ↔
        task.assigneeWorkerAgentId.value ∈ assignment.workerRoster.map (·.workerAgentId) := by
      rw [← h.roster]
      simp only [List.mem_map]
      constructor
      · rintro ⟨entry, hentry, heq⟩
        exact ⟨entry, hentry, congrArg Uuid.value heq⟩
      · rintro ⟨entry, hentry, heq⟩
        exact ⟨entry, hentry, uuid_ext heq⟩
    rw [hvalues, List.all_eq_true]
    simp [PlannedWorkerTask.draft]
  rw [refuseTask, Orchestration.assertDraftWithinEnvelope]
  by_cases hworker : task.assigneeWorkerAgentId ∉ package.workerRoster.map (·.workerAgentId)
  · rw [if_pos hworker, if_pos (hroster.mp hworker)]
    simp
  · rw [if_neg hworker, if_neg fun hall => hworker (hroster.mpr hall)]
    cases hfind : task.allowedPaths.find? fun allowed =>
        !withinRoots allowed package.safetyEnvelope.allowedPathRoots with
    | some allowed =>
      have hany : (task.draft.allowedPaths.any fun path =>
          !Orchestration.withinRoots path assignment.safetyEnvelope.allowedPathRoots) = true := by
        have hout : (!withinRoots allowed package.safetyEnvelope.allowedPathRoots) = true :=
          List.find?_some (p := fun allowed => !withinRoots allowed _) hfind
        refine List.any_eq_true.mpr ⟨allowed, List.mem_of_find?_eq_some hfind, ?_⟩
        rw [← withinRoots_eq, ← h.roots]
        exact hout
      rw [if_pos hany]
      simp
    | none =>
      have hnone : ¬ (task.draft.allowedPaths.any fun path =>
          !Orchestration.withinRoots path assignment.safetyEnvelope.allowedPathRoots) = true := by
        rw [List.any_eq_true]
        rintro ⟨path, hpath, hout⟩
        rw [← withinRoots_eq, ← h.roots] at hout
        exact List.find?_eq_none.mp hfind path hpath hout
      have htests : sortedNew package.safetyEnvelope.testCommands task.tests ≠ [] ↔
          (assignment.safetyEnvelope.testCommands.any fun command =>
            !task.draft.tests.contains command) = true := by
        rw [Ne, sortedNew_eq_nil_iff, h.commands, List.any_eq_true]
        simp [PlannedWorkerTask.draft, List.subset_def]
      rw [if_neg hnone]
      by_cases hdropped : sortedNew package.safetyEnvelope.testCommands task.tests ≠ []
      · simp only [if_pos hdropped, if_pos (htests.mp hdropped)]
        simp
      · simp only [if_neg hdropped, if_neg fun hany => hdropped (htests.mpr hany)]

/-- **One graph.** What `RepositoryPlanDecision` refuses of a graph is what the clamp refuses of it. -/
theorem planFault_none_iff (dag : TaskDag) (tasks : List PlannedWorkerTask) :
    planFault dag tasks = none ↔
      dag.nodeIds.Nodup ∧
        ((tasks.map (·.nodeId)).Nodup ∧ tasks.map (·.nodeId) ⊆ dag.nodeIds ∧
          dag.nodeIds ⊆ tasks.map (·.nodeId)) ∧
        (dag.pairs.any fun edge =>
          !(dag.nodeIds.contains edge.1 && dag.nodeIds.contains edge.2)) = false ∧
        Orchestration.hasCycle dag.nodeIds dag.pairs = false := by
  rw [planFault]
  by_cases hnodup : dag.nodeIds.Nodup
  · have hlength : ¬ (fromKeys dag.nodeIds).length ≠ dag.nodeIds.length := fun hne =>
      hne (length_fromKeys_eq_iff.mpr hnodup)
    rw [if_neg hlength]
    by_cases hcover : sortedTexts (tasks.map (·.nodeId)) = sortedTexts dag.nodeIds
    · have hedges : (dag.edges.find? fun edge =>
          !(dag.nodeIds.contains edge.fromNode && dag.nodeIds.contains edge.toNode)) = none ↔
          (dag.pairs.any fun edge =>
            !(dag.nodeIds.contains edge.1 && dag.nodeIds.contains edge.2)) = false := by
        rw [TaskDag.pairs, List.any_map, List.find?_eq_none, List.any_eq_false]
        rfl
      rw [if_neg (not_not.mpr hcover), ← hedges, ← hasCycle_eq hnodup]
      have hclaimed := (sorted_eq_iff hnodup).mp hcover
      cases dag.edges.find? fun edge =>
          !(dag.nodeIds.contains edge.fromNode && dag.nodeIds.contains edge.toNode) with
      | some edge => simp
      | none => cases dag.hasCycle <;> simp [hnodup, hclaimed]
    · have hclaimed := fun h => hcover ((sorted_eq_iff hnodup).mpr h)
      rw [if_pos hcover]
      simp only [reduceCtorEq, false_iff]
      exact fun h => hclaimed h.2.1
  · have hlength : (fromKeys dag.nodeIds).length ≠ dag.nodeIds.length := fun heq =>
      hnodup (length_fromKeys_eq_iff.mp heq)
    rw [if_pos hlength]
    simp [hnodup]

/-- **One verdict.** A package that tells an assignment's envelope and the clamp take the same
plans. -/
theorem accepts_iff {package : RepositoryAssignmentPackage} {assignment : LeaderAssignmentView}
    (h : Tells package assignment) (plan : PlanDocument) :
    BridgeAccepts package plan ↔
      Orchestration.assertPlanIsWithinEnvelope plan.decision assignment = .ok () := by
  have hsource : plan.provenance.check = .ok () ↔
      plan.decision.provenance.source = Orchestration.leaderProvenanceSource := by
    rw [DecisionProvenance.check]
    show _ ↔ plan.provenance.source = DECISION_PROVENANCE_SOURCE
    by_cases hs : plan.provenance.source = DECISION_PROVENANCE_SOURCE
    · simp [hs]
    · simp [hs]
  have hclaimed : plan.decision.workerTasks.map (·.nodeId) = plan.workerTasks.map (·.nodeId) := by
    rw [PlanDocument.decision, List.map_map]
    rfl
  have htasks : (∀ draft ∈ plan.decision.workerTasks,
      Orchestration.assertDraftWithinEnvelope assignment draft = .ok ()) ↔
      ∀ task ∈ plan.workerTasks, refuseTask package task = none := by
    rw [PlanDocument.decision, List.forall_mem_map]
    exact forall₂_congr fun task _ => (refuseTask_none_iff h task).symm
  rw [Orchestration.assertPlan_ok_iff, ← hsource, hclaimed, htasks]
  constructor
  · rintro ⟨decision, hdag, hworkers, hprovenance, hrefused⟩
    rw [refusePlan, List.findSome?_eq_none_iff, hworkers] at hrefused
    have hfault := (planFault_none_iff plan.taskDag plan.workerTasks).mp
      (hdag ▸ hworkers ▸ decision.plan_sound)
    exact ⟨hprovenance ▸ decision.provenance_checked, hfault.1, hfault.2.1, hfault.2.2.1,
      hfault.2.2.2, hrefused⟩
  · rintro ⟨hprovenance, hnodup, hcover, hedges, hcycle, hrefused⟩
    have hfault := (planFault_none_iff plan.taskDag plan.workerTasks).mpr
      ⟨hnodup, hcover, hedges, hcycle⟩
    refine ⟨⟨plan.taskDag, plan.workerTasks, plan.provenance, hprovenance, hfault⟩, rfl, rfl, rfl, ?_⟩
    rw [refusePlan, List.findSome?_eq_none_iff]
    exact hrefused

/-! ## What the Bridge reads of an assignment -/

theorem array_of_get {payload : Json} {key document : String} {minimum : ℕ} {items read : List Json}
    (hget : payload.get key = .arr items) (h : array payload key document minimum = .ok read) :
    read = items := by
  unfold array at h
  rw [hget] at h
  by_cases hshort : items.length < minimum
  · simp only [if_pos hshort, reduceCtorEq] at h
  · simp only [if_neg hshort] at h
    exact (Except.ok.inj h).symm

theorem stringArray_stringsWire {payload : Json} {key document : String} {minimum : ℕ}
    {values read : List String} (hget : payload.get key = Orchestration.stringsWire values)
    (h : stringArray payload key document minimum = .ok read) :
    read = values ∧ ∀ value ∈ values, value ≠ "" := by
  obtain ⟨items, hitems, hread⟩ := Fallible.bind_ok h
  obtain rfl := array_of_get hget hitems
  have hpairs := Fallible.mapM_ok hread
  clear h hread hitems hget
  induction values generalizing read with
  | nil =>
    cases hpairs
    exact ⟨rfl, fun value hvalue => absurd hvalue List.not_mem_nil⟩
  | cons value values ih =>
    rw [List.map_cons] at hpairs
    obtain ⟨first, hfirst, rest, hrest, rfl⟩ : ∃ first, _ = Except.ok first ∧ ∃ rest,
        List.Forall₂ _ (values.map Json.str) rest ∧ read = first :: rest := by
      cases hpairs with
      | cons hfirst hrest => exact ⟨_, hfirst, _, hrest, rfl⟩
    obtain ⟨rfl, hvalues⟩ := ih hrest
    rw [Json.str?, Option.filter_some] at hfirst
    by_cases hempty : value = ""
    · simp [hempty] at hfirst
    · have hvalue : value = first := by simpa [hempty] using hfirst
      rw [← hvalue, List.forall_mem_cons]
      exact ⟨rfl, hempty, hvalues⟩

theorem SafetyEnvelope.fromWire_toWire {envelope : Orchestration.LeaderSafetyEnvelopeView}
    {document : String} {read : SafetyEnvelope}
    (h : SafetyEnvelope.fromWire envelope.toWire document = .ok read) :
    (read.allowedPathRoots = envelope.allowedPathRoots ∧
      ∀ root ∈ envelope.allowedPathRoots, root ≠ "") ∧
      read.testCommands = envelope.testCommands := by
  obtain ⟨body, hbody, h⟩ := Fallible.bind_ok h
  obtain rfl : envelope.toWire = body := Except.ok.inj hbody
  obtain ⟨-, -, h⟩ := Fallible.bind_ok h
  obtain ⟨roots, hroots, h⟩ := Fallible.bind_ok h
  obtain ⟨paths, -, h⟩ := Fallible.bind_ok h
  obtain ⟨commands, hcommands, h⟩ := Fallible.bind_ok h
  obtain rfl := Except.ok.inj h
  exact ⟨stringArray_stringsWire (by simp [Orchestration.LeaderSafetyEnvelopeView.toWire, Json.get]) hroots,
    (stringArray_stringsWire (by simp [Orchestration.LeaderSafetyEnvelopeView.toWire, Json.get]) hcommands).1⟩

theorem WorkerRosterEntry.fromWire_toWire {entry : Orchestration.WorkerRosterEntryView}
    {document : String} {read : WorkerRosterEntry} (hid : entry.workerAgentId < 2 ^ 128)
    (h : WorkerRosterEntry.fromWire entry.toWire document = .ok read) :
    read.workerAgentId.value = entry.workerAgentId := by
  obtain ⟨body, hbody, h⟩ := Fallible.bind_ok h
  obtain rfl : entry.toWire = body := Except.ok.inj hbody
  obtain ⟨-, -, h⟩ := Fallible.bind_ok h
  obtain ⟨id, hread, h⟩ := Fallible.bind_ok h
  obtain ⟨name, -, h⟩ := Fallible.bind_ok h
  obtain ⟨paths, -, h⟩ := Fallible.bind_ok h
  obtain rfl := Except.ok.inj h
  have hget : entry.toWire.get "workerAgentId" = .str (Uuid.str ⟨entry.workerAgentId, hid⟩) := by
    simp [Orchestration.WorkerRosterEntryView.toWire, Json.get, Orchestration.uuidWire, Uuid.str]
  rw [uuid, hget] at hread
  simp only [Execution.uuidOf_str] at hread
  rw [← Except.ok.inj hread]

theorem each_ok {α : Type} {items : List Json} {document : String} {read : Json → String → Read α}
    {values : List α} (h : each items document read = .ok values) :
    List.Forall₂ (fun item value => ∃ place, read item place = .ok value) items values := by
  have hpairs := Fallible.mapM_ok h
  have hitems : items = items.zipIdx.map Prod.fst := by simp
  rw [hitems, List.forall₂_map_left_iff]
  exact hpairs.imp fun item value hread => ⟨_, hread⟩

theorem fromWire_parts {payload : Json} {package : RepositoryAssignmentPackage}
    (h : RepositoryAssignmentPackage.fromWire payload = .ok package) :
    (∃ entries, array payload "workerRoster" "assignmentPackage" 1 = .ok entries ∧
      ∃ document, each entries document WorkerRosterEntry.fromWire = .ok package.workerRoster) ∧
      ∃ document, SafetyEnvelope.fromWire (payload.get "safetyEnvelope") document =
        .ok package.safetyEnvelope := by
  obtain ⟨body, hbody, h⟩ := Fallible.bind_ok h
  have hpayload : payload = body := by
    rw [mapping] at hbody
    by_cases hobj : payload.isObj
    · simpa [hobj] using hbody
    · simp [hobj] at hbody
  subst hpayload
  obtain ⟨-, -, h⟩ := Fallible.bind_ok h
  obtain ⟨-, -, h⟩ := Fallible.bind_ok h
  obtain ⟨leaderTaskId, -, h⟩ := Fallible.bind_ok h
  obtain ⟨phase, -, h⟩ := Fallible.bind_ok h
  obtain ⟨organizationId, -, h⟩ := Fallible.bind_ok h
  obtain ⟨projectId, -, h⟩ := Fallible.bind_ok h
  obtain ⟨repositoryId, -, h⟩ := Fallible.bind_ok h
  obtain ⟨repositoryTask, -, h⟩ := Fallible.bind_ok h
  obtain ⟨entries, hentries, h⟩ := Fallible.bind_ok h
  obtain ⟨roster, hroster, h⟩ := Fallible.bind_ok h
  obtain ⟨envelope, henvelope, h⟩ := Fallible.bind_ok h
  obtain ⟨advisory, -, h⟩ := Fallible.bind_ok h
  obtain ⟨evidence, -, h⟩ := Fallible.bind_ok h
  split_ifs at h with hphase hevidence
  obtain rfl := Except.ok.inj h
  exact ⟨⟨entries, hentries, _, hroster⟩, _, henvelope⟩

/-- A package as the server gives it, whose workers have identifiers of 128 bits. -/
structure GivenPackage where
  package : Orchestration.RepositoryAssignmentPackage
  workers_are_uuids : ∀ entry ∈ package.assignment.workerRoster, entry.workerAgentId < 2 ^ 128

/-- The Bridge reads the wire form of what the server gives as this package. -/
def GivenPackage.Reads (given : GivenPackage) (package : RepositoryAssignmentPackage) : Prop :=
  ∃ payload, given.package.toWire = .ok payload ∧
    RepositoryAssignmentPackage.fromWire payload = .ok package

/-- **What is read is what is meant**: the package tells the roster and the envelope of the assignment,
and no root of it is empty. -/
theorem GivenPackage.Reads.tells {given : GivenPackage} {package : RepositoryAssignmentPackage}
    (h : given.Reads package) :
    Tells package given.package.assignment ∧
      ∀ root ∈ given.package.assignment.safetyEnvelope.allowedPathRoots, root ≠ "" := by
  obtain ⟨payload, hwire, hread⟩ := h
  obtain ⟨evidence, rfl⟩ : ∃ evidence, payload = given.package.document evidence := by
    unfold Orchestration.RepositoryAssignmentPackage.toWire at hwire
    split_ifs at hwire
    · cases hevidence : given.package.assignment.reviewEvidence with
      | none => simp [hevidence] at hwire
      | some evidence => exact ⟨_, by simpa [hevidence, eq_comm] using hwire⟩
    · exact ⟨_, (Except.ok.inj hwire).symm⟩
  obtain ⟨⟨entries, hentries, _, hroster⟩, _, henvelope⟩ := fromWire_parts hread
  have hgetEnvelope : (given.package.document evidence).get "safetyEnvelope" =
      given.package.assignment.safetyEnvelope.toWire := by
    simp [Orchestration.RepositoryAssignmentPackage.document, Json.get]
  have hgetRoster : (given.package.document evidence).get "workerRoster" =
      .arr (given.package.assignment.workerRoster.map
        Orchestration.WorkerRosterEntryView.toWire) := by
    simp [Orchestration.RepositoryAssignmentPackage.document, Json.get]
  rw [hgetEnvelope] at henvelope
  obtain ⟨⟨hroots, hfilled⟩, hcommands⟩ := SafetyEnvelope.fromWire_toWire henvelope
  obtain rfl := array_of_get hgetRoster hentries
  have hids : List.Forall₂ (fun (read : WorkerRosterEntry) entry =>
      read.workerAgentId.value = entry.workerAgentId) package.workerRoster
      given.package.assignment.workerRoster := by
    have hpairs := each_ok hroster
    rw [List.forall₂_map_left_iff] at hpairs
    refine (List.forall₂_iff_get.mpr ?_).flip
    obtain ⟨hlength, hget⟩ := List.forall₂_iff_get.mp hpairs
    refine ⟨hlength, fun i hi hi' => ?_⟩
    obtain ⟨place, hplace⟩ := hget i hi hi'
    exact WorkerRosterEntry.fromWire_toWire (given.workers_are_uuids _ (List.get_mem _ _)) hplace
  refine ⟨⟨?_, hroots, hcommands⟩, hfilled⟩
  rw [← List.forall₂_eq_eq_eq, List.forall₂_map_left_iff, List.forall₂_map_right_iff]
  exact hids

/-- **The pre-check and the clamp agree.** The Bridge takes a plan exactly when it can read the
assignment it is made for and the server's clamp takes the plan. -/
theorem precheck_clamp (given : GivenPackage) (plan : PlanDocument) :
    (∃ package, given.Reads package ∧ BridgeAccepts package plan) ↔
      (∃ package, given.Reads package) ∧
        Orchestration.assertPlanIsWithinEnvelope plan.decision given.package.assignment = .ok () := by
  constructor
  · rintro ⟨package, hread, haccepts⟩
    exact ⟨⟨package, hread⟩, (accepts_iff hread.tells.1 plan).mp haccepts⟩
  · rintro ⟨⟨package, hread⟩, hclamp⟩
    exact ⟨package, hread, (accepts_iff hread.tells.1 plan).mpr hclamp⟩

/-- An assignment with one worker, under the given roots. -/
def oneWorker (roots : List String) : GivenPackage where
  package :=
    { assignment :=
        { leaderTaskId := 1, organizationId := 2, projectId := 3, repositoryId := 4, leaderAgentId := 5
          phase := .planning
          safetyEnvelope := { allowedPathRoots := roots, testPaths := [], testCommands := [] }
          workerRoster := [{ workerAgentId := 6, workerName := "worker", responsibilityPaths := [] }] }
      repositoryTask := { title := "task", instruction := "do it", acceptance := "" } }
  workers_are_uuids := by simp

/-- A plan with one task for that worker. -/
def onePlan : PlanDocument where
  taskDag := { nodeIds := ["n"], edges := [] }
  workerTasks :=
    [{ nodeId := "n", assigneeWorkerAgentId := ⟨6, by decide⟩, title := "part", instruction := "do it"
       allowedPaths := ["src/app.py"], tests := ["make test"] }]
  provenance := { sessionThreadId := "thread", turnId := none, source := DECISION_PROVENANCE_SOURCE }
  raw := .null

/-- The clamp takes a plan the Bridge cannot take: no package is read, because a root is empty. -/
theorem unread_plan :
    Orchestration.assertPlanIsWithinEnvelope onePlan.decision (oneWorker [""]).package.assignment = .ok () ∧
      ¬ ∃ package, (oneWorker [""]).Reads package ∧ BridgeAccepts package onePlan := by
  refine ⟨by rfl, ?_⟩
  rintro ⟨package, hread, -⟩
  exact hread.tells.2 "" (by simp [oneWorker]) rfl

/-- Under a root with a name the Bridge reads the package. -/
example : ((oneWorker ["src"]).package.toWire.toOption.bind fun payload =>
    (RepositoryAssignmentPackage.fromWire payload).toOption).isSome = true := by
  decide +kernel

end Leader
end Bridge
end RepoMesh
