/-
# What a diff accounts for

The diff of two graphs is a patch: it leads from the edges and repositories of the one to those of the
other, and back when it is read the other way round. Its footprint names the repositories whose
dependencies, contracts or presence have changed, apart from the consumers of edges that are in both
graphs with other attributes: these are told by the changed edges.
-/
import RepoMesh.Planning.Diff
import RepoMesh.Planning.RoundGraph

namespace RepoMesh
namespace Planning

/-- The pair of an edge of a diff. -/
def DiffEdge.key (edge : DiffEdge) : String × String := (edge.from_, edge.to_)

/-- The pair of an edge that changed. -/
def EdgeChangeView.key (change : EdgeChangeView) : String × String := (change.from_, change.to_)

/-- The change read the other way round. -/
def EdgeChangeView.swap (change : EdgeChangeView) : EdgeChangeView :=
  { change with old := change.new, new := change.old }

/-- **Applying a diff** to edges: the removed ones go, a changed one becomes its new version, and the
added ones come. -/
def PlanDiff.patchEdges (diff : PlanDiff) (edges : List DiffEdge) : List DiffEdge :=
  (edges.filter fun e => !(diff.removedEdges.any fun r => r.key == e.key) &&
      !(diff.changedEdges.any fun c => c.key == e.key)) ++
    diff.changedEdges.map (·.new) ++ diff.addedEdges

/-- **Applying a diff** to repositories. -/
def PlanDiff.patchRepos (diff : PlanDiff) (repos : List String) : List String :=
  repos.filter (· ∉ diff.removedRepos) ++ diff.addedRepos

/-- The diff read the other way round. -/
def PlanDiff.swap (diff : PlanDiff) : PlanDiff where
  fromVersion := diff.toVersion
  toVersion := diff.fromVersion
  addedEdges := diff.removedEdges
  removedEdges := diff.addedEdges
  changedEdges := diff.changedEdges.map EdgeChangeView.swap
  addedRepos := diff.removedRepos
  removedRepos := diff.addedRepos
  affectedRepos := diff.affectedRepos

/-- The dependencies of a repository in the task DAG. -/
def PlanGraph.dependenciesOf (g : PlanGraph) (name : String) : Option (List String) :=
  (g.taskDag.find? fun view => view.repository == name).map (·.dependsOn)

/-- The contracts that a repository consumes. -/
def PlanGraph.consumed (g : PlanGraph) (name : String) : List ContractEdgeView :=
  g.contracts.filter fun view => view.consumer == name

/-- A repository's presence, its dependencies or the contracts it consumes are not the same. -/
def Differs (a b : PlanGraph) (name : String) : Prop :=
  ¬ (name ∈ nodeNames a.nodes ↔ name ∈ nodeNames b.nodes) ∨
    a.dependenciesOf name ≠ b.dependenciesOf name ∨ a.consumed name ≠ b.consumed name

/-! ## What a diff lists -/

variable {a b : PlanGraph}

theorem pairBefore_iff {p q : String × String} : pairBefore p q = true ↔ toLex p ≤ toLex q := by
  simp [pairBefore, Prod.Lex.toLex_le_toLex]

theorem edge_eq_of_key {e e' : GraphEdge} (he : e ∈ a.edges) (he' : e' ∈ a.edges)
    (hkey : e.key = e'.key) : e = e' :=
  List.inj_on_of_nodup_map a.edges_derived.keys_nodup he he' hkey

theorem hasPair_iff {pair : String × String} :
    a.hasPair pair = true ↔ ∃ e ∈ a.edges, e.key = pair := by
  simp [PlanGraph.hasPair]

theorem mem_sortedEdges {keep : String × String → Bool} {e : GraphEdge} :
    e ∈ sortedEdges a keep ↔ e ∈ a.edges ∧ keep e.key = true := by
  rw [sortedEdges, List.mem_insertionSort, List.mem_filter]

theorem find_eq_some_iff {pair : String × String} {e : GraphEdge} :
    (a.edges.find? fun e => e.key == pair) = some e ↔ e ∈ a.edges ∧ e.key = pair := by
  constructor
  · intro h
    exact ⟨List.mem_of_find?_eq_some h, by simpa using List.find?_some h⟩
  · rintro ⟨he, rfl⟩
    obtain ⟨e', hfound⟩ := Option.isSome_iff_exists.mp
      (List.find?_isSome.mpr ⟨e, he, by simp⟩ : (a.edges.find? fun e' => e'.key == e.key).isSome)
    have hkey : e'.key = e.key := by simpa using List.find?_some hfound
    rw [hfound, edge_eq_of_key (List.mem_of_find?_eq_some hfound) he hkey]

theorem pairwise_sortedEdges (a : PlanGraph) (keep : String × String → Bool) :
    (sortedEdges a keep).Pairwise fun e e' => toLex e.key < toLex e'.key := by
  have htotal : Std.Total fun e e' : GraphEdge => pairBefore e.key e'.key = true := ⟨fun e e' => by
    rw [pairBefore_iff, pairBefore_iff]
    exact le_total _ _⟩
  have htrans : IsTrans GraphEdge fun e e' => pairBefore e.key e'.key = true := ⟨fun e e' e'' => by
    rw [pairBefore_iff, pairBefore_iff, pairBefore_iff]
    exact le_trans⟩
  have hnodup : ((sortedEdges a keep).map GraphEdge.key).Nodup := by
    refine (((List.perm_insertionSort _ _).map _).nodup_iff).mpr ?_
    exact a.edges_derived.keys_nodup.sublist (List.filter_sublist.map _)
  have hsorted : (sortedEdges a keep).Pairwise fun e e' => pairBefore e.key e'.key = true :=
    List.pairwise_insertionSort _ _
  refine (hsorted.and (List.pairwise_map.mp hnodup)).imp ?_
  rintro e e' ⟨hle, hne⟩
  exact lt_of_le_of_ne (pairBefore_iff.mp hle) fun heq => hne (toLex.injective heq)

/-- The change of an edge. -/
def changeOf (old new : GraphEdge) : EdgeChangeView where
  from_ := old.from_
  to_ := old.to_
  old := toDiffEdge old
  new := toDiffEdge new

theorem sameProps_iff {e e' : GraphEdge} (hkey : e.key = e'.key) :
    (e.status = e'.status ∧ e.source = e'.source ∧ e.interface = e'.interface ∧
      e.agreement = e'.agreement) ↔ e = e' := by
  obtain ⟨hfrom, hto⟩ := Prod.mk.inj hkey
  constructor
  · rintro ⟨hstatus, hsource, hinterface, hagreement⟩
    obtain ⟨from_, to_, status, source, interface, agreement⟩ := e
    obtain ⟨from', to', status', source', interface', agreement'⟩ := e'
    simp_all
  · rintro rfl
    exact ⟨rfl, rfl, rfl, rfl⟩

theorem change_eq_some {old : GraphEdge} {c : EdgeChangeView} :
    (match b.edges.find? fun e => e.key == old.key with
      | none => none
      | some new =>
        if old.status = new.status ∧ old.source = new.source ∧ old.interface = new.interface ∧
            old.agreement = new.agreement then none
        else some (changeOf old new)) = some c ↔
      ∃ new ∈ b.edges, old.key = new.key ∧ old ≠ new ∧ changeOf old new = c := by
  have hfind : ∀ {new : GraphEdge}, (b.edges.find? fun e => e.key == old.key) = some new ↔
      new ∈ b.edges ∧ new.key = old.key := find_eq_some_iff
  constructor
  · intro h
    split at h
    · cases h
    · rename_i new hnew
      obtain ⟨hmem, hkey⟩ := hfind.mp hnew
      split_ifs at h with hsame
      exact ⟨new, hmem, hkey.symm, fun heq => hsame ((sameProps_iff hkey.symm).mpr heq),
        Option.some.inj h⟩
  · rintro ⟨new, hmem, hkey, hne, rfl⟩
    rw [hfind.mpr ⟨hmem, hkey.symm⟩]
    exact if_neg fun hsame => hne ((sameProps_iff hkey).mp hsame)

theorem mem_changedEdges {c : EdgeChangeView} : c ∈ changedEdges a b ↔
    ∃ old ∈ a.edges, ∃ new ∈ b.edges, old.key = new.key ∧ old ≠ new ∧ changeOf old new = c := by
  rw [changedEdges, List.mem_filterMap]
  constructor
  · rintro ⟨old, hold, h⟩
    exact ⟨old, (mem_sortedEdges.mp hold).1, change_eq_some.mp h⟩
  · rintro ⟨old, hold, new, hnew, hkey, hne, rfl⟩
    exact ⟨old, mem_sortedEdges.mpr ⟨hold, hasPair_iff.mpr ⟨new, hnew, hkey.symm⟩⟩,
      change_eq_some.mpr ⟨new, hnew, hkey, hne, rfl⟩⟩

theorem pairwise_changedEdges (a b : PlanGraph) :
    (changedEdges a b).Pairwise fun c c' => toLex c.key < toLex c'.key := by
  refine (pairwise_sortedEdges a b.hasPair).filterMap _ fun e e' hlt c hc c' hc' => ?_
  obtain ⟨new, -, -, -, rfl⟩ := change_eq_some.mp hc
  obtain ⟨new', -, -, -, rfl⟩ := change_eq_some.mp hc'
  exact hlt

/-! ## The patch -/

@[simp] theorem key_toDiffEdge (e : GraphEdge) : (toDiffEdge e).key = e.key := rfl

theorem mem_addedEdges {d : DiffEdge} : d ∈ (diffGraphs a b).addedEdges ↔
    ∃ e ∈ b.edges, (∀ e' ∈ a.edges, e'.key ≠ e.key) ∧ toDiffEdge e = d := by
  simp only [diffGraphs, List.mem_map, mem_sortedEdges, Bool.not_eq_true', ← Bool.not_eq_true,
    hasPair_iff, not_exists, not_and, and_assoc, ne_eq]

theorem mem_removedEdges {d : DiffEdge} : d ∈ (diffGraphs a b).removedEdges ↔
    ∃ e ∈ a.edges, (∀ e' ∈ b.edges, e'.key ≠ e.key) ∧ toDiffEdge e = d := by
  simp only [diffGraphs, List.mem_map, mem_sortedEdges, Bool.not_eq_true', ← Bool.not_eq_true,
    hasPair_iff, not_exists, not_and, and_assoc, ne_eq]

theorem mem_kept {d : DiffEdge} :
    (d ∈ (a.edges.map toDiffEdge).filter fun e =>
      !((diffGraphs a b).removedEdges.any fun r => r.key == e.key) &&
        !((diffGraphs a b).changedEdges.any fun c => c.key == e.key)) ↔
    ∃ e ∈ a.edges, e ∈ b.edges ∧ toDiffEdge e = d := by
  rw [List.mem_filter, List.mem_map]
  simp only [Bool.and_eq_true, Bool.not_eq_true', List.any_eq_false, beq_iff_eq]
  constructor
  · rintro ⟨⟨e, he, rfl⟩, hremoved, hchanged⟩
    have hpair : ∃ e' ∈ b.edges, e'.key = e.key := by
      by_contra hnone
      refine hremoved (toDiffEdge e) (mem_removedEdges.mpr ⟨e, he, fun e' he' hkey => ?_, rfl⟩) rfl
      exact hnone ⟨e', he', hkey⟩
    obtain ⟨e', he', hkey⟩ := hpair
    have hsame : e = e' := by
      by_contra hne
      exact hchanged (changeOf e e') (mem_changedEdges.mpr ⟨e, he, e', he', hkey.symm, hne, rfl⟩) rfl
    exact ⟨e, he, hsame ▸ he', rfl⟩
  · rintro ⟨e, he, he', rfl⟩
    refine ⟨⟨e, he, rfl⟩, fun d hd hkey => ?_, fun c hc hkey => ?_⟩
    · obtain ⟨r, -, hnone, rfl⟩ := mem_removedEdges.mp hd
      exact hnone e he' hkey.symm
    · obtain ⟨old, hold, new, hnew, hpair, hne, rfl⟩ := mem_changedEdges.mp hc
      have hkey : old.key = e.key := hkey
      refine hne ?_
      rw [edge_eq_of_key hold he hkey, edge_eq_of_key hnew he' (hpair.symm.trans hkey)]

theorem mem_changedNew {d : DiffEdge} : d ∈ (diffGraphs a b).changedEdges.map (·.new) ↔
    ∃ old ∈ a.edges, ∃ new ∈ b.edges, old.key = new.key ∧ old ≠ new ∧ toDiffEdge new = d := by
  rw [List.mem_map]
  constructor
  · rintro ⟨c, hc, rfl⟩
    obtain ⟨old, hold, new, hnew, hkey, hne, rfl⟩ := mem_changedEdges.mp hc
    exact ⟨old, hold, new, hnew, hkey, hne, rfl⟩
  · rintro ⟨old, hold, new, hnew, hkey, hne, rfl⟩
    exact ⟨changeOf old new, mem_changedEdges.mpr ⟨old, hold, new, hnew, hkey, hne, rfl⟩, rfl⟩

theorem nodup_toDiffEdge (g : PlanGraph) : (g.edges.map toDiffEdge).Nodup := by
  refine List.Nodup.of_map DiffEdge.key ?_
  rw [List.map_map]
  exact g.edges_derived.keys_nodup

theorem toDiffEdge_inj {e e' : GraphEdge} (he : e ∈ a.edges) (he' : e' ∈ a.edges)
    (h : toDiffEdge e = toDiffEdge e') : e = e' :=
  edge_eq_of_key he he' (congrArg DiffEdge.key h)

theorem nodup_patchEdges (a b : PlanGraph) :
    ((diffGraphs a b).patchEdges (a.edges.map toDiffEdge)).Nodup := by
  have hadded : (diffGraphs a b).addedEdges.Nodup := by
    refine List.pairwise_map.mpr ((pairwise_sortedEdges b fun pair => !a.hasPair pair).imp ?_)
    intro e e' hlt heq
    have hkey : e.key = e'.key := congrArg DiffEdge.key heq
    rw [hkey] at hlt
    exact lt_irrefl _ hlt
  have hchanged : ((diffGraphs a b).changedEdges.map (·.new)).Nodup := by
    refine List.pairwise_map.mpr ((pairwise_changedEdges a b).imp_of_mem ?_)
    intro c c' hc hc' hlt heq
    obtain ⟨old, -, new, -, hkey, -, rfl⟩ := mem_changedEdges.mp hc
    obtain ⟨old', -, new', -, hkey', -, rfl⟩ := mem_changedEdges.mp hc'
    have hnew : new.key = new'.key := congrArg DiffEdge.key heq
    have hsame : (changeOf old new).key = (changeOf old' new').key :=
      hkey.trans (hnew.trans hkey'.symm)
    rw [hsame] at hlt
    exact lt_irrefl _ hlt
  rw [PlanDiff.patchEdges, List.nodup_append, List.nodup_append]
  refine ⟨⟨(nodup_toDiffEdge a).filter _, hchanged, ?_⟩, hadded, ?_⟩
  · rintro d hd d' hd' rfl
    obtain ⟨e, he, heb, rfl⟩ := mem_kept.mp hd
    obtain ⟨old, hold, new, hnew, hkey, hne, heq⟩ := mem_changedNew.mp hd'
    obtain rfl := toDiffEdge_inj hnew heb heq
    exact hne (edge_eq_of_key hold he hkey)
  · rintro d hd d' hd' rfl
    obtain ⟨e', -, hfresh, rfl⟩ := mem_addedEdges.mp hd'
    rcases List.mem_append.mp hd with hkept | hnew
    · obtain ⟨e, he, -, heq⟩ := mem_kept.mp hkept
      exact hfresh e he (congrArg DiffEdge.key heq)
    · obtain ⟨old, hold, new, -, hkey, -, heq⟩ := mem_changedNew.mp hnew
      exact hfresh old hold (hkey.trans (congrArg DiffEdge.key heq))

/-- **The patch leads to the edges of the other graph.** -/
theorem patchEdges_perm (a b : PlanGraph) :
    ((diffGraphs a b).patchEdges (a.edges.map toDiffEdge)).Perm (b.edges.map toDiffEdge) := by
  refine (List.perm_ext_iff_of_nodup (nodup_patchEdges a b) (nodup_toDiffEdge b)).mpr fun d => ?_
  rw [PlanDiff.patchEdges, List.mem_append, List.mem_append, mem_kept, mem_changedNew,
    mem_addedEdges, List.mem_map]
  constructor
  · rintro ((⟨e, -, he, rfl⟩ | ⟨-, -, e, he, -, -, rfl⟩) | ⟨e, he, -, rfl⟩) <;> exact ⟨e, he, rfl⟩
  · rintro ⟨e, he, rfl⟩
    by_cases hpair : ∃ old ∈ a.edges, old.key = e.key
    · obtain ⟨old, hold, hkey⟩ := hpair
      refine Or.inl ?_
      by_cases hsame : old = e
      · exact Or.inl ⟨e, hsame ▸ hold, he, rfl⟩
      · exact Or.inr ⟨old, hold, e, he, hkey, hsame, rfl⟩
    · exact Or.inr ⟨e, he, fun old hold hkey => hpair ⟨old, hold, hkey⟩, rfl⟩

theorem mem_newNames {names others : List String} {name : String} :
    name ∈ newNames names others ↔ name ∈ names ∧ name ∉ others := by
  simp [newNames]

/-- **The patch leads to the repositories of the other graph.** -/
theorem mem_patchRepos (a b : PlanGraph) (name : String) :
    name ∈ (diffGraphs a b).patchRepos (nodeNames a.nodes) ↔ name ∈ nodeNames b.nodes := by
  have hadded : name ∈ (diffGraphs a b).addedRepos ↔
      name ∈ nodeNames b.nodes ∧ name ∉ nodeNames a.nodes := mem_newNames
  have hremoved : name ∈ (diffGraphs a b).removedRepos ↔
      name ∈ nodeNames a.nodes ∧ name ∉ nodeNames b.nodes := mem_newNames
  rw [PlanDiff.patchRepos, List.mem_append, List.mem_filter, decide_eq_true_eq, hadded, hremoved]
  tauto

/-! ## The other way round -/

/-- **The diff of two graphs the other way round.** -/
theorem diffGraphs_swap (a b : PlanGraph) : diffGraphs b a = (diffGraphs a b).swap := by
  have hchanged : changedEdges b a = (changedEdges a b).map EdgeChangeView.swap := by
    have hswapped : ((changedEdges a b).map EdgeChangeView.swap).Pairwise fun c c' =>
        toLex c.key < toLex c'.key := List.pairwise_map.mpr (pairwise_changedEdges a b)
    refine Keyed.eq_of_mem_iff (pairwise_changedEdges b a) hswapped fun c => ?_
    rw [List.mem_map, mem_changedEdges]
    constructor
    · rintro ⟨new, hnew, old, hold, hkey, hne, rfl⟩
      refine ⟨changeOf old new, mem_changedEdges.mpr ⟨old, hold, new, hnew, hkey.symm, hne.symm, rfl⟩, ?_⟩
      obtain ⟨hfrom, hto⟩ := Prod.mk.inj hkey
      simp [EdgeChangeView.swap, changeOf, hfrom, hto]
    · rintro ⟨c, hc, rfl⟩
      obtain ⟨old, hold, new, hnew, hkey, hne, rfl⟩ := mem_changedEdges.mp hc
      refine ⟨new, hnew, old, hold, hkey.symm, hne.symm, ?_⟩
      obtain ⟨hfrom, hto⟩ := Prod.mk.inj hkey
      simp [EdgeChangeView.swap, changeOf, hfrom, hto]
  have haffected : (diffGraphs b a).affectedRepos = (diffGraphs a b).affectedRepos := by
    refine sortedSet_congr fun name => ?_
    simp only [List.mem_append]
    tauto
  calc diffGraphs b a
      = { diffGraphs b a with affectedRepos := (diffGraphs b a).affectedRepos } := rfl
    _ = { diffGraphs b a with affectedRepos := (diffGraphs a b).affectedRepos } := by rw [haffected]
    _ = (diffGraphs a b).swap := by
      simp only [PlanDiff.swap, diffGraphs]
      rw [hchanged]

/-! ## The footprint -/

theorem mem_affectedRepos {name : String} : name ∈ (diffGraphs a b).affectedRepos ↔
    name ∈ (diffGraphs a b).addedRepos ∨ name ∈ (diffGraphs a b).removedRepos ∨
      (∃ d ∈ (diffGraphs a b).addedEdges, d.to_ = name) ∨
      ∃ d ∈ (diffGraphs a b).removedEdges, d.to_ = name := by
  simp only [diffGraphs, mem_sortedSet, List.mem_append, List.mem_map, or_assoc]
  simp [toDiffEdge]

theorem edge_kept {name : String} (haffected : name ∉ (diffGraphs a b).affectedRepos)
    (hchanged : ∀ c ∈ (diffGraphs a b).changedEdges, c.to_ ≠ name) {e : GraphEdge}
    (he : e ∈ a.edges) (hto : e.to_ = name) : e ∈ b.edges := by
  have hpair : ∃ new ∈ b.edges, new.key = e.key := by
    by_contra hnone
    have hremoved : toDiffEdge e ∈ (diffGraphs a b).removedEdges :=
      mem_removedEdges.mpr ⟨e, he, fun new hnew hkey => hnone ⟨new, hnew, hkey⟩, rfl⟩
    exact haffected (mem_affectedRepos.mpr (Or.inr (Or.inr (Or.inr ⟨_, hremoved, hto⟩))))
  obtain ⟨new, hnew, hkey⟩ := hpair
  have hsame : e = new := by
    by_contra hne
    exact hchanged _ (mem_changedEdges.mpr ⟨e, he, new, hnew, hkey.symm, hne, rfl⟩) hto
  rw [hsame]
  exact hnew

theorem dependenciesOf_eq (g : PlanGraph) (name : String) : g.dependenciesOf name =
    if name ∈ nodeNames g.nodes then some (sortedTexts (confirmedProducers g.edges name)) else none := by
  have hviews : ∀ view ∈ g.taskDag, view.repository ∈ nodeNames g.nodes ∧
      view.dependsOn = sortedTexts (confirmedProducers g.edges view.repository) := by
    intro view hview
    rw [g.taskDag_eq] at hview
    have hmem := List.mem_map_of_mem (f := fun v : TaskDagNodeView => (v.repository, v.dependsOn)) hview
    rw [dependencies_projectTaskDag] at hmem
    obtain ⟨r, hr, heq⟩ := List.mem_map.mp hmem
    obtain ⟨hname, hdepends⟩ := Prod.mk.inj heq
    rw [← hname, ← hdepends]
    exact ⟨mem_sortedTexts.mp hr, rfl⟩
  rw [PlanGraph.dependenciesOf]
  split_ifs with hname
  · have hthere : (g.taskDag.find? fun view => view.repository == name).isSome := by
      rw [← mem_sortedTexts, ← @repositories_projectTaskDag g.nodes g.edges, ← g.taskDag_eq] at hname
      obtain ⟨view, hview, hrepository⟩ := List.mem_map.mp hname
      exact List.find?_isSome.mpr ⟨view, hview, by simpa using hrepository⟩
    obtain ⟨view, hfound⟩ := Option.isSome_iff_exists.mp hthere
    have hrepository : view.repository = name := by simpa using List.find?_some hfound
    rw [hfound, Option.map_some, (hviews view (List.mem_of_find?_eq_some hfound)).2, hrepository]
  · rw [Option.map_eq_none_iff, List.find?_eq_none]
    intro view hview heq
    obtain rfl : view.repository = name := by simpa using heq
    exact hname (hviews view hview).1

theorem same_of_edges {name : String} (hnodes : name ∈ nodeNames a.nodes ↔ name ∈ nodeNames b.nodes)
    (hedges : ∀ e : GraphEdge, e.to_ = name → (e ∈ a.edges ↔ e ∈ b.edges)) :
    a.dependenciesOf name = b.dependenciesOf name ∧ a.consumed name = b.consumed name := by
  constructor
  · have hproducers : sortedTexts (confirmedProducers a.edges name)
        = sortedTexts (confirmedProducers b.edges name) := by
      refine sortedTexts_eq_of_perm ((List.perm_ext_iff_of_nodup
        (nodup_confirmedProducers a.edges_derived name)
        (nodup_confirmedProducers b.edges_derived name)).mpr fun producer => ?_)
      rw [mem_confirmedProducers, mem_confirmedProducers]
      exact ⟨fun ⟨e, he, hrest⟩ => ⟨e, (hedges e hrest.2.2).mp he, hrest⟩,
        fun ⟨e, he, hrest⟩ => ⟨e, (hedges e hrest.2.2).mpr he, hrest⟩⟩
    rw [dependenciesOf_eq, dependenciesOf_eq, hproducers]
    by_cases hname : name ∈ nodeNames a.nodes
    · rw [if_pos hname, if_pos (hnodes.mp hname)]
    · rw [if_neg hname, if_neg fun h => hname (hnodes.mpr h)]
  · have hsorted : ∀ g : PlanGraph, (g.consumed name).Pairwise fun v w => toLex v.pair < toLex w.pair := by
      intro g
      rw [PlanGraph.consumed, g.contracts_eq]
      exact (pairwise_projectContracts g.edges_derived.keys_nodup).filter _
    refine Keyed.eq_of_mem_iff (hsorted a) (hsorted b) fun view => ?_
    rw [PlanGraph.consumed, PlanGraph.consumed, List.mem_filter, List.mem_filter, a.contracts_eq,
      b.contracts_eq, mem_projectContracts, mem_projectContracts, beq_iff_eq]
    constructor
    · rintro ⟨⟨e, he, hconfirmed, i, hi, rfl⟩, hto⟩
      exact ⟨⟨e, (hedges e hto).mp he, hconfirmed, i, hi, rfl⟩, hto⟩
    · rintro ⟨⟨e, he, hconfirmed, i, hi, rfl⟩, hto⟩
      exact ⟨⟨e, (hedges e hto).mpr he, hconfirmed, i, hi, rfl⟩, hto⟩

/-- **What has changed for a repository** is in the footprint, or a changed edge to it. -/
theorem affected_of_differs {name : String} (h : Differs a b name) :
    name ∈ (diffGraphs a b).affectedRepos ∨ ∃ c ∈ (diffGraphs a b).changedEdges, c.to_ = name := by
  by_contra hnone
  obtain ⟨haffected, hchanged⟩ := not_or.mp hnone
  have hchanged : ∀ c ∈ (diffGraphs a b).changedEdges, c.to_ ≠ name :=
    fun c hc hto => hchanged ⟨c, hc, hto⟩
  have hnodes : name ∈ nodeNames a.nodes ↔ name ∈ nodeNames b.nodes := by
    have hnot : name ∉ (diffGraphs a b).addedRepos ∧ name ∉ (diffGraphs a b).removedRepos :=
      ⟨fun hadded => haffected (mem_affectedRepos.mpr (Or.inl hadded)),
        fun hremoved => haffected (mem_affectedRepos.mpr (Or.inr (Or.inl hremoved)))⟩
    simp only [diffGraphs, mem_newNames, not_and, not_not] at hnot
    exact ⟨hnot.2, hnot.1⟩
  have hedges : ∀ e : GraphEdge, e.to_ = name → (e ∈ a.edges ↔ e ∈ b.edges) := by
    intro e hto
    refine ⟨fun he => edge_kept haffected hchanged he hto, fun he => ?_⟩
    refine edge_kept (a := b) (b := a) ?_ ?_ he hto
    · rw [diffGraphs_swap a b]
      exact haffected
    · rw [diffGraphs_swap a b]
      intro c hc
      obtain ⟨c', hc', rfl⟩ := List.mem_map.mp hc
      exact hchanged c' hc'
  obtain ⟨hdependencies, hconsumed⟩ := same_of_edges hnodes hedges
  rcases h with h | h | h
  · exact h hnodes
  · exact h hdependencies
  · exact h hconsumed

/-- **The diff accounts for every change**: it is a patch, it reads the other way round, and a
repository whose presence, dependencies or contracts differ is in its footprint or the consumer of one
of its changed edges. -/
theorem diffPlanGraphs_accounts (a b : PlanGraph) :
    ∃ diff, diffPlanGraphs (some a) (some b) = some diff ∧
      (diff.patchEdges (a.edges.map toDiffEdge)).Perm (b.edges.map toDiffEdge) ∧
      (∀ name, name ∈ diff.patchRepos (nodeNames a.nodes) ↔ name ∈ nodeNames b.nodes) ∧
      diffPlanGraphs (some b) (some a) = some diff.swap ∧
      ∀ name, Differs a b name →
        name ∈ diff.affectedRepos ∨ ∃ c ∈ diff.changedEdges, c.to_ = name :=
  ⟨diffGraphs a b, rfl, patchEdges_perm a b, mem_patchRepos a b,
    congrArg some (diffGraphs_swap a b), fun _ => affected_of_differs⟩

/-- A graph of two repositories and an edge. -/
def pairGraph (status : EdgeStatus) : PlanGraph :=
  PlanGraph.ofDerived 1 [⟨"api", none, []⟩, ⟨"web", none, []⟩] [⟨"api", "web", status, .scan, none, none⟩]
    first_version ⟨by simp, by simp [nodeNames], by simp⟩

/-- **A candidate edge that is confirmed** gives its consumer a dependency, and the footprint is
empty. -/
theorem confirmation_unaffected :
    Differs (pairGraph .candidate) (pairGraph .confirmed) "web" ∧
      "web" ∉ (diffGraphs (pairGraph .candidate) (pairGraph .confirmed)).affectedRepos := by
  refine ⟨Or.inr (Or.inl ?_), ?_⟩
  · rw [dependenciesOf_eq, dependenciesOf_eq]
    decide
  · rw [mem_affectedRepos]
    decide

end Planning
end RepoMesh
