/-
# Kahn's algorithm

A node is taken once no edge from a node that is still there leads to it. What is counted for a node are
exactly its edges from nodes that were not taken, each as often as it is listed; so when nothing is free
any more, every node that is left lies behind another one that is, and the graph has a cycle.
-/
import Mathlib.Data.List.Dedup
import RepoMesh.Foundation.Levels

namespace RepoMesh
namespace Kahn

universe u

variable {α : Type u}

/-! ## Orders -/

/-- The relation of a list of edges. -/
def Edge (edges : List (α × α)) (a b : α) : Prop := (a, b) ∈ edges

/-- An order in which every edge leads from an earlier node to a later one. -/
def Topological (edges : List (α × α)) (order : List α) : Prop :=
  ∀ front node back, order = front ++ node :: back → ∀ a, Edge edges a node → a ∈ front

variable {edges : List (α × α)} {nodes : List α}

theorem topological_nil : Topological edges [] := by
  intro front node back h
  simp at h

theorem Topological.snoc {order : List α} {node : α} (h : Topological edges order)
    (hnode : ∀ a, Edge edges a node → a ∈ order) : Topological edges (order ++ [node]) := by
  intro front other back hsplit a ha
  rcases List.eq_nil_or_concat back with rfl | ⟨back, last, rfl⟩
  · obtain ⟨rfl, hlast⟩ := List.append_inj' hsplit rfl
    obtain rfl : node = other := by simpa using hlast
    exact hnode a ha
  · rw [List.concat_eq_append, ← List.cons_append, ← List.append_assoc] at hsplit
    obtain ⟨horder, -⟩ := List.append_inj' hsplit rfl
    exact h front other back horder a ha

theorem Topological.not_cycle {order : List α} (h : Topological edges order) {node : α}
    (hnode : node ∈ order) : ¬ Relation.TransGen (Edge edges) node node := by
  -- What leads to a node, in however many steps, stands before each of its places.
  have hbefore : ∀ {a b}, Relation.TransGen (Edge edges) a b → ∀ front back,
      order = front ++ b :: back → a ∈ front := by
    intro a b hreach
    induction hreach with
    | single hab => exact fun front back hsplit => h front _ back hsplit a hab
    | @tail b c _ hbc ih =>
      intro front back hsplit
      obtain ⟨front', back', rfl⟩ := List.append_of_mem (h front c back hsplit b hbc)
      refine List.mem_append_left _ (ih front' (back' ++ c :: back) ?_)
      rw [hsplit, List.append_assoc, List.cons_append]
  intro hcycle
  obtain ⟨front, back, hsplit, hfirst⟩ := List.eq_append_cons_of_mem hnode
  exact hfirst (hbefore hcycle front back hsplit)

/-! ## The algorithm -/

variable [DecidableEq α]

/-- One edge less to each target; what has none left becomes ready. -/
def release (targets ready : List α) (indegree : α → ℤ) : List α × (α → ℤ) :=
  targets.foldl (fun state target =>
    let degree := state.2 target - 1
    (if degree = 0 then state.1 ++ [target] else state.1,
      fun node => if node = target then degree else state.2 node)) (ready, indegree)

/-- The targets of a node. -/
def targetsOf (edges : List (α × α)) (node : α) : List α :=
  (edges.filter fun edge => edge.1 == node).map (·.2)

/-- The loop, as it runs: while a node is ready, the last one is taken. -/
inductive Drains (edges : List (α × α)) : List α → (α → ℤ) → ℕ → ℕ → Prop where
  | done (indegree : α → ℤ) (taken : ℕ) : Drains edges [] indegree taken taken
  | take {ready : List α} {node : α} {indegree : α → ℤ} {taken total : ℕ}
      (hlast : ready.getLast? = some node)
      (hrest : Drains edges (release (targetsOf edges node) ready.dropLast indegree).1
        (release (targetsOf edges node) ready.dropLast indegree).2 (taken + 1) total) :
      Drains edges ready indegree taken total

theorem release_spec {targets ready : List α} {indegree : α → ℤ}
    (h : ∀ t, (targets.count t : ℤ) ≤ indegree t) :
    ∃ fresh, (release targets ready indegree).1 = ready ++ fresh ∧ fresh.Nodup ∧
      (∀ t, t ∈ fresh ↔ t ∈ targets ∧ indegree t = targets.count t) ∧
      ∀ t, (release targets ready indegree).2 t = indegree t - targets.count t := by
  induction targets generalizing ready indegree with
  | nil => exact ⟨[], by simp [release], List.nodup_nil, by simp, by simp [release]⟩
  | cons target targets ih =>
    have hcount : ∀ t, ((target :: targets).count t : ℤ) =
        targets.count t + if t = target then 1 else 0 := by
      intro t
      rw [List.count_cons]
      by_cases ht : t = target
      · simp [ht]
      · have hne : (target == t) = false := by simpa using Ne.symm ht
        simp [ht, hne]
    have hrest : ∀ t, (targets.count t : ℤ) ≤
        if t = target then indegree target - 1 else indegree t := by
      intro t
      have ht := h t
      rw [hcount] at ht
      split_ifs at ht ⊢ with heq
      · subst heq
        omega
      · omega
    obtain ⟨fresh, hready, hnodup, hmem, hdegree⟩ := @ih
      (if indegree target - 1 = 0 then ready ++ [target] else ready) _ hrest
    have hstep : release (target :: targets) ready indegree =
        release targets (if indegree target - 1 = 0 then ready ++ [target] else ready)
          (fun t => if t = target then indegree target - 1 else indegree t) := rfl
    have hall : ∀ t, (release (target :: targets) ready indegree).2 t =
        indegree t - (target :: targets).count t := by
      intro t
      rw [hstep, hdegree, hcount]
      split_ifs with heq
      · subst heq
        omega
      · omega
    by_cases hzero : indegree target - 1 = 0
    · -- It has no edge left, so it is not listed again.
      have hlast : targets.count target = 0 := by
        have ht := h target
        rw [hcount, if_pos rfl] at ht
        omega
      have hnot : target ∉ fresh := fun hin => List.count_eq_zero.mp hlast ((hmem target).mp hin).1
      refine ⟨target :: fresh, ?_, List.nodup_cons.mpr ⟨hnot, hnodup⟩, ?_, hall⟩
      · rw [hstep, hready, if_pos hzero, List.append_assoc, List.singleton_append]
      · intro t
        rw [List.mem_cons, List.mem_cons, hmem, hcount]
        by_cases heq : t = target
        · subst heq
          rw [hlast]
          simp only [true_or, true_and, true_iff, if_true]
          omega
        · simp [heq]
    · refine ⟨fresh, ?_, hnodup, ?_, hall⟩
      · rw [hstep, hready, if_neg hzero]
      · intro t
        rw [hmem, List.mem_cons, hcount]
        by_cases heq : t = target
        · subst heq
          simp only [if_true, true_or, true_and]
          constructor
          · rintro ⟨-, hdeg⟩
            omega
          · intro hdeg
            refine ⟨?_, by omega⟩
            by_contra hno
            have hnone := List.count_eq_zero.mpr hno
            omega
        · simp [heq]

/-! ## What holds while it runs -/

/-- The edges to a node from nodes that were not taken. -/
def pending (edges : List (α × α)) (taken : List α) (node : α) : ℕ :=
  edges.countP fun edge => edge.2 == node && !taken.contains edge.1

/-- The invariant of the loop, with the nodes that were taken in their order. -/
structure Inv (nodes : List α) (edges : List (α × α)) (taken ready : List α) (indegree : α → ℤ) :
    Prop where
  nodup : (taken ++ ready).Nodup
  sub : ∀ node ∈ taken ++ ready, node ∈ nodes
  degree : ∀ node, indegree node = pending edges taken node
  free : ∀ node ∈ nodes, indegree node = 0 → node ∈ taken ++ ready
  zero : ∀ node ∈ taken ++ ready, indegree node = 0
  ordered : Topological edges taken

theorem pending_snoc {taken : List α} {node : α} (hnode : node ∉ taken) (target : α) :
    pending edges taken target =
      pending edges (taken ++ [node]) target + (targetsOf edges node).count target := by
  simp only [pending, targetsOf]
  induction edges with
  | nil => simp
  | cons edge edges ih =>
    obtain ⟨a, b⟩ := edge
    rw [List.countP_cons, List.countP_cons, ih, List.filter_cons]
    by_cases hb : b = target
    · by_cases ha : a = node
      · subst ha hb
        simp [hnode]
        omega
      · by_cases htaken : a ∈ taken
        · simp [ha, hb, htaken]
        · simp [ha, hb, htaken]
          omega
    · by_cases ha : a = node
      · simp [ha, hb]
      · simp [ha, hb]

theorem taken_of_pending {taken : List α} {node : α} (h : pending edges taken node = 0) :
    ∀ a, Edge edges a node → a ∈ taken := by
  intro a ha
  rw [pending, List.countP_eq_zero] at h
  have hedge := h (a, node) ha
  simpa using hedge

theorem Inv.start (hnodes : nodes.Nodup) (indegree : α → ℤ)
    (hdegree : ∀ node, indegree node = pending edges [] node) :
    Inv nodes edges [] (nodes.filter fun node => indegree node = 0) indegree where
  nodup := by simpa using hnodes.filter _
  sub node h := by
    rw [List.nil_append] at h
    exact (List.mem_filter.mp h).1
  degree := hdegree
  free node hnode hzero := by simpa using ⟨hnode, hzero⟩
  zero node h := by
    rw [List.nil_append] at h
    simpa using (List.mem_filter.mp h).2
  ordered := topological_nil

theorem Inv.take (hedges : ∀ edge ∈ edges, edge.2 ∈ nodes) {taken ready : List α}
    {indegree : α → ℤ} {node : α} (h : Inv nodes edges taken (ready ++ [node]) indegree) :
    Inv nodes edges (taken ++ [node]) (release (targetsOf edges node) ready indegree).1
      (release (targetsOf edges node) ready indegree).2 := by
  have hparts := List.nodup_append.mp h.nodup
  have hnode : node ∉ taken := fun hin => hparts.2.2 node hin node (by simp) rfl
  have hpending : ∀ t, pending edges taken t =
      pending edges (taken ++ [node]) t + (targetsOf edges node).count t := pending_snoc hnode
  have hcount : ∀ t, ((targetsOf edges node).count t : ℤ) ≤ indegree t := by
    intro t
    rw [h.degree, hpending t]
    push_cast
    omega
  obtain ⟨fresh, hready, hnodup, hfresh, hdegree⟩ := @release_spec _ _ _ ready _ hcount
  have htargets : ∀ t ∈ targetsOf edges node, t ∈ nodes := by
    intro t ht
    obtain ⟨edge, hedge, rfl⟩ := List.mem_map.mp ht
    exact hedges edge (List.mem_filter.mp hedge).1
  -- What becomes ready had an edge left, so it was neither taken nor ready.
  have hnew : ∀ t ∈ fresh, t ∉ taken ++ (ready ++ [node]) := by
    intro t ht hold
    obtain ⟨hmem, heq⟩ := (hfresh t).mp ht
    have hpos := List.count_pos_iff.mpr hmem
    have hzero := h.zero t hold
    omega
  have hshape : taken ++ [node] ++ (ready ++ fresh) = (taken ++ [node] ++ ready) ++ fresh := by
    rw [List.append_assoc, List.append_assoc, List.append_assoc]
  have hperm : (taken ++ [node] ++ ready).Perm (taken ++ (ready ++ [node])) := by
    rw [List.append_assoc]
    exact List.Perm.append_left _ List.perm_append_comm
  constructor
  · rw [hready, hshape, List.nodup_append]
    refine ⟨hperm.nodup_iff.mpr h.nodup, hnodup, ?_⟩
    rintro a ha b hb rfl
    exact hnew a hb (hperm.mem_iff.mp ha)
  · intro t ht
    rw [hready, hshape] at ht
    rcases List.mem_append.mp ht with ht | ht
    · exact h.sub t (hperm.mem_iff.mp ht)
    · exact htargets t ((hfresh t).mp ht).1
  · intro t
    rw [hdegree, h.degree, hpending t]
    push_cast
    omega
  · intro t ht hzero
    rw [hready, hshape, List.mem_append, hperm.mem_iff]
    rw [hdegree] at hzero
    by_cases hold : indegree t = 0
    · exact .inl (h.free t ht hold)
    · refine .inr ((hfresh t).mpr ⟨List.count_pos_iff.mp ?_, by omega⟩)
      have ht := hcount t
      omega
  · intro t ht
    rw [hready, hshape, List.mem_append, hperm.mem_iff] at ht
    rw [hdegree]
    rcases ht with ht | ht
    · have hzero := h.zero t ht
      have hle := hcount t
      omega
    · have heq := ((hfresh t).mp ht).2
      omega
  · refine h.ordered.snoc (taken_of_pending ?_)
    have hzero := h.zero node (by simp)
    rw [h.degree] at hzero
    omega

/-- **The loop ends.** It takes nodes in an order in which every edge leads forward, until each node
that is left has a predecessor that is left. -/
theorem Inv.drains (hedges : ∀ edge ∈ edges, edge.2 ∈ nodes) {taken ready : List α}
    {indegree : α → ℤ} (h : Inv nodes edges taken ready indegree) :
    ∃ order indegree', Drains edges ready indegree taken.length order.length ∧
      Inv nodes edges order [] indegree' := by
  induction hleft : nodes.length - taken.length generalizing taken ready indegree with
  | zero =>
    have hready : ready = [] := by
      have hnodes : (taken ++ ready).length ≤ nodes.length :=
        (List.subperm_of_subset h.nodup h.sub).length_le
      rw [List.length_append] at hnodes
      exact List.length_eq_zero_iff.mp (by omega)
    subst hready
    exact ⟨taken, indegree, .done _ _, h⟩
  | succ left ih =>
    rcases List.eq_nil_or_concat ready with rfl | ⟨ready, node, rfl⟩
    · exact ⟨taken, indegree, .done _ _, h⟩
    · rw [List.concat_eq_append] at h ⊢
      have hlength : nodes.length - (taken ++ [node]).length = left := by
        rw [List.length_append, List.length_singleton]
        omega
      obtain ⟨order, indegree', hdrains, hinv⟩ := ih (h.take hedges) hlength
      refine ⟨order, indegree', .take List.getLast?_concat ?_, hinv⟩
      rw [List.dropLast_concat]
      rwa [List.length_append, List.length_singleton] at hdrains

/-- **What is left over.** Where the loop ends with a node that was not taken, there is a cycle. -/
theorem Inv.cycle (hedges : ∀ edge ∈ edges, edge.1 ∈ nodes) {order : List α} {indegree : α → ℤ}
    (h : Inv nodes edges order [] indegree) {node : α} (hnode : node ∈ nodes)
    (hleft : node ∉ order) : ∃ c ∈ nodes, Relation.TransGen (Edge edges) c c := by
  have hstuck : Levels.Stuck (Edge edges) node := by
    refine Levels.stuck_of_forall_exists (nodes.filter (· ∉ order)) (fun r hr => ?_)
      (List.mem_filter.mpr ⟨hnode, by simpa using hleft⟩)
    obtain ⟨hr, hout⟩ := List.mem_filter.mp hr
    have hpending : pending edges order r ≠ 0 := by
      intro hzero
      have hfree := h.free r hr (by rw [h.degree, hzero]; rfl)
      rw [List.append_nil] at hfree
      exact (of_decide_eq_true hout) hfree
    obtain ⟨edge, hedge, hcond⟩ := List.countP_pos_iff.mp (Nat.pos_of_ne_zero hpending)
    obtain ⟨a, b⟩ := edge
    simp only [Bool.and_eq_true, beq_iff_eq, Bool.not_eq_true', List.contains_eq_mem,
      decide_eq_false_iff_not] at hcond
    obtain ⟨rfl, ha⟩ := hcond
    exact ⟨a, List.mem_filter.mpr ⟨hedges _ hedge, by simpa using ha⟩, hedge⟩
  obtain ⟨c, hcycle, -⟩ := hstuck
  obtain ⟨b, hcb, -⟩ := Relation.TransGen.head'_iff.mp hcycle
  exact ⟨c, hedges _ hcb, hcycle⟩

/-- **Kahn's algorithm.** It ends; and it took every node, in an order in which every edge leads
forward, exactly when no node lies on a cycle. -/
theorem drains_iff (hnodes : nodes.Nodup)
    (hedges : ∀ edge ∈ edges, edge.1 ∈ nodes ∧ edge.2 ∈ nodes) (indegree : α → ℤ)
    (hdegree : ∀ node, indegree node = pending edges [] node) :
    ∃ order, Drains edges (nodes.filter fun node => indegree node = 0) indegree 0 order.length ∧
      order.Nodup ∧ order ⊆ nodes ∧ Topological edges order ∧
      (order.length = nodes.length ↔ ¬ ∃ node, Relation.TransGen (Edge edges) node node) := by
  obtain ⟨order, indegree', hdrains, hinv⟩ :=
    (Inv.start hnodes indegree hdegree).drains fun edge hedge => (hedges edge hedge).2
  have hnodup : order.Nodup := by simpa using hinv.nodup
  have hsub : order ⊆ nodes := fun node hnode => hinv.sub node (by simpa using hnode)
  have hsubperm := List.subperm_of_subset hnodup hsub
  refine ⟨order, hdrains, hnodup, hsub, hinv.ordered, ?_⟩
  constructor
  · rintro hlength ⟨node, hcycle⟩
    have hperm := hsubperm.perm_of_length_le hlength.ge
    obtain ⟨b, hnb, -⟩ := Relation.TransGen.head'_iff.mp hcycle
    exact hinv.ordered.not_cycle (hperm.mem_iff.mpr (hedges _ hnb).1) hcycle
  · intro hacyclic
    refine le_antisymm hsubperm.length_le ?_
    refine (List.subperm_of_subset hnodes fun node hnode => ?_).length_le
    by_contra hleft
    obtain ⟨c, -, hcycle⟩ := hinv.cycle (fun edge hedge => (hedges edge hedge).1) hnode hleft
    exact hacyclic ⟨c, hcycle⟩

end Kahn
end RepoMesh
