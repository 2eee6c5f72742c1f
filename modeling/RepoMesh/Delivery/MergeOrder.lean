/-
# Merge order, cursor and gate

The orders `prepare` and `append_candidates` give out number the candidates of a ChangeSet, with
every dependency before its dependents; the cursor follows the statuses through every call. The
gate then allows at most one candidate: the one the cursor stands at.
-/
import Mathlib.Data.List.Sort
import RepoMesh.Foundation.Ranks
import RepoMesh.Delivery.CandidateLife

namespace RepoMesh
namespace Delivery

open Fallible Ranks

/-! ## Giving out merge orders -/

theorem mem_readyRepositories {remaining : List (UUID × List UUID)} {order : List (UUID × ℕ)}
    {k : UUID} :
    k ∈ readyRepositories remaining order ↔
      ∃ e ∈ remaining, (∀ dep ∈ e.2, dep ∈ order.map (·.1)) ∧ e.1 = k := by
  simp only [readyRepositories, List.mem_insertionSort, List.mem_map, List.mem_filter,
    List.all_eq_true, List.any_eq_true, beq_iff_eq, and_assoc]

theorem ready_perm {remaining : List (UUID × List UUID)} (order : List (UUID × ℕ))
    (hkeys : (remaining.map (·.1)).Nodup) :
    (readyRepositories remaining order ++
      (remaining.filter fun e => !(readyRepositories remaining order).contains e.1).map (·.1)).Perm
      (remaining.map (·.1)) := by
  let isReady : UUID × List UUID → Bool := fun e => e.2.all fun dep => order.any fun o => o.1 == dep
  have hrest : (remaining.filter fun e => !(readyRepositories remaining order).contains e.1) =
      remaining.filter fun e => !isReady e := by
    refine List.filter_congr fun e he => ?_
    rw [Bool.eq_iff_iff, Bool.not_eq_true', Bool.not_eq_true', ← Bool.not_eq_true,
      ← Bool.not_eq_true, not_iff_not, List.contains_iff_mem, mem_readyRepositories]
    constructor
    · rintro ⟨e', he', hready, hkey⟩
      rw [← List.inj_on_of_nodup_map hkeys he' he hkey]
      simpa [isReady] using hready
    · intro hready
      exact ⟨e, he, by simpa [isReady] using hready, rfl⟩
  have hsorted : (readyRepositories remaining order).Perm
      ((remaining.filter isReady).map (·.1)) := List.perm_insertionSort _ _
  rw [hrest]
  refine (hsorted.append_right _).trans ?_
  rw [← List.map_append]
  exact (List.filter_append_perm isReady remaining).map _

/-- **The loop of `_merge_order`.** It numbers on: what was numbered keeps its rank, all that
remained is numbered, and every dependency comes before its dependents. -/
theorem mergeOrderLoop_ranked {fuel : ℕ} {remaining : List (UUID × List UUID)}
    {order result : List (UUID × ℕ)} (horder : Ranked order)
    (hkeys : (order.map (·.1) ++ remaining.map (·.1)).Nodup)
    (h : mergeOrderLoop fuel remaining order order.length = .ok result) :
    Ranked result ∧ (∀ o ∈ order, o ∈ result) ∧
      (result.map (·.1)).Perm (order.map (·.1) ++ remaining.map (·.1)) ∧
      ∀ e ∈ remaining, ∀ dep ∈ e.2,
        dep ∈ result.map (·.1) ∧ rankOf result dep < rankOf result e.1 := by
  induction fuel generalizing remaining order with
  | zero =>
    rw [mergeOrderLoop] at h
    split_ifs at h with hnil
    obtain rfl := Except.ok.inj h
    rw [hnil]
    exact ⟨horder, fun _ ho => ho, by simp, fun e he => by cases he⟩
  | succ fuel ih =>
    rw [mergeOrderLoop] at h
    split_ifs at h with hnil
    · obtain rfl := Except.ok.inj h
      rw [hnil]
      exact ⟨horder, fun _ ho => ho, by simp, fun e he => by cases he⟩
    dsimp only at h
    split_ifs at h with hstuck
    obtain ⟨hordered, hremaining, hapart⟩ := List.nodup_append.mp hkeys
    have hperm := ready_perm order hremaining
    have hsplit := hperm.nodup_iff.mpr hremaining
    have hnew : ∀ k ∈ readyRepositories remaining order, k ∉ order.map (·.1) := by
      intro k hk hold
      exact hapart k hold k (hperm.subset (List.mem_append_left _ hk)) rfl
    have hround := horder.extend (List.nodup_append.mp hsplit).1 hnew
    have hlength : order.length + (readyRepositories remaining order).length =
        (order ++ (readyRepositories remaining order).zipIdx order.length).length := by simp
    rw [hlength] at h
    have hround_keys : ((order ++ (readyRepositories remaining order).zipIdx order.length).map
        (·.1) ++ (remaining.filter fun e =>
          !(readyRepositories remaining order).contains e.1).map (·.1)).Perm
        (order.map (·.1) ++ remaining.map (·.1)) := by
      rw [List.map_append, List.zipIdx_map_fst, List.append_assoc]
      exact hperm.append_left _
    obtain ⟨hresult, hkept, hall, hdeps⟩ := ih hround (hround_keys.nodup_iff.mpr hkeys) h
    refine ⟨hresult, fun o ho => hkept o (List.mem_append_left _ ho), hall.trans hround_keys, ?_⟩
    intro e he dep hdep
    by_cases hready : e.1 ∈ readyRepositories remaining order
    · obtain ⟨e', he', hmet, hkey⟩ := mem_readyRepositories.mp hready
      obtain rfl := List.inj_on_of_nodup_map hremaining he' he hkey
      obtain ⟨o, ho, rfl⟩ := List.mem_map.mp (hmet dep hdep)
      obtain ⟨k, hk⟩ : ∃ k, (e'.1, k) ∈ (readyRepositories remaining order).zipIdx order.length := by
        have hmem : e'.1 ∈ ((readyRepositories remaining order).zipIdx order.length).map (·.1) := by
          rw [List.zipIdx_map_fst]; exact hready
        obtain ⟨p, hp, hfst⟩ := List.mem_map.mp hmem
        exact ⟨p.2, by rw [← hfst]; exact hp⟩
      have hlow : rankOf result o.1 = o.2 :=
        hresult.rankOf_eq (hkept o (List.mem_append_left _ ho))
      have hhigh : rankOf result e'.1 = k :=
        hresult.rankOf_eq (hkept _ (List.mem_append_right _ hk))
      have hbelow : o.2 < order.length := horder.lt_length ho
      have habove : order.length ≤ k := (List.mem_zipIdx hk).1
      refine ⟨List.mem_map.mpr ⟨o, hkept o (List.mem_append_left _ ho), rfl⟩, ?_⟩
      omega
    · refine hdeps e (List.mem_filter.mpr ⟨he, ?_⟩) dep hdep
      simpa using hready

/-! ## One ChangeSet -/

namespace ChangeSet

/-- The merge orders of a ChangeSet are the numbers below the count of its candidates, each once,
and every candidate comes after all it depends on. -/
structure MergeOrdered (cs : ChangeSet) : Prop where
  bijective : (cs.repositories.map (·.mergeOrder)).Perm (List.range cs.repositories.length)
  dependencies : ∀ d ∈ cs.repositories, ∀ dep ∈ d.dependsOn,
    ∃ u, cs.candidate? dep = some u ∧ u.mergeOrder < d.mergeOrder

/-- The merge cursor is the least merge order of an unmerged candidate, or the count of all when
every candidate is merged. -/
def IsMergeCursor (cs : ChangeSet) : Prop :=
  IsCursor (fun d : RepositoryDelivery => d.mergeOrder) (fun d => d.status = .merged)
    cs.repositories cs.mergeCursor

/-- The merge orders as a table. -/
def orderTable (cs : ChangeSet) : List (UUID × ℕ) :=
  cs.repositories.map fun d => (d.repositoryId, d.mergeOrder)

theorem keys_orderTable (cs : ChangeSet) : cs.orderTable.map (·.1) = repositoryIds cs.repositories := by
  rw [orderTable, List.map_map]
  rfl

theorem MergeOrdered.ranked {cs : ChangeSet} (h : cs.MergeOrdered) : Ranked cs.orderTable := by
  constructor
  · rw [keys_orderTable]
    exact cs.ids_nodup
  · rw [orderTable, List.map_map, List.length_map]
    exact h.bijective

theorem mergeOrdered_of_ranked {cs : ChangeSet} {order : List (UUID × ℕ)} (horder : Ranked order)
    (hkeys : (repositoryIds cs.repositories).Perm (order.map (·.1)))
    (hranks : ∀ d ∈ cs.repositories, d.mergeOrder = rankOf order d.repositoryId)
    (hdeps : ∀ d ∈ cs.repositories, ∀ dep ∈ d.dependsOn,
      dep ∈ order.map (·.1) ∧ rankOf order dep < rankOf order d.repositoryId) :
    cs.MergeOrdered := by
  constructor
  · have hmap : cs.repositories.map (·.mergeOrder) =
        (repositoryIds cs.repositories).map (rankOf order) := by
      rw [repositoryIds, List.map_map]
      exact List.map_congr_left hranks
    have hlength : (repositoryIds cs.repositories).length = cs.repositories.length :=
      List.length_map _
    rw [hmap, ← hlength]
    exact horder.map_rankOf hkeys
  · intro d hd dep hdep
    obtain ⟨hmem, hlt⟩ := hdeps d hd dep hdep
    obtain ⟨u, hu, hid⟩ := List.mem_map.mp (hkeys.mem_iff.mpr hmem)
    refine ⟨u, candidate?_eq_some.mpr ⟨hu, hid⟩, ?_⟩
    rw [hranks u hu, hranks d hd, hid]
    exact hlt

end ChangeSet

theorem RepositoryDelivery.create_mergeOrder {item : RepositoryCandidateInput} {order : ℕ}
    {d : RepositoryDelivery} (h : RepositoryDelivery.create item order = .ok d) :
    d.mergeOrder = order := by
  unfold create at h
  dsimp only at h
  split_ifs at h
  rw [← Except.ok.inj h]

/-- The record was created from the input with the order the table gives. -/
def OrderedFrom (order : List (UUID × ℕ)) (item : RepositoryCandidateInput)
    (d : RepositoryDelivery) : Prop :=
  RepositoryDelivery.create item (orderOf order item.repositoryId) = .ok d

theorem OrderedFrom.fields {order : List (UUID × ℕ)} {item : RepositoryCandidateInput}
    {d : RepositoryDelivery} (h : OrderedFrom order item d) :
    d.repositoryId = item.repositoryId ∧ d.dependsOn = item.dependsOn ∧
      d.mergeOrder = rankOf order d.repositoryId ∧ d.status = .pending := by
  obtain ⟨hid, hdeps, -, -, hstatus, -⟩ := RepositoryDelivery.create_ok h
  refine ⟨hid, hdeps, ?_, hstatus⟩
  rw [hid]
  exact RepositoryDelivery.create_mergeOrder h

namespace ChangeSet

/-- **`prepare`** orders its candidates, and the cursor starts at the first. -/
theorem mergeOrdered_prepared {c : PrepareChangeSetCommand} {id : UUID} {cs : ChangeSet}
    (h : DeliveryService.preparedChangeSet c id = .ok cs) : cs.MergeOrdered ∧ cs.IsMergeCursor := by
  obtain ⟨order, horder, h⟩ := bind_ok h
  obtain ⟨repositories, hrepos, h⟩ := bind_ok h
  obtain ⟨rfl, hcursor⟩ : cs.repositories = repositories ∧ cs.mergeCursor = 0 := by
    split_ifs at h
    rw [← Except.ok.inj h]
    exact ⟨rfl, rfl⟩
  have hfrom : List.Forall₂ (OrderedFrom order) c.candidates cs.repositories := mapM_ok hrepos
  have hids : repositoryIds cs.repositories = c.candidates.map (·.repositoryId) :=
    repositoryIds_of_created (hfrom.imp fun item d hd => ⟨_, hd⟩)
  have hnodup : (c.candidates.map (·.repositoryId)).Nodup := hids ▸ cs.ids_nodup
  unfold mergeOrder at horder
  dsimp only at horder
  rw [dependencyTable_of_nodup hnodup] at horder
  split_ifs at horder
  have hkeys : (c.candidates.map fun c => (c.repositoryId, c.dependsOn)).map (·.1) =
      c.candidates.map (·.repositoryId) := by
    rw [List.map_map]
    rfl
  obtain ⟨hranked, -, hperm, hbefore⟩ := mergeOrderLoop_ranked ranked_nil
    (by rw [hkeys]; simpa using hnodup) horder
  rw [hkeys, List.map_nil, List.nil_append] at hperm
  have hordered : cs.MergeOrdered := by
    refine mergeOrdered_of_ranked hranked (hids ▸ hperm.symm) (fun d hd => ?_)
      (fun d hd dep hdep => ?_)
    · obtain ⟨item, -, hitem⟩ := forall₂_exists_left hfrom hd
      exact hitem.fields.2.2.1
    · obtain ⟨item, hmem, hitem⟩ := forall₂_exists_left hfrom hd
      obtain ⟨hid, hdeps, -⟩ := hitem.fields
      rw [hid]
      exact hbefore (item.repositoryId, item.dependsOn) (List.mem_map.mpr ⟨item, hmem, rfl⟩) dep
        (hdeps ▸ hdep)
  refine ⟨hordered, Or.inl ⟨?_, fun k _ => hcursor ▸ Nat.zero_le k⟩⟩
  have hzero : 0 ∈ cs.repositories.map (·.mergeOrder) := by
    refine hordered.bijective.mem_iff.mpr (List.mem_range.mpr ?_)
    exact List.length_pos_iff.mpr cs.nonempty
  obtain ⟨d, hd, hrank⟩ := List.mem_map.mp hzero
  obtain ⟨item, -, hitem⟩ := forall₂_exists_left hfrom hd
  have hpending : d.status = .pending := hitem.fields.2.2.2
  refine ⟨d, hd, fun hmerged => ?_, hrank.trans hcursor.symm⟩
  have hstatus : d.status = .merged := hmerged
  rw [hpending] at hstatus
  cases hstatus

theorem withRepositories_cursor {cs cs' : ChangeSet} {ds : List RepositoryDelivery}
    (h : cs.withRepositories ds = .ok cs') : cs'.IsMergeCursor := by
  unfold withRepositories at h
  split_ifs at h
  rw [← Except.ok.inj h]
  exact isCursor_min

theorem appendRepositories_cursor {cs cs' : ChangeSet} {ds : List RepositoryDelivery}
    (h : cs.appendRepositories ds = .ok cs') : cs'.IsMergeCursor := by
  unfold appendRepositories at h
  split_ifs at h
  obtain ⟨updated, hwith, h⟩ := bind_ok h
  have hcursor := withRepositories_cursor hwith
  rw [← Except.ok.inj h]
  exact hcursor

/-- **`append_candidates`** numbers on from the candidates that are there. -/
theorem mergeOrdered_appended {cs cs' : ChangeSet} {fresh : List RepositoryCandidateInput}
    {ds : List RepositoryDelivery} (hcs : cs.MergeOrdered)
    (hcreated : cs.appendedRepositories fresh = .ok ds) (h : cs.appendRepositories ds = .ok cs') :
    cs'.MergeOrdered := by
  obtain ⟨hrepos, -⟩ := appendRepositories_ok h
  unfold appendedRepositories at hcreated
  dsimp only at hcreated
  split_ifs at hcreated
  obtain ⟨order, horder, hcreated⟩ := bind_ok hcreated
  have hfrom : List.Forall₂ (OrderedFrom order) fresh ds := mapM_ok hcreated
  have hids : repositoryIds ds = fresh.map (·.repositoryId) :=
    repositoryIds_of_created (hfrom.imp fun item d hd => ⟨_, hd⟩)
  have hall : repositoryIds cs'.repositories =
      repositoryIds cs.repositories ++ fresh.map (·.repositoryId) := by
    rw [← hids, hrepos]
    exact List.map_append
  have hnodup : (repositoryIds cs.repositories ++ fresh.map (·.repositoryId)).Nodup :=
    hall ▸ cs'.ids_nodup
  have hranked := hcs.ranked
  have hnext : ((cs.orderTable.map (·.2)).max?.map (· + 1)).getD 0 = cs.orderTable.length := by
    have hperm := hranked.ranks
    cases hmax : (cs.orderTable.map (·.2)).max? with
    | none =>
      have hnil := List.max?_eq_none_iff.mp hmax
      rw [List.map_eq_nil_iff] at hnil
      rw [hnil]
      rfl
    | some k =>
      obtain ⟨hk, hmost⟩ := List.max?_eq_some_iff.mp hmax
      have hlt : k < cs.orderTable.length := List.mem_range.mp (hperm.mem_iff.mp hk)
      have hlast := hmost (cs.orderTable.length - 1)
        (hperm.mem_iff.mpr (List.mem_range.mpr (by omega)))
      simp only [Option.map_some, Option.getD_some]
      omega
  have htable : (dependencyTable fresh).map (·.1) = fresh.map (·.repositoryId) := by
    rw [dependencyTable_of_nodup (List.nodup_append.mp hnodup).2.1, List.map_map]
    rfl
  have hloop : mergeOrderLoop (dependencyTable fresh).length (dependencyTable fresh) cs.orderTable
      cs.orderTable.length = .ok order := by
    rw [← hnext]
    exact horder
  obtain ⟨hresult, hkept, hperm, hbefore⟩ := mergeOrderLoop_ranked hranked
    (by rw [keys_orderTable, htable]; exact hnodup) hloop
  rw [keys_orderTable, htable, ← hall] at hperm
  have hold : ∀ d ∈ cs.repositories, rankOf order d.repositoryId = d.mergeOrder := fun d hd =>
    hresult.rankOf_eq (hkept _ (List.mem_map.mpr ⟨d, hd, rfl⟩))
  refine mergeOrdered_of_ranked hresult hperm.symm (fun d hd => ?_) (fun d hd dep hdep => ?_)
  · rw [hrepos] at hd
    rcases List.mem_append.mp hd with hd | hd
    · exact (hold d hd).symm
    · obtain ⟨item, -, hitem⟩ := forall₂_exists_left hfrom hd
      exact hitem.fields.2.2.1
  · rw [hrepos] at hd
    rcases List.mem_append.mp hd with hd | hd
    · obtain ⟨u, hu, hlt⟩ := hcs.dependencies d hd dep hdep
      obtain ⟨hmem, rfl⟩ := candidate?_eq_some.mp hu
      refine ⟨hperm.mem_iff.mpr ?_, by rw [hold u hmem, hold d hd]; exact hlt⟩
      rw [hall]
      exact List.mem_append_left _ (List.mem_map.mpr ⟨u, hmem, rfl⟩)
    · obtain ⟨item, hmem, hitem⟩ := forall₂_exists_left hfrom hd
      obtain ⟨hid, hdeps, -⟩ := hitem.fields
      rw [hid]
      refine hbefore (item.repositoryId, item.dependsOn) ?_ dep (hdeps ▸ hdep)
      rw [dependencyTable_of_nodup (List.nodup_append.mp hnodup).2.1]
      exact List.mem_map.mpr ⟨item, hmem, rfl⟩

theorem mergeOrders_of_step {r : UUID} {c : CandidateOp} {ds ds' : List RepositoryDelivery}
    (h : List.Forall₂ (CandidateStep r c) ds ds') :
    ds'.map (·.mergeOrder) = ds.map (·.mergeOrder) := by
  induction h with
  | nil => rfl
  | cons hd _ ih => rw [List.map_cons, List.map_cons, hd.frame.2.2, ih]

theorem MergeOrdered.of_step {cs cs' : ChangeSet} {r : UUID} {c : CandidateOp}
    (hcs : cs.MergeOrdered)
    (h : List.Forall₂ (CandidateStep r c) cs.repositories cs'.repositories) :
    cs'.MergeOrdered := by
  constructor
  · rw [mergeOrders_of_step h, ← h.length_eq]
    exact hcs.bijective
  · intro d' hd' dep hdep
    obtain ⟨d, hd, hstep⟩ := forall₂_exists_left h hd'
    obtain ⟨u, hu, hlt⟩ := hcs.dependencies d hd dep (hstep.frame.2.1 ▸ hdep)
    obtain ⟨u', hu', hstep'⟩ := candidate?_of_step hu h
    refine ⟨u', hu', ?_⟩
    rw [hstep.frame.2.2, hstep'.frame.2.2]
    exact hlt

theorem ordered_of_same {cs cs' : ChangeSet} (hcs : cs.MergeOrdered ∧ cs.IsMergeCursor)
    (hrepos : cs'.repositories = cs.repositories) (hcursor : cs'.mergeCursor = cs.mergeCursor) :
    cs'.MergeOrdered ∧ cs'.IsMergeCursor := by
  refine ⟨⟨?_, ?_⟩, ?_⟩
  · rw [hrepos]
    exact hcs.1.bijective
  · rw [hrepos]
    intro d hd dep hdep
    obtain ⟨u, hu, hlt⟩ := hcs.1.dependencies d hd dep hdep
    exact ⟨u, by rw [candidate?, hrepos]; exact hu, hlt⟩
  · rw [IsMergeCursor, hrepos, hcursor]
    exact hcs.2

theorem recordCandidateRevision_cursor {cs cs' : ChangeSet} {r taskId : UUID}
    {previousHeadSha newHeadSha reason : String}
    (h : cs.recordCandidateRevision r taskId previousHeadSha newHeadSha reason = .ok cs') :
    cs'.IsMergeCursor := by
  have hpending : ∃ d ∈ cs'.repositories, d.status ≠ .merged := by
    obtain ⟨⟨d, d', hd, hrevise⟩, hsteps, -⟩ := recordCandidateRevision_ok h
    obtain ⟨hmem, hid⟩ := candidate?_eq_some.mp hd
    obtain ⟨d'', hd'', hstep⟩ := forall₂_exists_right hsteps hmem
    obtain rfl := Except.ok.inj ((hstep.of_eq hid).symm.trans hrevise)
    refine ⟨d'', hd'', ?_⟩
    rw [(RepositoryDelivery.revise_ok hrevise).2.2.2.1]
    split_ifs <;> decide
  have hcursor : cs'.mergeCursor = (pendingOrders cs'.repositories).min?.getD 0 := by
    unfold recordCandidateRevision at h
    split at h
    · cases h
    split at h
    · cases h
    dsimp only at h
    split at h
    case isFalse => cases h
    split at h
    case isFalse => cases h
    rw [← Except.ok.inj h]
  obtain ⟨d, hd, hstatus⟩ := hpending
  have hne : pendingOrders cs'.repositories ≠ [] := by
    refine List.ne_nil_of_mem (a := d.mergeOrder) (List.mem_map.mpr ⟨d, ?_, rfl⟩)
    exact List.mem_filter.mpr ⟨hd, decide_eq_true hstatus⟩
  obtain ⟨k, hk⟩ := Option.isSome_iff_exists.mp (List.isSome_min?_of_ne_nil hne)
  have hleast : IsCursor (fun d : RepositoryDelivery => d.mergeOrder)
      (fun d => d.status = .merged) cs'.repositories
      ((pendingOrders cs'.repositories).min?.getD cs'.repositories.length) := isCursor_min
  have hsame : cs'.mergeCursor = (pendingOrders cs'.repositories).min?.getD
      cs'.repositories.length := by
    rw [hcursor, hk]
    rfl
  rw [IsMergeCursor, hsame]
  exact hleast

/-- **One call** keeps the orders and moves the cursor with the statuses. -/
theorem mergeOrdered_step {nextId : UUID} {cs cs' : ChangeSet} {op : ChangeSetOp}
    (hcs : cs.MergeOrdered ∧ cs.IsMergeCursor) (h : ChangeSetStep nextId cs cs' op) :
    cs'.MergeOrdered ∧ cs'.IsMergeCursor := by
  cases h with
  | candidate call upstream step changed written =>
    rw [← (withRepositories_ok written).1] at step
    exact ⟨hcs.1.of_step step, withRepositories_cursor written⟩
  | append fresh created written =>
    exact ⟨mergeOrdered_appended hcs.1 created written, appendRepositories_cursor written⟩
  | governance created written =>
    refine ordered_of_same hcs (recordGovernance_ok written).1 ?_
    unfold recordGovernance at written
    split at written
    · cases written
    · split_ifs at written
      rw [← Except.ok.inj written]
  | revision written =>
    exact ⟨hcs.1.of_step (recordCandidateRevision_ok written).2.1,
      recordCandidateRevision_cursor written⟩
  | recovery written =>
    rw [written]
    exact ordered_of_same hcs rfl rfl
  | recoveryAction written =>
    refine ordered_of_same hcs (recordRecoveryAction_ok written).2.2.1 ?_
    unfold recordRecoveryAction at written
    split_ifs at written
    obtain ⟨plans, -, written⟩ := bind_ok written
    split at written
    · cases written
    · rw [← Except.ok.inj written]

/-! ## The gate -/

theorem mergeGate_allowed {ports : MergeGatePorts} {cs : ChangeSet} {r : UUID}
    {decision : MergeGateDecision} (h : cs.mergeGate ports r = .ok decision)
    (hallowed : decision.allowed = true) :
    ∃ d, cs.candidate? r = some d ∧ d.status = .readyToMerge ∧ cs.unmetUpstreams d = .ok [] ∧
      d.mergeOrder ≤ cs.mergeCursor := by
  obtain ⟨d, hd, h⟩ := bind_ok h
  obtain ⟨upstream, hupstream, h⟩ := bind_ok h
  obtain ⟨unmet, hunmet, hnamed⟩ := bind_ok hupstream
  rw [← Except.ok.inj h] at hallowed
  simp only [List.isEmpty_iff, List.append_eq_nil_iff] at hallowed
  obtain ⟨⟨⟨⟨⟨⟨⟨⟨hconflict, hready⟩, hup⟩, hcursor⟩, -⟩, -⟩, -⟩, -⟩, -⟩ := hallowed
  refine ⟨d, repository_ok.mp hd, ?_, ?_, ?_⟩
  · by_contra hstatus
    simp [readinessReasons, hstatus] at hready
  · rw [hup] at hnamed
    rw [hunmet, List.map_eq_nil_iff.mp (Except.ok.inj hnamed)]
  · by_contra hlater
    have hwaiting : d.mergeOrder > cs.mergeCursor := by omega
    rw [cursorReasons, hconflict, hready, hup, if_pos ⟨hwaiting, by simp⟩] at hcursor
    cases hcursor

/-- What an allowed gate says of its candidate. -/
def GateSound (cs : ChangeSet) (r : UUID) : Prop :=
  ∃ d, cs.candidate? r = some d ∧ d.status = .readyToMerge ∧ d.mergeOrder = cs.mergeCursor ∧
    (∀ u ∈ cs.repositories, u.mergeOrder < d.mergeOrder → u.status = .merged) ∧
    ∀ dep ∈ d.dependsOn, ∃ u, cs.candidate? dep = some u ∧ u.status = .merged

/-- **An allowed gate** stands at the cursor: everything before it is merged. -/
theorem gateSound_of_allowed {ports : MergeGatePorts} {cs : ChangeSet} {r : UUID}
    (hcs : cs.MergeOrdered ∧ cs.IsMergeCursor) {decision : MergeGateDecision}
    (h : cs.mergeGate ports r = .ok decision) (hallowed : decision.allowed = true) :
    cs.GateSound r := by
  obtain ⟨d, hd, hready, -, hcursor⟩ := mergeGate_allowed h hallowed
  obtain ⟨hmem, -⟩ := candidate?_eq_some.mp hd
  have hpending : ¬ d.status = .merged := by
    rw [hready]
    decide
  have horder : d.mergeOrder = cs.mergeCursor := hcs.2.rank_eq hmem hpending hcursor
  have hearlier : ∀ u ∈ cs.repositories, u.mergeOrder < d.mergeOrder → u.status = .merged := by
    intro u hu hlt
    exact hcs.2.done_of_lt hu (horder ▸ hlt)
  refine ⟨d, hd, hready, horder, hearlier, fun dep hdep => ?_⟩
  obtain ⟨u, hu, hlt⟩ := hcs.1.dependencies d hmem dep hdep
  exact ⟨u, hu, hearlier u (candidate?_eq_some.mp hu).1 hlt⟩

theorem GateSound.unique {cs : ChangeSet} (hcs : cs.MergeOrdered) {r r' : UUID}
    (h : cs.GateSound r) (h' : cs.GateSound r') : r' = r := by
  obtain ⟨d, hd, -, horder, -⟩ := h
  obtain ⟨d', hd', -, horder', -⟩ := h'
  obtain ⟨hmem, rfl⟩ := candidate?_eq_some.mp hd
  obtain ⟨hmem', rfl⟩ := candidate?_eq_some.mp hd'
  have hnodup : (cs.repositories.map (·.mergeOrder)).Nodup :=
    hcs.bijective.nodup_iff.mpr List.nodup_range
  rw [List.inj_on_of_nodup_map hnodup hmem' hmem (horder'.trans horder.symm)]

end ChangeSet

/-- **The merge gate is sound and unique.** In every store a run of the service reaches, the merge
orders of every ChangeSet are a bijection onto the numbers below its count with dependencies first,
its cursor is the least order of an unmerged candidate, and a repository the gate allows is ready,
stands at the cursor with everything before it merged, and is the only one the gate allows. -/
theorem merge_gate_sound (fingerprint : PrepareChangeSetCommand → String)
    (ops : List DeliveryOp) :
    ∀ st ∈ Runs.states (Runs.attempt (DeliveryService.apply fingerprint)) {} ops,
      ∀ cs ∈ st.items, cs.MergeOrdered ∧ cs.IsMergeCursor ∧
        ∀ ports r, gateAllows ports st cs.id r = true → cs.GateSound r ∧
          ∀ ports' r', gateAllows ports' st cs.id r' = true → r' = r := by
  intro st hst cs hcs
  have hordered : cs.MergeOrdered ∧ cs.IsMergeCursor :=
    DeliveryService.items_states fingerprint (fun _ _ _ h => ChangeSet.mergeOrdered_prepared h)
      (fun _ _ _ _ hcs h => ChangeSet.mergeOrdered_step hcs h) ops st hst cs hcs
  have hw := DeliveryService.wellFormed_states fingerprint ops st hst
  have hget : st.get cs.id = some cs :=
    (ChangeSetStore.get_eq_some hw.ids_nodup).mpr ⟨hcs, rfl⟩
  have hsound : ∀ ports r, gateAllows ports st cs.id r = true → cs.GateSound r := by
    intro ports r hallowed
    rw [gateAllows, DeliveryService.evaluateMergeGate, DeliveryService.required, hget] at hallowed
    split at hallowed
    · rename_i decision hdecision
      exact ChangeSet.gateSound_of_allowed hordered hdecision hallowed
    · cases hallowed
  refine ⟨hordered.1, hordered.2, fun ports r hallowed => ⟨hsound ports r hallowed, ?_⟩⟩
  intro ports' r' hallowed'
  exact (hsound ports r hallowed).unique hordered.1 (hsound ports' r' hallowed')

/-- The sample candidate up to its CI result. -/
def readyServiceRun : List DeliveryOp :=
  [.prepare samplePrepare "key",
    .change (.observePullRequest ⟨0, 10, 1, "url", "aaaaaaaaaaaaaaaaaaaaaaaaaaaaaaaaaaaaaaaa"⟩),
    .change (.observeCi ⟨0, 10, true, "run", "", ""⟩)]

/-- A run reaches a ChangeSet with a candidate the gate allows, and the gate is sound there. -/
theorem merge_gate_sound_sample :
    ∃ cs ∈ (readyServiceRun.foldl (Runs.attempt (DeliveryService.apply fun _ => "")) {}).items,
      gateAllows {} (readyServiceRun.foldl (Runs.attempt (DeliveryService.apply fun _ => "")) {})
        cs.id 10 = true ∧ cs.GateSound 10 := by
  have hstored : ((readyServiceRun.foldl (Runs.attempt (DeliveryService.apply fun _ => ""))
      {}).get 0).isSome = true := by decide
  have hallowed : gateAllows {} (readyServiceRun.foldl
      (Runs.attempt (DeliveryService.apply fun _ => "")) {}) 0 10 = true := by decide
  obtain ⟨cs, hget⟩ := Option.isSome_iff_exists.mp hstored
  obtain ⟨hmem, hid⟩ := ChangeSetStore.mem_of_get hget
  have hcs : gateAllows {} (readyServiceRun.foldl
      (Runs.attempt (DeliveryService.apply fun _ => "")) {}) cs.id 10 = true := by
    rw [hid]
    exact hallowed
  refine ⟨cs, hmem, hcs, ?_⟩
  exact ((merge_gate_sound (fun _ => "") readyServiceRun _ (Runs.foldl_mem_states _ _) cs
    hmem).2.2 {} 10 hcs).1

end Delivery
end RepoMesh
