/-
# Rows under a key

Lists of rows told apart by a key: finding a row, writing one in place, adding a new one.
-/
import Mathlib.Data.List.Nodup
import Mathlib.Data.Set.Insert
import Mathlib.Data.List.Sort

namespace RepoMesh
namespace Keyed

universe u v

variable {α : Type u} {κ : Type v} [DecidableEq κ]

/-- The row under a key. -/
def find (key : α → κ) (rows : List α) (k : κ) : Option α := rows.find? fun r => key r == k

/-- Write the row under a key. -/
def write (key : α → κ) (rows : List α) (k : κ) (update : α → α) : List α :=
  rows.map fun r => if key r = k then update r else r

variable {key : α → κ} {rows : List α} {k : κ} {update : α → α}

theorem mem_of_find {r : α} (h : find key rows k = some r) : r ∈ rows ∧ key r = k :=
  ⟨List.mem_of_find?_eq_some h, by simpa using List.find?_some h⟩

/-- **Finding.** With distinct keys the row found is the row listed under the key. -/
theorem find_eq_some (hnd : (rows.map key).Nodup) {r : α} :
    find key rows k = some r ↔ r ∈ rows ∧ key r = k := by
  constructor
  · exact mem_of_find
  · rintro ⟨hr, rfl⟩
    obtain ⟨r', hr'⟩ := Option.isSome_iff_exists.mp
      (List.find?_isSome.mpr ⟨r, hr, by simp⟩ : (find key rows (key r)).isSome)
    have hfound : find key rows (key r) = some r' := hr'
    obtain ⟨hmem, hkey⟩ := mem_of_find hfound
    rw [hfound, List.inj_on_of_nodup_map hnd hmem hr hkey]

theorem find_eq_none : find key rows k = none ↔ ∀ r ∈ rows, key r ≠ k := by
  simp [find]

theorem filter_eq (hnd : (rows.map key).Nodup) :
    (rows.filter fun r => key r == k) = (find key rows k).toList := by
  induction rows with
  | nil => rfl
  | cons r rows ih =>
    rw [List.map_cons, List.nodup_cons] at hnd
    have ih' : (rows.filter fun r => key r == k) = (rows.find? fun r => key r == k).toList :=
      ih hnd.2
    by_cases hr : key r = k
    · have hnone : (rows.filter fun r => key r == k) = [] := by
        rw [List.filter_eq_nil_iff]
        intro s hs hsk
        exact hnd.1 (List.mem_map.mpr ⟨s, hs, (beq_iff_eq.mp hsk).trans hr.symm⟩)
      simp [find, hr, hnone]
    · simpa [find, hr] using ih'

theorem keys_write (hkey : ∀ r, key r = k → key (update r) = k) :
    (write key rows k update).map key = rows.map key := by
  rw [write, List.map_map]
  refine List.map_congr_left fun r _ => ?_
  show key (if key r = k then update r else r) = key r
  split_ifs with hr
  · exact (hkey r hr).trans hr.symm
  · rfl

theorem mem_write {r' : α} :
    r' ∈ write key rows k update ↔
      (∃ r ∈ rows, key r = k ∧ r' = update r) ∨ (r' ∈ rows ∧ key r' ≠ k) := by
  constructor
  · intro h
    obtain ⟨r, hr, rfl⟩ := List.mem_map.mp h
    by_cases hk : key r = k
    · rw [if_pos hk]; exact Or.inl ⟨r, hr, hk, rfl⟩
    · rw [if_neg hk]; exact Or.inr ⟨hr, hk⟩
  · rintro (⟨r, hr, hk, rfl⟩ | ⟨hr, hk⟩)
    · exact List.mem_map.mpr ⟨r, hr, if_pos hk⟩
    · exact List.mem_map.mpr ⟨r', hr, if_neg hk⟩

theorem foldl_write (hkey : ∀ r, key (update r) = key r) (htwice : ∀ r, update (update r) = update r)
    (ks : List κ) :
    ks.foldl (fun rows k => write key rows k update) rows =
      rows.map fun r => if key r ∈ ks then update r else r := by
  induction ks generalizing rows with
  | nil => simp
  | cons k ks ih =>
    rw [List.foldl_cons, ih, write, List.map_map]
    refine List.map_congr_left fun r _ => ?_
    by_cases hk : key r = k
    · simp [hk, hkey, htwice]
    · simp [hk]

theorem find_write_self (hkey : ∀ r, key r = k → key (update r) = k) :
    find key (write key rows k update) k = (find key rows k).map update := by
  induction rows with
  | nil => rfl
  | cons r rows ih =>
    by_cases hr : key r = k
    · simp [find, write, hr, hkey r hr]
    · have ih' : (write key rows k update).find? (fun r => key r == k) =
          (rows.find? fun r => key r == k).map update := ih
      simpa [find, write, hr] using ih'

theorem find_write_of_ne (hkey : ∀ r, key r = k → key (update r) = k) {k' : κ} (hne : k' ≠ k) :
    find key (write key rows k update) k' = find key rows k' := by
  induction rows with
  | nil => rfl
  | cons r rows ih =>
    have ih' : (write key rows k update).find? (fun r => key r == k') =
        rows.find? fun r => key r == k' := ih
    by_cases hr : key r = k
    · simpa [find, write, hr, hkey r hr, Ne.symm hne] using ih'
    · by_cases hk : key r = k'
      · simp [find, write, hk, hne]
      · simpa [find, write, hr, hk] using ih'

theorem find_map {f : α → α} (hkey : ∀ r ∈ rows, key (f r) = key r) :
    find key (rows.map f) k = (find key rows k).map f := by
  induction rows with
  | nil => rfl
  | cons r rows ih =>
    have ih' : (rows.map f).find? (fun r => key r == k) =
        (rows.find? fun r => key r == k).map f := ih fun r' hr' => hkey r' (by simp [hr'])
    by_cases hr : key r = k
    · simp [find, hr, hkey r (by simp)]
    · have hf : key (f r) ≠ k := by rw [hkey r (by simp)]; exact hr
      simpa [find, hr, hf] using ih'

omit [DecidableEq κ] in
theorem nodup_append (hnd : (rows.map key).Nodup) {r : α} (hnew : ∀ s ∈ rows, key s ≠ key r) :
    ((rows ++ [r]).map key).Nodup := by
  rw [List.map_append, List.nodup_append]
  refine ⟨hnd, by simp, ?_⟩
  rintro a ha b hb rfl
  obtain ⟨s, hs, hsa⟩ := List.mem_map.mp ha
  rw [List.map_singleton, List.mem_singleton] at hb
  exact hnew s hs (hsa.trans hb)

theorem find_append_self {r : α} (hnew : ∀ s ∈ rows, key s ≠ key r) :
    find key (rows ++ [r]) (key r) = some r := by
  have hnone : find key rows (key r) = none := find_eq_none.mpr hnew
  rw [find] at hnone
  simp [find, List.find?_append, hnone]

theorem find_append_of_ne {r : α} {k' : κ} (hne : key r ≠ k') :
    find key (rows ++ [r]) k' = find key rows k' := by
  simp [find, List.find?_append, hne]

/-- List a new row, unless its key is listed already. -/
def insertNew (key : α → κ) (rows : List α) (r : α) : List α :=
  if key r ∈ rows.map key then rows else rows ++ [r]

theorem mem_insertNew {r s : α} (h : s ∈ insertNew key rows r) : s ∈ rows ∨ s = r := by
  unfold insertNew at h
  split_ifs at h
  · exact Or.inl h
  · simpa using h

theorem nodup_foldl_insertNew {rs : List α} (hnd : (rows.map key).Nodup) :
    ((rs.foldl (insertNew key) rows).map key).Nodup := by
  induction rs generalizing rows with
  | nil => exact hnd
  | cons r rs ih =>
    rw [List.foldl_cons]
    refine ih ?_
    unfold insertNew
    split_ifs with h
    · exact hnd
    · exact nodup_append hnd fun s hs heq => h (heq ▸ List.mem_map_of_mem hs)

theorem mem_keys_foldl_insertNew {rs : List α} :
    k ∈ (rs.foldl (insertNew key) rows).map key ↔ k ∈ rows.map key ∨ k ∈ rs.map key := by
  induction rs generalizing rows with
  | nil => simp
  | cons r rs ih =>
    have hstep : k ∈ (insertNew key rows r).map key ↔ k ∈ rows.map key ∨ k = key r := by
      unfold insertNew
      split_ifs with h
      · exact ⟨Or.inl, fun hk => hk.elim id fun hkr => hkr ▸ h⟩
      · simp
    rw [List.foldl_cons, ih, hstep, List.map_cons, List.mem_cons, or_assoc]

theorem mem_foldl_insertNew {rs : List α} {s : α} (h : s ∈ rs.foldl (insertNew key) rows) :
    s ∈ rows ∨ s ∈ rs := by
  induction rs generalizing rows with
  | nil => exact Or.inl h
  | cons r rs ih =>
    rcases ih h with hold | hnew
    · rcases mem_insertNew hold with hrows | rfl
      · exact Or.inl hrows
      · exact Or.inr List.mem_cons_self
    · exact Or.inr (List.mem_cons_of_mem _ hnew)

theorem filter_foldl_insertNew {p : α → Bool} {rs : List α} (h : ∀ r ∈ rs, p r = false) :
    (rs.foldl (insertNew key) rows).filter p = rows.filter p := by
  induction rs generalizing rows with
  | nil => rfl
  | cons r rs ih =>
    have hr : p r = false := h r (by simp)
    rw [List.foldl_cons, ih fun s hs => h s (List.mem_cons_of_mem _ hs), insertNew]
    split
    · rfl
    · simp [hr]

theorem find_append {rows' : List α} :
    find key (rows ++ rows') k = (find key rows k).or (find key rows' k) := List.find?_append

theorem find_foldl_insertNew {rs : List α} :
    find key (rs.foldl (insertNew key) rows) k = (find key rows k).or (find key rs k) := by
  induction rs generalizing rows with
  | nil => simp [find]
  | cons r rs ih =>
    rw [List.foldl_cons, ih]
    by_cases hlisted : key r ∈ rows.map key
    · obtain ⟨s, hs, hkey⟩ := List.mem_map.mp hlisted
      rw [insertNew, if_pos hlisted]
      cases hfind : find key rows k with
      | some s => rfl
      | none =>
        have hne : key r ≠ k := fun hr => find_eq_none.mp hfind s hs (hkey.trans hr)
        simp [find, hne]
    · rw [insertNew, if_neg hlisted, find, List.find?_append, Option.or_assoc]
      congr 1
      by_cases hr : key r = k <;> simp [find, hr]

theorem subset_foldl_insertNew {rs : List α} {s : α} (h : s ∈ rows) :
    s ∈ rs.foldl (insertNew key) rows := by
  induction rs generalizing rows with
  | nil => exact h
  | cons r rs ih =>
    refine ih ?_
    unfold insertNew
    split_ifs
    · exact h
    · exact List.mem_append_left _ h

theorem prefix_append_filter {rs : List α} (h : rows <+: rs) (hnd : (rs.map key).Nodup) :
    rows ++ rs.filter (fun r => key r ∉ rows.map key) = rs := by
  obtain ⟨rest, rfl⟩ := h
  rw [List.map_append] at hnd
  have hold : rows.filter (fun r => key r ∉ rows.map key) = [] := by
    refine List.filter_eq_nil_iff.mpr fun r hr => ?_
    simp only [decide_eq_true_eq, not_not]
    exact List.mem_map_of_mem hr
  have hnew : rest.filter (fun r => key r ∉ rows.map key) = rest := by
    refine List.filter_eq_self.mpr fun r hr => decide_eq_true fun hmem => ?_
    exact (List.nodup_append.mp hnd).2.2 _ hmem _ (List.mem_map_of_mem hr) rfl
  rw [List.filter_append, hold, hnew, List.nil_append]

/-- **Listing several rows** adds those whose keys are new, in their order. -/
theorem foldl_insertNew {rs : List α} (hnd : (rs.map key).Nodup) :
    rs.foldl (insertNew key) rows = rows ++ rs.filter fun r => decide (key r ∉ rows.map key) := by
  induction rs generalizing rows with
  | nil => simp
  | cons r rs ih =>
    obtain ⟨hfresh, hnd'⟩ := List.nodup_cons.mp hnd
    rw [List.foldl_cons, ih hnd']
    by_cases hr : key r ∈ rows.map key
    · have hstep : insertNew key rows r = rows := if_pos hr
      rw [hstep, List.filter_cons_of_neg (by simpa using hr)]
    · have hstep : insertNew key rows r = rows ++ [r] := if_neg hr
      rw [hstep, List.filter_cons_of_pos (by simpa using hr), List.append_assoc,
        List.singleton_append]
      congr 2
      refine List.filter_congr fun s hs => ?_
      have hne : key s ≠ key r := by
        intro hsr
        exact hfresh (hsr ▸ List.mem_map_of_mem hs)
      simp [hne]

theorem insertionSort_congr {r r' : α → α → Prop} [DecidableRel r] [DecidableRel r']
    (h : rows.Pairwise fun a b => r a b ↔ r' a b) : rows.insertionSort r = rows.insertionSort r' := by
  induction rows with
  | nil => rfl
  | cons a rows ih =>
    obtain ⟨ha, hrows⟩ := List.pairwise_cons.mp h
    have hinsert : ∀ l : List α, (∀ b ∈ l, r a b ↔ r' a b) →
        l.orderedInsert r a = l.orderedInsert r' a := by
      intro l hl
      induction l with
      | nil => rfl
      | cons b l ihl =>
        have hb : r a b ↔ r' a b := hl b (by simp)
        simp only [List.orderedInsert_cons, hb, ihl fun x hx => hl x (by simp [hx])]
    rw [List.insertionSort_cons, List.insertionSort_cons, ih hrows]
    refine hinsert _ fun b hb => ha b ?_
    rwa [List.mem_insertionSort] at hb

omit [DecidableEq κ] in
theorem eq_of_mem_iff [LinearOrder κ] {rows' : List α}
    (h : rows.Pairwise fun r s => key r < key s) (h' : rows'.Pairwise fun r s => key r < key s)
    (hmem : ∀ r, r ∈ rows ↔ r ∈ rows') : rows = rows' := by
  have hirrefl : Std.Irrefl fun r s : α => key r < key s := ⟨fun r => lt_irrefl _⟩
  have hantisymm : Std.Antisymm fun r s : α => key r < key s :=
    ⟨fun r s hlt hgt => absurd hgt (lt_asymm hlt)⟩
  exact h.eq_of_mem_iff h' hmem

/-! ## What a key first meant -/

section Meanings

variable (key)

/-- The meanings a register holds after a request: of two requests under one key it keeps the
first. -/
def register (T : Set α) (a : α) : Set α := T ∪ {b | b = a ∧ ∀ t ∈ T, key t ≠ key a}

/-- Every request of a list finds its key free, or registered with its own meaning. -/
def AllMeant (T : Set α) : List α → Prop
  | [] => True
  | a :: as => (∀ t ∈ T, key t = key a → t = a) ∧ AllMeant (register key T a) as

omit [DecidableEq κ] in
/-- **When keys keep their meaning.** Each request of a list finds its own meaning under its key
exactly when no two requests, and no request and registered meaning, share a key and differ. -/
theorem allMeant_iff {T : Set α} {as : List α} :
    AllMeant key T as ↔ (∀ t ∈ T, ∀ a ∈ as, key t = key a → t = a) ∧
      as.Pairwise fun a b => key a = key b → a = b := by
  induction as generalizing T with
  | nil => simp [AllMeant]
  | cons a as ih =>
    rw [AllMeant, ih, List.pairwise_cons]
    have hkept : ∀ t ∈ T, t ∈ register key T a := fun t ht => Or.inl ht
    constructor
    · rintro ⟨hfirst, hlater, hpairs⟩
      have ha : ∀ b ∈ as, key a = key b → a = b := by
        intro b hb hab
        by_cases hfree : ∀ t ∈ T, key t ≠ key a
        · exact hlater a (Or.inr ⟨rfl, hfree⟩) b hb hab
        · obtain ⟨t, htaken⟩ := not_forall.mp hfree
          obtain ⟨hmem, hkey⟩ := Classical.not_imp.mp htaken
          obtain rfl := hfirst t hmem (not_not.mp hkey)
          exact hlater t (hkept t hmem) b hb hab
      refine ⟨fun t ht b hb hkey => ?_, ha, hpairs⟩
      rcases List.mem_cons.mp hb with rfl | hb
      · exact hfirst t ht hkey
      · exact hlater t (hkept t ht) b hb hkey
    · rintro ⟨hall, ha, hpairs⟩
      refine ⟨fun t ht => hall t ht a (List.mem_cons_self ..), fun t ht b hb hkey => ?_, hpairs⟩
      rcases ht with ht | ⟨rfl, -⟩
      · exact hall t ht b (List.mem_cons_of_mem _ hb) hkey
      · exact ha b hb hkey

end Meanings

end Keyed
end RepoMesh
