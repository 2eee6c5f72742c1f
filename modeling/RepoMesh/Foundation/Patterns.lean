/-
# Patterns that backtrack

A regular expression as Python's `re` tries it: all ways in which it matches the front of a text, the
preferred one first, each with the groups it captured and what it leaves. Where what follows cannot
start inside a run, only the whole run is left to consider.
-/
import Mathlib.Data.List.TakeWhile
import Mathlib.Order.Basic

namespace RepoMesh
namespace Patterns

universe u

variable {α : Type u}

/-- One way to match: the captured groups, and the text after the match. -/
@[ext] structure Outcome (α : Type u) where
  groups : List (List α)
  rest : List α
  deriving DecidableEq

/-- A pattern: its ways to match the front of a text, by preference. -/
abbrev Pattern (α : Type u) := List α → List (Outcome α)

/-- One character of a class. -/
def one (p : α → Bool) : Pattern α
  | c :: cs => if p c then [⟨[], cs⟩] else []
  | [] => []

/-- `p*`, as many as possible first. -/
def many (p : α → Bool) : Pattern α
  | c :: cs => if p c then many p cs ++ [⟨[], c :: cs⟩] else [⟨[], c :: cs⟩]
  | [] => [⟨[], []⟩]

/-- One pattern after the other. -/
def seq (a b : Pattern α) : Pattern α := fun text =>
  (a text).flatMap fun o => (b o.rest).map fun o' => ⟨o.groups ++ o'.groups, o'.rest⟩

/-- Patterns in a row. -/
def chain : List (Pattern α) → Pattern α
  | [] => fun text => [⟨[], text⟩]
  | a :: as => seq a (chain as)

/-- `p+`. -/
def many1 (p : α → Bool) : Pattern α := seq (one p) (many p)

/-- `a?`, with a match first. -/
def maybe (a : Pattern α) : Pattern α := fun text => a text ++ [⟨[], text⟩]

/-- A group that captures what it matches. -/
def group (a : Pattern α) : Pattern α := fun text =>
  (a text).map fun o => ⟨text.take (text.length - o.rest.length) :: o.groups, o.rest⟩

/-- A text, literally. -/
def literal [DecidableEq α] (expected : List α) : Pattern α := fun text =>
  if expected.isPrefixOf text then [⟨[], text.drop expected.length⟩] else []

/-- The loop of `finditer`; every match takes a character at least. -/
def scan (a : Pattern α) : ℕ → List α → List (List (List α))
  | 0, _ => []
  | _ + 1, [] => []
  | rounds + 1, c :: cs =>
    match (a (c :: cs)).head? with
    | some o => o.groups :: scan a rounds o.rest
    | none => scan a rounds cs

/-- `finditer`: the groups of the matches, from left to right. -/
def findIter (a : Pattern α) (text : List α) : List (List (List α)) := scan a text.length text

/-! ## What is matched -/

section Membership

variable {a b k : Pattern α} {p : α → Bool} {text : List α} {o : Outcome α}

theorem mem_one : o ∈ one p text ↔ o.groups = [] ∧ ∃ c, p c = true ∧ text = c :: o.rest := by
  obtain ⟨groups, rest⟩ := o
  cases text with
  | nil => simp [one]
  | cons c cs =>
    by_cases hc : p c = true
    · simp only [one, if_pos hc, List.mem_singleton, Outcome.mk.injEq, List.cons.injEq]
      constructor
      · rintro ⟨rfl, rfl⟩
        exact ⟨rfl, c, hc, rfl, rfl⟩
      · rintro ⟨rfl, _, _, rfl, rfl⟩
        exact ⟨rfl, rfl⟩
    · simp only [one, if_neg hc, List.not_mem_nil, false_iff, List.cons.injEq]
      rintro ⟨-, c', hc', rfl, -⟩
      exact hc hc'

theorem mem_many : o ∈ many p text ↔
    o.groups = [] ∧ ∃ run, text = run ++ o.rest ∧ ∀ c ∈ run, p c = true := by
  obtain ⟨groups, rest⟩ := o
  induction text with
  | nil =>
    simp only [many, List.mem_singleton, Outcome.mk.injEq]
    constructor
    · rintro ⟨rfl, rfl⟩
      exact ⟨rfl, [], rfl, by simp⟩
    · rintro ⟨rfl, run, htext, -⟩
      obtain ⟨-, rfl⟩ := List.append_eq_nil_iff.mp htext.symm
      exact ⟨rfl, rfl⟩
  | cons c cs ih =>
    have hnone : (⟨groups, rest⟩ : Outcome α) = ⟨[], c :: cs⟩ →
        groups = [] ∧ ∃ run, c :: cs = run ++ rest ∧ ∀ c ∈ run, p c = true := by
      intro h
      obtain ⟨rfl, rfl⟩ := Outcome.mk.injEq .. ▸ h
      exact ⟨rfl, [], rfl, by simp⟩
    by_cases hc : p c = true
    · rw [many, if_pos hc, List.mem_append, ih, List.mem_singleton]
      constructor
      · rintro (⟨rfl, run, hrun, hp⟩ | h)
        · exact ⟨rfl, c :: run, by rw [hrun]; rfl, by simpa [hc] using hp⟩
        · exact hnone h
      · rintro ⟨hgroups, run, hrun, hp⟩
        have hgroups' : groups = [] := hgroups
        subst hgroups'
        cases run with
        | nil =>
          obtain rfl : c :: cs = rest := hrun
          exact .inr rfl
        | cons d run =>
          obtain ⟨rfl, hrest⟩ := List.cons.inj hrun
          exact .inl ⟨rfl, run, hrest, fun e he => hp e (List.mem_cons_of_mem _ he)⟩
    · rw [many, if_neg hc, List.mem_singleton]
      constructor
      · exact hnone
      · rintro ⟨hgroups, run, hrun, hp⟩
        have hgroups' : groups = [] := hgroups
        subst hgroups'
        cases run with
        | nil =>
          obtain rfl : c :: cs = rest := hrun
          rfl
        | cons d run =>
          obtain ⟨rfl, -⟩ := List.cons.inj hrun
          exact absurd (hp c List.mem_cons_self) hc

theorem mem_seq : o ∈ seq a b text ↔
    ∃ o₁ ∈ a text, ∃ o₂ ∈ b o₁.rest, o = ⟨o₁.groups ++ o₂.groups, o₂.rest⟩ := by
  simp [seq, List.mem_flatMap, eq_comm]

@[simp] theorem mem_chain_nil : o ∈ chain [] text ↔ o = ⟨[], text⟩ := List.mem_singleton

theorem mem_chain_cons {as : List (Pattern α)} : o ∈ chain (a :: as) text ↔
    ∃ o₁ ∈ a text, ∃ o₂ ∈ chain as o₁.rest, o = ⟨o₁.groups ++ o₂.groups, o₂.rest⟩ := mem_seq

theorem mem_many1 : o ∈ many1 p text ↔
    o.groups = [] ∧ ∃ run, run ≠ [] ∧ text = run ++ o.rest ∧ ∀ c ∈ run, p c = true := by
  obtain ⟨groups, rest⟩ := o
  rw [many1, mem_seq]
  constructor
  · rintro ⟨o₁, h₁, o₂, h₂, heq⟩
    obtain ⟨hg₁, c, hc, htext⟩ := mem_one.mp h₁
    obtain ⟨hg₂, run, hrun, hp⟩ := mem_many.mp h₂
    rw [hg₁, hg₂] at heq
    obtain ⟨rfl, rfl⟩ := Outcome.mk.injEq .. ▸ heq
    exact ⟨rfl, c :: run, by simp, by rw [htext, hrun]; rfl, by simpa [hc] using hp⟩
  · rintro ⟨hgroups, run, hne, htext, hp⟩
    obtain ⟨c, run, rfl⟩ := List.exists_cons_of_ne_nil hne
    refine ⟨⟨[], run ++ rest⟩, mem_one.mpr ⟨rfl, c, hp c List.mem_cons_self, htext⟩, ⟨[], rest⟩,
      mem_many.mpr ⟨rfl, run, rfl, fun d hd => hp d (List.mem_cons_of_mem _ hd)⟩, ?_⟩
    have hgroups' : groups = [] := hgroups
    rw [hgroups']
    rfl

theorem mem_maybe : o ∈ maybe a text ↔ o ∈ a text ∨ o = ⟨[], text⟩ := by
  simp [maybe]

theorem mem_literal [DecidableEq α] {expected : List α} :
    o ∈ literal expected text ↔ o.groups = [] ∧ text = expected ++ o.rest := by
  obtain ⟨groups, rest⟩ := o
  by_cases h : expected.isPrefixOf text = true
  · obtain ⟨rest', rfl⟩ := List.isPrefixOf_iff_prefix.mp h
    have hdrop : (expected ++ rest').drop expected.length = rest' := List.drop_left
    rw [literal, if_pos h, hdrop, List.mem_singleton, Outcome.mk.injEq, List.append_cancel_left_eq]
    exact and_congr_right fun _ => eq_comm
  · rw [literal, if_neg h]
    simp only [List.not_mem_nil, false_iff]
    rintro ⟨-, htext⟩
    exact h (List.isPrefixOf_iff_prefix.mpr ⟨rest, htext.symm⟩)

end Membership

/-! ## Matches that are determined -/

theorem split_unique {p : α → Bool} {front front' back back' : List α} {c c' : α}
    (hfront : ∀ d ∈ front, p d = false) (hfront' : ∀ d ∈ front', p d = false) (hc : p c = true)
    (hc' : p c' = true) (h : front ++ c :: back = front' ++ c' :: back') :
    front = front' ∧ c = c' ∧ back = back' := by
  induction front generalizing front' with
  | nil =>
    cases front' with
    | nil => exact ⟨rfl, List.cons.inj h⟩
    | cons d front' =>
      obtain ⟨rfl, -⟩ := List.cons.inj h
      simp [hfront' c List.mem_cons_self] at hc
  | cons e front ih =>
    cases front' with
    | nil =>
      obtain ⟨rfl, -⟩ := List.cons.inj h
      simp [hfront e List.mem_cons_self] at hc'
    | cons d front' =>
      obtain ⟨rfl, hrest⟩ := List.cons.inj h
      obtain ⟨rfl, hmore⟩ := ih (fun x hx => hfront x (List.mem_cons_of_mem _ hx))
        (fun x hx => hfront' x (List.mem_cons_of_mem _ hx)) hrest
      exact ⟨rfl, hmore⟩

theorem head?_eq_some {list : List (Outcome α)} {o : Outcome α} (hmem : o ∈ list)
    (honly : ∀ o' ∈ list, o' = o) : list.head? = some o := by
  cases list with
  | nil => cases hmem
  | cons first rest => rw [List.head?_cons, honly first List.mem_cons_self]

/-- The way a pattern prefers. -/
def Prefers (a : Pattern α) (text : List α) (o : Outcome α) : Prop := (a text).head? = some o

theorem prefers_one {p : α → Bool} {c : α} {cs : List α} (hc : p c = true) :
    Prefers (one p) (c :: cs) ⟨[], cs⟩ := by
  rw [Prefers, one, if_pos hc]
  rfl

theorem prefers_many {p : α → Bool} {run rest : List α} (hrun : ∀ c ∈ run, p c = true)
    (hrest : ∀ c ∈ rest.head?, p c = false) : Prefers (many p) (run ++ rest) ⟨[], rest⟩ := by
  induction run with
  | nil =>
    cases rest with
    | nil => rfl
    | cons c cs =>
      have hc : ¬ p c = true := by simpa using hrest c rfl
      rw [Prefers, List.nil_append, many, if_neg hc]
      rfl
  | cons c run ih =>
    have hmore := ih fun d hd => hrun d (List.mem_cons_of_mem _ hd)
    have hc : p c = true := hrun c List.mem_cons_self
    rw [Prefers, List.cons_append, many, if_pos hc, List.head?_append, hmore]
    rfl

theorem Prefers.seq {a b : Pattern α} {text : List α} {o o' : Outcome α} (ha : Prefers a text o)
    (hb : Prefers b o.rest o') : Prefers (seq a b) text ⟨o.groups ++ o'.groups, o'.rest⟩ := by
  rw [Prefers] at ha hb ⊢
  obtain ⟨more, hmore⟩ : ∃ more, a text = o :: more := List.head?_eq_some_iff.mp ha
  rw [Patterns.seq, hmore, List.flatMap_cons, List.head?_append, List.head?_map, hb]
  rfl

theorem Prefers.cons {a : Pattern α} {as : List (Pattern α)} {text : List α} {o o' : Outcome α}
    (ha : Prefers a text o) (has : Prefers (chain as) o.rest o') :
    Prefers (chain (a :: as)) text ⟨o.groups ++ o'.groups, o'.rest⟩ := ha.seq has

theorem prefers_nil (text : List α) : Prefers (chain []) text ⟨[], text⟩ := rfl

theorem prefers_many1 {p : α → Bool} {run rest : List α} (hne : run ≠ [])
    (hrun : ∀ c ∈ run, p c = true) (hrest : ∀ c ∈ rest.head?, p c = false) :
    Prefers (many1 p) (run ++ rest) ⟨[], rest⟩ := by
  obtain ⟨c, run, rfl⟩ := List.exists_cons_of_ne_nil hne
  exact (prefers_one (hrun c List.mem_cons_self)).seq
    (prefers_many (fun d hd => hrun d (List.mem_cons_of_mem _ hd)) hrest)

theorem Prefers.maybe {a : Pattern α} {text : List α} {o : Outcome α} (h : Prefers a text o) :
    Prefers (maybe a) text o := by
  rw [Prefers] at h ⊢
  rw [Patterns.maybe, List.head?_append, h]
  rfl

theorem prefers_maybe_none {a : Pattern α} {text : List α} (h : a text = []) :
    Prefers (maybe a) text ⟨[], text⟩ := by
  rw [Prefers, Patterns.maybe, h]
  rfl

theorem prefers_literal [DecidableEq α] (expected rest : List α) :
    Prefers (literal expected) (expected ++ rest) ⟨[], rest⟩ := by
  have hfront : expected.isPrefixOf (expected ++ rest) = true := by simp
  rw [Prefers, literal, if_pos hfront, List.drop_left]
  rfl

theorem Prefers.group {a : Pattern α} {front rest : List α} {groups : List (List α)}
    (h : Prefers a (front ++ rest) ⟨groups, rest⟩) :
    Prefers (group a) (front ++ rest) ⟨front :: groups, rest⟩ := by
  rw [Prefers] at h ⊢
  rw [Patterns.group, List.head?_map, h]
  simp

/-- A match leaves an end of the text. -/
def Within (a : Pattern α) : Prop := ∀ text, ∀ o ∈ a text, o.rest <:+ text

theorem within_one (p : α → Bool) : Within (one p) := by
  intro text o ho
  obtain ⟨-, c, -, htext⟩ := mem_one.mp ho
  exact ⟨[c], htext.symm⟩

theorem within_many (p : α → Bool) : Within (many p) := by
  intro text o ho
  obtain ⟨-, run, htext, -⟩ := mem_many.mp ho
  exact ⟨run, htext.symm⟩

theorem Within.seq {a b : Pattern α} (ha : Within a) (hb : Within b) : Within (seq a b) := by
  intro text o ho
  obtain ⟨o₁, h₁, o₂, h₂, rfl⟩ := mem_seq.mp ho
  exact (hb _ _ h₂).trans (ha _ _ h₁)

theorem within_chain {as : List (Pattern α)} (h : ∀ a ∈ as, Within a) : Within (chain as) := by
  induction as with
  | nil =>
    intro text o ho
    obtain rfl := List.mem_singleton.mp ho
    exact List.suffix_rfl
  | cons a as ih =>
    exact (h a List.mem_cons_self).seq (ih fun b hb => h b (List.mem_cons_of_mem _ hb))

theorem within_many1 (p : α → Bool) : Within (many1 p) := (within_one p).seq (within_many p)

theorem within_maybe {a : Pattern α} (h : Within a) : Within (maybe a) := by
  intro text o ho
  rcases mem_maybe.mp ho with ho | rfl
  · exact h text o ho
  · exact List.suffix_rfl

theorem within_literal [DecidableEq α] (expected : List α) : Within (literal expected) := by
  intro text o ho
  obtain ⟨-, htext⟩ := mem_literal.mp ho
  exact ⟨expected, htext.symm⟩

theorem Within.group {a : Pattern α} (h : Within a) : Within (group a) := by
  intro text o ho
  obtain ⟨o', ho', rfl⟩ := List.mem_map.mp ho
  exact h text o' ho'

theorem mem_group {a : Pattern α} (ha : Within a) {text : List α} {o : Outcome α} :
    o ∈ group a text ↔ ∃ front groups, text = front ++ o.rest ∧ o.groups = front :: groups ∧
      ⟨groups, o.rest⟩ ∈ a text := by
  obtain ⟨groups, rest⟩ := o
  have htake : ∀ front rest : List α, (front ++ rest).take ((front ++ rest).length - rest.length) =
      front := by
    intro front rest
    rw [List.length_append, Nat.add_sub_cancel, List.take_left]
  rw [group, List.mem_map]
  constructor
  · rintro ⟨o', ho', heq⟩
    obtain ⟨front, hfront⟩ := ha text o' ho'
    obtain ⟨rfl, rfl⟩ := Outcome.mk.injEq .. ▸ heq
    refine ⟨front, o'.groups, hfront.symm, ?_, ho'⟩
    rw [← hfront, htake]
  · rintro ⟨front, inner, hfront, hgroups, hmem⟩
    have hgroups' : groups = front :: inner := hgroups
    have hfront' : text = front ++ rest := hfront
    refine ⟨⟨inner, rest⟩, hmem, ?_⟩
    rw [hgroups', hfront', htake]

/-- Every match takes a character at least. -/
def Shrinks (a : Pattern α) : Prop := ∀ text, ∀ o ∈ a text, o.rest.length < text.length

theorem shrinks_one (p : α → Bool) : Shrinks (one p) := by
  intro text o ho
  obtain ⟨-, c, -, rfl⟩ := mem_one.mp ho
  simp

theorem Shrinks.seq {a b : Pattern α} (ha : Shrinks a) (hb : Within b) : Shrinks (seq a b) := by
  intro text o ho
  obtain ⟨o₁, h₁, o₂, h₂, rfl⟩ := mem_seq.mp ho
  have hrest := (hb _ _ h₂).length_le
  have hfirst := ha _ _ h₁
  simp only at hrest ⊢
  omega

theorem shrinks_many1 (p : α → Bool) : Shrinks (many1 p) := (shrinks_one p).seq (within_many p)

theorem shrinks_literal [DecidableEq α] {expected : List α} (hne : expected ≠ []) :
    Shrinks (literal expected) := by
  intro text o ho
  obtain ⟨-, rfl⟩ := mem_literal.mp ho
  have hpos := List.length_pos_iff.mpr hne
  rw [List.length_append]
  omega

theorem Shrinks.group {a : Pattern α} (h : Shrinks a) : Shrinks (group a) := by
  intro text o ho
  obtain ⟨o', ho', rfl⟩ := List.mem_map.mp ho
  exact h text o' ho'

theorem scan_eq {a : Pattern α} (ha : Shrinks a) {rounds : ℕ} {text : List α}
    (h : text.length ≤ rounds) : scan a rounds text = findIter a text := by
  rw [findIter]
  induction rounds using Nat.strong_induction_on generalizing text with
  | _ rounds ih =>
    cases text with
    | nil => cases rounds <;> rfl
    | cons c cs =>
      obtain ⟨rounds, rfl⟩ : ∃ n, rounds = n + 1 := ⟨rounds - 1, by simp at h; omega⟩
      rw [List.length_cons] at h ⊢
      rw [scan, scan]
      cases hhead : (a (c :: cs)).head? with
      | none =>
        simp only
        exact ih rounds (by omega) (by omega)
      | some o =>
        have hrest := ha _ o (List.mem_of_head? hhead)
        rw [List.length_cons] at hrest
        have hmore : scan a rounds o.rest = scan a o.rest.length o.rest :=
          ih rounds (by omega) (by omega)
        have hless : scan a cs.length o.rest = scan a o.rest.length o.rest :=
          ih cs.length (by omega) (by omega)
        simp only
        rw [hmore, hless]

theorem findIter_none {a : Pattern α} {c : α} {cs : List α} (h : a (c :: cs) = []) :
    findIter a (c :: cs) = findIter a cs := by
  rw [findIter, List.length_cons, scan, h]
  rfl

theorem findIter_some {a : Pattern α} (ha : Shrinks a) {text : List α} {o : Outcome α}
    (h : (a text).head? = some o) : findIter a text = o.groups :: findIter a o.rest := by
  have hlt := ha _ o (List.mem_of_head? h)
  cases text with
  | nil => simp at hlt
  | cons c cs =>
    rw [List.length_cons] at hlt
    rw [findIter, List.length_cons, scan, h]
    simp only
    rw [scan_eq ha (by omega)]

theorem findIter_append {a : Pattern α} {front rest : List α}
    (h : ∀ before after, front = before ++ after → after ≠ [] → a (after ++ rest) = []) :
    findIter a (front ++ rest) = findIter a rest := by
  induction front with
  | nil => rfl
  | cons c cs ih =>
    have hnone : a (c :: (cs ++ rest)) = [] := h [] (c :: cs) rfl (by simp)
    rw [List.cons_append, findIter_none hnone]
    exact ih fun before after hsplit hne => h (c :: before) after (by rw [hsplit]; rfl) hne

end Patterns
end RepoMesh
