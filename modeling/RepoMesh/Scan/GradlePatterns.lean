/-
# What the Gradle patterns match

A match of either pattern begins with a word and has a quote; before the first quote of a named match
stand `group` and a colon, and after the first quote of the other stand two colons before the next.
Everything else is passed over.
-/
import RepoMesh.Scan.DepParsers

namespace RepoMesh
namespace Scan

open Text Patterns

/-! ## Characters -/

theorem isQuote_iff {c : Char} : isQuote c = true ↔ c = Char.ofNat 34 ∨ c = Char.ofNat 39 := by
  simp only [isQuote, Bool.or_eq_true, beq_iff_eq]
  constructor
  · rintro (h | h)
    · exact .inl (by rw [← h, Char.ofNat_toNat])
    · exact .inr (by rw [← h, Char.ofNat_toNat])
  · rintro (rfl | rfl)
    · exact .inl (by decide)
    · exact .inr (by decide)

theorem isSpace_of_isQuote {c : Char} (h : isQuote c = true) : isSpace c = false := by
  rcases isQuote_iff.mp h with rfl | rfl <;> decide

theorem isQuote_of_isSpace {c : Char} (h : isSpace c = true) : isQuote c = false := by
  rw [Bool.eq_false_iff]
  intro hc
  simp [isSpace_of_isQuote hc] at h

theorem isPlain_iff {c : Char} : isPlain c = true ↔ isQuote c = false ∧ c ≠ '$' := by
  simp [isPlain]

theorem mem_one_eq {text : List Char} {c : Char} {o : Outcome Char} (h : o ∈ one (· == c) text) :
    text = c :: o.rest := by
  obtain ⟨-, d, hd, rfl⟩ := mem_one.mp h
  rw [beq_iff_eq.mp hd]

theorem within_coordinates : Within (chain [many1 isPlain, one (· == ':'), many1 isPlain,
    one (· == ':'), many1 isPlain]) := by
  refine within_chain ?_
  simp only [List.mem_cons, List.not_mem_nil, or_false, forall_eq_or_imp, forall_eq]
  exact ⟨within_many1 _, within_one _, within_many1 _, within_one _, within_many1 _⟩

theorem mem_coordinates {text : List Char} {o : Outcome Char}
    (h : o ∈ chain [many1 isPlain, one (· == ':'), many1 isPlain, one (· == ':'), many1 isPlain]
      text) :
    o.groups = [] ∧ ∃ coords, text = coords ++ o.rest ∧ (∀ c ∈ coords, isPlain c = true) ∧
      2 ≤ coords.count ':' := by
  simp only [mem_chain_cons, mem_chain_nil] at h
  obtain ⟨o₁, h₁, _, ⟨o₂, h₂, _, ⟨o₃, h₃, _, ⟨o₄, h₄, _, ⟨o₅, h₅, _, rfl, rfl⟩, rfl⟩, rfl⟩, rfl⟩,
    rfl⟩ := h
  obtain ⟨hg₁, run₁, -, ht₁, hrun₁⟩ := mem_many1.mp h₁
  obtain ⟨hg₃, run₃, -, ht₃, hrun₃⟩ := mem_many1.mp h₃
  obtain ⟨hg₅, run₅, -, ht₅, hrun₅⟩ := mem_many1.mp h₅
  have ht₂ := mem_one_eq h₂
  have ht₄ := mem_one_eq h₄
  have hg₂ := (mem_one.mp h₂).1
  have hg₄ := (mem_one.mp h₄).1
  have hcolon : isPlain ':' = true := by decide
  refine ⟨by simp [hg₁, hg₂, hg₃, hg₄, hg₅], run₁ ++ ':' :: (run₃ ++ ':' :: run₅), ?_, ?_, ?_⟩
  · simp only [ht₁, ht₂, ht₃, ht₄, ht₅, List.append_assoc, List.cons_append]
  · intro c hc
    simp only [List.mem_append, List.mem_cons] at hc
    rcases hc with hc | rfl | hc | rfl | hc
    · exact hrun₁ c hc
    · exact hcolon
    · exact hrun₃ c hc
    · exact hcolon
    · exact hrun₅ c hc
  · simp only [List.count_append, List.count_cons_self]
    omega

theorem getLast?_colon {front gap : List Char} (hgap : ∀ c ∈ gap, isSpace c = true) :
    ∀ c ∈ (front ++ ':' :: gap).getLast?, c = ':' ∨ isSpace c = true := by
  intro c hc
  rw [List.getLast?_append_of_ne_nil _ (by simp)] at hc
  rcases List.mem_cons.mp (List.mem_of_getLast? hc) with rfl | hmem
  · exact .inl rfl
  · exact .inr (hgap c hmem)

section Words

variable [WordChars]

theorem isWord_of_isQuote {c : Char} (h : isQuote c = true) : WordChars.isWord c = false := by
  rcases isQuote_iff.mp h with rfl | rfl
  · rw [WordChars.ascii _ (by decide)]
    decide
  · rw [WordChars.ascii _ (by decide)]
    decide

theorem isQuote_of_isWord {c : Char} (h : WordChars.isWord c = true) : isQuote c = false := by
  rw [Bool.eq_false_iff]
  intro hc
  simp [isWord_of_isQuote hc] at h

/-! ## Where a match begins -/

/-- What stands before the first quote of a match: it begins with a word, and has no colon. -/
structure CoordCall (call : List Char) : Prop where
  chars : ∀ c ∈ call, WordChars.isWord c = true ∨ isSpace c = true ∨ c = '('
  begins : ∃ c more, call = c :: more ∧ WordChars.isWord c = true

theorem CoordCall.noQuote {call : List Char} (h : CoordCall call) : ∀ c ∈ call, isQuote c = false := by
  intro c hc
  rcases h.chars c hc with hword | hspace | rfl
  · exact isQuote_of_isWord hword
  · exact isQuote_of_isSpace hspace
  · decide

theorem CoordCall.noColon {call : List Char} (h : CoordCall call) : ':' ∉ call := by
  intro hc
  rcases h.chars _ hc with hword | hspace | heq
  · rw [WordChars.ascii _ (by decide)] at hword
    revert hword
    decide
  · revert hspace
    decide
  · revert heq
    decide

theorem mem_gradleCoord {text : List Char} {o : Outcome Char} (h : o ∈ gradleCoord text) :
    ∃ call q coords q', CoordCall call ∧ isQuote q = true ∧ (∀ c ∈ coords, isPlain c = true) ∧
      2 ≤ coords.count ':' ∧ isQuote q' = true ∧ text = call ++ q :: (coords ++ q' :: o.rest) ∧
      ∃ config, o.groups = [config, coords] := by
  rw [gradleCoord] at h
  simp only [mem_chain_cons, mem_chain_nil] at h
  obtain ⟨o₁, h₁, _, ⟨o₂, h₂, _, ⟨o₃, h₃, _, ⟨o₄, h₄, _, ⟨o₅, h₅, _, ⟨o₆, h₆, _, ⟨o₇, h₇, _, rfl,
    rfl⟩, rfl⟩, rfl⟩, rfl⟩, rfl⟩, rfl⟩, rfl⟩ := h
  obtain ⟨config, g₁, ht₁, hg₁, hin₁⟩ := (mem_group (within_many1 _)).mp h₁
  obtain ⟨hg₁', word, hne, hword, hwords⟩ := mem_many1.mp hin₁
  obtain ⟨hg₂, gap, ht₂, hgap⟩ := mem_many.mp h₂
  obtain ⟨paren, ht₃, hparen, hg₃⟩ : ∃ paren, o₂.rest = paren ++ o₃.rest ∧
      (∀ c ∈ paren, c = '(') ∧ o₃.groups = [] := by
    rcases mem_maybe.mp h₃ with h₃ | rfl
    · exact ⟨['('], mem_one_eq h₃, by simp, (mem_one.mp h₃).1⟩
    · exact ⟨[], rfl, by simp, rfl⟩
  obtain ⟨hg₄, gap', ht₄, hgap'⟩ := mem_many.mp h₄
  obtain ⟨hg₅, q, hq, ht₅⟩ := mem_one.mp h₅
  obtain ⟨coords, g₆, ht₆, hg₆, hin₆⟩ := (mem_group within_coordinates).mp h₆
  obtain ⟨hg₆', coords', ht₆', hplain, hcolons⟩ := mem_coordinates hin₆
  obtain ⟨hg₇, q', hq', ht₇⟩ := mem_one.mp h₇
  obtain rfl : coords = coords' := List.append_cancel_right (ht₆.symm.trans ht₆')
  obtain rfl : config = word := List.append_cancel_right (ht₁.symm.trans hword)
  refine ⟨config ++ (gap ++ (paren ++ gap')), q, coords, q', ⟨?_, ?_⟩, hq, hplain, hcolons, hq', ?_,
    config, ?_⟩
  · intro c hc
    simp only [List.mem_append] at hc
    rcases hc with hc | hc | hc | hc
    · exact .inl (hwords c hc)
    · exact .inr (.inl (hgap c hc))
    · exact .inr (.inr (hparen c hc))
    · exact .inr (.inl (hgap' c hc))
  · obtain ⟨c, more, rfl⟩ := List.exists_cons_of_ne_nil hne
    exact ⟨c, more ++ (gap ++ (paren ++ gap')), rfl, hwords c List.mem_cons_self⟩
  · simp only [ht₁, ht₂, ht₃, ht₄, ht₅, ht₆, ht₇, List.append_assoc]
  · obtain rfl : g₁ = [] := hg₁'
    obtain rfl : g₆ = [] := hg₆'
    simp [hg₁, hg₂, hg₃, hg₄, hg₅, hg₆, hg₇]

/-- What stands before the first quote of a match of the second pattern. -/
structure NamedCall (call : List Char) : Prop where
  noQuote : ∀ c ∈ call, isQuote c = false
  begins : ∃ c more, call = c :: more ∧ WordChars.isWord c = true
  key : 'g' ∈ call
  colon : ':' ∈ call
  last : ∀ c ∈ call.getLast?, c = ':' ∨ isSpace c = true

theorem mem_gradleNamed {text : List Char} {o : Outcome Char} (h : o ∈ gradleNamed text) :
    ∃ call q back, NamedCall call ∧ isQuote q = true ∧ text = call ++ q :: back := by
  rw [gradleNamed] at h
  simp only [mem_chain_cons] at h
  obtain ⟨o₁, h₁, _, ⟨o₂, h₂, _, ⟨o₃, h₃, _, ⟨o₄, h₄, _, ⟨o₅, h₅, _, ⟨o₆, h₆, _, ⟨o₇, h₇, _, ⟨o₈, h₈,
    _⟩, _⟩, _⟩, _⟩, _⟩, _⟩, _⟩, _⟩ := h
  obtain ⟨config, g₁, ht₁, -, hin₁⟩ := (mem_group (within_many1 _)).mp h₁
  obtain ⟨-, word, hne, hword, hwords⟩ := mem_many1.mp hin₁
  obtain ⟨-, gap, ht₂, hgap⟩ := mem_many.mp h₂
  obtain ⟨paren, ht₃, hparen⟩ : ∃ paren, o₂.rest = paren ++ o₃.rest ∧
      ∀ c ∈ paren, isQuote c = false := by
    rcases mem_maybe.mp h₃ with h₃ | rfl
    · simp only [mem_chain_cons, mem_chain_nil] at h₃
      obtain ⟨o', h', _, ⟨o'', h'', _, rfl, rfl⟩, rfl⟩ := h₃
      obtain ⟨-, inner, ht, hinner⟩ := mem_many.mp h''
      refine ⟨'(' :: inner, ?_, ?_⟩
      · rw [mem_one_eq h', ht]
        rfl
      · intro c hc
        rcases List.mem_cons.mp hc with rfl | hc
        · decide
        · exact isQuote_of_isSpace (hinner c hc)
    · exact ⟨[], rfl, by simp⟩
  obtain ⟨-, ht₄⟩ := mem_literal.mp h₄
  obtain ⟨-, gap₅, ht₅, hgap₅⟩ := mem_many.mp h₅
  have ht₆ := mem_one_eq h₆
  obtain ⟨-, gap₇, ht₇, hgap₇⟩ := mem_many.mp h₇
  obtain ⟨-, q, hq, ht₈⟩ := mem_one.mp h₈
  obtain rfl : config = word := List.append_cancel_right (ht₁.symm.trans hword)
  refine ⟨(config ++ (gap ++ (paren ++ ("group".toList ++ gap₅)))) ++ ':' :: gap₇, q, o₈.rest,
    ⟨?_, ?_, ?_, by simp, getLast?_colon hgap₇⟩, hq, ?_⟩
  · intro c hc
    simp only [List.mem_append, List.mem_cons] at hc
    rcases hc with (hc | hc | hc | hc | hc) | rfl | hc
    · exact isQuote_of_isWord (hwords c hc)
    · exact isQuote_of_isSpace (hgap c hc)
    · exact hparen c hc
    · revert c
      decide
    · exact isQuote_of_isSpace (hgap₅ c hc)
    · decide
    · exact isQuote_of_isSpace (hgap₇ c hc)
  · obtain ⟨c, more, rfl⟩ := List.exists_cons_of_ne_nil hne
    exact ⟨c, _, rfl, hwords c List.mem_cons_self⟩
  · simp
  · simp only [ht₁, ht₂, ht₃, ht₄, ht₅, ht₆, ht₇, ht₈, List.append_assoc, List.cons_append]

/-! ## What is passed over -/

/-- The matches of a pattern have a quote, and before it a text that begins with a word. -/
structure Quoting (a : Pattern Char) (Call : List Char → List Char → Prop) : Prop where
  split : ∀ {text o}, o ∈ a text →
    ∃ call q back, Call call back ∧ isQuote q = true ∧ text = call ++ q :: back
  noQuote : ∀ {call back}, Call call back → ∀ c ∈ call, isQuote c = false
  begins : ∀ {call back}, Call call back → ∃ c more, call = c :: more ∧ WordChars.isWord c = true

section Passing

variable {a : Pattern Char} {Call : List Char → List Char → Prop}

theorem Quoting.blank (h : Quoting a Call) {front rest : List Char}
    (hfront : ∀ c ∈ front, WordChars.isWord c = false) :
    findIter a (front ++ rest) = findIter a rest := by
  refine findIter_append fun before after hsplit hne => ?_
  rw [List.eq_nil_iff_forall_not_mem]
  intro o ho
  obtain ⟨call, q, back, hcall, -, htext⟩ := h.split ho
  obtain ⟨c, more, rfl, hc⟩ := h.begins hcall
  obtain ⟨d, after, rfl⟩ := List.exists_cons_of_ne_nil hne
  obtain ⟨rfl, -⟩ := List.cons.inj htext
  rw [hfront d (by simp [hsplit])] at hc
  cases hc

theorem Quoting.skip (h : Quoting a Call) {front rest : List Char} {q : Char}
    (hq : isQuote q = true) (hfront : ∀ c ∈ front, isQuote c = false)
    (hno : ∀ before call, front = before ++ call → ¬ Call call rest) :
    findIter a (front ++ q :: rest) = findIter a rest := by
  rw [List.append_cons]
  refine findIter_append fun before after hsplit hne => ?_
  rw [List.eq_nil_iff_forall_not_mem]
  intro o ho
  obtain ⟨call, q₀, back, hcall, hq₀, htext⟩ := h.split ho
  obtain ⟨after, last, rfl⟩ := List.eq_nil_or_concat after |>.resolve_left hne
  rw [List.concat_eq_append, ← List.append_assoc] at hsplit
  obtain ⟨hbefore, hlast⟩ := List.append_inj' hsplit rfl
  obtain rfl : q = last := by simpa using hlast
  have hafter : ∀ c ∈ after, isQuote c = false := fun c hc => hfront c (by simp [hbefore, hc])
  rw [List.concat_eq_append, List.append_assoc] at htext
  obtain ⟨rfl, rfl, rfl⟩ := split_unique hafter (h.noQuote hcall) hq hq₀ htext
  exact hno before after hbefore hcall

theorem Quoting.none (h : Quoting a Call) {text : List Char} (htext : ∀ c ∈ text, isQuote c = false) :
    findIter a text = [] := by
  have happend : findIter a (text ++ []) = findIter a [] := by
    refine findIter_append fun before after hsplit hne => ?_
    rw [List.eq_nil_iff_forall_not_mem]
    intro o ho
    obtain ⟨call, q, back, -, hq, hafter⟩ := h.split ho
    have hmem : q ∈ after := by
      rw [List.append_nil] at hafter
      simp [hafter]
    rw [htext q (by simp [hsplit, hmem])] at hq
    cases hq
  rw [List.append_nil] at happend
  exact happend

end Passing

/-- A text begins with coordinates that a quote ends. -/
def BeginsCoords (text : List Char) : Prop :=
  ∃ coords q back, (∀ c ∈ coords, isPlain c = true) ∧ 2 ≤ coords.count ':' ∧ isQuote q = true ∧
    text = coords ++ q :: back

theorem quoting_coord :
    Quoting gradleCoord fun call back => CoordCall call ∧ BeginsCoords back where
  split ho := by
    obtain ⟨call, q, coords, q', hcall, hq, hplain, hcolons, hq', htext, -⟩ := mem_gradleCoord ho
    exact ⟨call, q, _, ⟨hcall, coords, q', _, hplain, hcolons, hq', rfl⟩, hq, htext⟩
  noQuote h := h.1.noQuote
  begins h := h.1.begins

theorem quoting_named : Quoting gradleNamed fun call _ => NamedCall call where
  split ho := mem_gradleNamed ho
  noQuote h := h.noQuote
  begins h := h.begins

end Words

end Scan
end RepoMesh
