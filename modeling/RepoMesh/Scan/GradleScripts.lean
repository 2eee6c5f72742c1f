/-
# Gradle scripts

What `parse_gradle` reads of a script. Its block ends at the first closing brace, so what stands after the
first configuration closure is not read, and what stands in that closure is read as if it were a
declaration; and configurations are compared in lower case with names that are not.
-/
import RepoMesh.Scan.GradlePatterns

namespace RepoMesh
namespace Scan

open Text Patterns

/-! ## The scripts -/

/-- Whitespace. -/
structure Blank where
  text : List Char
  space : ∀ c ∈ text, isSpace c = true

/-- A quote. -/
inductive Quote where
  | single | double

/-- The character of a quote. -/
def Quote.char : Quote → Char
  | .double => Char.ofNat 34
  | .single => Char.ofNat 39

/-- A closing brace. -/
def closingBrace : Char := Char.ofNat 125

/-- A group or an artifact. -/
structure Name where
  text : List Char
  nonempty : text ≠ []
  plain : ∀ c ∈ text, isPlain c = true
  chars : ∀ c ∈ text, c ≠ ':' ∧ c ≠ closingBrace ∧ isSpace c = false

/-- A version, with a classifier if there is one. -/
structure Version where
  text : List Char
  nonempty : text ≠ []
  plain : ∀ c ∈ text, isPlain c = true
  chars : ∀ c ∈ text, c ≠ closingBrace
  last : ∀ c ∈ text.getLast?, c ≠ ':' ∧ isSpace c = false

/-- A quoted text. -/
def Quote.around (quote : Quote) (text rest : List Char) : List Char :=
  quote.char :: (text ++ quote.char :: rest)

/-- `key: 'value'`, without the value. -/
structure Argument where
  beforeColon : Blank
  afterColon : Blank
  quote : Quote

/-- An argument with its value and what follows. -/
def Argument.render (argument : Argument) (key : String) (value rest : List Char) : List Char :=
  key.toList ++ (argument.beforeColon.text ++ ':' :: (argument.afterColon.text ++
    argument.quote.around value rest))

/-- A comma with the blanks around it. -/
structure Comma where
  before : Blank
  after : Blank

/-- A comma and what follows. -/
def Comma.render (comma : Comma) (rest : List Char) : List Char :=
  comma.before.text ++ ',' :: (comma.after.text ++ rest)

/-- The version of a named declaration. -/
structure NamedVersion where
  comma : Comma
  argument : Argument
  version : Version

variable [WordChars]

/-- A configuration, as a script names it. -/
structure Config where
  text : List Char
  nonempty : text ≠ []
  word : ∀ c ∈ text, WordChars.isWord c = true

/-- A configuration and the way its arguments follow: after a blank, or in parentheses with blanks in
them. -/
structure Call where
  config : Config
  gap : Blank
  parens : Option (Blank × Blank)

/-- What stands before the arguments. -/
def Call.opening (call : Call) : List Char :=
  match call.parens with
  | some (inner, _) => '(' :: inner.text
  | none => []

/-- What stands after the arguments. -/
def Call.closing (call : Call) : List Char :=
  match call.parens with
  | some (_, inner) => inner.text ++ [')']
  | none => []

/-- A declaration in one of the two coordinate styles. -/
inductive Declaration where
  | coordinate (call : Call) (quote : Quote) (group artifact : Name) (version : Version)
  | named (call : Call) (spaced : call.parens = none → call.gap.text ≠ []) (groupArgument : Argument)
      (group : Name) (comma : Comma) (nameArgument : Argument) (artifact : Name)
      (version : Option NamedVersion)

/-- The configuration. -/
def Declaration.call : Declaration → Call
  | .coordinate call .. => call
  | .named call .. => call

/-- `group:artifact`. -/
def Declaration.coordinates : Declaration → String
  | .coordinate _ _ group artifact _ => String.ofList group.text ++ ":" ++ String.ofList artifact.text
  | .named _ _ _ group _ _ artifact _ =>
    String.ofList group.text ++ ":" ++ String.ofList artifact.text

/-- The arguments with what follows. -/
def Declaration.arguments (declaration : Declaration) (rest : List Char) : List Char :=
  match declaration with
  | .coordinate _ quote group artifact version =>
    quote.around (group.text ++ ':' :: (artifact.text ++ ':' :: version.text)) rest
  | .named _ _ groupArgument group comma nameArgument artifact version =>
    groupArgument.render "group" group.text (comma.render (nameArgument.render "name" artifact.text
      (match version with
      | some v => v.comma.render (v.argument.render "version" v.version.text rest)
      | none => rest)))

/-- A declaration with what follows. -/
def Declaration.render (declaration : Declaration) (rest : List Char) : List Char :=
  declaration.call.config.text ++ (declaration.call.gap.text ++ (declaration.call.opening ++
    declaration.arguments (declaration.call.closing ++ rest)))

/-- A configuration closure: any text in braces, the first closing one of which need not be its
own. -/
structure Closure where
  gap : Blank
  body : List Char

/-- A closure with what follows. -/
def Closure.render (closure : Closure) (rest : List Char) : List Char :=
  closure.gap.text ++ Char.ofNat 123 :: (closure.body ++ closingBrace :: rest)

/-- A declaration with the blank before it and the closure after it. -/
structure Item where
  blank : Blank
  declaration : Declaration
  closure : Option Closure

/-- An item with what follows. -/
def Item.render (item : Item) (rest : List Char) : List Char :=
  item.blank.text ++ item.declaration.render (match item.closure with
    | some closure => closure.render rest
    | none => rest)

/-- Items with what follows. -/
def renderItems : List Item → List Char → List Char
  | [], rest => rest
  | item :: items, rest => item.render (renderItems items rest)

/-- `dependencies\s*\{`. -/
def blockOpening : Pattern Char :=
  chain [literal "dependencies".toList, many isSpace, one (· == Char.ofNat 123)]

/-- A block of declarations with what follows. -/
def renderBlock (gap : Blank) (items : List Item) (trail : Blank) (rest : List Char) : List Char :=
  "dependencies".toList ++ (gap.text ++ Char.ofNat 123 ::
    renderItems items (trail.text ++ closingBrace :: rest))

/-- A build script with one dependencies block of declarations. -/
structure Script where
  before : List Char
  gap : Blank
  items : List Item
  trail : Blank
  after : List Char
  first : ∀ front back, before = front ++ back → back ≠ [] →
    blockOpening (back ++ renderBlock gap items trail after) = []
  only : findIter blockOpening after = []

/-- The text of a script. -/
def Script.text (script : Script) : String :=
  String.ofList (script.before ++ renderBlock script.gap script.items script.trail script.after)

/-! ## Characters of the parts -/

omit [WordChars] in
theorem Quote.isQuote_char (quote : Quote) : isQuote quote.char = true := by
  cases quote <;> decide

omit [WordChars] in
theorem Blank.noQuote (blank : Blank) : ∀ c ∈ blank.text, isQuote c = false := fun c hc =>
  isQuote_of_isSpace (blank.space c hc)

theorem Blank.noWord (blank : Blank) : ∀ c ∈ blank.text, WordChars.isWord c = false := fun c hc =>
  WordChars.space c (blank.space c hc)

theorem isWord_paren : WordChars.isWord '(' = false ∧ WordChars.isWord ')' = false := by
  constructor
  · rw [WordChars.ascii _ (by decide)]
    decide
  · rw [WordChars.ascii _ (by decide)]
    decide

theorem Call.closing_noWord (call : Call) : ∀ c ∈ call.closing, WordChars.isWord c = false := by
  intro c hc
  rw [Call.closing] at hc
  split at hc
  · rename_i inner _
    rcases List.mem_append.mp hc with hc | hc
    · exact inner.noWord c hc
    · rw [List.mem_singleton.mp hc]
      exact isWord_paren.2
  · cases hc

theorem Call.opening_chars (call : Call) : ∀ c ∈ call.opening, isSpace c = true ∨ c = '(' := by
  intro c hc
  rw [Call.opening] at hc
  split at hc
  · rename_i inner _ _
    rcases List.mem_cons.mp hc with rfl | hc
    · exact .inr rfl
    · exact .inl (inner.space c hc)
  · cases hc

/-- The configuration with what stands before the arguments. -/
def Call.head (call : Call) : List Char := call.config.text ++ (call.gap.text ++ call.opening)

theorem Call.coordCall_head (call : Call) : CoordCall call.head where
  chars c hc := by
    simp only [Call.head, List.mem_append] at hc
    rcases hc with hc | hc | hc
    · exact .inl (call.config.word c hc)
    · exact .inr (.inl (call.gap.space c hc))
    · exact .inr (call.opening_chars c hc)
  begins := by
    obtain ⟨c, more, heq⟩ := List.exists_cons_of_ne_nil call.config.nonempty
    have hc : c ∈ call.config.text := by simp [heq]
    exact ⟨c, more ++ (call.gap.text ++ call.opening), by rw [Call.head, heq]; rfl,
      call.config.word c hc⟩

/-! ## What the patterns prefer -/

theorem prefers_call {as : List (Pattern Char)} {call : Call} {rest : List Char} {o : Outcome Char}
    (hrest : ∃ c more, rest = c :: more ∧ isQuote c = true) (has : Prefers (chain as) rest o) :
    Prefers (chain (group (many1 WordChars.isWord) :: many isSpace :: maybe (one (· == '(')) ::
      many isSpace :: as)) (call.config.text ++ (call.gap.text ++ (call.opening ++ rest)))
      ⟨call.config.text :: o.groups, o.rest⟩ := by
  obtain ⟨q, more, rfl, hq⟩ := hrest
  have hspace : ∀ c ∈ (q :: more).head?, isSpace c = false := by
    intro c hc
    obtain rfl : q = c := by simpa using hc
    exact isSpace_of_isQuote hq
  have hparens : Prefers (chain (maybe (one (· == '(')) :: many isSpace :: as))
      (call.opening ++ q :: more) o ∧ ∀ c ∈ (call.opening ++ q :: more).head?,
        isSpace c = false ∧ WordChars.isWord c = false := by
    rw [Call.opening]
    split
    · rename_i inner _ _
      have hmany : Prefers (chain (many isSpace :: as)) (inner.text ++ q :: more) o :=
        (prefers_many inner.space hspace).cons has
      have hone : Prefers (one (· == '(')) ('(' :: (inner.text ++ q :: more))
          ⟨[], inner.text ++ q :: more⟩ := prefers_one (by decide)
      refine ⟨hone.maybe.cons hmany, ?_⟩
      intro c hc
      obtain rfl : '(' = c := by simpa using hc
      exact ⟨by decide, isWord_paren.1⟩
    · have hmany : Prefers (chain (many isSpace :: as)) ([] ++ q :: more) o :=
        (prefers_many (by simp) hspace).cons has
      have hno : one (· == '(') (q :: more) = [] := by
        rw [one, if_neg]
        intro heq
        rw [beq_iff_eq.mp heq] at hq
        revert hq
        decide
      refine ⟨(prefers_maybe_none hno).cons hmany, ?_⟩
      intro c hc
      obtain rfl : q = c := by simpa using hc
      exact ⟨isSpace_of_isQuote hq, isWord_of_isQuote hq⟩
  have hgap : Prefers (chain (many isSpace :: maybe (one (· == '(')) :: many isSpace :: as))
      (call.gap.text ++ (call.opening ++ q :: more)) o :=
    (prefers_many call.gap.space fun c hc => (hparens.2 c hc).1).cons hparens.1
  have hword : ∀ c ∈ (call.gap.text ++ (call.opening ++ q :: more)).head?,
      WordChars.isWord c = false := by
    intro c hc
    rw [List.head?_append] at hc
    cases hgaptext : call.gap.text with
    | nil =>
      rw [hgaptext] at hc
      exact (hparens.2 c hc).2
    | cons d gap =>
      rw [hgaptext] at hc
      obtain rfl : d = c := by simpa using hc
      exact call.gap.noWord d (by simp [hgaptext])
  exact (prefers_many1 call.config.nonempty call.config.word hword).group.cons hgap

omit [WordChars] in
theorem prefers_coordinates {group_ artifact version rest : List Char} {q : Char}
    (hgroup : group_ ≠ [] ∧ ∀ c ∈ group_, isPlain c = true)
    (hartifact : artifact ≠ [] ∧ ∀ c ∈ artifact, isPlain c = true)
    (hversion : version ≠ [] ∧ ∀ c ∈ version, isPlain c = true) (hq : isQuote q = true) :
    Prefers (chain [group (chain [many1 isPlain, one (· == ':'), many1 isPlain, one (· == ':'),
      many1 isPlain]), one isQuote]) ((group_ ++ ':' :: (artifact ++ ':' :: version)) ++ q :: rest)
      ⟨[group_ ++ ':' :: (artifact ++ ':' :: version)], rest⟩ := by
  have hcolon : ∀ text : List Char, (⟨[], text⟩ : Outcome Char) ∈ one (· == ':') (':' :: text) :=
    fun text => mem_one.mpr ⟨rfl, ':', by decide, rfl⟩
  have hrun : ∀ {run back : List Char}, run ≠ [] ∧ (∀ c ∈ run, isPlain c = true) →
      (⟨[], back⟩ : Outcome Char) ∈ many1 isPlain (run ++ back) :=
    fun {run back} h => mem_many1.mpr ⟨rfl, run, h.1, rfl, h.2⟩
  have hplain : ∀ c ∈ group_ ++ ':' :: (artifact ++ ':' :: version), isPlain c = true := by
    have hc : isPlain ':' = true := by decide
    simpa [or_imp, forall_and, hc] using ⟨hgroup.2, hartifact.2, hversion.2⟩
  refine head?_eq_some ?_ ?_
  · have hinner : (⟨[], q :: rest⟩ : Outcome Char) ∈ chain [many1 isPlain, one (· == ':'),
        many1 isPlain, one (· == ':'), many1 isPlain]
        ((group_ ++ ':' :: (artifact ++ ':' :: version)) ++ q :: rest) := by
      simp only [List.append_assoc, List.cons_append]
      exact mem_chain_cons.mpr ⟨_, hrun hgroup, _, mem_chain_cons.mpr ⟨_, hcolon _, _,
        mem_chain_cons.mpr ⟨_, hrun hartifact, _, mem_chain_cons.mpr ⟨_, hcolon _, _,
          mem_chain_cons.mpr ⟨_, hrun hversion, _, mem_chain_nil.mpr rfl, rfl⟩, rfl⟩, rfl⟩, rfl⟩,
        rfl⟩
    have hgroups : (⟨[group_ ++ ':' :: (artifact ++ ':' :: version)], q :: rest⟩ : Outcome Char) ∈
        group (chain [many1 isPlain, one (· == ':'), many1 isPlain, one (· == ':'), many1 isPlain])
          ((group_ ++ ':' :: (artifact ++ ':' :: version)) ++ q :: rest) :=
      (mem_group within_coordinates).mpr ⟨_, [], rfl, rfl, hinner⟩
    exact mem_chain_cons.mpr ⟨_, hgroups, _, mem_chain_cons.mpr ⟨⟨[], rest⟩,
      mem_one.mpr ⟨rfl, q, hq, rfl⟩, _, mem_chain_nil.mpr rfl, rfl⟩, rfl⟩
  · intro o ho
    simp only [mem_chain_cons, mem_chain_nil] at ho
    obtain ⟨o₁, h₁, _, ⟨o₂, h₂, _, rfl, rfl⟩, rfl⟩ := ho
    obtain ⟨coords, g₁, ht₁, hg₁, hin₁⟩ := (mem_group within_coordinates).mp h₁
    obtain ⟨hg₁', coords', ht₁', hplain', -⟩ := mem_coordinates hin₁
    obtain ⟨hg₂, q', hq', ht₂⟩ := mem_one.mp h₂
    obtain rfl : coords = coords' := List.append_cancel_right (ht₁.symm.trans ht₁')
    obtain rfl : g₁ = [] := hg₁'
    rw [ht₂] at ht₁
    have hsplit := split_unique (fun c hc => (isPlain_iff.mp (hplain c hc)).1)
      (fun c hc => (isPlain_iff.mp (hplain' c hc)).1) hq hq' ht₁
    obtain ⟨hcoords, -, hrest⟩ := hsplit
    simp [hg₁, hg₂, hcoords, hrest]

omit [WordChars] in
theorem head_noSpace {c : Char} {more : List Char} (hc : isSpace c = false) :
    ∀ d ∈ (c :: more).head?, isSpace d = false := by
  intro d hd
  obtain rfl : c = d := by simpa using hd
  exact hc

omit [WordChars] in
theorem prefers_argument {as : List (Pattern Char)} {argument : Argument} {key : String}
    {value rest : List Char} {o : Outcome Char} (hne : value ≠ [])
    (hvalue : ∀ c ∈ value, isQuote c = false) (has : Prefers (chain as) rest o) :
    Prefers (chain (literal key.toList :: many isSpace :: one (· == ':') :: many isSpace ::
      one isQuote :: group (many1 fun c => !isQuote c) :: one isQuote :: as))
      (argument.render key value rest) ⟨value :: o.groups, o.rest⟩ := by
  have hquote : Prefers (chain (one isQuote :: as)) (argument.quote.char :: rest) o :=
    (prefers_one argument.quote.isQuote_char).cons has
  have hend : ∀ c ∈ (argument.quote.char :: rest).head?, (!isQuote c) = false := by
    intro c hc
    obtain rfl : argument.quote.char = c := by simpa using hc
    rw [argument.quote.isQuote_char]
    rfl
  have hgroup : Prefers (chain (group (many1 fun c => !isQuote c) :: one isQuote :: as))
      (value ++ argument.quote.char :: rest) ⟨value :: o.groups, o.rest⟩ :=
    (prefers_many1 hne (fun c hc => by simp [hvalue c hc]) hend).group.cons hquote
  have hopen : Prefers (chain (one isQuote :: group (many1 fun c => !isQuote c) :: one isQuote :: as))
      (argument.quote.around value rest) ⟨value :: o.groups, o.rest⟩ :=
    (prefers_one argument.quote.isQuote_char).cons hgroup
  have hafter : Prefers (chain (many isSpace :: one isQuote :: group (many1 fun c => !isQuote c) ::
      one isQuote :: as)) (argument.afterColon.text ++ argument.quote.around value rest)
      ⟨value :: o.groups, o.rest⟩ :=
    (prefers_many argument.afterColon.space
      (head_noSpace (isSpace_of_isQuote argument.quote.isQuote_char))).cons hopen
  have hcolon : Prefers (one (· == ':'))
      (':' :: (argument.afterColon.text ++ argument.quote.around value rest))
      ⟨[], argument.afterColon.text ++ argument.quote.around value rest⟩ := prefers_one (by decide)
  have hbefore := (prefers_many argument.beforeColon.space (head_noSpace (by decide))).cons
    (hcolon.cons hafter)
  exact (prefers_literal key.toList _).cons hbefore

omit [WordChars] in
theorem prefers_comma {as : List (Pattern Char)} {comma : Comma} {rest : List Char}
    {o : Outcome Char} (hrest : ∀ c ∈ rest.head?, isSpace c = false)
    (has : Prefers (chain as) rest o) :
    Prefers (chain (many isSpace :: one (· == ',') :: many isSpace :: as)) (comma.render rest) o := by
  have hcomma : Prefers (one (· == ',')) (',' :: (comma.after.text ++ rest))
      ⟨[], comma.after.text ++ rest⟩ := prefers_one (by decide)
  have hafter : Prefers (chain (many isSpace :: as)) (comma.after.text ++ rest) o :=
    (prefers_many comma.after.space hrest).cons has
  exact (prefers_many comma.before.space (head_noSpace (by decide))).cons (hcomma.cons hafter)

theorem prefers_namedCall {as : List (Pattern Char)} {call : Call} {c : Char} {more : List Char}
    {o : Outcome Char} (hspaced : call.parens = none → call.gap.text ≠ [])
    (hspace : isSpace c = false) (hparen : c ≠ '(') (has : Prefers (chain as) (c :: more) o) :
    Prefers (chain (group (many1 WordChars.isWord) :: many isSpace ::
      maybe (chain [one (· == '('), many isSpace]) :: as))
      (call.config.text ++ (call.gap.text ++ (call.opening ++ c :: more)))
      ⟨call.config.text :: o.groups, o.rest⟩ := by
  have hopening : Prefers (chain (maybe (chain [one (· == '('), many isSpace]) :: as))
      (call.opening ++ c :: more) o ∧
      (∀ d ∈ (call.opening ++ c :: more).head?, isSpace d = false) ∧
      (call.parens ≠ none → ∀ d ∈ (call.opening ++ c :: more).head?,
        WordChars.isWord d = false) := by
    rw [Call.opening]
    split
    · rename_i inner _ _
      have hmany : Prefers (chain [many isSpace]) (inner.text ++ c :: more) ⟨[], c :: more⟩ :=
        (prefers_many inner.space (head_noSpace hspace)).cons (prefers_nil _)
      have hone : Prefers (one (· == '(')) ('(' :: (inner.text ++ c :: more))
          ⟨[], inner.text ++ c :: more⟩ := prefers_one (by decide)
      refine ⟨(hone.cons hmany).maybe.cons has, head_noSpace (by decide), fun _ d hd => ?_⟩
      obtain rfl : '(' = d := by simpa using hd
      exact isWord_paren.1
    · rename_i hnone
      have hno : chain [one (· == '('), many isSpace] (c :: more) = [] := by
        rw [List.eq_nil_iff_forall_not_mem]
        intro o ho
        obtain ⟨o₁, h₁, -⟩ := mem_chain_cons.mp ho
        exact hparen (List.cons.inj (mem_one_eq h₁)).1
      exact ⟨(prefers_maybe_none hno).cons has, head_noSpace hspace, fun h => absurd hnone h⟩
  have hgap : Prefers (chain (many isSpace :: maybe (chain [one (· == '('), many isSpace]) :: as))
      (call.gap.text ++ (call.opening ++ c :: more)) o :=
    (prefers_many call.gap.space hopening.2.1).cons hopening.1
  have hword : ∀ d ∈ (call.gap.text ++ (call.opening ++ c :: more)).head?,
      WordChars.isWord d = false := by
    intro d hd
    cases hgaptext : call.gap.text with
    | nil =>
      rw [hgaptext] at hd
      exact hopening.2.2 (fun hnone => hspaced hnone hgaptext) d hd
    | cons e gap =>
      rw [hgaptext] at hd
      obtain rfl : e = d := by simpa using hd
      exact call.gap.noWord e (by simp [hgaptext])
  exact (prefers_many1 call.config.nonempty call.config.word hword).group.cons hgap

/-! ## What is found of a declaration -/

theorem shrinks_gradleCoord : Shrinks gradleCoord := by
  refine (shrinks_many1 _).group.seq (within_chain ?_)
  simp only [List.mem_cons, List.not_mem_nil, or_false, forall_eq_or_imp, forall_eq]
  exact ⟨within_many _, within_maybe (within_one _), within_many _, within_one _,
    within_coordinates.group, within_one _⟩

theorem shrinks_gradleNamed : Shrinks gradleNamed := by
  have hparen : Within (chain [one (· == '('), many isSpace]) := by
    refine within_chain ?_
    simp only [List.mem_cons, List.not_mem_nil, or_false, forall_eq_or_imp, forall_eq]
    exact ⟨within_one _, within_many _⟩
  refine (shrinks_many1 _).group.seq (within_chain ?_)
  simp only [List.mem_cons, List.not_mem_nil, or_false, forall_eq_or_imp, forall_eq]
  have hvalue : Within (group (many1 fun c => !isQuote c)) := (within_many1 _).group
  exact ⟨within_many _, within_maybe hparen, within_literal _, within_many _, within_one _,
    within_many _, within_one _, hvalue, within_one _, within_many _, within_one _, within_many _,
    within_literal _, within_many _, within_one _, within_many _, within_one _, hvalue,
    within_one _⟩

theorem coordMatches_prefers {text rest config coords : List Char}
    (h : Prefers gradleCoord text ⟨[config, coords], rest⟩) :
    coordMatches text = (config, coords) :: coordMatches rest := by
  rw [coordMatches, findIter_some shrinks_gradleCoord h]
  rfl

theorem namedMatches_prefers {text rest config group_ name : List Char}
    (h : Prefers gradleNamed text ⟨[config, group_, name], rest⟩) :
    namedMatches text = (config, group_ ++ ':' :: name) :: namedMatches rest := by
  rw [namedMatches, findIter_some shrinks_gradleNamed h]
  rfl

omit [WordChars] in
theorem not_beginsCoords {front rest : List Char} {q : Char} (hq : isQuote q = true)
    (hfront : ∀ c ∈ front, isQuote c = false) (hcolons : front.count ':' < 2) :
    ¬ BeginsCoords (front ++ q :: rest) := by
  rintro ⟨coords, q', back, hplain, hcount, hq', htext⟩
  have hcoords : ∀ c ∈ coords, isQuote c = false := fun c hc => (isPlain_iff.mp (hplain c hc)).1
  obtain ⟨rfl, -⟩ := split_unique hfront hcoords hq hq' htext
  omega

theorem not_coordCall {front before call : List Char} {gap : Blank}
    (h : front ++ ':' :: gap.text = before ++ call) : ¬ CoordCall call := by
  intro hcall
  rcases List.append_eq_append_iff.mp h with ⟨more, hbefore, hcallEq⟩ | ⟨more, hfront, hcallEq⟩
  · cases more with
    | nil =>
      rw [List.nil_append] at hcallEq
      exact hcall.noColon (by simp [← hcallEq])
    | cons c more =>
      obtain ⟨-, hgap⟩ := List.cons.inj hcallEq
      obtain ⟨d, tail, rfl, hd⟩ := hcall.begins
      have hmem : d ∈ gap.text := by simp [hgap]
      rw [gap.noWord d hmem] at hd
      cases hd
  · exact hcall.noColon (by simp [hcallEq])

omit [WordChars] in
theorem Name.noQuote (name : Name) : ∀ c ∈ name.text, isQuote c = false := fun c hc =>
  (isPlain_iff.mp (name.plain c hc)).1

omit [WordChars] in
theorem Version.noQuote (version : Version) : ∀ c ∈ version.text, isQuote c = false := fun c hc =>
  (isPlain_iff.mp (version.plain c hc)).1

/-- What stands before the value of an argument. -/
def Argument.lead (argument : Argument) (key : String) : List Char :=
  key.toList ++ (argument.beforeColon.text ++ ':' :: argument.afterColon.text)

omit [WordChars] in
theorem Argument.render_eq (argument : Argument) (key : String) (value rest : List Char) :
    argument.render key value rest =
      argument.lead key ++ argument.quote.char :: (value ++ argument.quote.char :: rest) := by
  simp only [Argument.render, Argument.lead, Quote.around, List.append_assoc, List.cons_append]

omit [WordChars] in
theorem Blank.count_colon (blank : Blank) : blank.text.count ':' = 0 := by
  refine List.count_eq_zero.mpr fun h => ?_
  have hspace := blank.space _ h
  revert hspace
  decide

omit [WordChars] in
theorem Argument.lead_noQuote (argument : Argument) {key : String}
    (hkey : ∀ c ∈ key.toList, isQuote c = false) :
    ∀ c ∈ argument.lead key, isQuote c = false := by
  intro c hc
  simp only [Argument.lead, List.mem_append, List.mem_cons] at hc
  rcases hc with hc | hc | rfl | hc
  · exact hkey c hc
  · exact argument.beforeColon.noQuote c hc
  · decide
  · exact argument.afterColon.noQuote c hc

omit [WordChars] in
theorem Comma.lead_noQuote (comma : Comma) {front : List Char}
    (h : ∀ c ∈ front, isQuote c = false) : ∀ c ∈ comma.render front, isQuote c = false := by
  intro c hc
  simp only [Comma.render, List.mem_append, List.mem_cons] at hc
  rcases hc with hc | rfl | hc | hc
  · exact comma.before.noQuote c hc
  · decide
  · exact comma.after.noQuote c hc
  · exact h c hc

theorem coordMatches_argument {front value rest : List Char} {argument : Argument} {key : String}
    (hfront : ∀ c ∈ front, isQuote c = false) (hkey : ∀ c ∈ key.toList, isQuote c = false) :
    coordMatches (front ++ argument.render key value rest) =
      coordMatches (value ++ argument.quote.char :: rest) := by
  have hlead : ∀ c ∈ front ++ argument.lead key, isQuote c = false := by
    intro c hc
    rcases List.mem_append.mp hc with hc | hc
    · exact hfront c hc
    · exact argument.lead_noQuote hkey c hc
  rw [argument.render_eq, ← List.append_assoc, coordMatches,
    quoting_coord.skip argument.quote.isQuote_char hlead, coordMatches]
  rintro before call hsplit ⟨hcall, -⟩
  have hshape : (front ++ (key.toList ++ argument.beforeColon.text)) ++
      ':' :: argument.afterColon.text = before ++ call := by
    simpa only [Argument.lead, List.append_assoc] using hsplit
  exact not_coordCall hshape hcall

theorem coordMatches_comma {value value' rest : List Char} {q : Char} {comma : Comma}
    {argument : Argument} {key : String} (hq : isQuote q = true)
    (hvalue : ∀ c ∈ value, isQuote c = false) (hkey : ∀ c ∈ key.toList, isQuote c = false)
    (hcolon : ':' ∉ key.toList) :
    coordMatches (value ++ q :: comma.render (argument.render key value' rest)) =
      coordMatches (value' ++ argument.quote.char :: rest) := by
  have hrender : comma.render (argument.render key value' rest) =
      comma.render (argument.lead key) ++
        argument.quote.char :: (value' ++ argument.quote.char :: rest) := by
    simp only [Comma.render, argument.render_eq, List.append_assoc, List.cons_append]
  have hcount : (comma.render (argument.lead key)).count ':' < 2 := by
    have hkeyCount : key.toList.count ':' = 0 := List.count_eq_zero.mpr hcolon
    simp [Comma.render, Argument.lead, List.count_append, Blank.count_colon, hkeyCount]
  have hskip : coordMatches (value ++ q :: comma.render (argument.render key value' rest)) =
      coordMatches (comma.render (argument.render key value' rest)) := by
    rw [coordMatches, quoting_coord.skip hq hvalue, coordMatches]
    rintro - - - ⟨-, hbegins⟩
    rw [hrender] at hbegins
    exact not_beginsCoords argument.quote.isQuote_char
      (comma.lead_noQuote (argument.lead_noQuote hkey)) hcount hbegins
  have hfront : ∀ c ∈ comma.render [], isQuote c = false := comma.lead_noQuote (by simp)
  have hagain : coordMatches (comma.render [] ++ argument.render key value' rest) =
      coordMatches (value' ++ argument.quote.char :: rest) := coordMatches_argument hfront hkey
  rw [hskip, ← hagain]
  simp [Comma.render]

/-- What the first pattern takes for a declaration. -/
def Declaration.coordFound : Declaration → List (List Char × List Char)
  | .coordinate call _ group artifact version =>
    [(call.config.text, group.text ++ ':' :: (artifact.text ++ ':' :: version.text))]
  | .named .. => []

/-- What the second pattern takes for a declaration. -/
def Declaration.namedFound : Declaration → List (List Char × List Char)
  | .coordinate .. => []
  | .named call _ _ group _ _ artifact _ => [(call.config.text, group.text ++ ':' :: artifact.text)]

/-- Where the first pattern goes on after a declaration: within the last value of a named one. -/
def Declaration.leftover (declaration : Declaration) (rest : List Char) : List Char :=
  match declaration with
  | .coordinate call .. => call.closing ++ rest
  | .named call _ _ _ _ nameArgument artifact version =>
    match version with
    | some v => v.version.text ++ v.argument.quote.char :: (call.closing ++ rest)
    | none => artifact.text ++ nameArgument.quote.char :: (call.closing ++ rest)

/-- **The first pattern, on a declaration.** -/
theorem coordMatches_render (declaration : Declaration) (rest : List Char) :
    coordMatches (declaration.render rest) =
      declaration.coordFound ++ coordMatches (declaration.leftover rest) := by
  cases declaration with
  | coordinate call quote group_ artifact version =>
    have hquote := quote.isQuote_char
    have hcoords := @prefers_coordinates _ _ _ (call.closing ++ rest) _
      ⟨group_.nonempty, group_.plain⟩ ⟨artifact.nonempty, artifact.plain⟩
      ⟨version.nonempty, version.plain⟩ hquote
    exact coordMatches_prefers (prefers_call ⟨quote.char, _, rfl, hquote⟩
      ((prefers_one hquote).cons hcoords))
  | named call spaced groupArgument group_ comma nameArgument artifact version =>
    have hhead : ∀ c ∈ call.head, isQuote c = false := call.coordCall_head.noQuote
    have hrender (text : List Char) : call.config.text ++ (call.gap.text ++ (call.opening ++ text)) =
        call.head ++ text := by
      simp only [Call.head, List.append_assoc]
    simp only [Declaration.render, Declaration.call, Declaration.arguments]
    rw [hrender, coordMatches_argument hhead (by decide), coordMatches_comma groupArgument.quote.isQuote_char group_.noQuote (by decide)
      (by decide)]
    cases version with
    | none => rfl
    | some v =>
      exact coordMatches_comma nameArgument.quote.isQuote_char artifact.noQuote (by decide)
        (by decide)

theorem not_namedCall_of_last {front before call : List Char}
    (hlast : ∀ c ∈ front.getLast?, c ≠ ':' ∧ isSpace c = false) (h : front = before ++ call) :
    ¬ NamedCall call := by
  intro hcall
  obtain ⟨c, more, rfl, -⟩ := hcall.begins
  obtain ⟨d, hd⟩ : ∃ d, (c :: more).getLast? = some d := by simp [List.getLast?_cons]
  have hfront : front.getLast? = some d := by
    rw [h, List.getLast?_append_of_ne_nil _ (by simp), hd]
  obtain ⟨hcolon, hspace⟩ := hlast d hfront
  rcases hcall.last d hd with heq | hd
  · exact hcolon heq
  · rw [hspace] at hd
    cases hd

omit [WordChars] in
theorem Version.getLast?_append (version : Version) (front : List Char) :
    ∀ c ∈ (front ++ version.text).getLast?, c ≠ ':' ∧ isSpace c = false := by
  rw [List.getLast?_append_of_ne_nil _ version.nonempty]
  exact version.last

theorem namedMatches_closing (call : Call) (rest : List Char) :
    namedMatches (call.closing ++ rest) = namedMatches rest := by
  rw [namedMatches, quoting_named.blank call.closing_noWord, namedMatches]

theorem namedMatches_version {front rest : List Char} {version : Version} {q : Char}
    (hq : isQuote q = true) (hfront : ∀ c ∈ front, isQuote c = false) :
    namedMatches (front ++ (version.text ++ q :: rest)) = namedMatches rest := by
  have hchars : ∀ c ∈ front ++ version.text, isQuote c = false := by
    intro c hc
    rcases List.mem_append.mp hc with hc | hc
    · exact hfront c hc
    · exact version.noQuote c hc
  rw [← List.append_assoc, namedMatches, quoting_named.skip hq hchars, namedMatches]
  exact fun before call h => not_namedCall_of_last (version.getLast?_append front) h

theorem namedMatches_namedVersion (v : NamedVersion) (rest : List Char) :
    namedMatches (v.comma.render (v.argument.render "version" v.version.text rest)) =
      namedMatches rest := by
  have hrender : v.comma.render (v.argument.render "version" v.version.text rest) =
      v.comma.render (v.argument.lead "version") ++ v.argument.quote.char ::
        ([] ++ (v.version.text ++ v.argument.quote.char :: rest)) := by
    simp only [Comma.render, Argument.render_eq, List.append_assoc, List.cons_append,
      List.nil_append]
  have hlead : ∀ c ∈ v.comma.render (v.argument.lead "version"), isQuote c = false :=
    v.comma.lead_noQuote (v.argument.lead_noQuote (by decide))
  have hblank : ∀ blank : Blank, 'g' ∉ blank.text := by
    intro blank hmem
    have hspace := blank.space _ hmem
    revert hspace
    decide
  rw [hrender, namedMatches, quoting_named.skip v.argument.quote.isQuote_char hlead,
    ← namedMatches, namedMatches_version v.argument.quote.isQuote_char (by simp)]
  rintro before call hsplit hcall
  have hg : 'g' ∈ v.comma.render (v.argument.lead "version") := by
    rw [hsplit]
    exact List.mem_append_right _ hcall.key
  simp [Comma.render, Argument.lead, hblank] at hg

/-- **The second pattern, on a declaration.** -/
theorem namedMatches_render (declaration : Declaration) (rest : List Char) :
    namedMatches (declaration.render rest) = declaration.namedFound ++ namedMatches rest := by
  cases declaration with
  | coordinate call quote group_ artifact version =>
    have hquote := quote.isQuote_char
    have hhead : ∀ c ∈ call.head, isQuote c = false := call.coordCall_head.noQuote
    have hcoords : ∀ c ∈ group_.text ++ ':' :: (artifact.text ++ [':']), isQuote c = false := by
      intro c hc
      simp only [List.mem_append, List.mem_cons, List.not_mem_nil, or_false] at hc
      rcases hc with hc | rfl | hc | rfl
      · exact group_.noQuote c hc
      · decide
      · exact artifact.noQuote c hc
      · decide
    have hrender : (Declaration.coordinate call quote group_ artifact version).render rest =
        call.head ++ quote.char :: ((group_.text ++ ':' :: (artifact.text ++ [':'])) ++
          (version.text ++ quote.char :: (call.closing ++ rest))) := by
      simp only [Declaration.render, Declaration.arguments, Declaration.call, Quote.around, Call.head,
        List.append_assoc, List.cons_append, List.nil_append]
    rw [hrender, namedMatches, quoting_named.skip hquote hhead, ← namedMatches,
      namedMatches_version hquote hcoords, namedMatches_closing]
    · rfl
    · rintro before tail hsplit htail
      refine call.coordCall_head.noColon ?_
      rw [hsplit]
      exact List.mem_append_right _ htail.colon
  | named call spaced groupArgument group_ comma nameArgument artifact version =>
    have htail (text : List Char) : Prefers gradleNamed
        (call.config.text ++ (call.gap.text ++ (call.opening ++ groupArgument.render "group" group_.text
          (comma.render (nameArgument.render "name" artifact.text text)))))
        ⟨[call.config.text, group_.text, artifact.text], text⟩ := by
      have hname := @prefers_argument _ nameArgument "name" _ _ _ artifact.nonempty artifact.noQuote
        (prefers_nil text)
      have hcomma := @prefers_comma _ comma _ _ (head_noSpace (by decide)) hname
      have hgroup := @prefers_argument _ groupArgument "group" _ _ _ group_.nonempty group_.noQuote
        hcomma
      exact prefers_namedCall spaced (by decide) (by decide) hgroup
    refine (namedMatches_prefers (htail _)).trans ?_
    cases version with
    | none =>
      simp only
      rw [namedMatches_closing]
      rfl
    | some v =>
      simp only
      rw [namedMatches_namedVersion, namedMatches_closing]
      rfl

end Scan
end RepoMesh
