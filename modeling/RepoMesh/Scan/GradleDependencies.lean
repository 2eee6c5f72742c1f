/-
# What `parse_gradle` reads

The block of a script ends at its first closing brace: the declarations up to the first with a closure are
read, and then whatever the patterns find in that closure up to its first closing brace. Of what is
found, each key is taken once; so the product dependencies are read exactly when these are found, and
nothing else is.
-/
import RepoMesh.Foundation.PurePath
import RepoMesh.Scan.GradleScripts

namespace RepoMesh
namespace Scan

open Text Patterns

section Reading

variable [WordChars]

/-! ## The block -/

omit [WordChars] in
theorem Argument.render_append (argument : Argument) (key : String) (value rest more : List Char) :
    argument.render key value (rest ++ more) = argument.render key value rest ++ more := by
  simp only [Argument.render_eq, List.append_assoc, List.cons_append]

omit [WordChars] in
theorem Comma.render_append (comma : Comma) (rest more : List Char) :
    comma.render (rest ++ more) = comma.render rest ++ more := by
  simp only [Comma.render, List.append_assoc, List.cons_append]

theorem Declaration.render_append (declaration : Declaration) (rest more : List Char) :
    declaration.render (rest ++ more) = declaration.render rest ++ more := by
  cases declaration with
  | coordinate call quote group_ artifact version =>
    simp only [Declaration.render, Declaration.arguments, Declaration.call, Quote.around,
      List.append_assoc, List.cons_append]
  | named call spaced groupArgument group_ comma nameArgument artifact version =>
    cases version <;>
      simp only [Declaration.render, Declaration.arguments, Declaration.call,
        ← Argument.render_append, ← Comma.render_append, List.append_assoc]

/-- A character that is no closing brace. -/
def NoBrace (text : List Char) : Prop := closingBrace ∉ text

omit [WordChars] in
theorem Blank.noBrace (blank : Blank) : NoBrace blank.text := by
  intro hmem
  have hspace := blank.space _ hmem
  revert hspace
  decide

omit [WordChars] in
theorem Quote.noBrace (quote : Quote) : closingBrace ≠ quote.char := by
  cases quote <;> decide

omit [WordChars] in
theorem Name.noBrace (name : Name) : NoBrace name.text := fun hmem => (name.chars _ hmem).2.1 rfl

omit [WordChars] in
theorem Version.noBrace (version : Version) : NoBrace version.text := fun hmem =>
  version.chars _ hmem rfl

theorem Config.noBrace (config : Config) : NoBrace config.text := by
  intro hmem
  have hword := config.word _ hmem
  rw [WordChars.ascii _ (by decide)] at hword
  revert hword
  decide

theorem Call.noBrace (call : Call) : NoBrace call.opening ∧ NoBrace call.closing := by
  constructor
  · intro hmem
    rcases call.opening_chars _ hmem with hspace | heq
    · revert hspace
      decide
    · revert heq
      decide
  · rw [Call.closing]
    split
    · rename_i inner _
      have hinner : closingBrace ∉ inner.text := inner.noBrace
      have hparen : closingBrace ≠ ')' := by decide
      simp [NoBrace, hinner, hparen]
    · simp [NoBrace]

omit [WordChars] in
theorem Argument.noBrace (argument : Argument) {key : String} {value rest : List Char}
    (hkey : NoBrace key.toList) (hvalue : NoBrace value) (hrest : NoBrace rest) :
    NoBrace (argument.render key value rest) := by
  have hbefore : closingBrace ∉ argument.beforeColon.text := argument.beforeColon.noBrace
  have hafter : closingBrace ∉ argument.afterColon.text := argument.afterColon.noBrace
  have hcolon : closingBrace ≠ ':' := by decide
  have hquote := argument.quote.noBrace
  simp only [NoBrace] at hkey hvalue hrest ⊢
  simp [Argument.render, Quote.around, hkey, hvalue, hrest, hbefore, hafter, hcolon, hquote]

omit [WordChars] in
theorem Comma.noBrace (comma : Comma) {rest : List Char} (hrest : NoBrace rest) :
    NoBrace (comma.render rest) := by
  have hbefore : closingBrace ∉ comma.before.text := comma.before.noBrace
  have hafter : closingBrace ∉ comma.after.text := comma.after.noBrace
  have hcomma : closingBrace ≠ ',' := by decide
  simp only [NoBrace] at hrest ⊢
  simp [Comma.render, hrest, hbefore, hafter, hcomma]

theorem Declaration.noBrace (declaration : Declaration) {rest : List Char} (hrest : NoBrace rest) :
    NoBrace (declaration.render rest) := by
  have hconfig : closingBrace ∉ declaration.call.config.text := declaration.call.config.noBrace
  have hgap : closingBrace ∉ declaration.call.gap.text := declaration.call.gap.noBrace
  have hopening : closingBrace ∉ declaration.call.opening := declaration.call.noBrace.1
  have hclosing : NoBrace (declaration.call.closing ++ rest) := by
    have hcall : closingBrace ∉ declaration.call.closing := declaration.call.noBrace.2
    have hmore : closingBrace ∉ rest := hrest
    simp [NoBrace, hcall, hmore]
  have harguments : closingBrace ∉ declaration.arguments (declaration.call.closing ++ rest) := by
    revert hclosing
    generalize declaration.call.closing ++ rest = text
    intro htext
    cases declaration with
    | coordinate call quote group_ artifact version =>
      have hgroup : closingBrace ∉ group_.text := group_.noBrace
      have hartifact : closingBrace ∉ artifact.text := artifact.noBrace
      have hversion : closingBrace ∉ version.text := version.noBrace
      have hcolon : closingBrace ≠ ':' := by decide
      have hmore : closingBrace ∉ text := htext
      simp [Declaration.arguments, Quote.around, hgroup, hartifact, hversion, hcolon, hmore,
        quote.noBrace]
    | named call spaced groupArgument group_ comma nameArgument artifact version =>
      refine groupArgument.noBrace (by simp only [NoBrace]; decide) group_.noBrace (comma.noBrace
        (nameArgument.noBrace (by simp only [NoBrace]; decide) artifact.noBrace ?_))
      cases version with
      | none => exact htext
      | some v =>
        exact v.comma.noBrace (v.argument.noBrace (by simp only [NoBrace]; decide) v.version.noBrace
          htext)
  simp [NoBrace, Declaration.render, hconfig, hgap, hopening, harguments]

/-! ## What is read -/

/-- A character other than a closing brace. -/
abbrev isInner (c : Char) : Bool := c != Char.ofNat 125

/-- A closure up to its first closing brace. -/
def Closure.head (closure : Closure) : List Char :=
  closure.gap.text ++ Char.ofNat 123 :: closure.body.takeWhile isInner

/-- The text of a block that is read. -/
def readText (trail : Blank) : List Item → List Char
  | [] => trail.text
  | item :: items => item.blank.text ++ item.declaration.render (match item.closure with
    | some closure => closure.head
    | none => readText trail items)

/-- The text behind the first closing brace. -/
def unreadText (trail : Blank) (after : List Char) : List Item → List Char
  | [] => after
  | item :: items =>
    match item.closure with
    | some closure => (closure.body.dropWhile isInner ++ closingBrace ::
        renderItems items (trail.text ++ closingBrace :: after)).drop 1
    | none => unreadText trail after items

omit [WordChars] in
theorem cut_brace (text rest : List Char) : text ++ closingBrace :: rest =
    text.takeWhile isInner ++ closingBrace ::
      (text.dropWhile isInner ++ closingBrace :: rest).drop 1 := by
  induction text with
  | nil =>
    simp
  | cons c text ih =>
    by_cases hc : isInner c = true
    · rw [List.takeWhile_cons_of_pos hc, List.dropWhile_cons_of_pos hc, List.cons_append, ih]
      rfl
    · rw [List.takeWhile_cons_of_neg hc, List.dropWhile_cons_of_neg hc]
      obtain rfl : c = closingBrace := by simpa [isInner, closingBrace] using hc
      rfl

omit [WordChars] in
theorem Closure.head_noBrace (closure : Closure) : NoBrace closure.head := by
  have hbody : closingBrace ∉ closure.body.takeWhile isInner := by
    intro hmem
    have hinner := List.mem_takeWhile_imp hmem
    revert hinner
    decide
  have hgap : closingBrace ∉ closure.gap.text := closure.gap.noBrace
  have hopen : closingBrace ≠ Char.ofNat 123 := by decide
  simp [NoBrace, Closure.head, hbody, hgap, hopen]

theorem readText_noBrace (trail : Blank) (items : List Item) : NoBrace (readText trail items) := by
  induction items with
  | nil => exact trail.noBrace
  | cons item items ih =>
    have hrest : NoBrace (item.declaration.render (match item.closure with
        | some closure => closure.head
        | none => readText trail items)) := by
      refine item.declaration.noBrace ?_
      split
      · exact Closure.head_noBrace _
      · exact ih
    intro hmem
    rcases List.mem_append.mp hmem with hmem | hmem
    · exact item.blank.noBrace hmem
    · exact hrest hmem

theorem renderItems_eq (trail : Blank) (after : List Char) (items : List Item) :
    renderItems items (trail.text ++ closingBrace :: after) =
      readText trail items ++ closingBrace :: unreadText trail after items := by
  induction items with
  | nil => rfl
  | cons item items ih =>
    rw [renderItems, Item.render, readText, unreadText]
    cases hclosure : item.closure with
    | none =>
      simp only
      rw [ih, item.declaration.render_append, List.append_assoc]
    | some closure =>
      simp only
      rw [Closure.render, cut_brace, List.append_assoc, ← item.declaration.render_append,
        Closure.head, List.append_assoc]
      rfl

omit [WordChars] in
theorem shrinks_gradleBlock : Shrinks gradleBlock := by
  refine (shrinks_literal (by decide)).seq (within_chain ?_)
  simp only [List.mem_cons, List.not_mem_nil, or_false, forall_eq_or_imp, forall_eq]
  exact ⟨within_many _, within_one _, (within_many _).group, within_one _⟩

omit [WordChars] in
theorem gradleBlock_eq_nil {text : List Char} (h : blockOpening text = []) :
    gradleBlock text = [] := by
  rw [List.eq_nil_iff_forall_not_mem]
  intro o ho
  simp only [gradleBlock, mem_chain_cons] at ho
  obtain ⟨o₁, h₁, _, ⟨o₂, h₂, _, ⟨o₃, h₃, -⟩, -⟩, -⟩ := ho
  have hmem : (⟨_, o₃.rest⟩ : Outcome Char) ∈ blockOpening text :=
    mem_chain_cons.mpr ⟨o₁, h₁, _, mem_chain_cons.mpr ⟨o₂, h₂, _, mem_chain_cons.mpr ⟨o₃, h₃, _,
      mem_chain_nil.mpr rfl, rfl⟩, rfl⟩, rfl⟩
  rw [h] at hmem
  cases hmem

/-- **The blocks of a script.** The first is the text up to the first closing brace. -/
theorem gradleBlocks_text (script : Script) :
    gradleBlocks script.text.toList = readText script.trail script.items ::
      gradleBlocks (unreadText script.trail script.after script.items) := by
  have hbrace : Prefers (chain [one (· == Char.ofNat 125)])
      (closingBrace :: unreadText script.trail script.after script.items)
      ⟨[], unreadText script.trail script.after script.items⟩ :=
    (prefers_one (by decide)).cons (prefers_nil _)
  have hinner : ∀ c ∈ readText script.trail script.items, (c != Char.ofNat 125) = true := by
    intro c hc
    have hne : c ≠ closingBrace := fun heq => readText_noBrace _ _ (heq ▸ hc)
    simpa [closingBrace] using hne
  have hend : ∀ c ∈ (closingBrace :: unreadText script.trail script.after script.items).head?,
      (c != Char.ofNat 125) = false := by
    intro c hc
    obtain rfl : closingBrace = c := by simpa using hc
    decide
  have hopen : Prefers (one (· == Char.ofNat 123)) (Char.ofNat 123 ::
      (readText script.trail script.items ++ closingBrace ::
        unreadText script.trail script.after script.items)) ⟨[], _⟩ := prefers_one (by decide)
  have hgroup : Prefers (chain [group (many (· != Char.ofNat 125)), one (· == Char.ofNat 125)])
      (readText script.trail script.items ++ closingBrace ::
        unreadText script.trail script.after script.items)
      ⟨[readText script.trail script.items], unreadText script.trail script.after script.items⟩ :=
    (prefers_many hinner hend).group.cons hbrace
  have hgap : Prefers (many isSpace) (script.gap.text ++ Char.ofNat 123 ::
      (readText script.trail script.items ++ closingBrace ::
        unreadText script.trail script.after script.items)) ⟨[], _⟩ :=
    prefers_many script.gap.space (head_noSpace (by decide))
  have hblock := (prefers_literal "dependencies".toList _).cons (hgap.cons (hopen.cons hgroup))
  have htext : renderBlock script.gap script.items script.trail script.after =
      "dependencies".toList ++ (script.gap.text ++ Char.ofNat 123 ::
        (readText script.trail script.items ++ closingBrace ::
          unreadText script.trail script.after script.items)) := by
    have h := renderItems_eq script.trail script.after script.items
    unfold renderBlock
    simp only [h]
  have hprefers : Prefers gradleBlock
      (renderBlock script.gap script.items script.trail script.after)
      ⟨[readText script.trail script.items],
        unreadText script.trail script.after script.items⟩ := by
    rw [htext]
    exact hblock
  have hbefore : findIter gradleBlock (script.before ++
      renderBlock script.gap script.items script.trail script.after) =
        findIter gradleBlock (renderBlock script.gap script.items script.trail script.after) :=
    findIter_append fun front back hsplit hne =>
      gradleBlock_eq_nil (script.first front back hsplit hne)
  rw [Script.text, String.toList_ofList, gradleBlocks, hbefore,
    findIter_some shrinks_gradleBlock hprefers, List.flatten_cons, gradleBlocks,
    List.singleton_append]

/-- The declarations that are read: up to the first with a closure. -/
def readDeclarations : List Item → List Declaration
  | [] => []
  | item :: items =>
    item.declaration :: if item.closure.isSome then [] else readDeclarations items

/-- What the first pattern finds in the first closure, up to its first closing brace. -/
def strayCoords : List Item → List (List Char × List Char)
  | [] => []
  | item :: items =>
    match item.closure with
    | some closure => coordMatches (item.declaration.leftover closure.head)
    | none => strayCoords items

/-- What the second pattern finds there. -/
def strayNamed : List Item → List (List Char × List Char)
  | [] => []
  | item :: items =>
    match item.closure with
    | some closure => namedMatches closure.head
    | none => strayNamed items

theorem Call.closing_noQuote (call : Call) : ∀ c ∈ call.closing, isQuote c = false := by
  intro c hc
  rw [Call.closing] at hc
  split at hc
  · rename_i inner _
    rcases List.mem_append.mp hc with hc | hc
    · exact inner.noQuote c hc
    · rw [List.mem_singleton.mp hc]
      decide
  · cases hc

theorem coordMatches_leftover (declaration : Declaration) {rest : List Char}
    (hrest : ¬ BeginsCoords (declaration.call.closing ++ rest)) :
    coordMatches (declaration.leftover rest) = coordMatches rest := by
  have hclosing : coordMatches (declaration.call.closing ++ rest) = coordMatches rest := by
    rw [coordMatches, quoting_coord.blank declaration.call.closing_noWord, coordMatches]
  have hvalue : ∀ {value : List Char} {q : Char}, isQuote q = true →
      (∀ c ∈ value, isQuote c = false) →
        coordMatches (value ++ q :: (declaration.call.closing ++ rest)) = coordMatches rest := by
    intro value q hq hvalue
    rw [coordMatches, quoting_coord.skip hq hvalue fun _ _ _ h => hrest h.2, ← coordMatches, hclosing]
  cases declaration with
  | coordinate call quote group_ artifact version => exact hclosing
  | named call spaced groupArgument group_ comma nameArgument artifact version =>
    cases version with
    | none => exact hvalue nameArgument.quote.isQuote_char artifact.noQuote
    | some v => exact hvalue v.argument.quote.isQuote_char v.version.noQuote

theorem CoordCall.count_colon {call : List Char} (h : CoordCall call) : call.count ':' = 0 :=
  List.count_eq_zero.mpr h.noColon

theorem Declaration.exists_lead (declaration : Declaration) (rest : List Char) :
    ∃ lead q back, (∀ c ∈ lead, isQuote c = false) ∧ lead.count ':' < 2 ∧ isQuote q = true ∧
      declaration.render rest = lead ++ q :: back := by
  cases declaration with
  | coordinate call quote group_ artifact version =>
    refine ⟨call.head, quote.char, (group_.text ++ ':' :: (artifact.text ++ ':' :: version.text)) ++
      quote.char :: (call.closing ++ rest), call.coordCall_head.noQuote, ?_, quote.isQuote_char, ?_⟩
    · rw [call.coordCall_head.count_colon]
      omega
    · simp only [Declaration.render, Declaration.arguments, Declaration.call, Quote.around, Call.head,
        List.append_assoc]
  | named call spaced groupArgument group_ comma nameArgument artifact version =>
    refine ⟨call.head ++ groupArgument.lead "group", groupArgument.quote.char, group_.text ++
      groupArgument.quote.char :: comma.render (nameArgument.render "name" artifact.text
        (version.elim (call.closing ++ rest) fun v =>
          v.comma.render (v.argument.render "version" v.version.text (call.closing ++ rest)))),
      ?_, ?_, groupArgument.quote.isQuote_char, ?_⟩
    · intro c hc
      rcases List.mem_append.mp hc with hc | hc
      · exact call.coordCall_head.noQuote c hc
      · exact groupArgument.lead_noQuote (by decide) c hc
    · have hlead : (groupArgument.lead "group").count ':' = 1 := by
        simp [Argument.lead, Blank.count_colon]
      rw [List.count_append, call.coordCall_head.count_colon, hlead]
      omega
    · cases version <;>
        simp only [Declaration.render, Declaration.arguments, Declaration.call, Argument.render_eq,
          Call.head, List.append_assoc, Option.elim]

theorem not_beginsCoords_readText (call : Call) (trail : Blank) (items : List Item) :
    ¬ BeginsCoords (call.closing ++ readText trail items) := by
  have hcolon : call.closing.count ':' = 0 := by
    refine List.count_eq_zero.mpr ?_
    rw [Call.closing]
    split
    · rename_i inner _
      have hinner : ':' ∉ inner.text := List.count_eq_zero.mp inner.count_colon
      simp [hinner]
    · simp
  have hclosing := call.closing_noQuote
  cases items with
  | nil =>
    rintro ⟨coords, q, back, -, -, hq, htext⟩
    have hmem : q ∈ call.closing ++ trail.text := by
      rw [readText] at htext
      simp [htext]
    rcases List.mem_append.mp hmem with hmem | hmem
    · rw [hclosing q hmem] at hq
      cases hq
    · rw [trail.noQuote q hmem] at hq
      cases hq
  | cons item items =>
    rw [readText]
    obtain ⟨lead, q, back, hlead, hcount, hq, hrender⟩ := item.declaration.exists_lead
      (match item.closure with
      | some closure => closure.head
      | none => readText trail items)
    have hchars : ∀ c ∈ call.closing ++ (item.blank.text ++ lead), isQuote c = false := by
      intro c hc
      simp only [List.mem_append] at hc
      rcases hc with hc | hc | hc
      · exact hclosing c hc
      · exact item.blank.noQuote c hc
      · exact hlead c hc
    have hcolons : (call.closing ++ (item.blank.text ++ lead)).count ':' < 2 := by
      simp only [List.count_append, hcolon, item.blank.count_colon]
      omega
    have hshape : call.closing ++ (item.blank.text ++ (lead ++ q :: back)) =
        (call.closing ++ (item.blank.text ++ lead)) ++ q :: back := by
      simp only [List.append_assoc]
    rw [hrender, hshape]
    exact not_beginsCoords hq hchars hcolons

/-- **The first pattern, on a block.** -/
theorem coordMatches_readText (trail : Blank) (items : List Item) :
    coordMatches (readText trail items) =
      (readDeclarations items).flatMap Declaration.coordFound ++ strayCoords items := by
  induction items with
  | nil => exact congrArg _ (quoting_coord.none trail.noQuote)
  | cons item items ih =>
    have hblank (text : List Char) : coordMatches (item.blank.text ++ text) = coordMatches text := by
      rw [coordMatches, quoting_coord.blank item.blank.noWord, coordMatches]
    rw [readText, readDeclarations, strayCoords, hblank, coordMatches_render, List.flatMap_cons,
      List.append_assoc]
    cases hclosure : item.closure with
    | some closure => simp
    | none =>
      simp only [Option.isSome_none, Bool.false_eq_true, if_false]
      rw [coordMatches_leftover _ (not_beginsCoords_readText _ _ _), ih]

/-- **The second pattern, on a block.** -/
theorem namedMatches_readText (trail : Blank) (items : List Item) :
    namedMatches (readText trail items) =
      (readDeclarations items).flatMap Declaration.namedFound ++ strayNamed items := by
  induction items with
  | nil => exact congrArg _ (quoting_named.none trail.noQuote)
  | cons item items ih =>
    have hblank (text : List Char) : namedMatches (item.blank.text ++ text) = namedMatches text := by
      rw [namedMatches, quoting_named.blank item.blank.noWord, namedMatches]
    rw [readText, readDeclarations, strayNamed, hblank, namedMatches_render, List.flatMap_cons,
      List.append_assoc]
    cases hclosure : item.closure with
    | some closure => simp
    | none =>
      simp only [Option.isSome_none, Bool.false_eq_true, if_false]
      rw [ih]

/-! ## What is returned -/

/-- What the patterns find in a script: in the first block, and in what is behind its first closing
brace. -/
def Script.found (script : Script) : List (List Char × List Char) :=
  (readDeclarations script.items).flatMap Declaration.coordFound ++ strayCoords script.items ++
    ((readDeclarations script.items).flatMap Declaration.namedFound ++ strayNamed script.items) ++
      (gradleBlocks (unreadText script.trail script.after script.items)).flatMap fun block =>
        coordMatches block ++ namedMatches block

/-- The dependencies found under a configuration that is not passed over. -/
def Script.foundDeps (script : Script) : List BuildDep :=
  (script.found.filter fun found => !isTestConfig (String.ofList found.1)).map fun found =>
    gradleDep found.2

omit [WordChars] in
theorem foldl_addGradleMatch (found : List (List Char × List Char)) (deps : List BuildDep) :
    (found.foldl addGradleMatch (deps, deps.map gradleKey)).1 =
      ((found.filter fun found => !isTestConfig (String.ofList found.1)).map fun found =>
        gradleDep found.2).foldl (Keyed.insertNew gradleKey) deps := by
  induction found generalizing deps with
  | nil => rfl
  | cons first found ih =>
    rw [List.foldl_cons, addGradleMatch]
    by_cases htest : isTestConfig (String.ofList first.1) = true
    · rw [if_pos htest, ih, List.filter_cons_of_neg (by simp [htest])]
    · rw [if_neg htest, List.filter_cons_of_pos (by simp [htest]), List.map_cons, List.foldl_cons,
        addGradleDep, Keyed.insertNew]
      by_cases hseen : gradleKey (gradleDep first.2) ∈ deps.map gradleKey
      · simp only [if_pos hseen]
        exact ih deps
      · simp only [if_neg hseen]
        have hmore := ih (deps ++ [gradleDep first.2])
        rw [List.map_append] at hmore
        exact hmore

/-- **The dependencies of a script**: each key that is found, once. -/
theorem deps_parseGradle (script : Script) : (parseGradle script.text).deps =
    script.foundDeps.foldl (Keyed.insertNew gradleKey) [] := by
  have hblocks : ∀ (blocks : List (List Char)) (state : List BuildDep × List String),
      blocks.foldl (fun state block => (namedMatches block).foldl addGradleMatch
        ((coordMatches block).foldl addGradleMatch state)) state =
        (blocks.flatMap fun block => coordMatches block ++ namedMatches block).foldl addGradleMatch
          state := by
    intro blocks state
    induction blocks generalizing state with
    | nil => rfl
    | cons block blocks ih =>
      rw [List.foldl_cons, ih, List.flatMap_cons, List.foldl_append, List.foldl_append]
  have hfound : (gradleBlocks script.text.toList).flatMap (fun block =>
      coordMatches block ++ namedMatches block) = script.found := by
    rw [gradleBlocks_text, List.flatMap_cons, coordMatches_readText, namedMatches_readText]
    rfl
  simp only [parseGradle]
  rw [hblocks, hfound]
  exact foldl_addGradleMatch script.found []

omit [WordChars] in
theorem noColon_gradleDep (coordinates : List Char) :
    ':' ∉ (gradleDep coordinates).name.toList := by
  have hparts := PurePath.not_mem_of_mem_splitOn ':' coordinates
  rw [gradleDep, splitColons]
  cases hsplit : coordinates.splitOn ':' with
  | nil => exact absurd hsplit (List.splitOn_ne_nil _ _)
  | cons first parts =>
    rw [hsplit] at hparts
    cases parts with
    | nil =>
      have hwhole : [':'].intercalate (coordinates.splitOn ':') = coordinates :=
        List.intercalate_splitOn ':'
      rw [hsplit] at hwhole
      obtain rfl : first = coordinates := by simpa using hwhole
      simpa using hparts first List.mem_cons_self
    | cons second parts =>
      simpa using hparts second (by simp)

omit [WordChars] in
theorem gradleKey_congr {dep dep' : BuildDep} (hdep : ':' ∉ dep.name.toList)
    (hdep' : ':' ∉ dep'.name.toList) (h : dep.coordinates = dep'.coordinates) :
    gradleKey dep = gradleKey dep' := by
  have hcolon : ∀ {d : BuildDep}, ':' ∉ d.name.toList → (':' ∈ d.coordinates.toList ↔ d.groupId ≠ "") := by
    intro d hd
    rw [BuildDep.coordinates]
    split
    · rename_i hgroup
      simp [hgroup]
    · rename_i hgroup
      exact iff_of_false hd hgroup
  have hgroups : dep.groupId ≠ "" ↔ dep'.groupId ≠ "" := by rw [← hcolon hdep, ← hcolon hdep', h]
  rw [BuildDep.coordinates, BuildDep.coordinates] at h
  by_cases hgroup : dep.groupId ≠ ""
  · rw [if_pos hgroup, if_pos (hgroups.mp hgroup)] at h
    rw [gradleKey, gradleKey, h]
  · rw [if_neg hgroup, if_neg (mt hgroups.mpr hgroup)] at h
    rw [gradleKey, gradleKey, h, not_ne_iff.mp hgroup, not_ne_iff.mp (mt hgroups.mpr hgroup)]

/-- A configuration whose name starts with `test`, `androidTest` or `testFixtures`. -/
def TestOnly (config : String) : Prop :=
  ∃ start ∈ gradleIgnoredConfigPrefixes, startsWith config start = true

instance (config : String) : Decidable (TestOnly config) := by
  unfold TestOnly
  infer_instance

/-- The coordinates that a script declares under a configuration that is not test-only. -/
def Script.product (script : Script) : List String :=
  ((script.items.map Item.declaration).filter fun declaration =>
    ¬ TestOnly (String.ofList declaration.call.config.text)).map Declaration.coordinates

/-- The product dependencies, each exactly once, and nothing else. -/
structure Script.ReadAs (script : Script) (returned : List String) : Prop where
  once : ∀ x ∈ script.product, returned.count x = 1
  only : ∀ x ∈ returned, x ∈ script.product

/-- What a script has to be for its product dependencies to be read. -/
structure Script.Legible (script : Script) : Prop where
  /-- No two differ in case only. -/
  distinct : ∀ x ∈ script.product, ∀ y ∈ script.product, lower x = lower y → x = y
  /-- Each is found, under a configuration that is not passed over. -/
  shown : ∀ x ∈ script.product, ∃ dep ∈ script.foundDeps, dep.coordinates = x
  /-- Nothing else is the first to be found of those that are equal up to case. -/
  clean : ∀ front dep back, script.foundDeps = front ++ dep :: back →
    (∀ earlier ∈ front, gradleKey earlier ≠ gradleKey dep) → dep.coordinates ∈ script.product

omit [WordChars] in
theorem mem_firsts {deps : List BuildDep} {dep : BuildDep} :
    dep ∈ deps.foldl (Keyed.insertNew gradleKey) [] ↔
      ∃ front back, deps = front ++ dep :: back ∧
        ∀ earlier ∈ front, gradleKey earlier ≠ gradleKey dep := by
  have hkeys : ((deps.foldl (Keyed.insertNew gradleKey) []).map gradleKey).Nodup :=
    Keyed.nodup_foldl_insertNew List.nodup_nil
  have hnone : Keyed.find gradleKey [] (gradleKey dep) = none := rfl
  have hfind : Keyed.find gradleKey (deps.foldl (Keyed.insertNew gradleKey) []) (gradleKey dep) =
      Keyed.find gradleKey deps (gradleKey dep) := by
    rw [Keyed.find_foldl_insertNew, hnone, Option.none_or]
  have hmem : dep ∈ deps.foldl (Keyed.insertNew gradleKey) [] ↔
      Keyed.find gradleKey deps (gradleKey dep) = some dep := by
    rw [← hfind, Keyed.find_eq_some hkeys]
    simp
  rw [hmem, Keyed.find, List.find?_eq_some_iff_append]
  simp

theorem noColon_foundDeps (script : Script) : ∀ dep ∈ script.foundDeps, ':' ∉ dep.name.toList := by
  intro dep hdep
  obtain ⟨found, -, rfl⟩ := List.mem_map.mp hdep
  exact noColon_gradleDep found.2

theorem gradleKey_product {script : Script} {dep : BuildDep} (hname : ':' ∉ dep.name.toList)
    (hdep : dep.coordinates ∈ script.product) : gradleKey dep = lower dep.coordinates := by
  obtain ⟨declaration, -, hcoordinates⟩ := List.mem_map.mp hdep
  have hcolon : ':' ∈ dep.coordinates.toList := by
    rw [← hcoordinates]
    cases declaration <;> simp [Declaration.coordinates]
  rw [BuildDep.coordinates] at hcolon ⊢
  by_cases hgroup : dep.groupId ≠ ""
  · rw [if_pos hgroup, gradleKey]
  · rw [if_neg hgroup] at hcolon
    exact absurd hcolon hname

end Reading

/-- `implementation('a:b:1') { transitive = false }` and then `implementation 'c:d:1'`. -/
def closureScript : @Script asciiWords :=
  letI := asciiWords
  let blank : Blank := ⟨[' '], by decide⟩
  let none_ : Blank := ⟨[], by decide⟩
  let config : Config := ⟨"implementation".toList, by decide, by decide⟩
  let name (c : Char) (h : [c] ≠ [] ∧ (∀ d ∈ [c], isPlain d = true) ∧
      ∀ d ∈ [c], d ≠ ':' ∧ d ≠ closingBrace ∧ isSpace d = false) : Name := ⟨[c], h.1, h.2.1, h.2.2⟩
  let version : Version := ⟨['1'], by decide, by decide, by decide, fun _ hc => by cases hc; decide⟩
  { before := []
    gap := blank
    items := [
      ⟨blank, .coordinate ⟨config, none_, some (none_, none_)⟩ .single (name 'a' (by decide))
        (name 'b' (by decide)) version, some ⟨blank, " transitive = false ".toList⟩⟩,
      ⟨blank, .coordinate ⟨config, blank, none⟩ .single (name 'c' (by decide))
        (name 'd' (by decide)) version, none⟩]
    trail := blank
    after := []
    first := by
      intro front back hsplit hne
      exact absurd (List.append_eq_nil_iff.mp hsplit.symm).2 hne
    only := rfl }

end Scan
end RepoMesh
