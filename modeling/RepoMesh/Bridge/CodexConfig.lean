/-
# The configuration codex and the Bridge share

The Bridge owns one block of `config.toml`, between two marker lines, and everything else is
codex's. Each start writes the block anew in front of what it takes for codex's lines: it leaves
out blocks, assignments of the four managed keys, and `[features]` tables down to their first
foreign key. A text is the text that `read_text` yields, so its newlines are already translated.
-/
import RepoMesh.Foundation.Lines
import RepoMesh.Foundation.Text

namespace RepoMesh
namespace Bridge

open Lines

/-! ## What is written -/

/-- `GOVERNED_CODEX_CONFIG`, line by line. -/
def GOVERNED_CODEX_CONFIG : List Line :=
  [ "# >>> repomesh-agent-bridge managed block >>>",
    "# Written by repomesh-agent-bridge when governed execution is turned on.",
    "# Everything below the closing marker belongs to codex and is preserved.",
    "# The Bridge already launches codex on a Low-integrity token, and a Low-integrity",
    "# process cannot build the further-restricted token codex's own Windows sandbox",
    "# needs: every apply_patch died inside that helper before it reached an approval",
    "# (\"windows sandbox failed: os error 5\", measured 2026-08-28). So the nested",
    "# sandbox is turned off at its backend, and only there.",
    "#",
    "# sandbox_mode stays read-only, and that is the point. Approvals are how codex",
    "# asks to act outside its sandbox, so a mode that needs no approval takes away",
    "# the one channel this Bridge governs through -- the protocol callback where a",
    "# governed run's permissions are enforced and where the conversation track's",
    "# deny-all lives. Turning the sandbox off wholesale with danger-full-access does",
    "# exactly that: measured 2026-08-28, five tool actions executed on the governed",
    "# track and four on the conversation track with zero approval requests between",
    "# them.",
    "sandbox_mode = \"read-only\"",
    "approval_policy = \"on-request\"",
    "features.experimental_windows_sandbox = false",
    "features.elevated_windows_sandbox = false",
    "# <<< repomesh-agent-bridge managed block <<<" ].map String.toList

/-- `_MANAGED_OPEN`. -/
def MANAGED_OPEN : Line := "# >>> repomesh-agent-bridge managed block >>>".toList

/-- `_MANAGED_CLOSE`. -/
def MANAGED_CLOSE : Line := "# <<< repomesh-agent-bridge managed block <<<".toList

/-- `_MANAGED_KEYS`. -/
def MANAGED_KEYS : List Line :=
  [ "sandbox_mode",
    "approval_policy",
    "features.experimental_windows_sandbox",
    "features.elevated_windows_sandbox" ].map String.toList

/-- `line.strip()` is the opening marker. -/
def opens (line : Line) : Bool := Text.stripList line = MANAGED_OPEN

/-- `line.strip()` is the closing marker. -/
def closes (line : Line) : Bool := Text.stripList line = MANAGED_CLOSE

/-- A line that begins a table. -/
def isHeader (line : Line) : Bool := (Text.stripList line).head? = some '['

/-- The header of the table that the flags were once written in. -/
def isFeatures (line : Line) : Bool := Text.stripList line = "[features]".toList

/-- `line.strip().split("=", 1)[0].strip()`. -/
def keyOf (line : Line) : Line := Text.stripList ((Text.stripList line).takeWhile (· ≠ '='))

/-- A line that gives `key` a value. -/
def assigns (key line : Line) : Bool := keyOf line = key ∧ '=' ∈ Text.stripList line

/-- A line that gives one of the managed keys a value. -/
def isManaged (line : Line) : Bool := keyOf line ∈ MANAGED_KEYS ∧ '=' ∈ Text.stripList line

/-- A line that leaves a `[features]` table one of the two flags: it is empty, a comment, or a flag
itself. -/
def isFlagLine (line : Line) : Bool :=
  Text.stripList line = [] ∨ (Text.stripList line).head? = some '#' ∨
    "features.".toList ++ keyOf line ∈ MANAGED_KEYS

/-- `dropping_table` after a line outside the managed block. -/
def droppingTable (dropping : Bool) (line : Line) : Bool :=
  if isHeader line then isFeatures line else dropping && isFlagLine line

/-- The loop of `_preserved`, with `inside_block` and `dropping_table`. -/
def preservedFrom : Bool → Bool → List Line → List Line
  | _, _, [] => []
  | inside, dropping, line :: rest =>
    if opens line then preservedFrom true dropping rest
    else if inside then preservedFrom (!closes line) dropping rest
    else if droppingTable dropping line then preservedFrom false true rest
    else if isManaged line then preservedFrom false false rest
    else line :: preservedFrom false false rest

/-- `_preserved`. -/
def preserved (document : List Char) : List Char :=
  let kept := preservedFrom false false (splitLines document)
  let body := stripNewlines (joinLines kept)
  if body = [] then [] else '\n' :: body ++ ['\n']

/-- `_write_governed_codex_config`: what it writes, given the text of the file if it can be read.
It writes nothing over a file that is right. -/
def writeGovernedCodexConfig (current : Option (List Char)) : Option (List Char) :=
  let merged := unlines GOVERNED_CODEX_CONFIG ++ preserved (current.getD [])
  if current = some merged then none else some merged

/-- The text of the file after one call. -/
def configAfter (document : List Char) : List Char :=
  (writeGovernedCodexConfig (some document)).getD document

/-! ## What has to stay -/

/-- The lines that are in no closed block. The flag says that a block is open and will be
closed. -/
def outside : Bool → List Line → List Line
  | _, [] => []
  | true, line :: rest => outside (!closes line) rest
  | false, line :: rest =>
    if opens line && rest.any closes then outside true rest else line :: outside false rest

/-- Each line with the header of its table, if it is in one. -/
def under : Option Line → List Line → List (Option Line × Line)
  | _, [] => []
  | header, line :: rest =>
    if isHeader line then (some line, line) :: under (some line) rest
    else (header, line) :: under header rest

/-- Where a line stands: at top level, in a table, or in a `[features]` table that holds only the
two flags. -/
inductive Place where
  | top
  | table (header : Line)
  | flags
  deriving DecidableEq

/-- The header a place stands under. -/
def Place.header : Place → Option Line
  | top => none
  | table header => some header
  | flags => none

/-- The lines up to the next table are flags, comments or empty. -/
def onlyFlags (lines : List Line) : Bool := (lines.takeWhile fun line => !isHeader line).all isFlagLine

/-- Each line with its place. -/
def placed : Place → List Line → List (Place × Line)
  | _, [] => []
  | place, line :: rest =>
    if isHeader line then
      let table := if isFeatures line && onlyFlags rest then Place.flags else Place.table line
      (table, line) :: placed table rest
    else (place, line) :: placed place rest

/-- A line that is codex's: not part of a table of the two flags, and no managed assignment at top
level. Empty lines say nothing and are not counted. -/
def mustStay (p : Place × Line) : Bool :=
  p.1 ≠ .flags && !(p.1 = .top && isManaged p.2) && !p.2.isEmpty

/-- The lines of a document that are codex's, each with the header of its table. -/
def required (lines : List Line) : List (Option Line × Line) :=
  ((placed .top (outside false lines)).filter mustStay).map fun p => (p.1.header, p.2)

/-- **What one call owes a document.** -/
structure Governs (document : List Char) : Prop where
  /-- The managed block is there once: at the front, and no marker opens another. -/
  once : ∃ rest, splitLines (configAfter document) = GOVERNED_CODEX_CONFIG ++ rest ∧
    ∀ line ∈ rest, opens line = false
  /-- A second call writes nothing. -/
  again : writeGovernedCodexConfig (some (configAfter document)) = none
  /-- What is codex's is still there outside the block, in its order and under its header. -/
  kept : (required (splitLines document)).Sublist
    (under none (outside false (splitLines (configAfter document))))
  /-- No managed key is given two values at top level. -/
  single : ∀ key ∈ MANAGED_KEYS,
    ((under none (splitLines (configAfter document))).filter fun p =>
      p.1.isNone && assigns key p.2).length ≤ 1

/-- **The documents a call preserves.** Below a marker that opens a block and is never closed there
is nothing but tables of the two flags, `[features]` tables hold only the two flags, and the managed
keys are assigned at top level only. -/
structure Separated (document : List Char) : Prop where
  closed : ∀ before marker after,
    placed .top (outside false (splitLines document)) = before ++ marker :: after →
      opens marker.2 = true → ∀ p ∈ marker :: after, p.1 = .flags
  onlyFlags : ∀ p ∈ placed .top (outside false (splitLines document)),
    isFeatures p.2 = true → p.1 = .flags
  topLevel : ∀ p ∈ placed .top (outside false (splitLines document)),
    isManaged p.2 = true → p.1 = .top

/-! ## Kinds of lines -/

theorem stripList_cons {c : Char} (hc : Text.isSpace c = false) (cs : List Char) :
    (Text.stripList (c :: cs)).head? = some c := by
  have hfront : (c :: cs).dropWhile Text.isSpace = c :: cs :=
    List.dropWhile_cons_of_neg (by simp [hc])
  have hback : ((c :: cs).rdropWhile Text.isSpace).head? = some c := by
    rw [List.rdropWhile, List.reverse_cons, List.dropWhile_append]
    split_ifs
    · simp [hc]
    · simp
  rw [Text.stripList, hfront]
  exact hback

theorem head?_keyOf {line : Line} {c : Char} (hc : Text.isSpace c = false) (heq : c ≠ '=')
    (h : (Text.stripList line).head? = some c) : (keyOf line).head? = some c := by
  obtain ⟨rest, hrest⟩ : ∃ rest, Text.stripList line = c :: rest := by
    cases hline : Text.stripList line with
    | nil => simp [hline] at h
    | cons d rest => exact ⟨rest, by simpa [hline] using h⟩
  rw [keyOf, hrest, List.takeWhile_cons_of_pos (by simpa using heq)]
  exact stripList_cons hc _

theorem not_managed_of_head {line : Line} {c : Char} (hc : Text.isSpace c = false) (heq : c ≠ '=')
    (h : (Text.stripList line).head? = some c) (hkeys : ∀ key ∈ MANAGED_KEYS, key.head? ≠ some c) :
    isManaged line = false := by
  have hhead := head?_keyOf hc heq h
  rw [isManaged, decide_eq_false_iff_not]
  rintro ⟨hmem, -⟩
  exact hkeys _ hmem hhead

theorem not_managed_of_isHeader {line : Line} (h : isHeader line = true) :
    isManaged line = false := by
  have hhead : (Text.stripList line).head? = some '[' := by simpa [isHeader] using h
  exact not_managed_of_head (by decide) (by decide) hhead (by decide)

/-- **A flag of a table is no managed assignment.** The managed keys spell the table out. -/
theorem not_managed_of_isFlagLine {line : Line} (h : isFlagLine line = true) :
    isManaged line = false := by
  rw [isFlagLine, decide_eq_true_eq] at h
  rcases h with hblank | hcomment | hflag
  · simp [isManaged, hblank]
  · exact not_managed_of_head (by decide) (by decide) hcomment (by decide)
  · have hdisjoint : ∀ key ∈ MANAGED_KEYS, "features.".toList ++ key ∉ MANAGED_KEYS := by decide
    rw [isManaged, decide_eq_false_iff_not]
    rintro ⟨hmem, -⟩
    exact hdisjoint _ hmem hflag

theorem stripList_of_opens {line : Line} (h : opens line = true) :
    Text.stripList line = MANAGED_OPEN := by
  rw [opens, decide_eq_true_eq] at h
  exact h

theorem isFlagLine_of_opens {line : Line} (h : opens line = true) : isFlagLine line = true := by
  have hcomment : (Text.stripList line).head? = some '#' := by
    rw [stripList_of_opens h]
    decide
  rw [isFlagLine, decide_eq_true_eq]
  exact Or.inr (Or.inl hcomment)

theorem not_isHeader_of_opens {line : Line} (h : opens line = true) : isHeader line = false := by
  rw [isHeader, stripList_of_opens h]
  decide

theorem isHeader_of_isFeatures {line : Line} (h : isFeatures line = true) :
    isHeader line = true := by
  rw [isFeatures, decide_eq_true_eq] at h
  rw [isHeader, h]
  decide

theorem stripList_of_isEmpty {line : Line} (h : line.isEmpty = true) : Text.stripList line = [] := by
  rw [List.isEmpty_iff.mp h]
  rfl

theorem not_isEmpty_of_isHeader {line : Line} (h : isHeader line = true) :
    line.isEmpty = false := by
  rw [Bool.eq_false_iff]
  intro hempty
  rw [isHeader, stripList_of_isEmpty hempty] at h
  exact absurd h (by decide)

theorem not_isEmpty_of_isManaged {line : Line} (h : isManaged line = true) :
    line.isEmpty = false := by
  rw [Bool.eq_false_iff]
  intro hempty
  rw [isManaged, stripList_of_isEmpty hempty] at h
  simp at h

theorem not_isEmpty_of_opens {line : Line} (h : opens line = true) : line.isEmpty = false := by
  rw [Bool.eq_false_iff]
  intro hempty
  rw [opens, stripList_of_isEmpty hempty] at h
  exact absurd h (by decide)

theorem onlyFlags_cons {line : Line} (h : isHeader line = false) (lines : List Line) :
    onlyFlags (line :: lines) = (isFlagLine line && onlyFlags lines) := by
  rw [onlyFlags, List.takeWhile_cons_of_pos (by simp [h]), List.all_cons, onlyFlags]

/-! ## The two passes of the loop -/

/-- What the loop leaves of the blocks. A block that is never closed reaches to the end. -/
def withoutBlocks : Bool → List Line → List Line
  | _, [] => []
  | inside, line :: rest =>
    if opens line then withoutBlocks true rest
    else if inside then withoutBlocks (!closes line) rest
    else line :: withoutBlocks false rest

/-- What it leaves of the rest. -/
def keptFrom : Bool → List Line → List Line
  | _, [] => []
  | dropping, line :: rest =>
    if droppingTable dropping line then keptFrom true rest
    else if isManaged line then keptFrom false rest
    else line :: keptFrom false rest

theorem preservedFrom_eq (inside dropping : Bool) (lines : List Line) :
    preservedFrom inside dropping lines = keptFrom dropping (withoutBlocks inside lines) := by
  induction lines generalizing inside dropping with
  | nil => rfl
  | cons line rest ih =>
    simp only [preservedFrom, withoutBlocks, ih]
    split_ifs <;> simp [keptFrom, *]

theorem not_opens_of_mem_withoutBlocks {inside : Bool} {lines : List Line} :
    ∀ line ∈ withoutBlocks inside lines, opens line = false := by
  induction lines generalizing inside with
  | nil => simp [withoutBlocks]
  | cons line rest ih =>
    rw [withoutBlocks]
    split_ifs with hopens hinside
    · exact ih
    · exact ih
    · intro other hother
      rcases List.mem_cons.mp hother with rfl | hother
      · simpa using hopens
      · exact ih other hother

theorem withoutBlocks_unclosed {lines : List Line} (h : lines.any closes = false) :
    withoutBlocks true lines = [] := by
  induction lines with
  | nil => rfl
  | cons line rest ih =>
    rw [List.any_cons, Bool.or_eq_false_iff] at h
    rw [withoutBlocks, h.1, if_pos rfl]
    split_ifs <;> exact ih h.2

theorem outside_unclosed {lines : List Line} (h : lines.any closes = false) :
    outside false lines = lines := by
  induction lines with
  | nil => rfl
  | cons line rest ih =>
    rw [List.any_cons, Bool.or_eq_false_iff] at h
    rw [outside, h.2, Bool.and_false, if_neg Bool.false_ne_true, ih h.2]

theorem not_closes_of_opens {line : Line} (h : opens line = true) : closes line = false := by
  rw [closes, stripList_of_opens h]
  decide

/-- **What the loop loses to a block.** The lines from the first marker on that is never closed, if
there is one. -/
theorem outside_eq (inside : Bool) (lines : List Line)
    (h : inside = true → lines.any closes = true) :
    ∃ tail, outside inside lines = withoutBlocks inside lines ++ tail ∧
      (tail = [] ∨ ∃ marker rest, tail = marker :: rest ∧ opens marker = true) := by
  induction lines generalizing inside with
  | nil => exact ⟨[], by simp [outside, withoutBlocks], Or.inl rfl⟩
  | cons line rest ih =>
    cases inside with
    | true =>
      have hany := h rfl
      rw [List.any_cons, Bool.or_eq_true] at hany
      rw [outside, withoutBlocks, if_pos rfl]
      split_ifs with hopens
      · have hclose := not_closes_of_opens hopens
        rw [hclose] at hany ⊢
        exact ih true fun _ => hany.resolve_left Bool.false_ne_true
      · apply ih
        intro hstill
        have hclose : closes line = false := by simpa using hstill
        exact hany.resolve_left (by simp [hclose])
    | false =>
      rw [outside, withoutBlocks]
      by_cases hopens : opens line = true
      · rw [if_pos hopens, hopens, Bool.true_and]
        by_cases hany : rest.any closes = true
        · rw [if_pos hany]
          exact ih true fun _ => hany
        · have hnone : rest.any closes = false := by simpa using hany
          refine ⟨line :: rest, ?_, Or.inr ⟨line, rest, rfl, hopens⟩⟩
          rw [if_neg hany, outside_unclosed hnone, withoutBlocks_unclosed hnone, List.nil_append]
      · have hfalse : opens line = false := by simpa using hopens
        obtain ⟨tail, htail, hmarker⟩ := ih false (by simp)
        refine ⟨tail, ?_, hmarker⟩
        rw [hfalse, Bool.false_and, if_neg Bool.false_ne_true, if_neg Bool.false_ne_true,
          if_neg Bool.false_ne_true, htail, List.cons_append]

/-! ## What is kept is what has to stay -/

theorem map_snd_placed (place : Place) (lines : List Line) :
    (placed place lines).map Prod.snd = lines := by
  induction lines generalizing place with
  | nil => rfl
  | cons line rest ih =>
    rw [placed]
    split_ifs <;> simp [ih]

/-- The place of a line that begins a table. -/
def tableOf (line : Line) (rest : List Line) : Place :=
  if isFeatures line && onlyFlags rest then .flags else .table line

theorem placed_header {line : Line} (h : isHeader line = true) (place : Place)
    (rest : List Line) :
    placed place (line :: rest) = (tableOf line rest, line) :: placed (tableOf line rest) rest := by
  rw [placed, if_pos h]
  rfl

theorem placed_line {line : Line} (h : isHeader line = false) (place : Place)
    (rest : List Line) :
    placed place (line :: rest) = (place, line) :: placed place rest := by
  rw [placed, h, if_neg Bool.false_ne_true]

theorem keptFrom_features {line : Line} (h : isFeatures line = true) (dropping : Bool)
    (rest : List Line) : keptFrom dropping (line :: rest) = keptFrom true rest := by
  rw [keptFrom, droppingTable, if_pos (isHeader_of_isFeatures h), if_pos h]

theorem keptFrom_header {line : Line} (h : isHeader line = true) (hfeatures : isFeatures line = false)
    (dropping : Bool) (rest : List Line) :
    keptFrom dropping (line :: rest) = line :: keptFrom false rest := by
  rw [keptFrom, droppingTable, if_pos h, hfeatures, if_neg Bool.false_ne_true,
    not_managed_of_isHeader h, if_neg Bool.false_ne_true]

theorem keptFrom_flag {line : Line} (h : isHeader line = false) (hflag : isFlagLine line = true)
    (rest : List Line) : keptFrom true (line :: rest) = keptFrom true rest := by
  rw [keptFrom, droppingTable, h, hflag]
  rfl

theorem keptFrom_line {line : Line} {dropping : Bool} (h : isHeader line = false)
    (hflag : (dropping && isFlagLine line) = false) (rest : List Line) :
    keptFrom dropping (line :: rest)
      = if isManaged line then keptFrom false rest else line :: keptFrom false rest := by
  rw [keptFrom, droppingTable, h, if_neg Bool.false_ne_true, hflag, if_neg Bool.false_ne_true]

/-- How many lines the loop keeps, the empty ones aside. -/
def keptCount (dropping : Bool) (lines : List Line) : ℕ :=
  ((keptFrom dropping lines).filter fun line => !line.isEmpty).length

/-- How many lines have to stay. -/
def stayCount (place : Place) (lines : List Line) : ℕ :=
  ((placed place lines).filter mustStay).length

theorem stayCount_table (header line : Line) {rest : List Line} (h : isHeader line = true)
    (htable : tableOf line rest = .table header) (place : Place) :
    stayCount place (line :: rest) = stayCount (.table header) rest + 1 := by
  have hstay : mustStay (.table header, line) = true := by
    simp [mustStay, not_isEmpty_of_isHeader h]
  rw [stayCount, placed_header h, htable, List.filter_cons_of_pos hstay, List.length_cons]
  rfl

theorem stayCount_flags {line : Line} {rest : List Line} (h : isHeader line = true)
    (htable : tableOf line rest = .flags) (place : Place) :
    stayCount place (line :: rest) = stayCount .flags rest := by
  have hgo : mustStay (.flags, line) = false := by simp [mustStay]
  rw [stayCount, placed_header h, htable, List.filter_cons_of_neg (by simp [hgo])]
  rfl

theorem stayCount_line {line : Line} (h : isHeader line = false) (place : Place)
    (rest : List Line) :
    stayCount place (line :: rest)
      = stayCount place rest + if mustStay (place, line) then 1 else 0 := by
  rw [stayCount, placed_line h, List.filter_cons]
  split_ifs <;> rfl

theorem keptCount_cons (line : Line) (rest : List Line) :
    ((line :: keptFrom false rest).filter fun line => !line.isEmpty).length
      = keptCount false rest + if line.isEmpty then 0 else 1 := by
  rw [List.filter_cons]
  cases line.isEmpty <;> rfl

theorem tableOf_cases (line : Line) (rest : List Line) :
    (tableOf line rest = .flags ∧ isFeatures line = true ∧ onlyFlags rest = true) ∨
      (tableOf line rest = .table line ∧ (isFeatures line = true → onlyFlags rest = false)) := by
  rw [tableOf]
  split_ifs with h
  · rw [Bool.and_eq_true] at h
    exact Or.inl ⟨rfl, h⟩
  · refine Or.inr ⟨rfl, fun hfeatures => ?_⟩
    simpa [hfeatures] using h

theorem mustStay_of_kept {place : Place} {line : Line} (hplace : place ≠ .flags)
    (hmanaged : isManaged line = false) : mustStay (place, line) = !line.isEmpty := by
  simp [mustStay, hplace, hmanaged]

/-- **The loop keeps no line that may go.** -/
theorem keptCount_le {place : Place} {dropping : Bool} {lines tail : List Line}
    (h : place = .flags → dropping = true ∧ onlyFlags (lines ++ tail) = true) :
    keptCount dropping lines ≤ stayCount place (lines ++ tail) := by
  induction lines generalizing place dropping with
  | nil => exact Nat.zero_le _
  | cons line rest ih =>
    rw [List.cons_append] at h ⊢
    by_cases hheader : isHeader line = true
    · rcases tableOf_cases line (rest ++ tail) with ⟨htable, hfeatures, honly⟩ | ⟨htable, -⟩
      · have hrest : keptCount true rest ≤ stayCount .flags (rest ++ tail) :=
          ih fun _ => ⟨rfl, honly⟩
        rw [stayCount_flags hheader htable, keptCount, keptFrom_features hfeatures]
        exact hrest
      · rw [stayCount_table line line hheader htable, keptCount]
        by_cases hfeatures : isFeatures line = true
        · have hrest : keptCount true rest ≤ stayCount (.table line) (rest ++ tail) := ih (by simp)
          rw [keptFrom_features hfeatures]
          exact Nat.le_succ_of_le hrest
        · have hrest : keptCount false rest ≤ stayCount (.table line) (rest ++ tail) := ih (by simp)
          rw [keptFrom_header hheader (by simpa using hfeatures), keptCount_cons,
            not_isEmpty_of_isHeader hheader]
          exact Nat.succ_le_succ hrest
    · have hline : isHeader line = false := by simpa using hheader
      rw [stayCount_line hline, keptCount]
      by_cases hdrop : (dropping && isFlagLine line) = true
      · rw [Bool.and_eq_true] at hdrop
        have hrest : keptCount true rest ≤ stayCount place (rest ++ tail) := by
          apply ih
          intro hplace
          have honly := (h hplace).2
          rw [onlyFlags_cons hline, Bool.and_eq_true] at honly
          exact ⟨rfl, honly.2⟩
        rw [hdrop.1, keptFrom_flag hline hdrop.2]
        exact Nat.le_add_right_of_le hrest
      · have hdrop' : (dropping && isFlagLine line) = false := by simpa using hdrop
        have hplace : place ≠ .flags := by
          intro hplace
          obtain ⟨rfl, honly⟩ := h hplace
          rw [onlyFlags_cons hline, Bool.and_eq_true] at honly
          exact hdrop (by simp [honly.1])
        have hrest : keptCount false rest ≤ stayCount place (rest ++ tail) :=
          ih fun hflags => absurd hflags hplace
        rw [keptFrom_line hline hdrop']
        by_cases hmanaged : isManaged line = true
        · rw [if_pos hmanaged]
          exact Nat.le_add_right_of_le hrest
        · rw [if_neg hmanaged, keptCount_cons, mustStay_of_kept hplace (by simpa using hmanaged)]
          cases line.isEmpty <;> simpa using hrest

/-- Lines that stand where the loop takes them to stand. -/
def Fits (lines : List (Place × Line)) : Prop :=
  ∀ p ∈ lines, (isFeatures p.2 = true → p.1 = .flags) ∧ (isManaged p.2 = true → p.1 = .top)

/-- `dropping_table`, where every table that begins with a flag holds flags only. -/
def Place.dropping (place : Place) : Bool := place = .flags

theorem dropping_of_ne {place : Place} (h : place ≠ .flags) : place.dropping = false := by
  simpa [Place.dropping] using h

theorem flags_of_stayCount {lines : List Line} (hflags : onlyFlags lines = true)
    (h : stayCount .flags lines = 0) : ∀ p ∈ placed .flags lines, p.1 = .flags := by
  induction lines with
  | nil => simp [placed]
  | cons line rest ih =>
    by_cases hheader : isHeader line = true
    · rcases tableOf_cases line rest with ⟨htable, -, honly⟩ | ⟨htable, -⟩
      · rw [stayCount_flags hheader htable] at h
        rw [placed_header hheader, htable]
        intro p hp
        rcases List.mem_cons.mp hp with rfl | hp
        · rfl
        · exact ih honly h p hp
      · rw [stayCount_table line line hheader htable] at h
        omega
    · have hline : isHeader line = false := by simpa using hheader
      rw [onlyFlags_cons hline, Bool.and_eq_true] at hflags
      rw [stayCount_line hline] at h
      rw [placed_line hline]
      intro p hp
      rcases List.mem_cons.mp hp with rfl | hp
      · rfl
      · exact ih hflags.2 (by omega) p hp

/-- **No line of a table of flags is a managed assignment.** -/
theorem not_managed_of_flags {place : Place} {lines : List Line}
    (h : place = .flags → onlyFlags lines = true) :
    ∀ p ∈ placed place lines, p.1 = .flags → isManaged p.2 = false := by
  induction lines generalizing place with
  | nil => simp [placed]
  | cons line rest ih =>
    by_cases hheader : isHeader line = true
    · rw [placed_header hheader]
      intro p hp hplace
      rcases List.mem_cons.mp hp with rfl | hp
      · exact not_managed_of_isHeader hheader
      · refine ih ?_ p hp hplace
        intro hflags
        rcases tableOf_cases line rest with ⟨-, -, honly⟩ | ⟨htable, -⟩
        · exact honly
        · rw [htable] at hflags
          cases hflags
    · have hline : isHeader line = false := by simpa using hheader
      rw [placed_line hline]
      intro p hp hplace
      rw [onlyFlags_cons hline, Bool.and_eq_true] at h
      rcases List.mem_cons.mp hp with rfl | hp
      · exact not_managed_of_isFlagLine (h hplace).1
      · exact ih (fun hflags => (h hflags).2) p hp hplace

theorem fits_of_flags {lines : List Line} (hflags : onlyFlags lines = true)
    (h : ∀ p ∈ placed .flags lines, p.1 = .flags) : Fits (placed .flags lines) := by
  intro p hp
  refine ⟨fun _ => h p hp, fun hmanaged => ?_⟩
  rw [not_managed_of_flags (fun _ => hflags) p hp (h p hp)] at hmanaged
  cases hmanaged

theorem Fits.cons {p : Place × Line} {lines : List (Place × Line)} (h : Fits lines)
    (hfeatures : isFeatures p.2 = true → p.1 = .flags) (hmanaged : isManaged p.2 = true → p.1 = .top) :
    Fits (p :: lines) := by
  intro q hq
  rcases List.mem_cons.mp hq with rfl | hq
  · exact ⟨hfeatures, hmanaged⟩
  · exact h q hq

/-- **A loop that keeps as many lines as have to stay reads every line as it stands.** Each line that
it takes for something else costs one line. -/
theorem fits_of_stayCount_le {place : Place} {lines tail : List Line}
    (hplace : place = .flags → onlyFlags (lines ++ tail) = true)
    (htail : tail = [] ∨ ∃ marker rest, tail = marker :: rest ∧ opens marker = true)
    (h : stayCount place (lines ++ tail) ≤ keptCount place.dropping lines) :
    Fits (placed place (lines ++ tail)) ∧
      ∀ p ∈ (placed place (lines ++ tail)).drop lines.length, p.1 = .flags := by
  induction lines generalizing place with
  | nil =>
    have hzero : stayCount place tail = 0 := Nat.le_zero.mp h
    rcases htail with rfl | ⟨marker, rest, rfl, hopens⟩
    · simp [placed, Fits]
    · have hflags : place = .flags := by
        have hmarker := stayCount_line (not_isHeader_of_opens hopens) place rest
        by_contra hne
        rw [mustStay_of_kept hne (not_managed_of_isFlagLine (isFlagLine_of_opens hopens)),
          not_isEmpty_of_opens hopens] at hmarker
        simp only [Bool.not_false, if_true] at hmarker
        omega
      subst hflags
      have hall := flags_of_stayCount (hplace rfl) hzero
      exact ⟨fits_of_flags (hplace rfl) hall, hall⟩
  | cons line rest ih =>
    rw [List.cons_append] at hplace h ⊢
    by_cases hheader : isHeader line = true
    · have hmanaged := not_managed_of_isHeader hheader
      rw [placed_header hheader]
      rcases tableOf_cases line (rest ++ tail) with ⟨htable, hfeatures, honly⟩ | ⟨htable, himpure⟩
      · rw [stayCount_flags hheader htable, keptCount, keptFrom_features hfeatures] at h
        obtain ⟨hfits, hdrop⟩ := @ih .flags (fun _ => honly) h
        rw [htable]
        exact ⟨hfits.cons (fun _ => rfl) (by simp [hmanaged]), hdrop⟩
      · rw [stayCount_table line line hheader htable, keptCount] at h
        by_cases hfeatures : isFeatures line = true
        · -- the header goes and the table stays: one line is missing
          have hle : keptCount true rest ≤ stayCount (.table line) (rest ++ tail) :=
            keptCount_le (by simp)
          rw [keptFrom_features hfeatures] at h
          exact absurd (Nat.lt_of_succ_le h) (Nat.not_lt.mpr hle)
        · rw [keptFrom_header hheader (by simpa using hfeatures), keptCount_cons,
            not_isEmpty_of_isHeader hheader] at h
          obtain ⟨hfits, hdrop⟩ := @ih (.table line) (by simp) (Nat.le_of_succ_le_succ h)
          rw [htable]
          exact ⟨hfits.cons (by simp [hfeatures]) (by simp [hmanaged]), hdrop⟩
    · have hline : isHeader line = false := by simpa using hheader
      have hnot : isFeatures line = false := by
        rw [Bool.eq_false_iff]
        exact fun hfeatures => hheader (isHeader_of_isFeatures hfeatures)
      rw [placed_line hline]
      rw [stayCount_line hline, keptCount] at h
      by_cases hflags : place = .flags
      · subst hflags
        have honly := hplace rfl
        rw [onlyFlags_cons hline, Bool.and_eq_true] at honly
        have hkept : keptFrom Place.flags.dropping (line :: rest) = keptFrom true rest :=
          keptFrom_flag hline honly.1 rest
        rw [hkept] at h
        obtain ⟨hfits, hdrop⟩ := @ih .flags (fun _ => honly.2) (Nat.le_of_add_right_le h)
        exact ⟨hfits.cons (by simp) (by simp [not_managed_of_isFlagLine honly.1]), hdrop⟩
      · have hdropping := dropping_of_ne hflags
        have hle : keptCount false rest ≤ stayCount place (rest ++ tail) :=
          keptCount_le fun hplace => absurd hplace hflags
        rw [hdropping, keptFrom_line hline (by simp)] at h
        by_cases hmanaged : isManaged line = true
        · rw [if_pos hmanaged] at h
          have htop : place = .top := by
            -- a managed assignment of a table has to stay and does not
            by_contra hne
            have hstay : mustStay (place, line) = true := by
              simp [mustStay, hflags, hne, not_isEmpty_of_isManaged hmanaged]
            rw [hstay, if_pos rfl] at h
            exact absurd (Nat.lt_of_succ_le h) (Nat.not_lt.mpr hle)
          rw [← hdropping] at h
          obtain ⟨hfits, hdrop⟩ := ih (fun hplace => absurd hplace hflags)
            (Nat.le_of_add_right_le h)
          exact ⟨hfits.cons (by simp [hnot]) (fun _ => htop), hdrop⟩
        · rw [if_neg hmanaged, keptCount_cons, mustStay_of_kept hflags (by simpa using hmanaged),
            ← hdropping] at h
          have hrest : stayCount place (rest ++ tail) ≤ keptCount place.dropping rest := by
            cases line.isEmpty <;> simpa using h
          obtain ⟨hfits, hdrop⟩ := ih (fun hplace => absurd hplace hflags) hrest
          exact ⟨hfits.cons (by simp [hnot]) (fun hm => absurd hm hmanaged), hdrop⟩

theorem Fits.tail {p : Place × Line} {lines : List (Place × Line)} (h : Fits (p :: lines)) :
    Fits lines := fun q hq => h q (List.mem_cons_of_mem p hq)

/-- **What the loop keeps of such lines is what has to stay**, and each of them keeps its header. -/
theorem under_keptFrom {place : Place} {header : Option Line} {lines tail : List Line}
    (hplace : place = .flags → onlyFlags (lines ++ tail) = true)
    (hheader : place ≠ .flags → header = place.header)
    (hfits : Fits (placed place (lines ++ tail)))
    (htail : ∀ p ∈ (placed place (lines ++ tail)).drop lines.length, p.1 = .flags) :
    (under header (keptFrom place.dropping lines)).filter (fun p => !p.2.isEmpty)
      = ((placed place (lines ++ tail)).filter mustStay).map fun p => (p.1.header, p.2) := by
  induction lines generalizing place header with
  | nil =>
    have hnone : (placed place tail).filter mustStay = [] := by
      rw [List.filter_eq_nil_iff]
      intro p hp
      simp [mustStay, htail p hp]
    rw [List.nil_append, hnone]
    rfl
  | cons line rest ih =>
    rw [List.cons_append] at hplace hfits htail ⊢
    by_cases hhead : isHeader line = true
    · rw [placed_header hhead] at hfits htail ⊢
      rcases tableOf_cases line (rest ++ tail) with ⟨htable, hfeatures, honly⟩ | ⟨htable, -⟩
      · rw [htable] at hfits htail ⊢
        have hgo : mustStay (.flags, line) = false := by simp [mustStay]
        rw [keptFrom_features hfeatures, List.filter_cons_of_neg (by simp [hgo])]
        exact ih (fun _ => honly) (by simp) hfits.tail htail
      · rw [htable] at hfits htail ⊢
        have hfeatures : isFeatures line = false := by
          rw [Bool.eq_false_iff]
          intro hfeatures
          cases (hfits _ List.mem_cons_self).1 hfeatures
        have hstay : mustStay (.table line, line) = true := by
          simp [mustStay, not_isEmpty_of_isHeader hhead]
        have hrest := @ih (.table line) (some line) (by simp) (fun _ => rfl) hfits.tail htail
        rw [keptFrom_header hhead hfeatures, List.filter_cons_of_pos hstay, List.map_cons, ← hrest,
          under, if_pos hhead, List.filter_cons_of_pos (by simp [not_isEmpty_of_isHeader hhead])]
        rfl
    · have hline : isHeader line = false := by simpa using hhead
      rw [placed_line hline] at hfits htail ⊢
      by_cases hflags : place = .flags
      · subst hflags
        have honly := hplace rfl
        rw [onlyFlags_cons hline, Bool.and_eq_true] at honly
        have hgo : mustStay (.flags, line) = false := by simp [mustStay]
        have hkept : keptFrom Place.flags.dropping (line :: rest) = keptFrom true rest :=
          keptFrom_flag hline honly.1 rest
        rw [hkept, List.filter_cons_of_neg (by simp [hgo])]
        exact ih (fun _ => honly.2) hheader hfits.tail htail
      · have hdropping := dropping_of_ne hflags
        have hrest := ih (fun hp => absurd hp hflags) hheader hfits.tail htail
        rw [hdropping] at hrest
        rw [hdropping, keptFrom_line hline (by simp)]
        by_cases hmanaged : isManaged line = true
        · have htop : place = .top := (hfits _ List.mem_cons_self).2 hmanaged
          have hgo : mustStay (place, line) = false := by simp [mustStay, hmanaged, htop]
          rw [if_pos hmanaged, List.filter_cons_of_neg (by simp [hgo])]
          exact hrest
        · have hstay := @mustStay_of_kept place line hflags (by simpa using hmanaged)
          rw [if_neg hmanaged, under, if_neg hhead]
          cases hempty : line.isEmpty with
          | true =>
            rw [List.filter_cons_of_neg (by simp [hempty]),
              List.filter_cons_of_neg (by simp [hstay, hempty])]
            exact hrest
          | false =>
            rw [List.filter_cons_of_pos (by simp [hempty]),
              List.filter_cons_of_pos (by simp [hstay, hempty]), List.map_cons, ← hrest,
              hheader hflags]

/-! ## The text that is written -/

theorem governed_lines : ∃ lines, GOVERNED_CODEX_CONFIG = lines ∧
    (∀ line ∈ lines, Unbroken line ∧ isHeader line = false) ∧
      (∀ key ∈ MANAGED_KEYS, (lines.filter (assigns key)).length ≤ 1) ∧
      lines = lines.head! :: (lines.tail.dropLast ++ [lines.getLast!]) ∧
      opens lines.head! = true ∧
      (∀ line ∈ lines.tail.dropLast, opens line = false ∧ closes line = false) ∧
      opens lines.getLast! = false ∧ closes lines.getLast! = true := by
  apply Exists.intro
  apply And.intro
  · unfold GOVERNED_CODEX_CONFIG
    repeat apply map_toList_cons
    exact List.map_nil
  · decide +kernel

theorem governed_block : ∃ first middle last,
    GOVERNED_CODEX_CONFIG = first :: (middle ++ [last]) ∧ opens first = true ∧
      (∀ line ∈ middle, opens line = false ∧ closes line = false) ∧
      opens last = false ∧ closes last = true := by
  obtain ⟨lines, hlines, -, -, hsplit, hrest⟩ := governed_lines
  exact ⟨lines.head!, lines.tail.dropLast, lines.getLast!, hlines.trans hsplit, hrest⟩

theorem governed_plain :
    ∀ line ∈ GOVERNED_CODEX_CONFIG, Unbroken line ∧ isHeader line = false := by
  obtain ⟨lines, hlines, hplain, -⟩ := governed_lines
  rw [hlines]
  exact hplain

theorem governed_assigns :
    ∀ key ∈ MANAGED_KEYS, (GOVERNED_CODEX_CONFIG.filter (assigns key)).length ≤ 1 := by
  obtain ⟨lines, hlines, -, honce, -⟩ := governed_lines
  rw [hlines]
  exact honce

/-- A line the loop would not touch, at top level or in a table. -/
def Settled (line : Line) : Prop :=
  opens line = false ∧ isFeatures line = false ∧ isManaged line = false

theorem keptFrom_sublist (dropping : Bool) (lines : List Line) :
    (keptFrom dropping lines).Sublist lines := by
  induction lines generalizing dropping with
  | nil => exact List.Sublist.slnil
  | cons line rest ih =>
    rw [keptFrom]
    split_ifs
    · exact (ih true).cons line
    · exact (ih false).cons line
    · exact (ih false).cons_cons line

theorem withoutBlocks_sublist (inside : Bool) (lines : List Line) :
    (withoutBlocks inside lines).Sublist lines := by
  induction lines generalizing inside with
  | nil => exact List.Sublist.slnil
  | cons line rest ih =>
    rw [withoutBlocks]
    split_ifs
    · exact (ih true).cons line
    · exact (ih (!closes line)).cons line
    · exact (ih false).cons_cons line

theorem keptFrom_untouched {dropping : Bool} {lines : List Line} :
    ∀ line ∈ keptFrom dropping lines, isFeatures line = false ∧ isManaged line = false := by
  induction lines generalizing dropping with
  | nil => simp [keptFrom]
  | cons line rest ih =>
    rw [keptFrom]
    split_ifs with hdrop hmanaged
    · exact ih
    · exact ih
    · intro other hother
      rcases List.mem_cons.mp hother with rfl | hother
      · refine ⟨?_, by simpa using hmanaged⟩
        rw [Bool.eq_false_iff]
        intro hfeatures
        rw [droppingTable, if_pos (isHeader_of_isFeatures hfeatures)] at hdrop
        exact hdrop hfeatures
      · exact ih other hother

/-- **A line that was kept is kept again.** -/
theorem settled_of_mem_preservedFrom {lines : List Line} :
    ∀ line ∈ preservedFrom false false lines, Settled line := by
  intro line hline
  rw [preservedFrom_eq] at hline
  have hopens := not_opens_of_mem_withoutBlocks line ((keptFrom_sublist _ _).subset hline)
  exact ⟨hopens, keptFrom_untouched line hline⟩

theorem preservedFrom_settled {lines : List Line} (h : ∀ line ∈ lines, Settled line) :
    preservedFrom false false lines = lines := by
  induction lines with
  | nil => rfl
  | cons line rest ih =>
    obtain ⟨hopens, hfeatures, hmanaged⟩ := h line (by simp)
    have hrest := ih fun l hl => h l (by simp [hl])
    have hdrop : droppingTable false line = false := by
      rw [droppingTable, hfeatures, Bool.false_and, ite_self]
    rw [preservedFrom, hopens, hdrop, hmanaged, hrest]
    rfl

theorem unbroken_of_mem_preservedFrom {document : List Char} :
    ∀ line ∈ preservedFrom false false (splitLines document), Unbroken line := by
  intro line hline
  rw [preservedFrom_eq] at hline
  exact unbroken_of_mem_splitLines document line
    ((withoutBlocks_sublist _ _).subset ((keptFrom_sublist _ _).subset hline))

/-- The lines below the block. -/
def behind (kept : List Line) : List Line :=
  if trimmed kept = [] then [] else [] :: trimmed kept

/-- The lines that a call writes below the block. -/
def rewritten (document : List Char) : List Line :=
  behind (preservedFrom false false (splitLines document))

theorem preserved_eq (document : List Char) :
    preserved document = unlines (rewritten document) := by
  have hstrip := stripNewlines_joinLines (@unbroken_of_mem_preservedFrom document)
  simp only [preserved, rewritten, behind, hstrip, joinLines_trimmed_eq_nil]
  split_ifs with hnone
  · rfl
  · rw [List.cons_append, joinLines_newline hnone]
    rfl

theorem configAfter_eq (document : List Char) :
    configAfter document = unlines GOVERNED_CODEX_CONFIG ++ preserved document := by
  rw [configAfter, writeGovernedCodexConfig]
  simp only [Option.getD_some, Option.some.injEq]
  split_ifs with hsame
  · exact hsame
  · rfl

theorem mem_rewritten {document : List Char} {line : Line} (h : line ∈ rewritten document) :
    line = [] ∨ line ∈ preservedFrom false false (splitLines document) := by
  rw [rewritten, behind] at h
  split_ifs at h
  · simp at h
  · rcases List.mem_cons.mp h with rfl | h
    · exact Or.inl rfl
    · exact Or.inr ((trimmed_sublist _).subset h)

theorem settled_of_mem_rewritten {document : List Char} :
    ∀ line ∈ rewritten document, Settled line := by
  intro line hline
  rcases mem_rewritten hline with rfl | hline
  · exact ⟨by decide, by decide, by decide⟩
  · exact settled_of_mem_preservedFrom line hline

/-- **The lines of the file after a call.** -/
theorem splitLines_configAfter (document : List Char) :
    splitLines (configAfter document) = GOVERNED_CODEX_CONFIG ++ rewritten document := by
  have hblock : ∀ line ∈ GOVERNED_CODEX_CONFIG, Unbroken line :=
    fun line hline => (governed_plain line hline).1
  have hbelow : ∀ line ∈ rewritten document, Unbroken line := by
    intro line hline
    rcases mem_rewritten hline with rfl | hline
    · simp [Unbroken]
    · exact unbroken_of_mem_preservedFrom line hline
  have hrest := splitLines_unlines hbelow []
  rw [configAfter_eq, preserved_eq, splitLines_unlines hblock]
  simpa [splitLines] using hrest

/-! ## The block in front -/

theorem outside_block {middle : List Line} {last : Line} (rest : List Line)
    (hmiddle : ∀ line ∈ middle, opens line = false ∧ closes line = false)
    (hlast : closes last = true) : outside true (middle ++ last :: rest) = outside false rest := by
  induction middle with
  | nil => rw [List.nil_append, outside, hlast, Bool.not_true]
  | cons line middle ih =>
    rw [List.cons_append, outside, (hmiddle line (by simp)).2, Bool.not_false]
    exact ih fun l hl => hmiddle l (by simp [hl])

theorem preservedFrom_block {middle : List Line} {last : Line} (rest : List Line)
    (hmiddle : ∀ line ∈ middle, opens line = false ∧ closes line = false)
    (hopens : opens last = false) (hlast : closes last = true) :
    preservedFrom true false (middle ++ last :: rest) = preservedFrom false false rest := by
  induction middle with
  | nil =>
    rw [List.nil_append, preservedFrom, hopens, hlast]
    rfl
  | cons line middle ih =>
    obtain ⟨hopen, hclose⟩ := hmiddle line (by simp)
    rw [List.cons_append, preservedFrom, hopen, hclose, Bool.not_false, if_pos rfl,
      if_neg Bool.false_ne_true]
    exact ih fun l hl => hmiddle l (by simp [hl])

theorem outside_settled {lines : List Line} (h : ∀ line ∈ lines, Settled line) :
    outside false lines = lines := by
  induction lines with
  | nil => rfl
  | cons line rest ih =>
    rw [outside, (h line (by simp)).1, Bool.false_and, if_neg Bool.false_ne_true,
      ih fun l hl => h l (by simp [hl])]

theorem outside_governed {rest : List Line} (h : ∀ line ∈ rest, Settled line) :
    outside false (GOVERNED_CODEX_CONFIG ++ rest) = rest := by
  obtain ⟨first, middle, last, hblock, hopens, hmiddle, -, hcloses⟩ := governed_block
  have hany : (middle ++ [last] ++ rest).any closes = true := by simp [hcloses]
  rw [hblock, List.cons_append, outside, hopens, hany, Bool.and_true, if_pos rfl,
    List.append_assoc, List.singleton_append, outside_block rest hmiddle hcloses,
    outside_settled h]

theorem preservedFrom_governed {rest : List Line} (h : ∀ line ∈ rest, Settled line) :
    preservedFrom false false (GOVERNED_CODEX_CONFIG ++ rest) = rest := by
  obtain ⟨first, middle, last, hblock, hopens, hmiddle, hlast, hcloses⟩ := governed_block
  rw [hblock, List.cons_append, preservedFrom, hopens, if_pos rfl, List.append_assoc,
    List.singleton_append, preservedFrom_block rest hmiddle hlast hcloses,
    preservedFrom_settled h]

theorem behind_rewritten (document : List Char) :
    behind (rewritten document) = rewritten document := by
  rw [rewritten]
  by_cases hnone : trimmed (preservedFrom false false (splitLines document)) = []
  · rw [behind, behind, if_pos hnone]
    rfl
  · have hagain := trimmed_nil_cons_trimmed (preservedFrom false false (splitLines document))
    rw [behind, behind, if_neg hnone, hagain, if_neg hnone]

/-- **A second call writes nothing**, whatever the first one found. -/
theorem writeGovernedCodexConfig_again (document : List Char) :
    writeGovernedCodexConfig (some (configAfter document)) = none := by
  have hlines : rewritten (configAfter document) = rewritten document := by
    rw [rewritten, splitLines_configAfter, preservedFrom_governed settled_of_mem_rewritten,
      behind_rewritten]
  have hsame : preserved (configAfter document) = preserved document := by
    rw [preserved_eq, preserved_eq, hlines]
  rw [writeGovernedCodexConfig]
  simp only [Option.getD_some, hsame]
  rw [if_pos (congrArg some (configAfter_eq document))]

/-! ## What a call owes -/

theorem under_append {front : List Line} (h : ∀ line ∈ front, isHeader line = false)
    (header : Option Line) (rest : List Line) :
    under header (front ++ rest) = front.map (fun line => (header, line)) ++ under header rest := by
  induction front with
  | nil => rfl
  | cons line front ih =>
    rw [List.cons_append, under, h line (by simp), if_neg Bool.false_ne_true,
      ih fun l hl => h l (by simp [hl])]
    rfl

theorem map_snd_under (header : Option Line) (lines : List Line) :
    (under header lines).map Prod.snd = lines := by
  induction lines generalizing header with
  | nil => rfl
  | cons line rest ih =>
    rw [under]
    split_ifs <;> simp [ih]

theorem under_filter (header : Option Line) (lines : List Line) :
    (under header lines).filter (fun p => !p.2.isEmpty)
      = under header (lines.filter fun line => !line.isEmpty) := by
  induction lines generalizing header with
  | nil => rfl
  | cons line rest ih =>
    rw [under]
    by_cases hhead : isHeader line = true
    · have hne := not_isEmpty_of_isHeader hhead
      rw [if_pos hhead, List.filter_cons_of_pos (by simp [hne]), List.filter_cons_of_pos
        (by simp [hne]), under, if_pos hhead, ih]
    · rw [if_neg hhead]
      cases hempty : line.isEmpty with
      | true =>
        rw [List.filter_cons_of_neg (by simp [hempty]), List.filter_cons_of_neg (by simp [hempty]),
          ih]
      | false =>
        rw [List.filter_cons_of_pos (by simp [hempty]), List.filter_cons_of_pos (by simp [hempty]),
          under, if_neg hhead, ih]

theorem filter_rewritten (document : List Char) :
    (rewritten document).filter (fun line => !line.isEmpty)
      = (preservedFrom false false (splitLines document)).filter fun line => !line.isEmpty := by
  rw [← filter_trimmed, ← filter_trimmed (preservedFrom false false (splitLines document)),
    rewritten, behind]
  split_ifs with hnone
  · rw [hnone]
    rfl
  · rw [trimmed_nil_cons_trimmed]

theorem single_assignment (document : List Char) (key : Line) (hkey : key ∈ MANAGED_KEYS) :
    ((under none (splitLines (configAfter document))).filter fun p =>
      p.1.isNone && assigns key p.2).length ≤ 1 := by
  have hblock : ∀ line ∈ GOVERNED_CODEX_CONFIG, isHeader line = false :=
    fun line hline => (governed_plain line hline).2
  have honce : ((GOVERNED_CODEX_CONFIG.map fun line => ((none : Option Line), line)).filter
      fun p => p.1.isNone && assigns key p.2).length ≤ 1 := by
    rw [List.filter_map, List.length_map]
    exact governed_assigns key hkey
  have hrest : (under none (rewritten document)).filter
      (fun p => p.1.isNone && assigns key p.2) = [] := by
    rw [List.filter_eq_nil_iff]
    intro p hp hassigns
    have hmem : p.2 ∈ rewritten document := by
      rw [← map_snd_under none (rewritten document)]
      exact List.mem_map_of_mem hp
    have hmanaged := (settled_of_mem_rewritten p.2 hmem).2.2
    rw [isManaged, decide_eq_false_iff_not] at hmanaged
    rw [Bool.and_eq_true, assigns, decide_eq_true_eq] at hassigns
    exact hmanaged ⟨hassigns.2.1 ▸ hkey, hassigns.2.2⟩
  rw [splitLines_configAfter, under_append hblock, List.filter_append, hrest, List.append_nil]
  exact honce

theorem length_required (lines : List Line) :
    (required lines).length = stayCount .top (outside false lines) := by
  rw [required, List.length_map, stayCount]

theorem filter_required (lines : List Line) :
    (required lines).filter (fun p => !p.2.isEmpty) = required lines := by
  rw [List.filter_eq_self]
  intro p hp
  obtain ⟨q, hq, rfl⟩ := List.mem_map.mp hp
  have hstay := (List.mem_filter.mp hq).2
  rw [mustStay, Bool.and_eq_true] at hstay
  exact hstay.2

theorem filter_under_configAfter (document : List Char) :
    (under none (outside false (splitLines (configAfter document)))).filter
        (fun p => !p.2.isEmpty)
      = (under none (keptFrom false (withoutBlocks false (splitLines document)))).filter
        fun p => !p.2.isEmpty := by
  rw [splitLines_configAfter, outside_governed settled_of_mem_rewritten, under_filter,
    filter_rewritten, preservedFrom_eq, ← under_filter]

theorem keptCount_eq (lines : List Line) :
    ((under none (keptFrom false lines)).filter fun p => !p.2.isEmpty).length
      = keptCount false lines := by
  have hmap := congrArg List.length (map_snd_under none
    ((keptFrom false lines).filter fun line => !line.isEmpty))
  rw [under_filter, keptCount, ← hmap, List.length_map]

theorem le_length_of_opens {place : Place} {lines tail : List Line}
    {before after : List (Place × Line)} {marker : Place × Line}
    (h : ∀ line ∈ lines, opens line = false)
    (heq : placed place (lines ++ tail) = before ++ marker :: after)
    (hopens : opens marker.2 = true) : lines.length ≤ before.length := by
  by_contra hlt
  have hlt' : before.length < lines.length := by omega
  have hget : (lines ++ tail)[before.length]? = some marker.2 := by
    rw [← map_snd_placed place (lines ++ tail), heq]
    simp
  rw [List.getElem?_append_left hlt'] at hget
  have hfalse := h marker.2 (List.mem_of_getElem? hget)
  rw [hopens] at hfalse
  cases hfalse

/-- **When one call does what it owes.** Exactly for documents in which everything that looks like
the Bridge's is the Bridge's. -/
theorem governs_iff (document : List Char) : Governs document ↔ Separated document := by
  obtain ⟨tail, htail, hmarker⟩ := outside_eq false (splitLines document) (by simp)
  have hnone : ∀ line ∈ withoutBlocks false (splitLines document), opens line = false :=
    not_opens_of_mem_withoutBlocks
  constructor
  · intro h
    have hkept := h.kept.filter fun p => !p.2.isEmpty
    rw [filter_required, filter_under_configAfter] at hkept
    have hle := hkept.length_le
    rw [length_required, keptCount_eq, htail] at hle
    obtain ⟨hfits, hdrop⟩ := @fits_of_stayCount_le .top _ _ (by simp) hmarker hle
    refine ⟨?_, ?_, ?_⟩
    · intro before marker after heq hopens p hp
      rw [htail] at heq
      have hlong := le_length_of_opens hnone heq hopens
      rw [heq, List.drop_append_of_le_length hlong] at hdrop
      exact hdrop p (List.mem_append_right _ hp)
    · intro p hp hfeatures
      rw [htail] at hp
      exact (hfits p hp).1 hfeatures
    · intro p hp hmanaged
      rw [htail] at hp
      exact (hfits p hp).2 hmanaged
  · intro h
    have hfits : Fits (placed .top (withoutBlocks false (splitLines document) ++ tail)) := by
      rw [← htail]
      exact fun p hp => ⟨h.onlyFlags p hp, h.topLevel p hp⟩
    have hdrop : ∀ p ∈ (placed .top (withoutBlocks false (splitLines document) ++ tail)).drop
        (withoutBlocks false (splitLines document)).length, p.1 = .flags := by
      have hsplit := List.take_append_drop (withoutBlocks false (splitLines document)).length
        (placed .top (withoutBlocks false (splitLines document) ++ tail))
      have hlines : ((placed .top (withoutBlocks false (splitLines document) ++ tail)).drop
          (withoutBlocks false (splitLines document)).length).map Prod.snd = tail := by
        rw [List.map_drop, map_snd_placed, List.drop_left]
      rcases hmarker with rfl | ⟨marker, rest, rfl, hopens⟩
      · rw [List.map_eq_nil_iff.mp hlines]
        simp
      · obtain ⟨first, after, hafter, hfirst, -⟩ := List.map_eq_cons_iff.mp hlines
        rw [hafter] at hsplit ⊢
        rw [← htail] at hsplit
        exact h.closed _ first after hsplit.symm (by rw [hfirst]; exact hopens)
    have hsame := @under_keptFrom .top none _ _ (by simp) (fun _ => rfl) hfits hdrop
    refine ⟨⟨rewritten document, splitLines_configAfter document, fun line hline =>
      (settled_of_mem_rewritten line hline).1⟩, writeGovernedCodexConfig_again document, ?_,
      single_assignment document⟩
    have hrequired : required (splitLines document)
        = (under none (outside false (splitLines (configAfter document)))).filter
          fun p => !p.2.isEmpty := by
      rw [filter_under_configAfter, required, htail]
      exact hsame.symm
    rw [hrequired]
    exact List.filter_sublist

/-- A profile of codex with a sandbox of its own. -/
def profileConfig : List Char := "[profiles.work]\nsandbox_mode = \"workspace-write\"\n".toList

/-- Not every line that must stay is in what is written. -/
def profileLines : {lines : List (List Char) // lines = splitLines profileConfig ∧
    ¬ (required lines).Sublist (under none (rewritten profileConfig))} :=
  ⟨splitLines profileConfig, rfl, by decide +kernel⟩

/-- **The setting of a profile is taken for a stray one**, and is lost. -/
theorem profile_setting_lost : ¬ Governs profileConfig := by
  intro h
  have hkept := h.kept
  rw [splitLines_configAfter, outside_governed settled_of_mem_rewritten] at hkept
  have hlost : ¬ (required (splitLines profileConfig)).Sublist
      (under none (rewritten profileConfig)) := by
    have lost := profileLines
    obtain ⟨lines, hlines, hnot⟩ := lost
    rw [hlines] at hnot
    exact hnot
  exact hlost hkept

end Bridge
end RepoMesh
