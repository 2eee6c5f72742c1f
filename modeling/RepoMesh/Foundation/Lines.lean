/-
# Lines of a text

`str.splitlines`, lines joined by a newline, and the newlines stripped at both ends. A text that
is put together from lines without breaks is read back as exactly these lines.
-/
import Mathlib.Data.List.DropRight
import Mathlib.Data.List.Infix

namespace RepoMesh

/-- A line, without its break. -/
abbrev Line : Type := List Char

namespace Lines

/-- The code points at which `str.splitlines` ends a line. -/
def breakCodes : List ℕ := [10, 11, 12, 13, 28, 29, 30, 133, 8232, 8233]

/-- One of these breaks. -/
def isBreak (c : Char) : Bool := breakCodes.contains c.toNat

/-- A line that holds no break, as every line of a text does. -/
def Unbroken (line : Line) : Prop := ∀ c ∈ line, isBreak c = false

instance (line : Line) : Decidable (Unbroken line) :=
  List.decidableBAll (fun c => isBreak c = false) line

/-- `text.splitlines()`. A carriage return with a newline is one break, and a break at the end
opens no further line. -/
def splitLines : List Char → List Line
  | [] => []
  | '\r' :: '\n' :: rest => [] :: splitLines rest
  | c :: rest =>
    if isBreak c then [] :: splitLines rest
    else
      match splitLines rest with
      | [] => [[c]]
      | line :: lines => (c :: line) :: lines

/-- Every line with a newline behind it. -/
def unlines (lines : List Line) : List Char := lines.flatMap (· ++ ['\n'])

/-- `"\n".join(lines)`. -/
def joinLines (lines : List Line) : List Char := ['\n'].intercalate lines

/-- `text.strip("\n")`. -/
def stripNewlines (text : List Char) : List Char :=
  (text.dropWhile (· == '\n')).rdropWhile (· == '\n')

/-- The lines without the empty ones at both ends. -/
def trimmed (lines : List Line) : List Line :=
  (lines.dropWhile (·.isEmpty)).rdropWhile (·.isEmpty)

theorem map_toList_cons {texts : List String} {lines : List Line} (line : Line)
    (h : texts.map String.toList = lines) :
    (String.ofList line :: texts).map String.toList = line :: lines := by
  rw [List.map_cons, String.toList_ofList, h]

/-! ## Splitting what was joined -/

theorem isBreak_newline : isBreak '\n' = true := by decide

theorem Unbroken.ne_newline {line : Line} (h : Unbroken line) {c : Char} (hc : c ∈ line) :
    c ≠ '\n' := by
  rintro rfl
  exact absurd (h _ hc) (by decide)

theorem splitLines_newline (rest : List Char) : splitLines ('\n' :: rest) = [] :: splitLines rest := by
  rw [splitLines]
  · rw [if_pos isBreak_newline]
  · intro rest hcr
    exact absurd hcr (by decide)

theorem splitLines_cons {c : Char} (hc : isBreak c = false) (rest : List Char) :
    splitLines (c :: rest)
      = match splitLines rest with
        | [] => [[c]]
        | line :: lines => (c :: line) :: lines := by
  rw [splitLines]
  · rw [hc, if_neg Bool.false_ne_true]
  · rintro rest rfl rfl
    exact absurd hc (by decide)

/-- **A line is split off at its newline.** -/
theorem splitLines_append {line : Line} (hline : Unbroken line) (rest : List Char) :
    splitLines (line ++ '\n' :: rest) = line :: splitLines rest := by
  induction line with
  | nil => exact splitLines_newline rest
  | cons c line ih =>
    have hc : isBreak c = false := hline c (by simp)
    have hrest : splitLines (line ++ '\n' :: rest) = line :: splitLines rest :=
      ih fun d hd => hline d (by simp [hd])
    rw [List.cons_append, splitLines_cons hc, hrest]

/-- **Lines written out one after the other are read back as they are.** -/
theorem splitLines_unlines {lines : List Line} (h : ∀ line ∈ lines, Unbroken line)
    (rest : List Char) : splitLines (unlines lines ++ rest) = lines ++ splitLines rest := by
  induction lines with
  | nil => rfl
  | cons line lines ih =>
    have htail := ih fun l hl => h l (by simp [hl])
    have hsplit : unlines (line :: lines) ++ rest = line ++ '\n' :: (unlines lines ++ rest) := by
      simp [unlines]
    rw [hsplit, splitLines_append (h line (by simp)), htail, List.cons_append]

theorem unbroken_of_mem_splitLines (text : List Char) :
    ∀ line ∈ splitLines text, Unbroken line := by
  induction text using splitLines.induct with
  | case1 => simp [splitLines]
  | case2 rest ih =>
    intro line hline
    rw [splitLines] at hline
    rcases List.mem_cons.mp hline with rfl | hline
    · simp [Unbroken]
    · exact ih line hline
  | case3 c rest hpair hc ih =>
    intro line hline
    rw [splitLines, if_pos hc] at hline
    · rcases List.mem_cons.mp hline with rfl | hline
      · simp [Unbroken]
      · exact ih line hline
    · exact hpair
  | case4 c rest hpair hc hlines ih =>
    have hc' : isBreak c = false := by simpa using hc
    rw [splitLines_cons hc', hlines]
    simpa [Unbroken] using hc'
  | case5 c rest hpair hc first lines hlines ih =>
    have hc' : isBreak c = false := by simpa using hc
    rw [hlines] at ih
    rw [splitLines_cons hc', hlines]
    intro line hline
    rcases List.mem_cons.mp hline with rfl | hline
    · intro d hd
      rcases List.mem_cons.mp hd with rfl | hd
      · exact hc'
      · exact ih first (by simp) d hd
    · exact ih line (by simp [hline])

/-! ## Joining and stripping -/

theorem joinLines_cons (line : Line) {lines : List Line} (h : lines ≠ []) :
    joinLines (line :: lines) = line ++ '\n' :: joinLines lines := by
  obtain ⟨next, rest, rfl⟩ := List.exists_cons_of_ne_nil h
  simp [joinLines, List.intercalate, List.intersperse]

theorem joinLines_newline {lines : List Line} (h : lines ≠ []) :
    joinLines lines ++ ['\n'] = unlines lines := by
  induction lines with
  | nil => exact absurd rfl h
  | cons line lines ih =>
    rcases eq_or_ne lines [] with rfl | hne
    · simp [joinLines, unlines]
    · have htail := ih hne
      rw [joinLines_cons line hne, List.append_assoc, List.cons_append, htail]
      simp [unlines]

theorem dropWhile_joinLines {lines : List Line} (h : ∀ line ∈ lines, Unbroken line) :
    (joinLines lines).dropWhile (· == '\n') = joinLines (lines.dropWhile (·.isEmpty)) := by
  induction lines with
  | nil => rfl
  | cons line lines ih =>
    have htail := ih fun l hl => h l (by simp [hl])
    cases line with
    | nil =>
      rcases eq_or_ne lines [] with rfl | hne
      · rfl
      · rw [joinLines_cons [] hne]
        simpa using htail
    | cons c line =>
      have hc : c ≠ '\n' := (h (c :: line) (by simp)).ne_newline (by simp)
      rcases eq_or_ne lines [] with rfl | hne
      · simp [joinLines, hc]
      · rw [joinLines_cons _ hne, List.cons_append,
          List.dropWhile_cons_of_neg (by simpa using hc), List.dropWhile_cons_of_neg (by simp),
          joinLines_cons _ hne, List.cons_append]

theorem joinLines_concat (line : Line) {lines : List Line} (h : lines ≠ []) :
    joinLines (lines ++ [line]) = joinLines lines ++ '\n' :: line := by
  induction lines with
  | nil => exact absurd rfl h
  | cons first lines ih =>
    rcases eq_or_ne lines [] with rfl | hne
    · simp [joinLines, List.intercalate, List.intersperse]
    · have htail := ih hne
      rw [List.cons_append, joinLines_cons _ (by simp), htail, joinLines_cons _ hne]
      simp

theorem reverse_joinLines (lines : List Line) :
    (joinLines lines).reverse = joinLines (lines.map List.reverse).reverse := by
  induction lines with
  | nil => rfl
  | cons line lines ih =>
    rcases eq_or_ne lines [] with rfl | hne
    · simp [joinLines]
    · have hmapped : (lines.map List.reverse).reverse ≠ [] := by simpa using hne
      rw [joinLines_cons line hne, List.map_cons, List.reverse_cons, joinLines_concat _ hmapped,
        ← ih]
      simp

theorem rdropWhile_joinLines {lines : List Line} (h : ∀ line ∈ lines, Unbroken line) :
    (joinLines lines).rdropWhile (· == '\n') = joinLines (lines.rdropWhile (·.isEmpty)) := by
  have hrev : ∀ line ∈ (lines.map List.reverse).reverse, Unbroken line := by
    intro line hline
    obtain ⟨l, hl, rfl⟩ := List.mem_map.mp (List.mem_reverse.mp hline)
    intro c hc
    exact h l hl c (List.mem_reverse.mp hc)
  have hempty : (fun line : Line => line.isEmpty) ∘ List.reverse = fun line => line.isEmpty := by
    funext line
    simp
  calc (joinLines lines).rdropWhile (· == '\n')
      = ((joinLines (lines.map List.reverse).reverse).dropWhile (· == '\n')).reverse := by
        rw [List.rdropWhile, reverse_joinLines]
    _ = (joinLines ((lines.map List.reverse).reverse.dropWhile (·.isEmpty))).reverse := by
        rw [dropWhile_joinLines hrev]
    _ = (joinLines ((lines.reverse.dropWhile (·.isEmpty)).map List.reverse)).reverse := by
        rw [← List.map_reverse, List.dropWhile_map, hempty]
    _ = joinLines (lines.rdropWhile (·.isEmpty)) := by
        rw [reverse_joinLines, List.rdropWhile]
        simp

/-- **Stripping the newlines of joined lines drops the empty lines at both ends.** -/
theorem stripNewlines_joinLines {lines : List Line} (h : ∀ line ∈ lines, Unbroken line) :
    stripNewlines (joinLines lines) = joinLines (trimmed lines) := by
  have hdrop : ∀ line ∈ lines.dropWhile (·.isEmpty), Unbroken line :=
    fun line hline => h line ((List.dropWhile_sublist _).subset hline)
  rw [stripNewlines, dropWhile_joinLines h, rdropWhile_joinLines hdrop, trimmed]

/-! ## What trimming keeps -/

theorem filter_dropWhile {α : Type*} (p : α → Bool) (l : List α) :
    (l.dropWhile p).filter (fun x => !p x) = l.filter fun x => !p x := by
  induction l with
  | nil => rfl
  | cons x l ih =>
    by_cases hx : p x = true
    · rw [List.dropWhile_cons_of_pos hx, ih, List.filter_cons_of_neg (by simp [hx])]
    · rw [List.dropWhile_cons_of_neg hx]

theorem filter_rdropWhile {α : Type*} (p : α → Bool) (l : List α) :
    (l.rdropWhile p).filter (fun x => !p x) = l.filter fun x => !p x := by
  rw [List.rdropWhile, List.filter_reverse, filter_dropWhile, List.filter_reverse,
    List.reverse_reverse]

/-- **Trimming loses empty lines only.** -/
theorem filter_trimmed (lines : List Line) :
    (trimmed lines).filter (fun line => !line.isEmpty) = lines.filter fun line => !line.isEmpty := by
  rw [trimmed, filter_rdropWhile, filter_dropWhile]

theorem trimmed_sublist (lines : List Line) : (trimmed lines).Sublist lines :=
  (List.rdropWhile_prefix _ _).sublist.trans (List.dropWhile_sublist _)

theorem dropWhile_trimmed (lines : List Line) :
    (trimmed lines).dropWhile (·.isEmpty) = trimmed lines := by
  rw [List.dropWhile_eq_self_iff]
  intro hpos hempty
  obtain ⟨cut, hcut⟩ := List.rdropWhile_prefix (fun line : Line => line.isEmpty)
    (lines.dropWhile (·.isEmpty))
  have hfirst : (lines.dropWhile (·.isEmpty))[0]? = (trimmed lines)[0]? := by
    rw [← hcut, List.getElem?_append_left (by exact hpos)]
    rfl
  rw [List.getElem?_eq_getElem hpos] at hfirst
  obtain ⟨hlen, hget⟩ := List.getElem?_eq_some_iff.mp hfirst
  have hself := List.dropWhile_eq_self_iff.mp
    (List.dropWhile_idempotent (p := fun line : Line => line.isEmpty) lines) hlen
  rw [hget] at hself
  exact hself hempty

/-- **An empty line in front of trimmed lines is trimmed again.** -/
theorem trimmed_nil_cons_trimmed (lines : List Line) :
    trimmed ([] :: trimmed lines) = trimmed lines := by
  have hfront : ([] :: trimmed lines).dropWhile (·.isEmpty) = trimmed lines := by
    rw [List.dropWhile_cons_of_pos rfl, dropWhile_trimmed]
  have hback : (trimmed lines).rdropWhile (·.isEmpty) = trimmed lines :=
    List.rdropWhile_idempotent _ _
  rw [trimmed, hfront, hback]

theorem joinLines_trimmed_eq_nil {lines : List Line} :
    joinLines (trimmed lines) = [] ↔ trimmed lines = [] := by
  have hfront := dropWhile_trimmed lines
  constructor
  · intro hjoin
    cases htrim : trimmed lines with
    | nil => rfl
    | cons line rest =>
      rw [htrim] at hfront hjoin
      have hne : line ≠ [] := by
        rintro rfl
        have hlen := (List.dropWhile_sublist (fun line : Line => line.isEmpty) (l := rest)).length_le
        rw [List.dropWhile_cons_of_pos rfl] at hfront
        have := congrArg List.length hfront
        simp only [List.length_cons] at this
        omega
      rcases eq_or_ne rest [] with rfl | hrest
      · exact absurd (by simpa [joinLines] using hjoin) hne
      · rw [joinLines_cons line hrest] at hjoin
        simp at hjoin
  · intro htrim
    rw [htrim]
    rfl

end Lines
end RepoMesh
