/-
# Paths by their text

`pathlib.PurePosixPath`: a path is its leading slashes and the parts between the others, without
empty ones and without `.`. Nothing is looked up, so `..` stays where it is; `resolved` takes it
for the directory above, as a tree without links does.
-/
import Mathlib.Data.List.Infix

namespace RepoMesh

/-- A name between two slashes. -/
abbrev PathPart : Type := List Char

/-- `PurePosixPath`. -/
structure PurePath where
  root : List Char
  parts : List PathPart
  deriving DecidableEq

namespace PurePath

/-- `posixpath.splitroot`: exactly two leading slashes are kept as two. -/
def splitRoot : List Char → List Char × List Char
  | '/' :: '/' :: '/' :: rest => (['/'], '/' :: '/' :: rest)
  | '/' :: '/' :: rest => (['/', '/'], rest)
  | '/' :: rest => (['/'], rest)
  | cs => ([], cs)

/-- `Path(text)`. -/
def parse (text : List Char) : PurePath where
  root := (splitRoot text).1
  parts := ((splitRoot text).2.splitOn '/').filter fun part => part ≠ [] ∧ part ≠ ['.']

/-- `path.is_absolute()`. -/
def isAbsolute (path : PurePath) : Bool := path.root ≠ []

/-- The text of a relative path. -/
def joined (parts : List PathPart) : List Char := ['/'].intercalate parts

/-- `path.relative_to(other).as_posix()`, or `none` where it raises. -/
def relativeTo (path other : PurePath) : Option (List Char) :=
  if path.root = other.root ∧ other.parts <+: path.parts then
    match path.parts.drop other.parts.length with
    | [] => some ['.']
    | parts => some (joined parts)
  else none

theorem relativeTo_of_parts {path other : PurePath} {parts : List PathPart} (hne : parts ≠ [])
    (hroot : path.root = other.root) (hparts : path.parts = other.parts ++ parts) :
    path.relativeTo other = some (joined parts) := by
  have hinside : path.root = other.root ∧ other.parts <+: path.parts :=
    ⟨hroot, parts, hparts.symm⟩
  have hdrop : path.parts.drop other.parts.length = parts := by rw [hparts, List.drop_left]
  rw [relativeTo, if_pos hinside, hdrop]
  cases parts with
  | nil => exact absurd rfl hne
  | cons part parts => rfl

theorem not_mem_of_mem_splitOn (c : Char) (text : List Char) : ∀ part ∈ text.splitOn c, c ∉ part := by
  induction text with
  | nil => simp
  | cons d text ih =>
    intro part hpart
    rw [List.splitOn_cons_eq_if_modifyHead] at hpart
    split at hpart
    · rcases List.mem_cons.mp hpart with rfl | hpart
      · simp
      · exact ih part hpart
    · rename_i hd
      cases hsplit : text.splitOn c with
      | nil => exact absurd hsplit (List.splitOn_ne_nil _ _)
      | cons first parts =>
        rw [hsplit] at hpart ih
        rcases List.mem_cons.mp hpart with rfl | hpart
        · have hfirst := ih first List.mem_cons_self
          have hne : c ≠ d := fun heq => hd (beq_iff_eq.mpr heq.symm)
          simp [hne, hfirst]
        · exact ih part (List.mem_cons_of_mem _ hpart)

theorem mem_parse {text : List Char} {part : PathPart} (h : part ∈ (parse text).parts) :
    part ≠ [] ∧ '/' ∉ part ∧ part ≠ ['.'] := by
  obtain ⟨hsplit, hname⟩ := List.mem_filter.mp h
  obtain ⟨hne, hdot⟩ := of_decide_eq_true hname
  exact ⟨hne, not_mem_of_mem_splitOn '/' _ part hsplit, hdot⟩

/-! ## The text of a path -/

theorem joined_cons {part : PathPart} {parts : List PathPart} (h : parts ≠ []) :
    joined (part :: parts) = part ++ '/' :: joined parts := by
  cases parts with
  | nil => exact absurd rfl h
  | cons next parts => simp [joined, List.intercalate, List.intersperse]

theorem joined_append {front back : List PathPart} (hfront : front ≠ []) (hback : back ≠ []) :
    joined (front ++ back) = joined front ++ '/' :: joined back := by
  induction front with
  | nil => exact absurd rfl hfront
  | cons part front ih =>
    by_cases hnil : front = []
    · subst hnil
      rw [List.singleton_append, joined_cons hback]
      simp [joined, List.intercalate]
    · have hne : front ++ back ≠ [] := by simp [hnil]
      rw [List.cons_append, joined_cons hne, ih hnil, joined_cons hnil, List.append_assoc]
      rfl

theorem joined_ne_slash {parts : List PathPart} (hparts : ∀ part ∈ parts, part ≠ [] ∧ '/' ∉ part)
    (y : List Char) : joined parts ≠ '/' :: y := by
  intro h
  cases parts with
  | nil => simp [joined, List.intercalate] at h
  | cons part parts =>
    obtain ⟨hne, hslash⟩ := hparts part (List.mem_cons_self ..)
    obtain ⟨c, rest, rfl⟩ := List.exists_cons_of_ne_nil hne
    have hfirst : ∃ later, joined ((c :: rest) :: parts) = c :: later := by
      by_cases hnil : parts = []
      · subst hnil
        exact ⟨rest, by simp [joined, List.intercalate]⟩
      · exact ⟨_, joined_cons hnil⟩
    obtain ⟨later, hlater⟩ := hfirst
    rw [hlater] at h
    obtain ⟨rfl, -⟩ := List.cons.inj h
    exact hslash (List.mem_cons_self ..)

theorem exists_of_joined_eq {parts : List PathPart} (hparts : ∀ part ∈ parts, part ≠ [] ∧ '/' ∉ part)
    {x y : List Char} (h : joined parts = x ++ '/' :: y) :
    ∃ front, front <+: parts ∧ joined front = x := by
  induction parts generalizing x with
  | nil => simp [joined, List.intercalate] at h
  | cons part parts ih =>
    have hpart := (hparts part (List.mem_cons_self ..)).2
    have hlaterParts := fun q hq => hparts q (List.mem_cons_of_mem part hq)
    have hone : joined [part] = part := by simp [joined, List.intercalate]
    by_cases hnil : parts = []
    · subst hnil
      rw [hone] at h
      exact absurd (h ▸ by simp) hpart
    · rw [joined_cons hnil] at h
      rcases List.append_eq_append_iff.mp h with ⟨rest, hx, hrest⟩ | ⟨rest, hp, hrest⟩
      · -- The slash stands in the later parts, unless it is the one behind the first.
        cases rest with
        | nil =>
          refine ⟨[part], List.prefix_iff_eq_append.mpr rfl, ?_⟩
          rw [hone, hx, List.append_nil]
        | cons c rest =>
          obtain ⟨rfl, hlater⟩ := List.cons.inj hrest
          obtain ⟨front, hfront, hjoined⟩ := ih hlaterParts hlater
          by_cases hempty : front = []
          · obtain rfl : rest = [] := by simpa [hempty, joined, List.intercalate] using hjoined.symm
            exact absurd hlater (joined_ne_slash hlaterParts y)
          · refine ⟨part :: front, (List.prefix_cons_inj part).mpr hfront, ?_⟩
            rw [joined_cons hempty, hjoined, hx]
      · cases rest with
        | nil =>
          refine ⟨[part], List.prefix_iff_eq_append.mpr rfl, ?_⟩
          rw [hone, hp, List.append_nil]
        | cons c rest =>
          obtain ⟨rfl, -⟩ := List.cons.inj hrest
          exact absurd (hp ▸ by simp) hpart

/-! ## The directory above -/

/-- The name of the directory above. -/
def parent : PathPart := ['.', '.']

/-- One part after those resolved. -/
def resolvePart (parts : List PathPart) (part : PathPart) : List PathPart :=
  if part = parent then parts.dropLast else parts ++ [part]

/-- The parts with every `..` taken for the directory above; above the top is the top. -/
def resolved (parts : List PathPart) : List PathPart := parts.foldl resolvePart []

/-- The file below a directory that a text names, relative to the directory or absolutely. -/
def named (directory : PurePath) (text : List Char) : Option (List PathPart) :=
  let path := parse text
  let there := resolved (if path.isAbsolute then path.parts else directory.parts ++ path.parts)
  if directory.parts <+: there ∧ directory.parts ≠ there then
    some (there.drop directory.parts.length)
  else none

/-- A text names a file below a directory without detours: relative to the directory by nothing but
the names, or absolutely without `..`. -/
def NamesPlainly (directory : PurePath) (text : List Char) (file : List PathPart) : Prop :=
  file ≠ [] ∧ parent ∉ file ∧
    (parse text = ⟨[], file⟩ ∧ text = joined file ∨
      (parse text).isAbsolute = true ∧ parse text = ⟨directory.root, directory.parts ++ file⟩)

end PurePath
end RepoMesh
