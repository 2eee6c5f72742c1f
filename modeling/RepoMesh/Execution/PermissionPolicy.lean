/-
# The answers to permission callbacks

`AllowlistPermissionPolicy`: what an agent is answered when it asks to use a tool. The policy reads
the strings of the tool's input, takes each of them for a path as it is written, and matches it, and
what it is below the workspace, against the patterns of the task.
-/
import RepoMesh.Execution.Contracts
import RepoMesh.Foundation.Fnmatch
import RepoMesh.Foundation.PurePath
import Mathlib.Tactic.Tauto

namespace RepoMesh
namespace Execution

open Text

/-- `PermissionDecision`. -/
inductive PermissionDecision where
  | allow | deny | escalate
  deriving DecidableEq

def MAX_INPUT_DEPTH : ℕ := 8

/-- `_string_leaves`, over a number of levels. -/
def stringLeaves : ℕ → Json → List String
  | 0, _ => []
  | _ + 1, .str s => if isBlank s then [] else [s]
  | n + 1, .arr items => items.flatMap (stringLeaves n)
  | n + 1, .obj fields => fields.flatMap fun f => stringLeaves n f.2
  | _ + 1, _ => []

/-- `_normalize`. -/
def withSlashes (text : String) : List Char := text.toList.map fun c => if c = '\\' then '/' else c

/-- `AllowlistPermissionPolicy`, with the fields its constructor sets. -/
structure AllowlistPermissionPolicy where
  mode : RunnerPermissionMode
  allowed : List String
  disallowed : List String
  deniedPaths : List (List Char)
  allowedPaths : List (List Char)
  workspace : Option PurePath

/-- `AllowlistPermissionPolicy(permissions, workspace)`. -/
def policyOf (permissions : RunnerPermissions) (workspace : Option PurePath) :
    AllowlistPermissionPolicy where
  mode := permissions.mode
  allowed := permissions.allowedTools
  disallowed := permissions.disallowedTools
  deniedPaths := permissions.deniedPaths.map withSlashes
  allowedPaths := permissions.allowedPaths.map withSlashes
  workspace := workspace

namespace AllowlistPermissionPolicy

variable (policy : AllowlistPermissionPolicy)

/-- `_relative_form`: the workspace-relative form of an absolute in-workspace path. -/
def relativeForm (candidate : List Char) : Option (List Char) :=
  policy.workspace.bind fun workspace =>
    let path := PurePath.parse candidate
    if path.isAbsolute then path.relativeTo workspace else none

/-- `_matches`. -/
def hits (candidate : List Char) (patterns : List (List Char)) : Bool :=
  (candidate :: (policy.relativeForm candidate).toList).any fun form =>
    patterns.any fun pattern => Fnmatch.fnmatch form pattern

/-- `_touches_unlisted_path`: only what is under the workspace is judged. -/
def touchesUnlistedPath (candidates : List (List Char)) : Bool :=
  candidates.any fun candidate =>
    (policy.relativeForm candidate).isSome && !policy.hits candidate policy.allowedPaths

/-- What `decide` reads of an input. -/
def candidates (toolInput : Json) : List (List Char) :=
  (stringLeaves (MAX_INPUT_DEPTH + 1) toolInput).map withSlashes

/-- The modes that never wait for an answer. -/
def autonomous : Bool := policy.mode = .acceptEdits || policy.mode = .auto

/-- The answer to what the allowlists do not name. -/
def refusal : PermissionDecision := if policy.autonomous then .deny else .escalate

/-- `decide`. -/
def decide (toolName : String) (toolInput : Json) : PermissionDecision :=
  if (candidates toolInput).any fun candidate => policy.hits candidate policy.deniedPaths then .deny
  else if toolName ∈ policy.disallowed then .deny
  else if policy.mode = .bypassPermissions then .allow
  else if policy.allowedPaths ≠ [] ∧ policy.touchesUnlistedPath (candidates toolInput) then
    policy.refusal
  else if policy.allowed ≠ [] ∧ toolName ∉ policy.allowed then policy.refusal
  else if policy.autonomous then .allow else .escalate

end AllowlistPermissionPolicy

/-! ## What is read of an input -/

/-- A string leaf, and how many containers it is in. -/
inductive LeafAt : Json → ℕ → String → Prop
  | here (s : String) : LeafAt (.str s) 0 s
  | item {items : List Json} {item : Json} {depth : ℕ} {s : String} (hmem : item ∈ items)
      (h : LeafAt item depth s) : LeafAt (.arr items) (depth + 1) s
  | field {fields : List (String × Json)} {key : String} {value : Json} {depth : ℕ} {s : String}
      (hmem : (key, value) ∈ fields) (h : LeafAt value depth s) : LeafAt (.obj fields) (depth + 1) s

theorem mem_stringLeaves {n : ℕ} {value : Json} {s : String} :
    s ∈ stringLeaves n value ↔ isBlank s = false ∧ ∃ depth < n, LeafAt value depth s := by
  induction n generalizing value with
  | zero => simp [stringLeaves]
  | succ n ih =>
    cases value with
    | null | bool | int | float =>
      constructor
      · simp [stringLeaves]
      · rintro ⟨-, depth, -, h⟩
        cases h
    | str t =>
      constructor
      · intro h
        rw [stringLeaves] at h
        split_ifs at h with hblank
        · cases h
        · obtain rfl := List.mem_singleton.mp h
          exact ⟨eq_false_of_ne_true hblank, 0, by omega, .here s⟩
      · rintro ⟨hblank, depth, -, h⟩
        cases h
        rw [stringLeaves, hblank]
        exact List.mem_singleton_self s
    | arr items =>
      rw [stringLeaves, List.mem_flatMap]
      constructor
      · rintro ⟨item, hmem, h⟩
        obtain ⟨hblank, depth, hdepth, hleaf⟩ := ih.mp h
        exact ⟨hblank, depth + 1, by omega, .item hmem hleaf⟩
      · rintro ⟨hblank, depth, hdepth, h⟩
        cases h with
        | item hmem hleaf => exact ⟨_, hmem, ih.mpr ⟨hblank, _, by omega, hleaf⟩⟩
    | obj fields =>
      rw [stringLeaves, List.mem_flatMap]
      constructor
      · rintro ⟨⟨key, value⟩, hmem, h⟩
        obtain ⟨hblank, depth, hdepth, hleaf⟩ := ih.mp h
        exact ⟨hblank, depth + 1, by omega, .field hmem hleaf⟩
      · rintro ⟨hblank, depth, hdepth, h⟩
        cases h with
        | field hmem hleaf => exact ⟨_, hmem, ih.mpr ⟨hblank, _, by omega, hleaf⟩⟩

/-- A leaf that `decide` reads. -/
def Reads (toolInput : Json) (leaf : String) : Prop :=
  isBlank leaf = false ∧ ∃ depth ≤ MAX_INPUT_DEPTH, LeafAt toolInput depth leaf

theorem mem_candidates {toolInput : Json} {candidate : List Char} :
    candidate ∈ AllowlistPermissionPolicy.candidates toolInput ↔
      ∃ leaf, Reads toolInput leaf ∧ withSlashes leaf = candidate := by
  simp only [AllowlistPermissionPolicy.candidates, List.mem_map, mem_stringLeaves, Reads,
    Nat.lt_succ_iff]

/-! ## What is decided -/

variable {policy : AllowlistPermissionPolicy} {toolName : String} {toolInput : Json}

theorem hits_iff {candidate : List Char} {patterns : List (List Char)} :
    policy.hits candidate patterns = true ↔
      ∃ pattern ∈ patterns, Fnmatch.fnmatch candidate pattern = true ∨
        ∃ form ∈ policy.relativeForm candidate, Fnmatch.fnmatch form pattern = true := by
  simp only [AllowlistPermissionPolicy.hits, List.any_cons, Bool.or_eq_true, List.any_eq_true,
    Option.mem_toList]
  constructor
  · rintro (⟨pattern, hmem, h⟩ | ⟨form, hform, pattern, hmem, h⟩)
    · exact ⟨pattern, hmem, .inl h⟩
    · exact ⟨pattern, hmem, .inr ⟨form, hform, h⟩⟩
  · rintro ⟨pattern, hmem, h | ⟨form, hform, h⟩⟩
    · exact .inl ⟨pattern, hmem, h⟩
    · exact .inr ⟨form, hform, pattern, hmem, h⟩

/-- A leaf that a denied pattern matches. -/
def HitsDenied (policy : AllowlistPermissionPolicy) (toolInput : Json) : Prop :=
  ∃ leaf, Reads toolInput leaf ∧ policy.hits (withSlashes leaf) policy.deniedPaths = true

/-- A leaf under the workspace that no allowed pattern matches. -/
def TouchesUnlisted (policy : AllowlistPermissionPolicy) (toolInput : Json) : Prop :=
  ∃ leaf, Reads toolInput leaf ∧ (policy.relativeForm (withSlashes leaf)).isSome = true ∧
    policy.hits (withSlashes leaf) policy.allowedPaths = false

theorem any_denied_iff :
    ((AllowlistPermissionPolicy.candidates toolInput).any fun candidate =>
      policy.hits candidate policy.deniedPaths) = true ↔ HitsDenied policy toolInput := by
  simp only [List.any_eq_true, mem_candidates, HitsDenied]
  constructor
  · rintro ⟨candidate, ⟨leaf, hleaf, rfl⟩, h⟩
    exact ⟨leaf, hleaf, h⟩
  · rintro ⟨leaf, hleaf, h⟩
    exact ⟨_, ⟨leaf, hleaf, rfl⟩, h⟩

theorem touchesUnlistedPath_iff :
    policy.touchesUnlistedPath (AllowlistPermissionPolicy.candidates toolInput) = true ↔
      TouchesUnlisted policy toolInput := by
  simp only [AllowlistPermissionPolicy.touchesUnlistedPath, List.any_eq_true, mem_candidates,
    TouchesUnlisted, Bool.and_eq_true, Bool.not_eq_true']
  constructor
  · rintro ⟨candidate, ⟨leaf, hleaf, rfl⟩, h⟩
    exact ⟨leaf, hleaf, h⟩
  · rintro ⟨leaf, hleaf, h⟩
    exact ⟨_, ⟨leaf, hleaf, rfl⟩, h⟩

/-- **Denied paths come first.** -/
theorem decide_of_hitsDenied (h : HitsDenied policy toolInput) :
    policy.decide toolName toolInput = .deny := by
  rw [AllowlistPermissionPolicy.decide, if_pos (any_denied_iff.mpr h)]

theorem refusal_ne_allow : policy.refusal ≠ .allow := by
  rw [AllowlistPermissionPolicy.refusal]
  split_ifs <;> decide

/-- **When a tool is allowed.** Neither deny rule applies, and the mode asks for nothing more or
answers by itself and both allowlists agree. -/
theorem decide_eq_allow :
    policy.decide toolName toolInput = .allow ↔
      ¬ HitsDenied policy toolInput ∧ toolName ∉ policy.disallowed ∧
        (policy.mode = .bypassPermissions ∨
          policy.autonomous = true ∧
            (policy.allowedPaths ≠ [] → ¬ TouchesUnlisted policy toolInput) ∧
            (policy.allowed ≠ [] → toolName ∈ policy.allowed)) := by
  rw [AllowlistPermissionPolicy.decide]
  split_ifs with hdenied hdisallowed hbypass hpaths htools hauto
  · rw [any_denied_iff] at hdenied
    simp [hdenied]
  · simp [hdisallowed]
  · rw [any_denied_iff] at hdenied
    simp [hdenied, hdisallowed, hbypass]
  · rw [touchesUnlistedPath_iff] at hpaths
    refine ⟨fun h => absurd h refusal_ne_allow, ?_⟩
    rintro ⟨-, -, h | ⟨-, hlisted, -⟩⟩
    · exact absurd h hbypass
    · exact absurd hpaths.2 (hlisted hpaths.1)
  · refine ⟨fun h => absurd h refusal_ne_allow, ?_⟩
    rintro ⟨-, -, h | ⟨-, -, hgranted⟩⟩
    · exact absurd h hbypass
    · exact absurd (hgranted htools.1) htools.2
  · rw [any_denied_iff] at hdenied
    rw [touchesUnlistedPath_iff] at hpaths
    refine ⟨fun _ => ⟨hdenied, hdisallowed, .inr ⟨hauto, fun hne h => hpaths ⟨hne, h⟩, fun hne => ?_⟩⟩,
      fun _ => rfl⟩
    exact by_contra fun h => htools ⟨hne, h⟩
  · simp [hbypass, hauto]

/-- What the paths of an input are judged by, with the mode. -/
def PassesPaths (policy : AllowlistPermissionPolicy) (toolInput : Json) : Prop :=
  ¬ HitsDenied policy toolInput ∧
    (policy.mode = .bypassPermissions ∨
      policy.autonomous = true ∧ (policy.allowedPaths ≠ [] → ¬ TouchesUnlisted policy toolInput))

/-- What the name of a tool is judged by. -/
def PassesName (policy : AllowlistPermissionPolicy) (toolName : String) : Prop :=
  toolName ∉ policy.disallowed ∧
    (policy.mode = .bypassPermissions ∨ policy.allowed = [] ∨ toolName ∈ policy.allowed)

theorem decide_eq_allow_iff_passes :
    policy.decide toolName toolInput = .allow ↔
      PassesPaths policy toolInput ∧ PassesName policy toolName := by
  rw [decide_eq_allow, PassesPaths, PassesName]
  have hname : (policy.allowed ≠ [] → toolName ∈ policy.allowed) ↔
      policy.allowed = [] ∨ toolName ∈ policy.allowed := by
    rw [ne_eq, ← or_iff_not_imp_left]
  rw [hname]
  tauto

/-! ## Spellings -/

variable {permissions : RunnerPermissions} {workspace : PurePath} {leaf : String}
  {file : List PathPart}

/-- A pattern of a list matches a text. -/
def Matched (patterns : List String) (text : List Char) : Prop :=
  ∃ pattern ∈ patterns, Fnmatch.fnmatch text (withSlashes pattern) = true

/-- A leaf names a file of a workspace plainly, with either kind of slash. -/
def NamesPlainly (workspace : PurePath) (leaf : String) (file : List PathPart) : Prop :=
  workspace.NamesPlainly (withSlashes leaf) file

theorem relativeForm_of_absolute (hne : file ≠ [])
    (habsolute : (PurePath.parse (withSlashes leaf)).isAbsolute = true)
    (hparse : PurePath.parse (withSlashes leaf) = ⟨workspace.root, workspace.parts ++ file⟩) :
    (policyOf permissions (some workspace)).relativeForm (withSlashes leaf) =
      some (PurePath.joined file) := by
  have hbelow : (PurePath.parse (withSlashes leaf)).relativeTo workspace =
      some (PurePath.joined file) := by
    refine PurePath.relativeTo_of_parts hne ?_ ?_
    · rw [hparse]
    · rw [hparse]
  simpa [AllowlistPermissionPolicy.relativeForm, policyOf, habsolute] using hbelow

theorem hits_of_namesPlainly {patterns : List String} (h : NamesPlainly workspace leaf file)
    (hmatched : Matched patterns (withSlashes leaf) ∨ Matched patterns (PurePath.joined file)) :
    (policyOf permissions (some workspace)).hits (withSlashes leaf) (patterns.map withSlashes) =
      true := by
  obtain ⟨hne, -, hspelled⟩ := h
  rw [hits_iff]
  rcases hmatched with ⟨pattern, hmem, hmatch⟩ | ⟨pattern, hmem, hmatch⟩
  · exact ⟨_, List.mem_map_of_mem hmem, .inl hmatch⟩
  · refine ⟨_, List.mem_map_of_mem hmem, ?_⟩
    rcases hspelled with ⟨-, htext⟩ | ⟨habsolute, hparse⟩
    · rw [htext]
      exact .inl hmatch
    · exact .inr ⟨_, relativeForm_of_absolute hne habsolute hparse, hmatch⟩

theorem touchesUnlisted_of_namesPlainly (hread : Reads toolInput leaf)
    (h : NamesPlainly workspace leaf file)
    (habsolute : (PurePath.parse (withSlashes leaf)).isAbsolute = true)
    (htext : ¬ Matched permissions.allowedPaths (withSlashes leaf))
    (hfile : ¬ Matched permissions.allowedPaths (PurePath.joined file)) :
    TouchesUnlisted (policyOf permissions (some workspace)) toolInput := by
  obtain ⟨hne, -, ⟨hparse, -⟩ | ⟨-, hparse⟩⟩ := h
  · rw [hparse] at habsolute
    cases habsolute
  · have hrelative : (policyOf permissions (some workspace)).relativeForm (withSlashes leaf) =
        some (PurePath.joined file) := relativeForm_of_absolute hne habsolute hparse
    refine ⟨leaf, hread, by rw [hrelative]; rfl, ?_⟩
    rw [← Bool.not_eq_true, hits_iff]
    rintro ⟨pattern, hmem, hmatch⟩
    obtain ⟨pattern, hpattern, rfl⟩ := List.mem_map.mp hmem
    rcases hmatch with hmatch | ⟨form, hform, hmatch⟩
    · exact htext ⟨pattern, hpattern, hmatch⟩
    · rw [hrelative, Option.mem_some_iff] at hform
      rw [← hform] at hmatch
      exact hfile ⟨pattern, hpattern, hmatch⟩

/-- The same permissions with more denied paths and disallowed tools. -/
def Tightens (permissions tighter : RunnerPermissions) : Prop :=
  tighter.mode = permissions.mode ∧ tighter.allowedTools = permissions.allowedTools ∧
    tighter.allowedPaths = permissions.allowedPaths ∧
    permissions.deniedPaths ⊆ tighter.deniedPaths ∧
    permissions.disallowedTools ⊆ tighter.disallowedTools

theorem relativeForm_congr {other : AllowlistPermissionPolicy}
    (h : other.workspace = policy.workspace) : other.relativeForm = policy.relativeForm := by
  funext candidate
  rw [AllowlistPermissionPolicy.relativeForm, AllowlistPermissionPolicy.relativeForm, h]

theorem hits_congr {other : AllowlistPermissionPolicy} (h : other.workspace = policy.workspace) :
    other.hits = policy.hits := by
  funext candidate patterns
  rw [AllowlistPermissionPolicy.hits, AllowlistPermissionPolicy.hits, relativeForm_congr h]

theorem touchesUnlisted_congr {other : AllowlistPermissionPolicy}
    (hworkspace : other.workspace = policy.workspace)
    (hpaths : other.allowedPaths = policy.allowedPaths) :
    TouchesUnlisted other toolInput ↔ TouchesUnlisted policy toolInput := by
  rw [TouchesUnlisted, TouchesUnlisted, relativeForm_congr hworkspace, hits_congr hworkspace, hpaths]

theorem hits_mono {patterns more : List (List Char)} (hmore : patterns ⊆ more)
    {candidate : List Char} (h : policy.hits candidate patterns = true) :
    policy.hits candidate more = true := by
  obtain ⟨pattern, hmem, hmatch⟩ := hits_iff.mp h
  exact hits_iff.mpr ⟨pattern, hmore hmem, hmatch⟩

/-- **Denying more allows no more.** -/
theorem decide_ne_allow_of_tightens {tighter : RunnerPermissions} (h : Tightens permissions tighter)
    (workspace : Option PurePath)
    (hrefused : (policyOf permissions workspace).decide toolName toolInput ≠ .allow) :
    (policyOf tighter workspace).decide toolName toolInput ≠ .allow := by
  obtain ⟨hmode, htools, hpaths, hdenied, hdisallowed⟩ := h
  intro hallow
  obtain ⟨hnone, hname, hrest⟩ := decide_eq_allow.mp hallow
  refine hrefused (decide_eq_allow.mpr ⟨?_, fun hmem => hname (hdisallowed hmem), ?_⟩)
  · rintro ⟨leaf, hread, hhit⟩
    refine hnone ⟨leaf, hread, ?_⟩
    have hsame : (policyOf tighter workspace).hits = (policyOf permissions workspace).hits :=
      hits_congr rfl
    rw [hsame]
    exact hits_mono (List.map_subset _ hdenied) hhit
  · have hlisted : TouchesUnlisted (policyOf tighter workspace) toolInput ↔
        TouchesUnlisted (policyOf permissions workspace) toolInput :=
      touchesUnlisted_congr rfl (congrArg (List.map withSlashes) hpaths)
    have hauto : (policyOf tighter workspace).autonomous =
        (policyOf permissions workspace).autonomous :=
      congrArg (fun mode : RunnerPermissionMode => mode = .acceptEdits || mode = .auto) hmode
    rw [hlisted, hauto] at hrest
    simpa only [policyOf, hmode, htools, hpaths] using hrest

/-! ## Paths and their spellings -/

/-- A file that a pattern matches, below the workspace or absolutely. -/
def MatchedFile (workspace : PurePath) (patterns : List String) (file : List PathPart) : Prop :=
  Matched patterns (PurePath.joined file) ∨
    Matched patterns (workspace.root ++ PurePath.joined (workspace.parts ++ file))

/-- What would make a decision independent of how a path is spelled: every leaf counts for the file
it names. -/
def SpellingFree (permissions : RunnerPermissions) (workspace : Option PurePath)
    (toolName : String) (toolInput : Json) : Prop :=
  (∀ directory ∈ workspace, ∀ leaf depth file, LeafAt toolInput depth leaf →
      directory.named (withSlashes leaf) = some file →
      MatchedFile directory permissions.deniedPaths file →
        (policyOf permissions workspace).decide toolName toolInput = .deny) ∧
    (permissions.allowedPaths ≠ [] → permissions.mode ≠ .bypassPermissions →
      ∀ directory ∈ workspace, ∀ leaf depth file, LeafAt toolInput depth leaf →
        directory.named (withSlashes leaf) = some file →
        ¬ MatchedFile directory permissions.allowedPaths file →
          (policyOf permissions workspace).decide toolName toolInput ≠ .allow) ∧
    ∀ tighter, Tightens permissions tighter →
      (policyOf permissions workspace).decide toolName toolInput ≠ .allow →
        (policyOf tighter workspace).decide toolName toolInput ≠ .allow

/-- **Which spellings do not matter.** A leaf that is read and names a file plainly, relative to the
workspace or absolutely and with either kind of slash, is refused when a denied pattern matches the
file. An absolute one is not allowed when no allowed pattern does. Denying more allows no more. -/
theorem decide_plainNames (permissions : RunnerPermissions) (workspace : Option PurePath)
    (toolName : String) (toolInput : Json) :
    (∀ directory ∈ workspace, ∀ leaf file, Reads toolInput leaf → NamesPlainly directory leaf file →
        (Matched permissions.deniedPaths (withSlashes leaf) ∨
          Matched permissions.deniedPaths (PurePath.joined file)) →
          (policyOf permissions workspace).decide toolName toolInput = .deny) ∧
      (permissions.allowedPaths ≠ [] → permissions.mode ≠ .bypassPermissions →
        ∀ directory ∈ workspace, ∀ leaf file, Reads toolInput leaf →
          NamesPlainly directory leaf file →
          (PurePath.parse (withSlashes leaf)).isAbsolute = true →
          ¬ Matched permissions.allowedPaths (withSlashes leaf) →
          ¬ Matched permissions.allowedPaths (PurePath.joined file) →
            (policyOf permissions workspace).decide toolName toolInput ≠ .allow) ∧
      ∀ tighter, Tightens permissions tighter →
        (policyOf permissions workspace).decide toolName toolInput ≠ .allow →
          (policyOf tighter workspace).decide toolName toolInput ≠ .allow := by
  refine ⟨?_, ?_, ?_⟩
  · rintro directory rfl leaf file hread hnames hmatched
    exact decide_of_hitsDenied ⟨leaf, hread, hits_of_namesPlainly hnames hmatched⟩
  · rintro hne hmode directory rfl leaf file hread hnames habsolute htext hfile hallow
    obtain ⟨-, -, hbypass | ⟨-, hlisted, -⟩⟩ := decide_eq_allow.mp hallow
    · exact hmode hbypass
    · refine hlisted (fun hnil => hne (List.map_eq_nil_iff.mp hnil)) ?_
      exact touchesUnlisted_of_namesPlainly hread hnames habsolute htext hfile
  · intro tighter htighter hrefused
    exact decide_ne_allow_of_tightens htighter workspace hrefused

/-- Permissions for the sources alone. -/
def sourcesOnly : RunnerPermissions := { mode := .auto, allowedPaths := ["src/*"] }

/-- A relative path is not judged by them: it is a string like any other. -/
theorem relative_path_allowed :
    ¬ ∀ (permissions : RunnerPermissions) (workspace : Option PurePath) (toolName : String)
      (toolInput : Json), SpellingFree permissions workspace toolName toolInput := by
  intro h
  obtain ⟨-, hlisted, -⟩ := h sourcesOnly (some ⟨['/'], ["ws".toList]⟩) "Edit"
    (.obj [("file_path", .str "docs/readme.md")])
  refine hlisted (by decide) (by decide) _ rfl "docs/readme.md" 1 ["docs".toList, "readme.md".toList]
    (.field List.mem_cons_self (.here _)) (by decide) ?_ (by decide)
  rintro (⟨pattern, hmem, hmatch⟩ | ⟨pattern, hmem, hmatch⟩)
  · obtain rfl := List.mem_singleton.mp hmem
    revert hmatch
    decide
  · obtain rfl := List.mem_singleton.mp hmem
    revert hmatch
    decide

end Execution
end RepoMesh
