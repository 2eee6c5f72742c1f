/-
# The paths of a plan

What the allowed paths of a worker task admit, against the roots of the safety envelope. A path or a root
is read from the root of the repository, with `.` and `..` resolved and a `**` at its end taken for the
directory before it, and it admits what its text matches as a file name pattern and everything below. The
clamp compares texts instead, so it lets a sibling directory through, or a path that climbs out; what it
accepts is contained exactly where each path is also covered, as it is written, by one of the roots.
-/
import RepoMesh.Foundation.Fnmatch
import RepoMesh.Foundation.PurePath
import RepoMesh.Orchestration.PlanClamp

namespace RepoMesh
namespace Orchestration

open Fnmatch PurePath Text

/-! ## Places -/

/-- A place: so many levels above the repository, and the names from there. -/
structure Place where
  up : ℕ
  parts : List PathPart
  deriving DecidableEq

namespace Place

/-- One part further. -/
def enter (place : Place) (part : PathPart) : Place :=
  if part = parent then
    if place.parts = [] then { place with up := place.up + 1 }
    else { place with parts := place.parts.dropLast }
  else { place with parts := place.parts ++ [part] }

/-- A `**` at the end names the directory before it. -/
def directory (place : Place) : Place :=
  if place.parts.getLast? = some ['*', '*'] then { place with parts := place.parts.dropLast } else place

/-- The names of a path are names. -/
def IsPath (place : Place) : Prop :=
  ∀ part ∈ place.parts, part ≠ [] ∧ '/' ∉ part ∧ part ≠ ['.'] ∧ part ≠ parent

/-- The text of a place below its top. -/
def text (place : Place) : List Char := joined place.parts

@[simp] theorem text_mk (up : ℕ) (parts : List PathPart) : (⟨up, parts⟩ : Place).text = joined parts :=
  rfl

end Place

/-- The place a text names from the root of the repository. -/
def placeOf (text : String) : Place :=
  (parse (strip text).toList).parts.foldl Place.enter ⟨0, []⟩

/-- The place of a path or a root that may be a pattern. -/
def patternOf (text : String) : Place := (placeOf text).directory

/-- A place that a path or a root admits: its pattern matches the place, or a directory above it. -/
def Admits (text : String) (place : Place) : Prop :=
  (patternOf text).up = place.up ∧
    ∃ front, front <+: place.parts ∧ fnmatch (joined front) (patternOf text).text = true

/-- The report that `_author_permit` adds. -/
def databaseReportPath : String := ".repomesh/database-change-report.json"

/-- The allowed paths of the permit of a worker task. -/
def permitPaths (draft : LeaderWorkerTaskDraft) : List String :=
  draft.allowedPaths ++ if draft.databaseChange.required then [databaseReportPath] else []

/-- Every path that a permit of the plan admits is admitted by a root, or is the report. -/
def Contained (decision : RepositoryPlanDecision) (assignment : LeaderAssignmentView) : Prop :=
  ∀ draft ∈ decision.workerTasks, ∀ path ∈ permitPaths draft, ∀ place : Place, place.IsPath →
    Admits path place →
      ∃ root ∈ databaseReportPath :: assignment.safetyEnvelope.allowedPathRoots, Admits root place

/-! ## Covering -/

/-- The pattern of a directory above, or of the whole. -/
def Above (front tokens : List Token) : Prop :=
  front = [] ∨ tokens = front ∨ ∃ rest, tokens = front ++ .lit '/' :: rest

/-- A place that another one covers as it is written: that matches the written place, or a directory of
it. -/
def Place.Covers (root path : Place) : Prop :=
  root.up = path.up ∧
    ∃ front, Above front (translate path.text) ∧ Fnmatch.Covers (translate root.text) front

/-- A path that a root covers. -/
def CoveredBy (root path : String) : Prop := (patternOf root).Covers (patternOf path)

/-- Every allowed path of the plan is covered by a root, or by the report. -/
def Covered (decision : RepositoryPlanDecision) (assignment : LeaderAssignmentView) : Prop :=
  ∀ draft ∈ decision.workerTasks, ∀ path ∈ draft.allowedPaths,
    ∃ root ∈ databaseReportPath :: assignment.safetyEnvelope.allowedPathRoots, CoveredBy root path

/-- The allowed paths of the plan have no patterns, but for a `**` at the end. -/
def PlainPaths (decision : RepositoryPlanDecision) : Prop :=
  ∀ draft ∈ decision.workerTasks, ∀ path ∈ draft.allowedPaths, Plain (patternOf path).text

variable {root path : String} {place : Place}

@[simp] theorem joined_nil : joined [] = [] := rfl

theorem CoveredBy.admits (h : CoveredBy root path) (hplace : place.IsPath) (hpath : Admits path place) :
    Admits root place := by
  obtain ⟨hup, front, habove, hcovers⟩ := h
  obtain ⟨hlevel, names, hnames, hmatch⟩ := hpath
  refine ⟨hup.trans hlevel, ?_⟩
  rcases habove with rfl | hwhole | ⟨rest, hrest⟩
  · exact ⟨[], List.nil_prefix, hcovers.matchTokens [] rfl⟩
  · rw [fnmatch, hwhole] at hmatch
    exact ⟨names, hnames, hcovers.matchTokens _ hmatch⟩
  · rw [fnmatch, hrest, matchTokens_append] at hmatch
    obtain ⟨x, y, hxy, hx, hy⟩ := hmatch
    obtain ⟨c, z, rfl, hc, -⟩ := (matchTokens_cons (by simp)).mp hy
    obtain rfl : c = '/' := by simpa [Token.accepts] using hc
    -- The text before the slash is that of a directory of the place.
    have hparts : ∀ part ∈ names, part ≠ [] ∧ '/' ∉ part := by
      intro part hpart
      have hname := hplace part (hnames.subset hpart)
      exact ⟨hname.1, hname.2.1⟩
    obtain ⟨above, habove, rfl⟩ := exists_of_joined_eq hparts hxy
    exact ⟨above, habove.trans hnames, hcovers.matchTokens _ hx⟩

theorem coveredBy_of_admits (hplain : Plain (patternOf path).text)
    (h : Admits root (patternOf path)) : CoveredBy root path := by
  obtain ⟨hup, front, hfront, hmatch⟩ := h
  refine ⟨hup, (joined front).map .lit, ?_, covers_lit hmatch⟩
  rw [translate_plain hplain]
  obtain ⟨back, hback⟩ := hfront
  by_cases hnil : front = []
  · subst hnil
    exact .inl rfl
  · by_cases hend : back = []
    · subst hend
      rw [List.append_nil] at hback
      exact .inr (.inl (by rw [Place.text, hback]))
    · refine .inr (.inr ⟨(joined back).map .lit, ?_⟩)
      rw [Place.text, ← hback, joined_append hnil hend, List.map_append]
      rfl

theorem admits_self (hplain : Plain (patternOf path).text) : Admits path (patternOf path) := by
  refine ⟨rfl, (patternOf path).parts, List.prefix_rfl, ?_⟩
  rw [fnmatch, translate_plain hplain]
  exact matchTokens_lit _

theorem isPath_enter {part : PathPart} (h : place.IsPath)
    (hpart : part ≠ [] ∧ '/' ∉ part ∧ part ≠ ['.']) : (place.enter part).IsPath := by
  unfold Place.enter
  split
  · split
    · exact h
    · exact fun q hq => h q (List.mem_of_mem_dropLast hq)
  · rename_i hne
    intro q hq
    rcases List.mem_append.mp hq with hq | hq
    · exact h q hq
    · rw [List.mem_singleton] at hq
      subst hq
      exact ⟨hpart.1, hpart.2.1, hpart.2.2, hne⟩

theorem isPath_foldl {parts : List PathPart} (hparts : ∀ part ∈ parts, part ≠ [] ∧ '/' ∉ part ∧ part ≠ ['.'])
    (h : place.IsPath) : (parts.foldl Place.enter place).IsPath := by
  induction parts generalizing place with
  | nil => exact h
  | cons part parts ih =>
    exact ih (fun q hq => hparts q (List.mem_cons_of_mem _ hq))
      (isPath_enter h (hparts part (List.mem_cons_self ..)))

theorem isPath_directory (h : place.IsPath) : place.directory.IsPath := by
  unfold Place.directory
  split
  · exact fun part hpart => h part (List.mem_of_mem_dropLast hpart)
  · exact h

theorem isPath_patternOf (text : String) : (patternOf text).IsPath := by
  have hroot : (⟨0, []⟩ : Place).IsPath := by
    intro part hpart
    cases hpart
  have hparts : ∀ part ∈ (parse (strip text).toList).parts, part ≠ [] ∧ '/' ∉ part ∧ part ≠ ['.'] :=
    fun part hpart => mem_parse hpart
  have hplace : (placeOf text).IsPath := isPath_foldl hparts hroot
  exact isPath_directory hplace

theorem contained_of_covered {decision : RepositoryPlanDecision} {assignment : LeaderAssignmentView}
    (h : Covered decision assignment) : Contained decision assignment := by
  intro draft hdraft path hpath place hplace hadmits
  rcases List.mem_append.mp hpath with hallowed | hreport
  · obtain ⟨root, hroot, hcovered⟩ := h draft hdraft path hallowed
    exact ⟨root, hroot, hcovered.admits hplace hadmits⟩
  · split at hreport
    · rw [List.mem_singleton] at hreport
      subst hreport
      exact ⟨_, List.mem_cons_self .., hadmits⟩
    · cases hreport

theorem covered_of_contained {decision : RepositoryPlanDecision} {assignment : LeaderAssignmentView}
    (hplain : PlainPaths decision) (h : Contained decision assignment) : Covered decision assignment := by
  intro draft hdraft path hpath
  have hself := hplain draft hdraft path hpath
  obtain ⟨root, hroot, hadmits⟩ := h draft hdraft path (List.mem_append_left _ hpath) (patternOf path)
    (isPath_patternOf path) (admits_self hself)
  exact ⟨root, hroot, coveredBy_of_admits hself hadmits⟩

/-! ## What the clamp compares -/

/-- The text of a path that the clamp compares. -/
def comparedText (path : String) : List Char := (lstripDotSlash (strip path)).toList

/-- A path whose compared text names its place, with no detour and nothing stripped of its names. -/
def TidyPath (path : String) : Prop :=
  patternOf path = (⟨0, (parse (comparedText path)).parts⟩ : Place).directory

/-- A root whose compared text names its place, as the directory of all, or as one that ends in a slash,
without a pattern. -/
structure TidyRoot (root : String) : Prop where
  place : patternOf root = ⟨0, (parse (normalisedRoot root).toList).parts⟩
  plain : Plain (patternOf root).text
  slash : normalisedRoot root = "" ∨ ∃ front, (normalisedRoot root).toList = front ++ ['/']

theorem comparedText_head (path : String) : (comparedText path).head? ≠ some '/' := by
  rw [comparedText, lstripDotSlash, String.toList_ofList]
  intro h
  have hfirst := List.head?_dropWhile_not (fun c => decide (c = '.') || decide (c = '/'))
    (strip path).toList
  rw [h] at hfirst
  simp at hfirst

theorem parse_append {front rest : List Char} (hhead : (front ++ '/' :: rest).head? ≠ some '/') :
    ∃ names, (parse (front ++ '/' :: rest)).parts = (parse (front ++ ['/'])).parts ++ names := by
  have hroot : ∀ text : List Char, text.head? ≠ some '/' → splitRoot text = ([], text) := by
    intro text htext
    cases text with
    | nil => rfl
    | cons c text =>
      have hc : c ≠ '/' := fun heq => htext (by rw [heq]; rfl)
      unfold splitRoot
      split <;> simp_all
  have hfront : (front ++ ['/']).head? ≠ some '/' := by
    cases front with
    | nil => exact hhead
    | cons c front => simpa using hhead
  refine ⟨(rest.splitOn '/').filter fun part => part ≠ [] ∧ part ≠ ['.'], ?_⟩
  simp only [parse, hroot _ hhead, hroot _ hfront]
  rw [List.splitOn_append_cons_self, List.splitOn_append_cons_self, List.filter_append,
    List.filter_append]
  simp

theorem mem_joined {parts : List PathPart} {part : PathPart} {c : Char} (hpart : part ∈ parts)
    (hc : c ∈ part) : c ∈ joined parts := by
  induction parts with
  | nil => cases hpart
  | cons first parts ih =>
    by_cases hnil : parts = []
    · subst hnil
      obtain rfl := List.mem_singleton.mp hpart
      simpa [joined, List.intercalate] using hc
    · rw [joined_cons hnil, List.mem_append, List.mem_cons]
      rcases List.mem_cons.mp hpart with rfl | hlater
      · exact .inl hc
      · exact .inr (.inr (ih hlater))

theorem covers_below {up : ℕ} {parts : List PathPart} (hplain : Plain (joined parts))
    (names : List PathPart) : Place.Covers ⟨up, parts⟩ ⟨up, parts ++ names⟩ := by
  refine ⟨rfl, ?_⟩
  simp only [Place.text]
  rw [translate_plain hplain]
  by_cases hnil : parts = []
  · subst hnil
    exact ⟨[], .inl rfl, .nil⟩
  · refine ⟨(joined parts).map .lit, ?_, covers_lit (matchTokens_lit _)⟩
    by_cases hend : names = []
    · subst hend
      rw [List.append_nil, translate_plain hplain]
      exact .inr (.inl rfl)
    · have hslash : Plain ['/'] := by
        intro c hc
        obtain rfl := List.mem_singleton.mp hc
        decide
      refine .inr (.inr ⟨translate (joined names), ?_⟩)
      have hrest := @translate_append ['/'] (joined names) hslash
      rw [joined_append hnil hend, translate_append hplain]
      exact congrArg _ hrest

/-- So it does where that is spelled with a `**` behind. -/
theorem covers_directory {up : ℕ} {parts : List PathPart} (hplain : Plain (joined parts))
    (names : List PathPart) : Place.Covers ⟨up, parts⟩ (Place.directory ⟨up, parts ++ names⟩) := by
  unfold Place.directory
  split
  · rename_i hlast
    by_cases hnil : names = []
    · -- The directory would end in a pattern.
      subst hnil
      rw [List.append_nil] at hlast
      have hmem : '*' ∈ joined parts := mem_joined (List.mem_of_getLast? hlast) (by simp)
      exact absurd rfl (hplain '*' hmem).1
    · simp only [List.dropLast_append_of_ne_nil hnil]
      exact covers_below hplain _
  · exact covers_below hplain names

/-- **The clamp on tidy texts.** A path that the clamp takes for one below a root is covered by it, where
both are spelled without detours and the root as a directory. -/
theorem coveredBy_of_startsWith (hroot : TidyRoot root) (hpath : TidyPath path)
    (h : startsWith (lstripDotSlash (strip path)) (normalisedRoot root) = true) : CoveredBy root path := by
  obtain ⟨rest, hrest⟩ := List.isPrefixOf_iff_prefix.mp h
  obtain ⟨hplace, hplain, hslash⟩ := hroot
  have hparts : ∃ names, (parse (comparedText path)).parts =
      (parse (normalisedRoot root).toList).parts ++ names := by
    rcases hslash with hempty | ⟨front, hfront⟩
    · have hnone : (parse "".toList).parts = [] := by decide
      exact ⟨(parse (comparedText path)).parts, by rw [hempty, hnone, List.nil_append]⟩
    · have htext : comparedText path = front ++ '/' :: rest := by
        rw [comparedText, ← hrest, hfront, List.append_assoc]
        rfl
      have hhead : (front ++ '/' :: rest).head? ≠ some '/' := by
        rw [← htext]
        exact comparedText_head path
      obtain ⟨names, hnames⟩ := parse_append hhead
      exact ⟨names, by rw [htext, hnames, hfront]⟩
  obtain ⟨names, hnames⟩ := hparts
  have htidy : patternOf path = (⟨0, (parse (comparedText path)).parts⟩ : Place).directory := hpath
  rw [hplace, Place.text_mk] at hplain
  rw [CoveredBy, hplace, htidy, hnames]
  exact covers_directory hplain names

/-! ## The envelope -/

/-- **When the envelope contains a plan.** What an accepted plan lets its workers touch is admitted by the
roots where each allowed path is covered by one of them as it is written, and where the allowed paths have
no patterns it is so only there. For tidy roots and paths the clamp sees to it. -/
theorem accepted_contained_iff :
    ∀ (decision : RepositoryPlanDecision) (assignment : LeaderAssignmentView),
      assertPlanIsWithinEnvelope decision assignment = .ok () →
        (Covered decision assignment → Contained decision assignment) ∧
        (PlainPaths decision → (Contained decision assignment ↔ Covered decision assignment)) ∧
        ((∀ root ∈ assignment.safetyEnvelope.allowedPathRoots, TidyRoot root) →
          (∀ draft ∈ decision.workerTasks, ∀ path ∈ draft.allowedPaths, TidyPath path) →
            Covered decision assignment) := by
  intro decision assignment haccepted
  refine ⟨contained_of_covered, fun hplain =>
    ⟨covered_of_contained hplain, contained_of_covered⟩, fun hroots hpaths => ?_⟩
  intro draft hdraft path hpath
  have hdraftOk := ((assertPlan_ok_iff decision assignment).mp haccepted).2.2.2.2.2 draft hdraft
  simp only [assertDraftWithinEnvelope, Fallible.checked_ok_iff] at hdraftOk
  have hwithin : withinRoots path assignment.safetyEnvelope.allowedPathRoots = true := by
    have hnone := List.any_eq_false.mp (Bool.not_eq_true _ ▸ hdraftOk.2.1) path hpath
    simpa using hnone
  obtain ⟨root, hroot, hstart⟩ := (withinRoots_iff _ _).mp hwithin
  exact ⟨root, List.mem_cons_of_mem _ hroot,
    coveredBy_of_startsWith (hroots root hroot) (hpaths draft hdraft path hpath) hstart⟩

theorem accepted_contained_iff_two :
    assertPlanIsWithinEnvelope twoNodes twoNodesAssignment = .ok () ∧
      Contained twoNodes twoNodesAssignment ∧
      (Contained twoNodes twoNodesAssignment ↔ Covered twoNodes twoNodesAssignment) := by
  obtain ⟨hcontained, hiff, htidy⟩ := accepted_contained_iff twoNodes twoNodesAssignment twoNodes_accepted
  have hroots : ∀ root ∈ twoNodesAssignment.safetyEnvelope.allowedPathRoots, TidyRoot root := by
    intro root hroot
    obtain rfl := List.mem_singleton.mp hroot
    exact ⟨by decide +kernel, by unfold Plain; decide +kernel, .inr ⟨"src".toList, by decide +kernel⟩⟩
  have hpaths : ∀ draft ∈ twoNodes.workerTasks, ∀ path ∈ draft.allowedPaths, TidyPath path := by
    intro draft hdraft path hpath
    simp only [twoNodes, List.mem_cons, List.not_mem_nil, or_false] at hdraft
    rcases hdraft with rfl | rfl <;> obtain rfl := List.mem_singleton.mp hpath <;>
      unfold TidyPath <;> decide +kernel
  have hplain : PlainPaths twoNodes := by
    intro draft hdraft path hpath
    simp only [twoNodes, List.mem_cons, List.not_mem_nil, or_false] at hdraft
    rcases hdraft with rfl | rfl <;> obtain rfl := List.mem_singleton.mp hpath <;>
      unfold Plain <;> decide +kernel
  exact ⟨twoNodes_accepted, hcontained (htidy hroots hpaths), hiff hplain⟩

/-- A plan whose paths lie in a directory beside `src`. -/
def besidePlan : RepositoryPlanDecision where
  nodes := ["a", "b"]
  edges := []
  workerTasks :=
    [{ nodeId := "a", assigneeWorkerAgentId := 3, title := "Migrate", instruction := "Migrate it"
       allowedPaths := ["src2/a"], tests := [] },
     { nodeId := "b", assigneeWorkerAgentId := 3, title := "Switch", instruction := "Switch it"
       allowedPaths := ["src/../secrets"], tests := [] }]
  provenance := ⟨"leader-codex-session", "thread", none⟩
  raw := .null

/-- An assignment whose only root is `src`. -/
def srcAssignment : LeaderAssignmentView :=
  { twoNodesAssignment with safetyEnvelope := ⟨["src"], [], []⟩ }

/-- A sibling of the root, and a path that climbs out of it, are accepted. -/
theorem besidePlan_uncontained :
    ¬ ∀ (decision : RepositoryPlanDecision) (assignment : LeaderAssignmentView),
      assertPlanIsWithinEnvelope decision assignment = .ok () → Contained decision assignment := by
  intro h
  have haccepted : assertPlanIsWithinEnvelope besidePlan srcAssignment = .ok () := by
    rw [assertPlan_ok_iff]
    refine ⟨rfl, by decide, by decide, by decide, by decide, ?_⟩
    intro draft hdraft
    simp only [besidePlan, List.mem_cons, List.not_mem_nil, or_false] at hdraft
    rcases hdraft with rfl | rfl <;> decide +kernel
  have hself : Admits "src2/a" ⟨0, ["src2".toList, "a".toList]⟩ := by
    refine ⟨by decide +kernel, ["src2".toList, "a".toList], List.prefix_rfl, by decide +kernel⟩
  obtain ⟨root, hroot, -, front, hfront, hmatch⟩ := h besidePlan srcAssignment haccepted
    ⟨"a", 3, "Migrate", "Migrate it", ["src2/a"], [], {}⟩ (by simp [besidePlan]) "src2/a"
    (by simp [permitPaths]) ⟨0, ["src2".toList, "a".toList]⟩ (by unfold Place.IsPath; decide +kernel) hself
  have hinits : front ∈ [[], ["src2".toList], ["src2".toList, "a".toList]] := by
    simpa [List.inits] using (List.mem_inits _ _).mpr hfront
  revert hmatch
  simp only [srcAssignment, List.mem_cons, List.not_mem_nil, or_false] at hroot hinits
  rcases hroot with rfl | rfl <;> rcases hinits with rfl | rfl | rfl <;> decide +kernel

end Orchestration
end RepoMesh
