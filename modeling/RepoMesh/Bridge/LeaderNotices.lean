/-
# The notices of the leader lane

`parse_leader_notice`: what a message tells a Repository Leader to do. It keys on the routes a message
names and on the segment after each. The segment is read by how it starts, so a longer one counts as
well.
-/
import RepoMesh.Bridge.Supervisor
import RepoMesh.Foundation.FindAll
import RepoMesh.Foundation.JsonText

namespace RepoMesh
namespace Bridge

open Text
open Delivery (UUID)

/-! ## Routes -/

/-- The part of an assignment route before the identifier. -/
def assignmentsPath : List Char := "/api/v1/agent-actions/leader/assignments/".toList

/-- A hexadecimal digit of either case. -/
def isHexOfAnyCase (c : Char) : Bool := (Json.hexValue c).isSome

/-- Where an identifier has its dashes. -/
def idPattern : List Bool :=
  List.replicate 8 true ++ [false] ++ List.replicate 4 true ++ [false] ++ List.replicate 4 true ++
    [false] ++ List.replicate 4 true ++ [false] ++ List.replicate 12 true

/-- A text that shows an identifier. -/
def showsId (shown : List Char) : Bool :=
  shown.length == 36 &&
    (shown.zip idPattern).all fun (c, digit) => if digit then isHexOfAnyCase c else c == '-'

/-- `UUID(text)` of a text that shows one. -/
def idOf (shown : List Char) : UUID :=
  (shown.filter fun c => c != '-').foldl (fun n c => n * 16 + (Json.hexValue c).getD 0) 0

/-- `_ASSIGNMENT_ROUTE`, at the beginning of a text. -/
def assignmentRoute (cs : List Char) : Option UUID :=
  let shown := (cs.drop assignmentsPath.length).take 36
  if assignmentsPath.isPrefixOf cs && showsId shown then some (idOf shown) else none

/-- The length of a route. -/
def routeLength : ℕ := assignmentsPath.length + 36

/-- `_action_after`: which decision endpoint a matched route names, if it names one at all. -/
def actionAfter (tail : List Char) : Option NoticeAction :=
  if ('/' :: NoticeAction.plan.text.toList).isPrefixOf tail then some .plan
  else if ('/' :: NoticeAction.review.text.toList).isPrefixOf tail then some .review
  else none

/-- `parse_leader_notice`. -/
def parseLeaderNotice (body : List Char) : Option LeaderNotice :=
  let found := FindAll.findAll assignmentRoute routeLength body
  match (found.map (·.1)).dedup, (found.filterMap fun m => actionAfter m.2).dedup with
  | [taskId], [action] => some ⟨taskId, action⟩
  | _, _ => none

/-! ## What a route is -/

theorem hexOrDash_of_showsId {shown : List Char} (h : showsId shown = true) {c : Char}
    (hc : c ∈ shown) : isHexOfAnyCase c = true ∨ c = '-' := by
  rw [showsId, Bool.and_eq_true, beq_iff_eq] at h
  obtain ⟨hlength, hall⟩ := h
  obtain ⟨i, hi, rfl⟩ := List.getElem_of_mem hc
  have hpattern : i < idPattern.length := by
    have : idPattern.length = 36 := by decide
    omega
  have hmem : (shown[i], idPattern[i]) ∈ shown.zip idPattern := by
    rw [← List.getElem_zip (h := by rw [List.length_zip]; omega)]
    exact List.getElem_mem _
  have hone := List.all_eq_true.mp hall _ hmem
  dsimp only at hone
  split_ifs at hone
  · exact .inl hone
  · exact .inr (beq_iff_eq.mp hone)

theorem assignmentRoute_eq_some {cs : List Char} {id : UUID} :
    assignmentRoute cs = some id ↔
      ∃ shown tail, cs = assignmentsPath ++ shown ++ tail ∧ showsId shown = true ∧ idOf shown = id := by
  rw [assignmentRoute]
  constructor
  · intro h
    split_ifs at h with hroute
    rw [Bool.and_eq_true, List.isPrefixOf_iff_prefix] at hroute
    obtain ⟨⟨rest, rfl⟩, hshown⟩ := hroute
    rw [List.drop_left] at h hshown
    refine ⟨rest.take 36, rest.drop 36, ?_, hshown, Option.some.inj h⟩
    rw [List.append_assoc, List.take_append_drop]
  · rintro ⟨shown, tail, rfl, hshown, rfl⟩
    have hlength : shown.length = 36 := by
      rw [showsId, Bool.and_eq_true, beq_iff_eq] at hshown
      exact hshown.1
    have htake : ((assignmentsPath ++ shown ++ tail).drop assignmentsPath.length).take 36 = shown := by
      rw [List.append_assoc, List.drop_left, ← hlength, List.take_left]
    have hprefix : assignmentsPath.isPrefixOf (assignmentsPath ++ shown ++ tail) = true := by
      rw [List.isPrefixOf_iff_prefix, List.append_assoc]
      exact List.prefix_append _ _
    rw [htake, hprefix, hshown]
    rfl

theorem drop_routeLength {shown tail : List Char} (h : showsId shown = true) :
    (assignmentsPath ++ shown ++ tail).drop routeLength = tail := by
  have hlength : (assignmentsPath ++ shown).length = routeLength := by
    rw [showsId, Bool.and_eq_true, beq_iff_eq] at h
    rw [List.length_append, h.1, routeLength]
  rw [← hlength, List.drop_left]

/-- **Routes do not overlap.** A route begins with `/ap`, which stands nowhere else in one. -/
theorem assignmentRoute_apart (cs : List Char) (id : UUID) (h : assignmentRoute cs = some id) (k : ℕ)
    (hpos : 0 < k) (hlt : k < routeLength) : assignmentRoute (cs.drop k) = none := by
  rw [Option.eq_none_iff_forall_ne_some]
  intro id' h'
  obtain ⟨shown, tail, rfl, hshown, -⟩ := assignmentRoute_eq_some.mp h
  obtain ⟨shown', tail', heq, -, -⟩ := assignmentRoute_eq_some.mp h'
  have hpath : assignmentsPath = '/' :: 'a' :: 'p' :: assignmentsPath.drop 3 := by decide
  have hlength : assignmentsPath.length = 41 := by decide
  have hshownLength : shown.length = 36 := by
    have hshown' := hshown
    rw [showsId, Bool.and_eq_true, beq_iff_eq] at hshown'
    exact hshown'.1
  -- The three characters from `k` on.
  have hat : ∀ i c, (assignmentsPath ++ shown' ++ tail')[i]? = some c →
      (assignmentsPath ++ shown ++ tail)[k + i]? = some c := by
    intro i c hc
    rwa [← heq, List.getElem?_drop] at hc
  have hslash : (assignmentsPath ++ shown ++ tail)[k]? = some '/' := by
    have := hat 0 '/' (by rw [hpath]; rfl)
    simpa using this
  have ha : (assignmentsPath ++ shown ++ tail)[k + 1]? = some 'a' := hat 1 'a' (by rw [hpath]; rfl)
  have hp : (assignmentsPath ++ shown ++ tail)[k + 2]? = some 'p' := hat 2 'p' (by rw [hpath]; rfl)
  -- Past the path stand digits and dashes.
  have hdigits : ∀ i c, 41 ≤ i → i < 77 → (assignmentsPath ++ shown ++ tail)[i]? = some c →
      isHexOfAnyCase c = true ∨ c = '-' := by
    intro i c hi hi' hc
    rw [List.append_assoc, List.getElem?_append_right (by omega), hlength,
      List.getElem?_append_left (by omega)] at hc
    exact hexOrDash_of_showsId hshown (List.mem_of_getElem? hc)
  have hinPath : ∀ i c, i < 41 → (assignmentsPath ++ shown ++ tail)[i]? = some c →
      assignmentsPath[i]? = some c := by
    intro i c hi hc
    rwa [List.append_assoc, List.getElem?_append_left (by omega)] at hc
  rw [routeLength, hlength] at hlt
  by_cases hpart : k < 41
  · by_cases hend : k + 2 < 41
    · have hnowhere : ∀ i < 39, 0 < i → assignmentsPath[i]? = some '/' →
          assignmentsPath[i + 1]? = some 'a' → assignmentsPath[i + 2]? ≠ some 'p' := by decide
      exact hnowhere k (by omega) hpos (hinPath _ _ hpart hslash) (hinPath _ _ (by omega) ha)
        (hinPath _ _ hend hp)
    · rcases hdigits _ _ (by omega) (by omega) hp with hhex | hdash
      · exact absurd hhex (by decide)
      · exact absurd hdash (by decide)
  · rcases hdigits _ _ (by omega) (by omega) hslash with hhex | hdash
    · exact absurd hhex (by decide)
    · exact absurd hdash (by decide)

/-- A route of a body: whose, and what follows it. -/
abbrev Route (body : List Char) (id : UUID) (tail : List Char) : Prop :=
  FindAll.Occurs assignmentRoute routeLength body id tail

theorem mem_findAll_route {body : List Char} {id : UUID} {tail : List Char} :
    (id, tail) ∈ FindAll.findAll assignmentRoute routeLength body ↔ Route body id tail :=
  FindAll.mem_findAll (by decide) assignmentRoute_apart

/-! ## What a notice is -/

/-- The path segment that asks for an action. -/
def NoticeAction.segment (action : NoticeAction) : List Char := '/' :: action.text.toList

/-- A route of a body names a task. -/
def NamesTask (body : List Char) (id : UUID) : Prop := ∃ tail, Route body id tail

/-- What follows some route starts with the segment of an action. -/
def Starts (body : List Char) (action : NoticeAction) : Prop :=
  ∃ id tail, Route body id tail ∧ action.segment <+: tail

/-- Some route is followed by the segment of an action, which ends there: no character goes on with
it. -/
def Completes (continues : Char → Bool) (body : List Char) (action : NoticeAction) : Prop :=
  ∃ id tail rest, Route body id tail ∧ tail = action.segment ++ rest ∧
    ∀ c ∈ rest.head?, continues c = false

/-- **The purpose.** The routes of a body are of one task, and the complete segments after them ask
for one action. -/
def Recognised (continues : Char → Bool) (body : List Char) (notice : LeaderNotice) : Prop :=
  (∀ id, NamesTask body id ↔ id = notice.taskId) ∧
    ∀ action, Completes continues body action ↔ action = notice.action

variable {continues : Char → Bool} {body : List Char}

theorem Completes.starts {action : NoticeAction} (h : Completes continues body action) :
    Starts body action := by
  obtain ⟨id, tail, rest, hroute, htail, -⟩ := h
  exact ⟨id, tail, hroute, rest, htail.symm⟩

theorem actionAfter_eq_some {tail : List Char} {action : NoticeAction} :
    actionAfter tail = some action ↔ action.segment <+: tail := by
  have hboth : ¬ (NoticeAction.plan.segment <+: tail ∧ NoticeAction.review.segment <+: tail) := by
    rintro ⟨⟨rest, rfl⟩, ⟨rest', h⟩⟩
    have hhead := congrArg (·[1]?) h
    exact absurd hhead (by simp [NoticeAction.segment, NoticeAction.text])
  have hplan : ('/' :: NoticeAction.plan.text.toList).isPrefixOf tail = true ↔
      NoticeAction.plan.segment <+: tail := List.isPrefixOf_iff_prefix
  have hreview : ('/' :: NoticeAction.review.text.toList).isPrefixOf tail = true ↔
      NoticeAction.review.segment <+: tail := List.isPrefixOf_iff_prefix
  simp only [actionAfter, hplan, hreview]
  split_ifs with h h'
  · cases action with
    | plan => simp [h]
    | review => simpa using fun h' => hboth ⟨h, h'⟩
  · cases action with
    | plan => simp [h]
    | review => simp [h']
  · cases action with
    | plan => simp [h]
    | review => simp [h']

theorem dedup_eq_singleton {α : Type} [DecidableEq α] {l : List α} {a : α} :
    l.dedup = [a] ↔ ∀ x, x ∈ l ↔ x = a := by
  constructor
  · intro h x
    rw [← List.mem_dedup, h, List.mem_singleton]
  · intro h
    refine List.perm_singleton.mp ((List.perm_ext_iff_of_nodup (List.nodup_dedup l)
      (List.nodup_singleton a)).mpr fun x => ?_)
    rw [List.mem_dedup, List.mem_singleton]
    exact h x

/-- **What is parsed.** The routes are of one task, and what follows them starts with the segment of
one action. -/
theorem parseLeaderNotice_eq_some {notice : LeaderNotice} :
    parseLeaderNotice body = some notice ↔
      (∀ id, NamesTask body id ↔ id = notice.taskId) ∧
        ∀ action, Starts body action ↔ action = notice.action := by
  have hids : ∀ id, id ∈ (FindAll.findAll assignmentRoute routeLength body).map (·.1) ↔
      NamesTask body id := by
    intro id
    rw [List.mem_map]
    constructor
    · rintro ⟨⟨id, tail⟩, hmem, rfl⟩
      exact ⟨tail, mem_findAll_route.mp hmem⟩
    · rintro ⟨tail, hroute⟩
      exact ⟨(id, tail), mem_findAll_route.mpr hroute, rfl⟩
  have hactions : ∀ action, action ∈ (FindAll.findAll assignmentRoute routeLength body).filterMap
      (fun m => actionAfter m.2) ↔ Starts body action := by
    intro action
    rw [List.mem_filterMap]
    constructor
    · rintro ⟨⟨id, tail⟩, hmem, haction⟩
      exact ⟨id, tail, mem_findAll_route.mp hmem, actionAfter_eq_some.mp haction⟩
    · rintro ⟨id, tail, hroute, haction⟩
      exact ⟨(id, tail), mem_findAll_route.mpr hroute, actionAfter_eq_some.mpr haction⟩
  have hsplit : parseLeaderNotice body = some notice ↔
      ((FindAll.findAll assignmentRoute routeLength body).map (·.1)).dedup = [notice.taskId] ∧
        ((FindAll.findAll assignmentRoute routeLength body).filterMap
          fun m => actionAfter m.2).dedup = [notice.action] := by
    rw [parseLeaderNotice]
    constructor
    · intro h
      split at h
      · rename_i taskId action htask haction
        obtain rfl := Option.some.inj h
        exact ⟨htask, haction⟩
      · cases h
    · rintro ⟨htask, haction⟩
      simp only [htask, haction]
  rw [hsplit, dedup_eq_singleton, dedup_eq_singleton]
  simp only [hids, hactions]

/-! ## Prose around it -/

/-- A character that stands in no route and in no segment. -/
def Separates (c : Char) : Prop := c.isAlphanum = false ∧ c ≠ '/' ∧ c ≠ '-'

/-- What a route or a segment is spelled with. -/
def spells (c : Char) : Bool := c.isAlphanum || c == '/' || c == '-'

theorem Separates.spells {c : Char} (h : Separates c) : spells c = false := by
  obtain ⟨halpha, hslash, hdash⟩ := h
  rw [Bridge.spells, halpha, beq_false_of_ne hslash, beq_false_of_ne hdash]
  rfl

theorem isAlphanum_of_isHexOfAnyCase {c : Char} (h : isHexOfAnyCase c = true) :
    c.isAlphanum = true := by
  have hcode : (48 ≤ c.toNat ∧ c.toNat ≤ 57) ∨ (97 ≤ c.toNat ∧ c.toNat ≤ 102) ∨
      (65 ≤ c.toNat ∧ c.toNat ≤ 70) := by
    unfold isHexOfAnyCase Json.hexValue at h
    split_ifs at h with h₁ h₂ h₃
    · exact .inl h₁
    · exact .inr (.inl h₂)
    · exact .inr (.inr h₃)
    · cases h
  simp only [Char.isAlphanum, Char.isAlpha, Char.isUpper, Char.isLower, Char.isDigit,
    Bool.or_eq_true, Bool.and_eq_true, decide_eq_true_eq, ge_iff_le, UInt32.le_iff_toNat_le]
  change (48 ≤ c.val.toNat ∧ c.val.toNat ≤ 57) ∨ (97 ≤ c.val.toNat ∧ c.val.toNat ≤ 102) ∨
    (65 ≤ c.val.toNat ∧ c.val.toNat ≤ 70) at hcode
  rcases hcode with hdigit | hlower | hupper
  · exact .inr hdigit
  · exact .inl (.inr ⟨hlower.1, hlower.2.trans (by decide)⟩)
  · exact .inl (.inl ⟨hupper.1, hupper.2.trans (by decide)⟩)

theorem not_mem_route {c : Char} (hc : Separates c) {shown : List Char}
    (hshown : showsId shown = true) : c ∉ assignmentsPath ++ shown := by
  have hpath : ∀ d ∈ assignmentsPath, spells d = true :=
    List.all_eq_true.mp (by decide)
  intro hmem
  rcases List.mem_append.mp hmem with h | h
  · have hspells := hc.spells
    rw [hpath c h] at hspells
    cases hspells
  · rcases hexOrDash_of_showsId hshown h with hhex | hdash
    · have halpha := hc.1
      rw [isAlphanum_of_isHexOfAnyCase hhex] at halpha
      cases halpha
    · exact hc.2.2 hdash

theorem not_mem_segment {c : Char} (hc : Separates c) (action : NoticeAction) :
    c ∉ action.segment := by
  have hall : ∀ d ∈ action.segment, spells d = true := by
    cases action <;> simp [NoticeAction.segment, NoticeAction.text, spells]
  intro hmem
  have hspells := hc.spells
  rw [hall c hmem] at hspells
  cases hspells

theorem prefix_append_cons {α : Type} {w tail prose : List α} {c : α} (hc : c ∉ w) :
    w <+: tail ++ c :: prose ↔ w <+: tail := by
  constructor
  · rintro ⟨rest, h⟩
    rcases List.append_eq_append_iff.mp h with ⟨x, htail, -⟩ | ⟨x, hw, hx⟩
    · exact ⟨x, htail.symm⟩
    · cases x with
      | nil => exact ⟨[], by simp [hw]⟩
      | cons d x =>
        obtain ⟨rfl, -⟩ := List.cons.inj hx
        have hmem : c ∈ w := by simp [hw]
        exact absurd hmem hc
  · rintro ⟨rest, rfl⟩
    exact ⟨rest ++ c :: prose, by simp⟩

theorem assignmentRoute_nil : assignmentRoute [] = none := by decide

theorem assignmentRoute_append {c : Char} (hc : Separates c) (cs prose : List Char) :
    assignmentRoute (cs ++ c :: prose) = assignmentRoute cs := by
  refine Option.ext fun id => ?_
  rw [assignmentRoute_eq_some, assignmentRoute_eq_some]
  constructor
  · rintro ⟨shown, tail, heq, hshown, hid⟩
    have hbegins : assignmentsPath ++ shown <+: cs ++ c :: prose := ⟨tail, heq.symm⟩
    obtain ⟨rest, hrest⟩ := (prefix_append_cons (not_mem_route hc hshown)).mp hbegins
    exact ⟨shown, rest, hrest.symm, hshown, hid⟩
  · rintro ⟨shown, tail, rfl, hshown, hid⟩
    exact ⟨shown, tail ++ c :: prose, by simp, hshown, hid⟩

/-- **Routes of two texts.** They are the routes of each, where a separator stands between them. -/
theorem route_append {c : Char} (hc : Separates c) {left right : List Char} {id : UUID}
    {tail : List Char} :
    Route (left ++ c :: right) id tail ↔
      (∃ tail', Route left id tail' ∧ tail = tail' ++ c :: right) ∨ Route right id tail := by
  constructor
  · rintro ⟨before, rest, heq, hhit, htail⟩
    rcases List.append_eq_append_iff.mp heq with ⟨x, hbefore, hrest⟩ | ⟨x, hleft, hrest⟩
    · cases x with
      | nil =>
        rw [List.nil_append] at hrest
        have hnone : assignmentRoute (c :: right) = assignmentRoute [] :=
          assignmentRoute_append hc [] right
        rw [← hrest, hnone, assignmentRoute_nil] at hhit
        cases hhit
      | cons d x =>
        obtain ⟨-, hright⟩ := List.cons.inj hrest
        exact .inr ⟨x, rest, hright, hhit, htail⟩
    · rw [hrest, assignmentRoute_append hc] at hhit
      obtain ⟨shown, tail', rfl, hshown, -⟩ := assignmentRoute_eq_some.mp hhit
      refine .inl ⟨tail', ⟨before, _, hleft, hhit, (drop_routeLength hshown).symm⟩, ?_⟩
      rw [htail, hrest, List.append_assoc (assignmentsPath ++ shown), drop_routeLength hshown]
  · rintro (⟨tail', ⟨before, rest, rfl, hhit, rfl⟩, rfl⟩ | ⟨before, rest, rfl, hhit, htail⟩)
    · refine ⟨before, rest ++ c :: right, by simp, (assignmentRoute_append hc rest right).trans hhit,
        ?_⟩
      obtain ⟨shown, tail', rfl, hshown, -⟩ := assignmentRoute_eq_some.mp hhit
      rw [drop_routeLength hshown, List.append_assoc (assignmentsPath ++ shown),
        drop_routeLength hshown]
    · exact ⟨left ++ c :: before, rest, by simp, hhit, htail⟩

theorem namesTask_append {c : Char} (hc : Separates c) {left right : List Char} {id : UUID} :
    NamesTask (left ++ c :: right) id ↔ NamesTask left id ∨ NamesTask right id := by
  constructor
  · rintro ⟨tail, hroute⟩
    rcases (route_append hc).mp hroute with ⟨tail', hleft, -⟩ | hright
    · exact .inl ⟨tail', hleft⟩
    · exact .inr ⟨tail, hright⟩
  · rintro (⟨tail, hleft⟩ | ⟨tail, hright⟩)
    · exact ⟨_, (route_append hc).mpr (.inl ⟨tail, hleft, rfl⟩)⟩
    · exact ⟨tail, (route_append hc).mpr (.inr hright)⟩

theorem starts_append {c : Char} (hc : Separates c) {left right : List Char}
    {action : NoticeAction} :
    Starts (left ++ c :: right) action ↔ Starts left action ∨ Starts right action := by
  constructor
  · rintro ⟨id, tail, hroute, hsegment⟩
    rcases (route_append hc).mp hroute with ⟨tail', hleft, rfl⟩ | hright
    · exact .inl ⟨id, tail', hleft, (prefix_append_cons (not_mem_segment hc action)).mp hsegment⟩
    · exact .inr ⟨id, tail, hright, hsegment⟩
  · rintro (⟨id, tail, hleft, hsegment⟩ | ⟨id, tail, hright, hsegment⟩)
    · refine ⟨id, _, (route_append hc).mpr (.inl ⟨tail, hleft, rfl⟩), ?_⟩
      exact (prefix_append_cons (not_mem_segment hc action)).mpr hsegment
    · exact ⟨id, tail, (route_append hc).mpr (.inr hright), hsegment⟩

/-- A body with prose added: before it, after it, or at a separator inside it. -/
inductive WithProse : List Char → List Char → Prop
  | before {body prose : List Char} {c : Char} (hc : Separates c) (h : ∀ id, ¬ NamesTask prose id) :
    WithProse body (prose ++ c :: body)
  | after {body prose : List Char} {c : Char} (hc : Separates c) (h : ∀ id, ¬ NamesTask prose id) :
    WithProse body (body ++ c :: prose)
  | between {left prose right : List Char} {c c' : Char} (hc : Separates c) (hc' : Separates c')
    (h : ∀ id, ¬ NamesTask prose id) :
    WithProse (left ++ c :: right) (left ++ c :: (prose ++ c' :: right))

theorem not_starts {prose : List Char} (h : ∀ id, ¬ NamesTask prose id) (action : NoticeAction) :
    ¬ Starts prose action := by
  rintro ⟨id, tail, hroute, -⟩
  exact h id ⟨tail, hroute⟩

/-- **Prose.** Prose without a route changes nothing. -/
theorem parseLeaderNotice_prose {told : List Char} (h : WithProse body told) :
    parseLeaderNotice told = parseLeaderNotice body := by
  have hsame : (∀ id, NamesTask told id ↔ NamesTask body id) ∧
      ∀ action, Starts told action ↔ Starts body action := by
    cases h with
    | before hc hnone =>
      refine ⟨fun id => ?_, fun action => ?_⟩
      · rw [namesTask_append hc, or_iff_right (hnone id)]
      · rw [starts_append hc, or_iff_right (not_starts hnone action)]
    | after hc hnone =>
      refine ⟨fun id => ?_, fun action => ?_⟩
      · rw [namesTask_append hc, or_iff_left (hnone id)]
      · rw [starts_append hc, or_iff_left (not_starts hnone action)]
    | between hc hc' hnone =>
      refine ⟨fun id => ?_, fun action => ?_⟩
      · rw [namesTask_append hc, namesTask_append hc', namesTask_append hc, or_iff_right (hnone id)]
      · rw [starts_append hc, starts_append hc', starts_append hc,
          or_iff_right (not_starts hnone action)]
  refine Option.ext fun notice => ?_
  rw [parseLeaderNotice_eq_some, parseLeaderNotice_eq_some]
  simp only [hsame.1, hsame.2]

/-! ## When it recognises exactly the notices -/

/-- A body is read exactly, and prose around it changes nothing. -/
def ReadExactly (continues : Char → Bool) (body : List Char) : Prop :=
  (∀ notice, parseLeaderNotice body = some notice ↔ Recognised continues body notice) ∧
    ∀ told, WithProse body told → parseLeaderNotice told = parseLeaderNotice body

/-- The body is about one task. -/
def OneTask (body : List Char) : Prop := ∃ taskId, ∀ id, NamesTask body id ↔ id = taskId

theorem NoticeAction.forall_iff {P : NoticeAction → Prop} :
    (∀ action, P action) ↔ P .plan ∧ P .review := by
  constructor
  · exact fun h => ⟨h .plan, h .review⟩
  · rintro ⟨hplan, hreview⟩ action
    cases action with
    | plan => exact hplan
    | review => exact hreview

theorem singles_iff {S N : NoticeAction → Prop} (h : ∀ action, N action → S action) :
    (∀ a, (∀ action, S action ↔ action = a) ↔ ∀ action, N action ↔ action = a) ↔
      (∀ action, S action → N action) ∨ ((∀ action, S action) ∧ ∀ action, ¬ N action) := by
  have hplan := h .plan
  have hreview := h .review
  simp only [NoticeAction.forall_iff, reduceCtorEq, iff_true, iff_false]
  tauto

/-- **When notices are recognised exactly.** A body that is not about one task is declined as it
should be. One that is is read exactly when each action that some segment starts with is also asked
for by a complete one, or when both are started and neither is complete. -/
theorem readExactly_iff (continues : Char → Bool) (body : List Char) :
    ReadExactly continues body ↔
      ¬ OneTask body ∨ (∀ action, Starts body action → Completes continues body action) ∨
        ((∀ action, Starts body action) ∧ ∀ action, ¬ Completes continues body action) := by
  have hread : ReadExactly continues body ↔
      ∀ notice, parseLeaderNotice body = some notice ↔ Recognised continues body notice :=
    ⟨fun h => h.1, fun h => ⟨h, fun told htold => parseLeaderNotice_prose htold⟩⟩
  rw [hread]
  by_cases htask : OneTask body
  · obtain ⟨taskId, hroutes⟩ := htask
    have hone : OneTask body := ⟨taskId, hroutes⟩
    have hiff : (∀ notice, parseLeaderNotice body = some notice ↔ Recognised continues body notice) ↔
        ∀ a, (∀ action, Starts body action ↔ action = a) ↔
          ∀ action, Completes continues body action ↔ action = a := by
      constructor
      · intro h a
        have hnotice := h ⟨taskId, a⟩
        rw [parseLeaderNotice_eq_some, Recognised] at hnotice
        exact ⟨fun hs => (hnotice.mp ⟨hroutes, hs⟩).2, fun hn => (hnotice.mpr ⟨hroutes, hn⟩).2⟩
      · intro h notice
        rw [parseLeaderNotice_eq_some, Recognised]
        exact and_congr_right fun _ => h notice.action
    rw [hiff, singles_iff fun action h => Completes.starts h]
    exact (or_iff_right (not_not_intro hone)).symm
  · refine ⟨fun _ => .inl htask, fun _ notice => ?_⟩
    rw [parseLeaderNotice_eq_some, Recognised]
    constructor
    · rintro ⟨hroutes, -⟩
      exact absurd ⟨_, hroutes⟩ htask
    · rintro ⟨hroutes, -⟩
      exact absurd ⟨_, hroutes⟩ htask

/-- A body that asks for `planning`. -/
def planningBody : List Char :=
  "POST /api/v1/agent-actions/leader/assignments/00000000-0000-0000-0000-000000000001/planning".toList

/-- It is taken for a plan notice, and no route in it leaves anything but `/planning`. -/
def planningParsed : {body : List Char // body = planningBody ∧
    parseLeaderNotice body = some ⟨1, .plan⟩ ∧
    ∀ m ∈ FindAll.findAll assignmentRoute routeLength body, m.2 = "/planning".toList} :=
  ⟨planningBody, rfl, by decide +kernel⟩

/-- The body is read too generously. -/
theorem planning_recognised : ¬ ∀ body, ReadExactly Char.isAlphanum body := by
  intro h
  have parsed := planningParsed
  obtain ⟨body, hbody, hparsed, hall⟩ := parsed
  rw [hbody] at hparsed hall
  obtain ⟨-, hactions⟩ := ((h planningBody).1 ⟨1, .plan⟩).mp hparsed
  obtain ⟨id, tail, rest, hroute, htail, hrest⟩ := (hactions .plan).mpr rfl
  have hfound := mem_findAll_route.mpr hroute
  have hplanning : tail = "/planning".toList := hall _ hfound
  rw [htail] at hplanning
  have hcancel : NoticeAction.plan.segment ++ rest = NoticeAction.plan.segment ++ "ning".toList :=
    hplanning
  have hning : rest = "ning".toList := List.append_cancel_left hcancel
  rw [hning] at hrest
  exact absurd (hrest 'n' rfl) (by decide)

end Bridge
end RepoMesh
