/-
# Text as Python sees it

The string methods the program normalises its inputs with (`str.strip`, `str.lower`,
`str.startswith`, slicing), on Lean strings read as lists of code points.
-/
import Mathlib.Data.List.Basic
import Mathlib.Data.List.DropRight
import Mathlib.Tactic.Ring

namespace RepoMesh
namespace Text

/-- The code points `str.isspace` accepts, which are those `str.strip` removes. -/
def spaceCodes : List ℕ :=
  [9, 10, 11, 12, 13, 28, 29, 30, 31, 32, 133, 160, 5760, 8192, 8193, 8194, 8195, 8196, 8197,
    8198, 8199, 8200, 8201, 8202, 8232, 8233, 8239, 8287, 12288]

/-- `str.isspace` of one character. -/
def isSpace (c : Char) : Bool := spaceCodes.contains c.toNat

/-- What is asked of each character of a text is decided character by character. -/
instance decidableForallChar (cs : List Char) (p : Char → Prop) [DecidablePred p] : Decidable (∀ c ∈ cs, p c) :=
  List.decidableBAll p cs

/-- `str.strip` on the list of code points. -/
def stripList (cs : List Char) : List Char :=
  ((cs.dropWhile isSpace).reverse.dropWhile isSpace).reverse

/-- `str.strip()`: whitespace removed at both ends. -/
def strip (s : String) : String := String.ofList (stripList s.toList)

/-- The simple lower-case mappings outside ASCII, as `(first, last, step, offset)`. -/
def lowerRanges : List (ℕ × ℕ × ℕ × ℤ) :=
  [
    (192, 214, 1, 32), (216, 222, 1, 32), (256, 302, 2, 1), (306, 310, 2, 1), (313, 327, 2, 1),
    (330, 374, 2, 1), (376, 376, 1, -121), (377, 381, 2, 1), (385, 385, 1, 210), (386, 388, 2, 1),
    (390, 390, 1, 206), (391, 391, 1, 1), (393, 394, 1, 205), (395, 395, 1, 1), (398, 398, 1, 79),
    (399, 399, 1, 202), (400, 400, 1, 203), (401, 401, 1, 1), (403, 403, 1, 205),
    (404, 404, 1, 207), (406, 406, 1, 211), (407, 407, 1, 209), (408, 408, 1, 1),
    (412, 412, 1, 211), (413, 413, 1, 213), (415, 415, 1, 214), (416, 420, 2, 1),
    (422, 422, 1, 218), (423, 423, 1, 1), (425, 425, 1, 218), (428, 428, 1, 1),
    (430, 430, 1, 218), (431, 431, 1, 1), (433, 434, 1, 217), (435, 437, 2, 1),
    (439, 439, 1, 219), (440, 440, 1, 1), (444, 444, 1, 1), (452, 452, 1, 2), (453, 453, 1, 1),
    (455, 455, 1, 2), (456, 456, 1, 1), (458, 458, 1, 2), (459, 475, 2, 1), (478, 494, 2, 1),
    (497, 497, 1, 2), (498, 500, 2, 1), (502, 502, 1, -97), (503, 503, 1, -56), (504, 542, 2, 1),
    (544, 544, 1, -130), (546, 562, 2, 1), (570, 570, 1, 10795), (571, 571, 1, 1),
    (573, 573, 1, -163), (574, 574, 1, 10792), (577, 577, 1, 1), (579, 579, 1, -195),
    (580, 580, 1, 69), (581, 581, 1, 71), (582, 590, 2, 1), (880, 882, 2, 1), (886, 886, 1, 1),
    (895, 895, 1, 116), (902, 902, 1, 38), (904, 906, 1, 37), (908, 908, 1, 64),
    (910, 911, 1, 63), (913, 929, 1, 32), (931, 939, 1, 32), (975, 975, 1, 8), (984, 1006, 2, 1),
    (1012, 1012, 1, -60), (1015, 1015, 1, 1), (1017, 1017, 1, -7), (1018, 1018, 1, 1),
    (1021, 1023, 1, -130), (1024, 1039, 1, 80), (1040, 1071, 1, 32), (1120, 1152, 2, 1),
    (1162, 1214, 2, 1), (1216, 1216, 1, 15), (1217, 1229, 2, 1), (1232, 1326, 2, 1),
    (1329, 1366, 1, 48), (4256, 4293, 1, 7264), (4295, 4295, 1, 7264), (4301, 4301, 1, 7264),
    (5024, 5103, 1, 38864), (5104, 5109, 1, 8), (7312, 7354, 1, -3008), (7357, 7359, 1, -3008),
    (7680, 7828, 2, 1), (7838, 7838, 1, -7615), (7840, 7934, 2, 1), (7944, 7951, 1, -8),
    (7960, 7965, 1, -8), (7976, 7983, 1, -8), (7992, 7999, 1, -8), (8008, 8013, 1, -8),
    (8025, 8031, 2, -8), (8040, 8047, 1, -8), (8072, 8079, 1, -8), (8088, 8095, 1, -8),
    (8104, 8111, 1, -8), (8120, 8121, 1, -8), (8122, 8123, 1, -74), (8124, 8124, 1, -9),
    (8136, 8139, 1, -86), (8140, 8140, 1, -9), (8152, 8153, 1, -8), (8154, 8155, 1, -100),
    (8168, 8169, 1, -8), (8170, 8171, 1, -112), (8172, 8172, 1, -7), (8184, 8185, 1, -128),
    (8186, 8187, 1, -126), (8188, 8188, 1, -9), (8486, 8486, 1, -7517), (8490, 8490, 1, -8383),
    (8491, 8491, 1, -8262), (8498, 8498, 1, 28), (8544, 8559, 1, 16), (8579, 8579, 1, 1),
    (9398, 9423, 1, 26), (11264, 11311, 1, 48), (11360, 11360, 1, 1), (11362, 11362, 1, -10743),
    (11363, 11363, 1, -3814), (11364, 11364, 1, -10727), (11367, 11371, 2, 1),
    (11373, 11373, 1, -10780), (11374, 11374, 1, -10749), (11375, 11375, 1, -10783),
    (11376, 11376, 1, -10782), (11378, 11378, 1, 1), (11381, 11381, 1, 1),
    (11390, 11391, 1, -10815), (11392, 11490, 2, 1), (11499, 11501, 2, 1), (11506, 11506, 1, 1),
    (42560, 42604, 2, 1), (42624, 42650, 2, 1), (42786, 42798, 2, 1), (42802, 42862, 2, 1),
    (42873, 42875, 2, 1), (42877, 42877, 1, -35332), (42878, 42886, 2, 1), (42891, 42891, 1, 1),
    (42893, 42893, 1, -42280), (42896, 42898, 2, 1), (42902, 42920, 2, 1),
    (42922, 42922, 1, -42308), (42923, 42923, 1, -42319), (42924, 42924, 1, -42315),
    (42925, 42925, 1, -42305), (42926, 42926, 1, -42308), (42928, 42928, 1, -42258),
    (42929, 42929, 1, -42282), (42930, 42930, 1, -42261), (42931, 42931, 1, 928),
    (42932, 42946, 2, 1), (42948, 42948, 1, -48), (42949, 42949, 1, -42307),
    (42950, 42950, 1, -35384), (42951, 42953, 2, 1), (42960, 42960, 1, 1), (42966, 42968, 2, 1),
    (42997, 42997, 1, 1), (65313, 65338, 1, 32), (66560, 66599, 1, 40), (66736, 66771, 1, 40),
    (66928, 66938, 1, 39), (66940, 66954, 1, 39), (66956, 66962, 1, 39), (66964, 66965, 1, 39),
    (68736, 68786, 1, 64), (71840, 71871, 1, 32), (93760, 93791, 1, 32), (125184, 125217, 1, 34)
  ]

/-- `str.lower` of one code point. U+0130 is the one code point that lowers to two. -/
def lowerChar (c : Char) : List Char :=
  if c.toNat < 128 then [c.toLower]
  else if c.toNat = 304 then ['i', Char.ofNat 775]
  else
    match lowerRanges.find? fun r =>
        r.1 ≤ c.toNat && c.toNat ≤ r.2.1 && (c.toNat - r.1) % r.2.2.1 == 0 with
    | some r => [Char.ofNat ((c.toNat : ℤ) + r.2.2.2).toNat]
    | none => [c]

/-- `str.lower()`. -/
def lower (s : String) : String := String.ofList (s.toList.flatMap lowerChar)

/-- `s.startswith(start)`. -/
def startsWith (s start : String) : Bool := start.toList.isPrefixOf s.toList

/-- `s[:n]`. -/
def truncate (n : ℕ) (s : String) : String := String.ofList (s.toList.take n)

/-- `sep.join(parts)`. -/
def join (sep : String) (parts : List String) : String := sep.intercalate parts

/-- `not value.strip()`, the test the program uses for a missing text. -/
def isBlank (s : String) : Bool := (strip s).isEmpty

/-- A digit of a lower-case Git object id. -/
def isHexDigit (c : Char) : Bool :=
  (48 ≤ c.toNat && c.toNat ≤ 57) || (97 ≤ c.toNat && c.toNat ≤ 102)

/-- One hexadecimal digit. -/
def hexDigit (n : ℕ) : Char := if n < 10 then Char.ofNat (48 + n) else Char.ofNat (87 + n)

/-- The `k` low hexadecimal digits of `n`, most significant first. -/
def hexDigits : ℕ → ℕ → List Char
  | 0, _ => []
  | k + 1, n => hexDigits k (n / 16) ++ [hexDigit (n % 16)]

/-- Normalisation used for heads, check names and reviewers: `value.strip().lower()`. -/
def normalize (s : String) : String := lower (strip s)

theorem isHexDigit_hexDigit {n : ℕ} (h : n < 16) : isHexDigit (hexDigit n) = true := by
  have hall : ∀ m < 16, isHexDigit (hexDigit m) = true := by decide
  exact hall n h

theorem length_hexDigits (k n : ℕ) : (hexDigits k n).length = k := by
  induction k generalizing n with
  | zero => rfl
  | succ k ih =>
    simp only [hexDigits, List.length_append, List.length_singleton]
    have hrest := ih (n / 16)
    omega

theorem isHexDigit_of_mem_hexDigits {k n : ℕ} {c : Char} (hc : c ∈ hexDigits k n) :
    isHexDigit c = true := by
  induction k generalizing n with
  | zero => simp [hexDigits] at hc
  | succ k ih =>
    rcases List.mem_append.mp hc with hc | hc
    · exact ih hc
    · rw [List.mem_singleton.mp hc]
      exact isHexDigit_hexDigit (Nat.mod_lt n (by omega))

theorem isSpace_of_isHexDigit {c : Char} (h : isHexDigit c = true) : isSpace c = false := by
  have hc : 48 ≤ c.toNat ∧ c.toNat ≤ 102 := by
    simp only [isHexDigit, Bool.or_eq_true, Bool.and_eq_true, decide_eq_true_eq] at h
    omega
  have hcode : ∀ n ∈ spaceCodes, n < 48 ∨ 102 < n := by decide
  rw [isSpace, Bool.eq_false_iff]
  intro hmem
  rcases hcode _ (List.contains_iff_mem.mp hmem) with h' | h' <;> omega

theorem lowerChar_of_isHexDigit {c : Char} (h : isHexDigit c = true) : lowerChar c = [c] := by
  have hc : (48 ≤ c.toNat ∧ c.toNat ≤ 57) ∨ (97 ≤ c.toNat ∧ c.toNat ≤ 102) := by
    simpa only [isHexDigit, Bool.or_eq_true, Bool.and_eq_true, decide_eq_true_eq] using h
  have hlt : c.toNat < 128 := by omega
  have hval : c.val.toNat = c.toNat := rfl
  rw [lowerChar, if_pos hlt]
  refine congrArg (· :: []) (dif_neg ?_)
  rintro ⟨h1, h2⟩
  simp only [ge_iff_le, UInt32.le_iff_toNat_le, hval] at h1 h2
  have h1' : 65 ≤ c.toNat := h1
  have h2' : c.toNat ≤ 90 := h2
  omega

theorem stripList_eq_self {cs : List Char} (h : ∀ c ∈ cs, isSpace c = false) :
    stripList cs = cs := by
  have drop : ∀ l : List Char, (∀ c ∈ l, isSpace c = false) → l.dropWhile isSpace = l := by
    intro l hl
    cases l with
    | nil => rfl
    | cons c l => rw [List.dropWhile_cons, if_neg (by simp [hl c])]
  rw [stripList, drop cs h, drop cs.reverse (by simpa using h), List.reverse_reverse]

theorem stripList_eq_of_ends {a b : Char} (ha : isSpace a = false) (hb : isSpace b = false)
    (cs : List Char) : stripList (a :: cs ++ [b]) = a :: cs ++ [b] := by
  have hfront : (a :: cs ++ [b]).dropWhile isSpace = a :: cs ++ [b] :=
    List.dropWhile_cons_of_neg (by simp [ha])
  have hback : (a :: cs ++ [b]).reverse.dropWhile isSpace = (a :: cs ++ [b]).reverse := by
    rw [List.reverse_append]
    exact List.dropWhile_cons_of_neg (by simp [hb])
  rw [stripList, hfront, hback, List.reverse_reverse]

theorem stripList_stripList (cs : List Char) : stripList (stripList cs) = stripList cs := by
  have hfront : (stripList cs).dropWhile isSpace = stripList cs := by
    have hprefix : stripList cs <+: cs.dropWhile isSpace := by
      rw [stripList, ← List.reverse_suffix, List.reverse_reverse]
      exact List.dropWhile_suffix _
    cases hs : stripList cs with
    | nil => rfl
    | cons c rest =>
      rw [hs] at hprefix
      obtain ⟨more, hmore⟩ := hprefix
      have hc := List.head_dropWhile_not isSpace (l := cs) (by rw [← hmore]; simp)
      simp only [← hmore, List.cons_append, List.head_cons] at hc
      exact List.dropWhile_cons_of_neg (by simp [hc])
  rw [stripList, hfront, stripList, List.reverse_reverse, List.dropWhile_idempotent]

theorem strip_strip (s : String) : strip (strip s) = strip s := by
  rw [strip, strip, String.toList_ofList, stripList_stripList]

theorem append_cons_inj {α : Type} {s : α} {a b x y : List α} (ha : s ∉ a) (hb : s ∉ b)
    (h : a ++ s :: x = b ++ s :: y) : a = b ∧ x = y := by
  induction a generalizing b with
  | nil =>
    cases b with
    | nil => exact ⟨rfl, (List.cons_eq_cons.mp h).2⟩
    | cons c b =>
      obtain ⟨rfl, -⟩ := List.cons_eq_cons.mp h
      exact absurd (List.mem_cons_self ..) hb
  | cons d a ih =>
    cases b with
    | nil =>
      obtain ⟨rfl, -⟩ := List.cons_eq_cons.mp h
      exact absurd (List.mem_cons_self ..) ha
    | cons c b =>
      obtain ⟨rfl, hrest⟩ := List.cons_eq_cons.mp h
      obtain ⟨rfl, rfl⟩ := ih (fun hs => ha (List.mem_cons_of_mem _ hs))
        (fun hs => hb (List.mem_cons_of_mem _ hs)) hrest
      exact ⟨rfl, rfl⟩

theorem append_cancel {s a b : String} (h : s ++ a = s ++ b) : a = b := by
  have hlist := congrArg String.toList h
  rw [String.toList_append, String.toList_append] at hlist
  exact String.toList_inj.mp (List.append_cancel_left hlist)

theorem append_ne {s t a b : String} (hs : s ≠ "") (ht : t ≠ "")
    (h : s.toList.head? ≠ t.toList.head?) : s ++ a ≠ t ++ b := by
  intro heq
  have hnonempty : ∀ {x : String}, x ≠ "" → x.toList ≠ [] := fun hx hnil =>
    hx (String.toList_inj.mp hnil)
  have hlist := congrArg (fun x => x.toList.head?) heq
  simp only [String.toList_append, List.head?_append_of_ne_nil _ (hnonempty hs),
    List.head?_append_of_ne_nil _ (hnonempty ht)] at hlist
  exact h hlist

theorem colon_inj {a b x y : String} (ha : ':' ∉ a.toList) (hb : ':' ∉ b.toList)
    (h : a ++ ":" ++ x = b ++ ":" ++ y) : a = b ∧ x = y := by
  have hcolon : ":".toList = [':'] := rfl
  have hlist : a.toList ++ ':' :: x.toList = b.toList ++ ':' :: y.toList := by
    have htext := congrArg String.toList h
    rwa [String.toList_append, String.toList_append, String.toList_append, String.toList_append,
      hcolon, List.append_assoc, List.append_assoc, List.singleton_append,
      List.singleton_append] at htext
  obtain ⟨hab, hxy⟩ := append_cons_inj ha hb hlist
  exact ⟨String.toList_inj.mp hab, String.toList_inj.mp hxy⟩

/-- No character of the text is whitespace. -/
def isUnspaced (s : String) : Bool := s.toList.all fun c => !isSpace c

theorem isUnspaced_iff {s : String} :
    isUnspaced s = true ↔ ∀ c ∈ s.toList, isSpace c = false := by
  simp only [isUnspaced, List.all_eq_true, Bool.not_eq_true']

theorem isUnspaced_append {s t : String} (hs : isUnspaced s = true) (ht : isUnspaced t = true) :
    isUnspaced (s ++ t) = true := by
  rw [isUnspaced, String.toList_append, List.all_append, Bool.and_eq_true]
  exact ⟨hs, ht⟩

theorem strip_eq_self {s : String} (h : isUnspaced s = true) : strip s = s := by
  rw [strip, stripList_eq_self (isUnspaced_iff.mp h), String.ofList_toList]

theorem mem_toString_int {n : ℤ} {c : Char} (hc : c ∈ (toString n).toList) :
    c = '-' ∨ isHexDigit c = true := by
  have hnat : ∀ m : ℕ, c ∈ (Nat.repr m).toList → isHexDigit c = true := by
    intro m hm
    have hmem : c ∈ Nat.toDigits 10 m := by simpa using hm
    have hd : c.isDigit = true := Nat.isDigit_of_mem_toDigits (by omega) (by omega) hmem
    simp only [Char.isDigit, Bool.and_eq_true, decide_eq_true_eq] at hd
    have h0 : 48 ≤ c.toNat := hd.1
    have h9 : c.toNat ≤ 57 := hd.2
    simp only [isHexDigit, Bool.or_eq_true, Bool.and_eq_true, decide_eq_true_eq]
    omega
  cases n with
  | ofNat m => exact Or.inr (hnat m hc)
  | negSucc m =>
    have hmem : c ∈ ("-" ++ Nat.repr (m + 1)).toList := hc
    rw [String.toList_append] at hmem
    rcases List.mem_append.mp hmem with h | h
    · exact Or.inl (List.mem_singleton.mp h)
    · exact Or.inr (hnat _ h)

theorem normalize_eq_self {s : String} (h : ∀ c ∈ s.toList, isHexDigit c = true) :
    normalize s = s := by
  have hstrip : strip s = s := by
    rw [strip, stripList_eq_self fun c hc => isSpace_of_isHexDigit (h c hc), String.ofList_toList]
  have hlower : ∀ l : List Char, (∀ c ∈ l, isHexDigit c = true) → l.flatMap lowerChar = l := by
    intro l hl
    induction l with
    | nil => rfl
    | cons c l ih =>
      rw [List.flatMap_cons, lowerChar_of_isHexDigit (hl c (by simp)),
        ih fun d hd => hl d (by simp [hd])]
      rfl
  rw [normalize, hstrip, lower, hlower _ h, String.ofList_toList]

theorem mem_toList_append {s t : String} {c : Char} (h : c ∈ s.toList) : c ∈ (s ++ t).toList := by
  rw [String.toList_append]
  exact List.mem_append_left _ h

theorem mem_dropWhile {p : Char → Bool} {c : Char} {cs : List Char} (hc : c ∈ cs)
    (hp : p c = false) : c ∈ cs.dropWhile p := by
  rw [← List.takeWhile_append_dropWhile (p := p) (l := cs)] at hc
  rcases List.mem_append.mp hc with htake | hdrop
  · rw [List.mem_takeWhile_imp htake] at hp
    cases hp
  · exact hdrop

theorem mem_strip {s : String} {c : Char} (hc : c ∈ s.toList) (hs : isSpace c = false) :
    c ∈ (strip s).toList := by
  rw [strip, String.toList_ofList, stripList, List.mem_reverse]
  exact mem_dropWhile (List.mem_reverse.mpr (mem_dropWhile hc hs)) hs

theorem mem_literal {s : String} {l : List Char} {c : Char} (h : s = String.ofList l)
    (hc : c ∈ l) : c ∈ s.toList := by
  rw [h, String.toList_ofList]
  exact hc

theorem isBlank_of_mem {s : String} {c : Char} (hc : c ∈ s.toList) (hs : isSpace c = false) :
    isBlank s = false := by
  have hmem := mem_strip hc hs
  rw [isBlank, Bool.eq_false_iff]
  intro hempty
  rw [String.isEmpty_iff] at hempty
  rw [hempty] at hmem
  cases hmem

theorem isBlank_strip_of_mem {s : String} {c : Char} (hc : c ∈ s.toList)
    (hs : isSpace c = false) : isBlank (strip s) = false :=
  isBlank_of_mem (mem_strip hc hs) hs

end Text
end RepoMesh
