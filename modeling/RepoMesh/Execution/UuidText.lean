/-
# The texts of identifiers

`uuid.UUID(text)` with what it puts up with: a URN, braces, dashes anywhere, and whatever `int(_, 16)`
reads from the 32 characters that are left.
-/
import RepoMesh.Runner.EvidenceText

namespace RepoMesh
namespace Execution

open Text
open Delivery (UUID uuidStr)

/-- An identifier of 128 bits. -/
structure Uuid where
  value : UUID
  valid : value < 2 ^ 128
  deriving DecidableEq

/-- `str(uuid)`. -/
def Uuid.str (id : Uuid) : String := uuidStr id.value

/-- The characters left when every occurrence of a text is removed; the first ones may belong to an
occurrence already. -/
def removeFrom (text : List Char) : ℕ → List Char → List Char
  | _, [] => []
  | skip + 1, _ :: cs => removeFrom text skip cs
  | 0, c :: cs =>
    if text.isPrefixOf (c :: cs) then removeFrom text (text.length - 1) cs
    else c :: removeFrom text 0 cs

/-- `text.replace(part, "")`. -/
def remove (part cs : List Char) : List Char := removeFrom part 0 cs

/-- `text.strip("\x7b\x7d")`. -/
def stripBraces (cs : List Char) : List Char :=
  let isBrace : Char → Bool := fun c => c == '{' || c == '}'
  ((cs.dropWhile isBrace).reverse.dropWhile isBrace).reverse

/-- The zeros of the decimal digits outside ASCII. -/
def decimalZeros : List ℕ :=
  [1632, 1776, 1984, 2406, 2534, 2662, 2790, 2918, 3046, 3174, 3302, 3430, 3558, 3664, 3792, 3872,
    4160, 4240, 6112, 6160, 6470, 6608, 6784, 6800, 6992, 7088, 7232, 7248, 42528, 43216, 43264,
    43472, 43504, 43600, 44016, 65296, 66720, 68912, 69734, 69872, 69942, 70096, 70384, 70736, 70864,
    71248, 71360, 71472, 71904, 72016, 72784, 73040, 73120, 73552, 92768, 92864, 93008, 120782,
    120792, 120802, 120812, 120822, 123200, 123632, 124144, 125264, 130032]

/-- What `int` takes a character for. -/
def asciiOf (c : Char) : Char :=
  if c.toNat < 127 then c
  else if isSpace c then ' '
  else
    match decimalZeros.find? fun first => first ≤ c.toNat && c.toNat < first + 10 with
    | some first => Nat.digitChar (c.toNat - first)
    | none => '?'

/-- The whitespace `int` skips. -/
def isAsciiSpace (c : Char) : Bool := c == ' ' || (9 ≤ c.toNat && c.toNat ≤ 13)

/-- Hexadecimal digits with single underscores between them, and whitespace after them. -/
def hexNumber : ℕ → Bool → List Char → Option ℕ
  | n, afterDigit, [] => if afterDigit then some n else none
  | n, afterDigit, c :: cs =>
    if c = '_' then if afterDigit then hexNumber n false cs else none
    else
      match Json.hexValue c with
      | some digit => hexNumber (n * 16 + digit) true cs
      | none => if afterDigit && (c :: cs).all isAsciiSpace then some n else none

/-- Past a sign. -/
def dropPlus : List Char → List Char
  | '+' :: cs => cs
  | cs => cs

/-- Past the mark of the base, which an underscore may follow. -/
def dropBase : List Char → List Char
  | '0' :: x :: cs =>
    if x = 'x' ∨ x = 'X' then if cs.head? = some '_' then cs.tail else cs else '0' :: x :: cs
  | cs => cs

/-- `int(text, 16)` of a text without a minus. -/
def intOfHex (cs : List Char) : Option ℕ :=
  hexNumber 0 false (dropBase (dropPlus ((cs.map asciiOf).dropWhile isAsciiSpace)))

/-- `UUID(text)`. -/
def uuidOf (text : String) : Option Uuid :=
  let hex := (stripBraces (remove "uuid:".toList (remove "urn:".toList text.toList))).filter
    fun c => c != '-'
  if hex.length = 32 then
    (intOfHex hex).bind fun value => if h : value < 2 ^ 128 then some ⟨value, h⟩ else none
  else none

/-! ## Identifiers are read back -/

theorem removeFrom_of_head {c : Char} {text : List Char} {cs : List Char} (h : c ∉ cs) :
    removeFrom (c :: text) 0 cs = cs := by
  induction cs with
  | nil => rfl
  | cons d cs ih =>
    have hne : c ≠ d := fun heq => h (heq ▸ List.mem_cons_self)
    have hrest : c ∉ cs := fun hmem => h (List.mem_cons_of_mem _ hmem)
    have hprefix : (c :: text).isPrefixOf (d :: cs) = false := by
      simp [List.isPrefixOf, hne]
    rw [removeFrom, hprefix, ih hrest]
    rfl

theorem stripBraces_of_plain {cs : List Char} (h : ∀ c ∈ cs, c ≠ '{' ∧ c ≠ '}') :
    stripBraces cs = cs := by
  have hkeep : ∀ l : List Char, (∀ c ∈ l, c ≠ '{' ∧ c ≠ '}') →
      l.dropWhile (fun c => c == '{' || c == '}') = l := by
    intro l hl
    cases l with
    | nil => rfl
    | cons c l =>
      obtain ⟨hopen, hclose⟩ := hl c List.mem_cons_self
      simp [hopen, hclose]
  have hreverse : ∀ c ∈ cs.reverse, c ≠ '{' ∧ c ≠ '}' := fun c hc => h c (List.mem_reverse.mp hc)
  rw [stripBraces, hkeep cs h, hkeep cs.reverse hreverse, List.reverse_reverse]

theorem mem_hexDigits {width n : ℕ} {c : Char} (h : c ∈ hexDigits width n) :
    ∃ d < 16, c = hexDigit d := by
  induction width generalizing n with
  | zero => cases h
  | succ width ih =>
    rw [hexDigits, List.mem_append, List.mem_singleton] at h
    rcases h with h | rfl
    · exact ih h
    · exact ⟨n % 16, Nat.mod_lt n (by omega), rfl⟩

theorem hexDigit_facts : ∀ d < 16, asciiOf (hexDigit d) = hexDigit d ∧
    isAsciiSpace (hexDigit d) = false ∧ hexDigit d ≠ '+' ∧ hexDigit d ≠ 'x' ∧ hexDigit d ≠ 'X' ∧
    hexDigit d ≠ '_' ∧ (Json.hexValue (hexDigit d)).isSome = true := by
  decide

theorem hexNumber_of_digits {cs : List Char} (hdigits : ∀ c ∈ cs, ∃ d < 16, c = hexDigit d) (n : ℕ) :
    hexNumber n true cs =
      some (cs.foldl (fun n c => n * 16 + (Json.hexValue c).getD 0) n) := by
  induction cs generalizing n with
  | nil => rfl
  | cons c cs ih =>
    obtain ⟨d, hd, rfl⟩ := hdigits c List.mem_cons_self
    obtain ⟨-, -, -, -, -, hunderscore, hvalue⟩ := hexDigit_facts d hd
    obtain ⟨digit, hdigit⟩ := Option.isSome_iff_exists.mp hvalue
    rw [hexNumber, if_neg hunderscore, hdigit, List.foldl_cons, hdigit]
    exact ih (fun c hc => hdigits c (List.mem_cons_of_mem _ hc)) _

theorem intOfHex_hexDigits {width n : ℕ} (hwidth : 0 < width) :
    intOfHex (hexDigits width n) = some (n % 16 ^ width) := by
  have hdigits : ∀ c ∈ hexDigits width n, ∃ d < 16, c = hexDigit d := fun c hc => mem_hexDigits hc
  have hvalue := Runner.foldl_hexDigits width n 0
  rw [Nat.zero_mul, Nat.zero_add] at hvalue
  have hlength := length_hexDigits width n
  revert hdigits hvalue hlength
  generalize hexDigits width n = cs
  intro hdigits hvalue hlength
  obtain ⟨c, cs, rfl⟩ : ∃ c rest, cs = c :: rest := by
    cases cs with
    | nil => exact absurd hlength (by simp; omega)
    | cons c rest => exact ⟨c, rest, rfl⟩
  have hascii : (c :: cs).map asciiOf = c :: cs := by
    have hsame : (c :: cs).map asciiOf = (c :: cs).map id := by
      refine List.map_congr_left fun c hc => ?_
      obtain ⟨d, hd, rfl⟩ := hdigits c hc
      exact (hexDigit_facts d hd).1
    rw [hsame, List.map_id]
  -- No digit marks a base.
  have hbase : dropBase (c :: cs) = c :: cs := by
    rw [dropBase.eq_def]
    split
    · rename_i x rest heq
      have hx : x ∈ c :: cs := by rw [heq]; simp
      obtain ⟨d, hd, rfl⟩ := hdigits x hx
      obtain ⟨-, -, -, hlower, hupper, -, -⟩ := hexDigit_facts d hd
      rw [if_neg (by tauto), heq]
    · rfl
  obtain ⟨d, hd, rfl⟩ := hdigits c List.mem_cons_self
  obtain ⟨-, hspace, hplus, -, -, hunderscore, hsome⟩ := hexDigit_facts d hd
  have hsign : dropPlus (hexDigit d :: cs) = hexDigit d :: cs := by
    rw [dropPlus.eq_def]
    split
    · rename_i heq
      exact absurd (List.cons.inj heq).1 hplus
    · rfl
  obtain ⟨digit, hdigit⟩ := Option.isSome_iff_exists.mp hsome
  have hrest := hexNumber_of_digits (fun c hc => hdigits c (List.mem_cons_of_mem _ hc)) digit
  rw [List.foldl_cons, hdigit, Option.getD_some, Nat.zero_mul, Nat.zero_add] at hvalue
  rw [intOfHex, hascii, List.dropWhile_cons_of_neg (by rw [hspace]; decide), hsign, hbase, hexNumber,
    if_neg hunderscore, hdigit]
  dsimp only
  rw [Nat.zero_mul, Nat.zero_add, hrest, hvalue]

/-- **Identifiers are read back.** -/
theorem uuidOf_str (id : Uuid) : uuidOf id.str = some id := by
  have hchars : ∀ c ∈ (uuidStr id.value).toList, c ≠ 'u' ∧ c ≠ '{' ∧ c ≠ '}' := by
    intro c hc
    have hdigits : ∀ d < 16, hexDigit d ≠ 'u' ∧ hexDigit d ≠ '{' ∧ hexDigit d ≠ '}' := by decide
    rcases Delivery.mem_uuidStr hc with rfl | hmem
    · decide
    · obtain ⟨d, hd, rfl⟩ := mem_hexDigits hmem
      exact hdigits d hd
  have hu : 'u' ∉ (uuidStr id.value).toList := fun hmem => (hchars 'u' hmem).1 rfl
  have hurn : remove "urn:".toList (uuidStr id.value).toList = (uuidStr id.value).toList :=
    removeFrom_of_head hu
  have huuid : remove "uuid:".toList (uuidStr id.value).toList = (uuidStr id.value).toList :=
    removeFrom_of_head hu
  have hmod : id.value % 16 ^ 32 = id.value := Nat.mod_eq_of_lt id.valid
  rw [uuidOf, Uuid.str, hurn, huuid, stripBraces_of_plain fun c hc => (hchars c hc).2,
    Runner.filter_uuidStr]
  rw [if_pos (length_hexDigits 32 id.value), intOfHex_hexDigits (by omega), hmod, Option.bind_some,
    dif_pos id.valid]

end Execution
end RepoMesh
