/-
# JSON texts

`json.dumps` under a layout, `json.loads`, and that reading back what was written gives the document
with the keys of its dictionaries sorted.
-/
import RepoMesh.Foundation.Json

namespace RepoMesh
namespace Json

open Text

/-! ## Writing -/

/-- How `json.dumps` lays a document out: the escapes inside a string, and the two separators. -/
structure Layout where
  escape : Char → List Char
  comma : List Char
  colon : List Char

/-- One character inside a string with `ensure_ascii=False`: only quotes, backslashes and control
characters are escaped. -/
def escapeControl (c : Char) : List Char :=
  if c = '"' then ['\\', '"']
  else if c = '\\' then ['\\', '\\']
  else if c.toNat = 10 then ['\\', 'n']
  else if c.toNat = 13 then ['\\', 'r']
  else if c.toNat = 9 then ['\\', 't']
  else if c.toNat = 12 then ['\\', 'f']
  else if c.toNat = 8 then ['\\', 'b']
  else if c.toNat < 32 then '\\' :: 'u' :: hexDigits 4 c.toNat
  else [c]

/-- The layout of `json.dumps(document, ensure_ascii=False)`. -/
def plainLayout : Layout where
  escape := escapeControl
  comma := [',', ' ']
  colon := [':', ' ']

namespace Layout

/-- A string. -/
def quote (L : Layout) (s : String) : List Char := '"' :: s.toList.flatMap L.escape ++ ['"']

mutual

/-- `json.dumps(document, sort_keys=True)`. -/
def dumps (L : Layout) : Json → List Char
  | null => "null".toList
  | bool b => (if b then "true" else "false").toList
  | int n => (toString n).toList
  | float text => text.toList
  | str s => L.quote s
  | arr items => '[' :: L.comma.intercalate (dumpsItems L items) ++ [']']
  | obj fields =>
    let sorted := (dumpsFields L fields).insertionSort fun f g => f.1 ≤ g.1
    '{' :: L.comma.intercalate (sorted.map fun f => L.quote f.1 ++ L.colon ++ f.2) ++ ['}']

/-- The items of a list, each dumped. -/
def dumpsItems (L : Layout) : List Json → List (List Char)
  | [] => []
  | item :: items => dumps L item :: dumpsItems L items

/-- The values of a dictionary, each dumped under its key. -/
def dumpsFields (L : Layout) : List (String × Json) → List (String × List Char)
  | [] => []
  | (key, value) :: fields => (key, dumps L value) :: dumpsFields L fields

end

end Layout

/-! ## Reading -/

/-- The blanks between tokens. -/
def isBlankChar (c : Char) : Bool := c = ' ' || c = '\t' || c = '\n' || c = '\r'

/-- Leave the blanks out. -/
def skip (cs : List Char) : List Char := cs.dropWhile isBlankChar

/-- The value of a hexadecimal digit, of either case. -/
def hexValue (c : Char) : Option ℕ :=
  if 48 ≤ c.toNat ∧ c.toNat ≤ 57 then some (c.toNat - 48)
  else if 97 ≤ c.toNat ∧ c.toNat ≤ 102 then some (c.toNat - 87)
  else if 65 ≤ c.toNat ∧ c.toNat ≤ 70 then some (c.toNat - 55)
  else none

/-- Four hexadecimal digits. -/
def hexFour : List Char → Option (ℕ × List Char)
  | a :: b :: c :: d :: rest =>
    match hexValue a, hexValue b, hexValue c, hexValue d with
    | some a, some b, some c, some d => some (((a * 16 + b) * 16 + c) * 16 + d, rest)
    | _, _, _, _ => none
  | _ => none

/-- The second half of a surrogate pair. A half on its own is no character. -/
def lowSurrogate (high : ℕ) : List Char → Option (Char × List Char)
  | '\\' :: 'u' :: rest =>
    match hexFour rest with
    | some (low, rest) =>
      if 0xdc00 ≤ low ∧ low ≤ 0xdfff then
        some (Char.ofNat (0x10000 + (high - 0xd800) * 0x400 + (low - 0xdc00)), rest)
      else none
    | none => none
  | _ => none

/-- What follows a backslash. -/
def escaped : List Char → Option (Char × List Char)
  | '"' :: rest => some ('"', rest)
  | '\\' :: rest => some ('\\', rest)
  | '/' :: rest => some ('/', rest)
  | 'b' :: rest => some (Char.ofNat 8, rest)
  | 'f' :: rest => some (Char.ofNat 12, rest)
  | 'n' :: rest => some ('\n', rest)
  | 'r' :: rest => some ('\r', rest)
  | 't' :: rest => some ('\t', rest)
  | 'u' :: rest =>
    match hexFour rest with
    | some (n, rest) =>
      if 0xd800 ≤ n ∧ n ≤ 0xdbff then lowSurrogate n rest
      else if 0xdc00 ≤ n ∧ n ≤ 0xdfff then none
      else some (Char.ofNat n, rest)
    | none => none
  | _ => none

/-- One character of a string. -/
def character : List Char → Option (Char × List Char)
  | [] => none
  | '\\' :: rest => escaped rest
  | c :: rest => if c.toNat < 32 then none else some (c, rest)

/-- A string after its opening quote. -/
def stringBody : ℕ → List Char → Option (List Char × List Char)
  | 0, _ => none
  | _ + 1, '"' :: rest => some ([], rest)
  | n + 1, cs =>
    match character cs with
    | some (c, rest) => (stringBody n rest).map fun p => (c :: p.1, p.2)
    | none => none

/-- The digits at the start. -/
def digits (cs : List Char) : List Char × List Char :=
  (cs.takeWhile Char.isDigit, cs.dropWhile Char.isDigit)

/-- The integer part of a number: no digit follows a leading zero. -/
def integerPart (cs : List Char) : Option (List Char × List Char) :=
  match digits cs with
  | ([], _) => none
  | ('0' :: more, rest) => some (['0'], more ++ rest)
  | (ds, rest) => some (ds, rest)

/-- A fraction, if there is one. -/
def fraction : List Char → List Char × List Char
  | '.' :: rest =>
    match digits rest with
    | ([], _) => ([], '.' :: rest)
    | (ds, rest') => ('.' :: ds, rest')
  | cs => ([], cs)

/-- The digits of an exponent, after its sign. -/
def exponentDigits (mark : List Char) (cs : List Char) : Option (List Char × List Char) :=
  match cs with
  | '+' :: rest => signed ['+'] rest
  | '-' :: rest => signed ['-'] rest
  | cs => signed [] cs
where
  signed (sign cs : List Char) : Option (List Char × List Char) :=
    match digits cs with
    | ([], _) => none
    | (ds, rest) => some (mark ++ sign ++ ds, rest)

/-- An exponent, if there is one. -/
def exponent : List Char → List Char × List Char
  | 'e' :: rest => (exponentDigits ['e'] rest).getD ([], 'e' :: rest)
  | 'E' :: rest => (exponentDigits ['E'] rest).getD ([], 'E' :: rest)
  | cs => ([], cs)

/-- A number after its sign: an integer unless it has a fraction or an exponent. -/
def unsignedNumber (negative : Bool) (cs : List Char) : Option (Json × List Char) :=
  match integerPart cs with
  | none => none
  | some (ds, rest) =>
    let frac := fraction rest
    let exp := exponent frac.2
    let sign : List Char := if negative then ['-'] else []
    if frac.1 = [] ∧ exp.1 = [] then
      let n : ℤ := Nat.ofDigitChars 10 ds 0
      some (.int (if negative then -n else n), rest)
    else some (.float (String.ofList (sign ++ ds ++ frac.1 ++ exp.1)), exp.2)

/-- A number or a named constant. -/
def scalar : List Char → Option (Json × List Char)
  | 'n' :: 'u' :: 'l' :: 'l' :: rest => some (.null, rest)
  | 't' :: 'r' :: 'u' :: 'e' :: rest => some (.bool true, rest)
  | 'f' :: 'a' :: 'l' :: 's' :: 'e' :: rest => some (.bool false, rest)
  | 'N' :: 'a' :: 'N' :: rest => some (.float "nan", rest)
  | 'I' :: 'n' :: 'f' :: 'i' :: 'n' :: 'i' :: 't' :: 'y' :: rest => some (.float "inf", rest)
  | '-' :: 'I' :: 'n' :: 'f' :: 'i' :: 'n' :: 'i' :: 't' :: 'y' :: rest => some (.float "-inf", rest)
  | '-' :: rest => unsignedNumber true rest
  | cs => unsignedNumber false cs

/-- `d[key] = value`: the key keeps its place. -/
def store (fields : List (String × Json)) (field : String × Json) : List (String × Json) :=
  if fields.any fun f => f.1 == field.1 then
    fields.map fun f => if f.1 = field.1 then field else f
  else fields ++ [field]

/-- The dictionary of the pairs that were read. -/
def dictionary (pairs : List (String × Json)) : Json := .obj (pairs.foldl store [])

mutual

/-- One value. -/
def value : ℕ → List Char → Option (Json × List Char)
  | 0, _ => none
  | n + 1, '"' :: rest => (stringBody n rest).map fun p => (.str (String.ofList p.1), p.2)
  | n + 1, '[' :: rest =>
    match skip rest with
    | ']' :: rest => some (.arr [], rest)
    | rest => (items n rest).map fun p => (.arr p.1, p.2)
  | n + 1, '{' :: rest =>
    match skip rest with
    | '}' :: rest => some (.obj [], rest)
    | rest => (members n rest).map fun p => (dictionary p.1, p.2)
  | _ + 1, cs => scalar cs

/-- The items of a list, up to its closing bracket. -/
def items : ℕ → List Char → Option (List Json × List Char)
  | 0, _ => none
  | n + 1, cs =>
    match value n cs with
    | none => none
    | some (v, rest) =>
      match skip rest with
      | ',' :: rest => (items n (skip rest)).map fun p => (v :: p.1, p.2)
      | ']' :: rest => some ([v], rest)
      | _ => none

/-- The pairs of a dictionary, up to its closing brace. -/
def members : ℕ → List Char → Option (List (String × Json) × List Char)
  | 0, _ => none
  | n + 1, '"' :: rest =>
    match stringBody n rest with
    | none => none
    | some (key, rest) =>
      match skip rest with
      | ':' :: rest =>
        match value n (skip rest) with
        | none => none
        | some (v, rest) =>
          match skip rest with
          | ',' :: rest =>
            (members n (skip rest)).map fun p => ((String.ofList key, v) :: p.1, p.2)
          | '}' :: rest => some ([(String.ofList key, v)], rest)
          | _ => none
      | _ => none
  | _ + 1, _ => none

end

/-- `json.loads(text)`; `none` where it raises. Every value takes a character at least, so the
length of the text bounds the nesting. -/
def loads (text : String) : Option Json :=
  match value (text.toList.length + 1) (skip text.toList) with
  | some (document, rest) => if skip rest = [] then some document else none
  | none => none

/-! ## What is read back -/

theorem induct_members {P : Json → Prop} (null : P null) (bool : ∀ b, P (bool b))
    (int : ∀ n, P (int n)) (float : ∀ text, P (float text)) (str : ∀ s, P (str s))
    (arr : ∀ items, (∀ item ∈ items, P item) → P (arr items))
    (obj : ∀ fields, (∀ f ∈ fields, P f.2) → P (obj fields)) (document : Json) : P document := by
  refine Json.rec (motive_1 := P) (motive_2 := fun items => ∀ item ∈ items, P item)
    (motive_3 := fun fields => ∀ f ∈ fields, P f.2) (motive_4 := fun f => P f.2)
    null bool int float str arr obj ?_ ?_ ?_ ?_ ?_ document
  · intro item hitem
    cases hitem
  · intro item items hitem hitems other hother
    rcases List.mem_cons.mp hother with rfl | hother
    · exact hitem
    · exact hitems other hother
  · intro f hf
    cases hf
  · intro f fields hf hfields other hother
    rcases List.mem_cons.mp hother with rfl | hother
    · exact hf
    · exact hfields other hother
  · intro key value hvalue
    exact hvalue

mutual

/-- The document with the fields of every dictionary in the order of their keys. -/
def sorted : Json → Json
  | arr items => arr (sortedItems items)
  | obj fields => obj ((sortedFields fields).insertionSort fun f g => f.1 ≤ g.1)
  | document => document

/-- The items, each sorted. -/
def sortedItems : List Json → List Json
  | [] => []
  | item :: items => sorted item :: sortedItems items

/-- The fields, the value of each sorted. -/
def sortedFields : List (String × Json) → List (String × Json)
  | [] => []
  | (key, value) :: fields => (key, sorted value) :: sortedFields fields

end

theorem sortedItems_eq (items : List Json) : sortedItems items = items.map sorted := by
  induction items with
  | nil => rfl
  | cons item items ih => rw [sortedItems, ih, List.map_cons]

theorem sortedFields_eq (fields : List (String × Json)) :
    sortedFields fields = fields.map fun f => (f.1, sorted f.2) := by
  induction fields with
  | nil => rfl
  | cons f fields ih => rw [sortedFields, ih, List.map_cons]

theorem Layout.dumpsItems_eq (L : Layout) (items : List Json) :
    L.dumpsItems items = items.map L.dumps := by
  induction items with
  | nil => rfl
  | cons item items ih => rw [Layout.dumpsItems, ih, List.map_cons]

theorem Layout.dumpsFields_eq (L : Layout) (fields : List (String × Json)) :
    L.dumpsFields fields = fields.map fun f => (f.1, L.dumps f.2) := by
  induction fields with
  | nil => rfl
  | cons f fields ih => rw [Layout.dumpsFields, ih, List.map_cons]

/-- The fields of a dictionary in the order of their keys. -/
def inKeyOrder (fields : List (String × Json)) : List (String × Json) :=
  fields.insertionSort fun f g => f.1 ≤ g.1

theorem sorted_obj (fields : List (String × Json)) :
    sorted (obj fields) = obj ((inKeyOrder fields).map fun f => (f.1, sorted f.2)) := by
  have hsort := List.map_insertionSort (r := fun f g : String × Json => f.1 ≤ g.1)
    (s := fun f g : String × Json => f.1 ≤ g.1) (fun f => (f.1, sorted f.2)) fields
    fun f _ g _ => Iff.rfl
  rw [sorted, sortedFields_eq, inKeyOrder, hsort]

theorem Layout.dumps_obj (L : Layout) (fields : List (String × Json)) :
    L.dumps (obj fields) = '{' :: L.comma.intercalate ((inKeyOrder fields).map fun f =>
      L.quote f.1 ++ L.colon ++ L.dumps f.2) ++ ['}'] := by
  have hsort := List.map_insertionSort (r := fun f g : String × Json => f.1 ≤ g.1)
    (s := fun f g : String × List Char => f.1 ≤ g.1) (fun f => (f.1, L.dumps f.2)) fields
    fun f _ g _ => Iff.rfl
  rw [Layout.dumps, L.dumpsFields_eq, inKeyOrder, ← hsort, List.map_map]
  rfl

/-- A document `json.dumps` writes without losing anything: no float, and every key of a dictionary
once. -/
inductive Plain : Json → Prop where
  | null : Plain null
  | bool (b : Bool) : Plain (bool b)
  | int (n : ℤ) : Plain (int n)
  | str (s : String) : Plain (str s)
  | arr {items : List Json} (hitems : ∀ item ∈ items, Plain item) : Plain (arr items)
  | obj {fields : List (String × Json)} (hkeys : (fields.map (·.1)).Nodup)
      (hfields : ∀ f ∈ fields, Plain f.2) : Plain (obj fields)

theorem foldl_store {pairs fields : List (String × Json)}
    (hkeys : ((fields ++ pairs).map (·.1)).Nodup) :
    pairs.foldl store fields = fields ++ pairs := by
  induction pairs generalizing fields with
  | nil => simp
  | cons pair pairs ih =>
    have hnew : (fields.any fun f => f.1 == pair.1) = false := by
      rw [Bool.eq_false_iff]
      intro hany
      obtain ⟨f, hf, hfkey⟩ := List.any_eq_true.mp hany
      rw [List.map_append, List.nodup_append] at hkeys
      have hne := hkeys.2.2 f.1 (List.mem_map_of_mem hf) pair.1 (by simp)
      exact hne (by simpa using hfkey)
    have hstore : store fields pair = fields ++ [pair] := by
      rw [store, hnew]
      rfl
    rw [List.foldl_cons, hstore, ih (by simpa using hkeys), List.append_assoc,
      List.singleton_append]

theorem dictionary_eq {pairs : List (String × Json)} (hkeys : (pairs.map (·.1)).Nodup) :
    dictionary pairs = obj pairs := by
  rw [dictionary, foldl_store (by simpa using hkeys), List.nil_append]

/-! ### Strings -/

/-- A layout whose texts the reader takes apart again. -/
structure Layout.Lawful (L : Layout) : Prop where
  escape_read : ∀ c rest, character (L.escape c ++ rest) = some (c, rest)
  escape_head : ∀ c, ∃ d ds, L.escape c = d :: ds ∧ d ≠ '"'
  comma : ∃ blanks, L.comma = ',' :: blanks ∧ ∀ c ∈ blanks, isBlankChar c = true
  colon : ∃ blanks, L.colon = ':' :: blanks ∧ ∀ c ∈ blanks, isBlankChar c = true

theorem hexFour_hexDigits {n : ℕ} (hn : n < 0x10000) (rest : List Char) :
    hexFour (hexDigits 4 n ++ rest) = some (n, rest) := by
  have hdigit : ∀ m < 16, hexValue (hexDigit m) = some m := by decide
  have hvalue : ∀ m, hexValue (hexDigit (m % 16)) = some (m % 16) := fun m =>
    hdigit _ (Nat.mod_lt m (by omega))
  have hdigits : hexDigits 4 n ++ rest =
      hexDigit (n / 16 / 16 / 16 % 16) :: hexDigit (n / 16 / 16 % 16) :: hexDigit (n / 16 % 16) ::
        hexDigit (n % 16) :: rest := rfl
  rw [hdigits, hexFour, hvalue, hvalue, hvalue, hvalue]
  have hsum : ((n / 16 / 16 / 16 % 16 * 16 + n / 16 / 16 % 16) * 16 + n / 16 % 16) * 16 + n % 16 =
      n := by omega
  simp only [hsum]

theorem eq_ofNat {c : Char} {n : ℕ} (h : c.toNat = n) : c = Char.ofNat n := by
  rw [← h, Char.ofNat_toNat]

theorem escapeControl_read (c : Char) (rest : List Char) :
    character (escapeControl c ++ rest) = some (c, rest) := by
  unfold escapeControl
  split_ifs with hquote hslash hnewline hreturn htab hfeed hback hcontrol
  · rw [hquote]
    rfl
  · rw [hslash]
    rfl
  · rw [eq_ofNat hnewline]
    rfl
  · rw [eq_ofNat hreturn]
    rfl
  · rw [eq_ofNat htab]
    rfl
  · rw [eq_ofNat hfeed]
    rfl
  · rw [eq_ofNat hback]
    rfl
  · have hfour := hexFour_hexDigits (n := c.toNat) (by omega) rest
    have hread : character ('\\' :: 'u' :: hexDigits 4 c.toNat ++ rest) =
        escaped ('u' :: (hexDigits 4 c.toNat ++ rest)) := rfl
    rw [hread, escaped, hfour]
    simp only
    rw [if_neg (by omega), if_neg (by omega), Char.ofNat_toNat]
  · rw [List.singleton_append, character]
    · rw [if_neg hcontrol]
    · intro h
      exact hslash h

theorem plainLayout_lawful : plainLayout.Lawful where
  escape_read := escapeControl_read
  escape_head c := by
    show ∃ d ds, escapeControl c = d :: ds ∧ d ≠ '"'
    unfold escapeControl
    split_ifs with hquote <;> exact ⟨_, _, rfl, by first | decide | exact hquote⟩
  comma := ⟨[' '], rfl, by decide⟩
  colon := ⟨[' '], rfl, by decide⟩

namespace Layout.Lawful

variable {L : Layout} (hL : L.Lawful)
include hL

theorem length_le (cs : List Char) : cs.length ≤ (cs.flatMap L.escape).length := by
  induction cs with
  | nil => simp
  | cons c cs ih =>
    obtain ⟨d, ds, hescape, -⟩ := hL.escape_head c
    rw [List.flatMap_cons, hescape, List.length_append, List.length_cons, List.length_cons]
    omega

theorem stringBody_read (cs rest : List Char) {n : ℕ} (hn : cs.length < n) :
    stringBody n (cs.flatMap L.escape ++ '"' :: rest) = some (cs, rest) := by
  induction cs generalizing n with
  | nil =>
    obtain ⟨n, rfl⟩ : ∃ m, n = m + 1 := ⟨n - 1, by simp at hn; omega⟩
    rfl
  | cons c cs ih =>
    obtain ⟨n, rfl⟩ : ∃ m, n = m + 1 := ⟨n - 1, by simp at hn; omega⟩
    obtain ⟨d, ds, hescape, hquote⟩ := hL.escape_head c
    have hread := hL.escape_read c (cs.flatMap L.escape ++ '"' :: rest)
    rw [List.flatMap_cons, List.append_assoc]
    rw [hescape, List.cons_append] at hread ⊢
    rw [stringBody]
    · rw [hread]
      simp only
      rw [ih (by simp at hn; omega)]
      rfl
    · intro more h
      exact hquote (List.cons_eq_cons.mp h).1

theorem quote_read (s : String) (rest : List Char) {n : ℕ} (hn : (L.quote s).length ≤ n + 1) :
    ∃ body, L.quote s ++ rest = '"' :: body ∧ stringBody n body = some (s.toList, rest) := by
  refine ⟨s.toList.flatMap L.escape ++ '"' :: rest, by simp [quote], ?_⟩
  refine hL.stringBody_read s.toList rest ?_
  have hle := hL.length_le s.toList
  simp only [quote, List.length_append, List.length_cons, List.length_nil] at hn
  omega

end Layout.Lawful

/-! ### Numbers -/

/-- What may follow a value in a document that was written. -/
def endsValue : List Char → Bool
  | [] => true
  | c :: _ => c = ',' || c = ']' || c = '}'

theorem digits_read {ds rest : List Char} (hds : ∀ c ∈ ds, c.isDigit = true)
    (hrest : endsValue rest = true) : digits (ds ++ rest) = (ds, rest) := by
  have hstop : rest.takeWhile Char.isDigit = [] ∧ rest.dropWhile Char.isDigit = rest := by
    cases rest with
    | nil => exact ⟨rfl, rfl⟩
    | cons c rest =>
      have hc : c.isDigit = false := by
        simp only [endsValue, Bool.or_eq_true, decide_eq_true_eq] at hrest
        rcases hrest with (rfl | rfl) | rfl <;> decide
      simp [hc]
  rw [digits, List.takeWhile_append_of_pos hds, List.dropWhile_append_of_pos hds, hstop.1, hstop.2,
    List.append_nil]

theorem toDigits_head {n : ℕ} (hn : 0 < n) :
    ∃ d ds, Nat.toDigits 10 n = d :: ds ∧ d ≠ '0' := by
  induction n using Nat.strong_induction_on with
  | _ n ih =>
    by_cases hlt : n < 10
    · refine ⟨_, _, Nat.toDigits_of_lt_base hlt, ?_⟩
      rw [Ne, Nat.digitChar_eq_zero]
      omega
    · obtain ⟨d, ds, hds, hd⟩ := ih (n / 10) (by omega) (by omega)
      refine ⟨d, ds ++ [(n % 10).digitChar], ?_, hd⟩
      rw [Nat.toDigits_of_base_le (by omega) (by omega), hds, List.cons_append]

theorem integerPart_read (n : ℕ) {rest : List Char} (hrest : endsValue rest = true) :
    integerPart (Nat.toDigits 10 n ++ rest) = some (Nat.toDigits 10 n, rest) := by
  have hds : ∀ c ∈ Nat.toDigits 10 n, c.isDigit = true := fun c hc =>
    Nat.isDigit_of_mem_toDigits (by omega) (by omega) hc
  have hdigits := digits_read hds hrest
  rw [integerPart, hdigits]
  by_cases hn : n = 0
  · rw [hn, Nat.toDigits_zero]
    rfl
  · obtain ⟨d, ds, hds, hd⟩ := toDigits_head (Nat.pos_of_ne_zero hn)
    rw [hds]
    split
    · rename_i h
      cases h
    · rename_i h
      exact absurd (List.cons_eq_cons.mp (Prod.mk.inj h).1).1 hd
    · rename_i h
      obtain ⟨rfl, rfl⟩ := Prod.mk.inj h
      rfl

theorem unsignedNumber_read (negative : Bool) (n : ℕ) {rest : List Char}
    (hrest : endsValue rest = true) :
    unsignedNumber negative (Nat.toDigits 10 n ++ rest) =
      some (int (if negative then -(n : ℤ) else n), rest) := by
  have hfraction : fraction rest = ([], rest) := by
    cases rest with
    | nil => rfl
    | cons c rest =>
      simp only [endsValue, Bool.or_eq_true, decide_eq_true_eq] at hrest
      rcases hrest with (rfl | rfl) | rfl <;> rfl
  have hexponent : exponent rest = ([], rest) := by
    cases rest with
    | nil => rfl
    | cons c rest =>
      simp only [endsValue, Bool.or_eq_true, decide_eq_true_eq] at hrest
      rcases hrest with (rfl | rfl) | rfl <;> rfl
  rw [unsignedNumber, integerPart_read n hrest]
  simp only [hfraction, hexponent, and_self, if_true, Nat.ofDigitChars_ten_toDigits]

theorem toDigits_cons (n : ℕ) : ∃ c cs, Nat.toDigits 10 n = c :: cs ∧ c.isDigit = true := by
  cases hcs : Nat.toDigits 10 n with
  | nil => exact absurd hcs Nat.toDigits_ne_nil
  | cons c cs =>
    have hmem : c ∈ Nat.toDigits 10 n := hcs ▸ List.mem_cons_self ..
    exact ⟨c, cs, rfl, Nat.isDigit_of_mem_toDigits (by omega) (by omega) hmem⟩

theorem toList_toString_ofNat (n : ℕ) : (toString (Int.ofNat n)).toList = Nat.toDigits 10 n :=
  Nat.toList_repr

theorem toList_toString_negSucc (n : ℕ) :
    (toString (Int.negSucc n)).toList = '-' :: Nat.toDigits 10 (n + 1) := by
  show ("-" ++ Nat.repr (n + 1)).toList = _
  rw [String.toList_append, Nat.toList_repr]
  rfl

theorem toString_int_head (n : ℤ) :
    ∃ c cs, (toString n).toList = c :: cs ∧ (c = '-' ∨ c.isDigit = true) := by
  cases n with
  | ofNat n =>
    obtain ⟨c, cs, hcs, hc⟩ := toDigits_cons n
    exact ⟨c, cs, by rw [toList_toString_ofNat, hcs], Or.inr hc⟩
  | negSucc n => exact ⟨_, _, toList_toString_negSucc n, Or.inl rfl⟩

theorem scalar_digit {c : Char} (hc : c.isDigit = true) (cs : List Char) :
    scalar (c :: cs) = unsignedNumber false (c :: cs) := by
  unfold scalar
  split <;> first
    | rfl
    | (rename_i h; obtain ⟨rfl, -⟩ := List.cons_eq_cons.mp h; exact absurd hc (by decide))

theorem scalar_minus {c : Char} (hc : c.isDigit = true) (cs : List Char) :
    scalar ('-' :: c :: cs) = unsignedNumber true (c :: cs) := by
  unfold scalar
  split
  case h_6 h => 
    obtain ⟨rfl, -⟩ := List.cons_eq_cons.mp (List.cons_eq_cons.mp h).2
    exact absurd hc (by decide)
  case h_7 h => 
    rw [(List.cons_eq_cons.mp h).2]
  case h_8 hne => exact absurd rfl (hne _)
  all_goals
    rename_i h
    exact absurd (List.cons_eq_cons.mp h).1 (by decide)

theorem scalar_int (n : ℤ) {rest : List Char} (hrest : endsValue rest = true) :
    scalar ((toString n).toList ++ rest) = some (int n, rest) := by
  cases n with
  | ofNat n =>
    obtain ⟨c, cs, hcs, hc⟩ := toDigits_cons n
    have hread := unsignedNumber_read false n hrest
    rw [toList_toString_ofNat, hcs, List.cons_append, scalar_digit hc, ← List.cons_append, ← hcs,
      hread]
    rfl
  | negSucc n =>
    obtain ⟨c, cs, hcs, hc⟩ := toDigits_cons (n + 1)
    have hread := unsignedNumber_read true (n + 1) hrest
    rw [toList_toString_negSucc, hcs, List.cons_append, List.cons_append, scalar_minus hc,
      ← List.cons_append, ← hcs, hread]
    rfl

/-! ### Values -/

theorem skip_blanks {blanks : List Char} (hblanks : ∀ c ∈ blanks, isBlankChar c = true) {c : Char}
    (hc : isBlankChar c = false) (cs : List Char) : skip (blanks ++ c :: cs) = c :: cs := by
  rw [skip, List.dropWhile_append_of_pos hblanks, List.dropWhile_cons_of_neg (by simp [hc])]

theorem skip_cons {c : Char} (hc : isBlankChar c = false) (cs : List Char) :
    skip (c :: cs) = c :: cs := by
  rw [skip, List.dropWhile_cons_of_neg (by simp [hc])]

theorem value_scalar {c : Char} (hquote : c ≠ '"') (hlist : c ≠ '[') (hdict : c ≠ '{') (n : ℕ)
    (cs : List Char) : value (n + 1) (c :: cs) = scalar (c :: cs) := by
  unfold value
  split <;> rename_i h
  · cases h
  · exact absurd (List.cons_eq_cons.mp h).1 hquote
  · exact absurd (List.cons_eq_cons.mp h).1 hlist
  · exact absurd (List.cons_eq_cons.mp h).1 hdict
  · rfl

theorem number_head {c : Char} (hc : c = '-' ∨ c.isDigit = true) :
    (c ≠ '"' ∧ c ≠ '[' ∧ c ≠ '{') ∧ isBlankChar c = false ∧ c ≠ ']' := by
  have hall : ∀ d, (d = '-' ∨ d.isDigit = true) → d = c → d ≠ '"' ∧ d ≠ '[' ∧ d ≠ '{' ∧ d ≠ ']' ∧
      d ≠ ' ' ∧ d ≠ '\t' ∧ d ≠ '\n' ∧ d ≠ '\r' := by
    intro d hd _
    refine ⟨?_, ?_, ?_, ?_, ?_, ?_, ?_, ?_⟩ <;> rintro rfl <;> exact absurd hd (by decide)
  obtain ⟨h1, h2, h3, h4, h5, h6, h7, h8⟩ := hall c hc rfl
  exact ⟨⟨h1, h2, h3⟩, by simp [isBlankChar, h5, h6, h7, h8], h4⟩

namespace Layout

theorem dumps_head (L : Layout) {document : Json} (hplain : Plain document) :
    ∃ c cs, L.dumps document = c :: cs ∧ isBlankChar c = false ∧ c ≠ ']' := by
  cases hplain with
  | null => exact ⟨'n', "ull".toList, rfl, by decide, by decide⟩
  | bool b =>
    cases b with
    | true => exact ⟨'t', "rue".toList, rfl, by decide, by decide⟩
    | false => exact ⟨'f', "alse".toList, rfl, by decide, by decide⟩
  | int n =>
    obtain ⟨c, cs, hcs, hc⟩ := toString_int_head n
    exact ⟨c, cs, hcs, (number_head hc).2⟩
  | str s => exact ⟨'"', _, rfl, by decide, by decide⟩
  | arr hitems => exact ⟨'[', _, rfl, by decide, by decide⟩
  | obj hkeys hfields => exact ⟨'{', _, rfl, by decide, by decide⟩

theorem strip_dumps_obj (L : Layout) (fields : List (String × Json)) :
    strip (String.ofList (L.dumps (obj fields))) = String.ofList (L.dumps (obj fields)) := by
  rw [strip, String.toList_ofList, L.dumps_obj, stripList_eq_of_ends (by decide) (by decide)]

/-- A text is read as a document, whatever follows it; it starts with a token that closes nothing. -/
structure ReadAs (text : List Char) (document : Json) : Prop where
  head : ∃ c cs, text = c :: cs ∧ isBlankChar c = false ∧ c ≠ ']'
  read : ∀ n rest, text.length < n → endsValue rest = true →
    value n (text ++ rest) = some (document, rest)

/-- The text of one field: its key, and the text of its value. -/
def pairText (L : Layout) (f : String × List Char × Json) : List Char := L.quote f.1 ++ L.colon ++ f.2.1

theorem ReadAs.loads {text : List Char} {document : Json} (h : ReadAs text document) :
    loads (String.ofList text) = some document := by
  obtain ⟨c, cs, hhead, hc, -⟩ := h.head
  have hread := h.read (text.length + 1) [] (by omega) rfl
  rw [List.append_nil] at hread
  have hskip : skip text = text := by rw [hhead, skip_cons hc]
  rw [Json.loads, String.toList_ofList, hskip, hread]
  rfl

/-! The scalars need no law of the layout. -/

theorem readAs_null (L : Layout) : ReadAs (L.dumps null) null := by
  refine ⟨L.dumps_head .null, fun n rest hn _ => ?_⟩
  obtain ⟨n, rfl⟩ : ∃ m, n = m + 1 := ⟨n - 1, by omega⟩
  exact value_scalar (by decide) (by decide) (by decide) n _

theorem readAs_bool (L : Layout) (b : Bool) : ReadAs (L.dumps (bool b)) (bool b) := by
  refine ⟨L.dumps_head (.bool b), fun n rest hn _ => ?_⟩
  obtain ⟨n, rfl⟩ : ∃ m, n = m + 1 := ⟨n - 1, by omega⟩
  cases b <;> exact value_scalar (by decide) (by decide) (by decide) n _

theorem readAs_int (L : Layout) (number : ℤ) : ReadAs (L.dumps (int number)) (int number) := by
  refine ⟨L.dumps_head (.int number), fun n rest hn hrest => ?_⟩
  obtain ⟨n, rfl⟩ : ∃ m, n = m + 1 := ⟨n - 1, by omega⟩
  have hread := scalar_int number hrest
  obtain ⟨c, cs, hcs, hc⟩ := toString_int_head number
  obtain ⟨⟨hquote, hlist, hdict⟩, -⟩ := number_head hc
  rw [Layout.dumps]
  rw [hcs, List.cons_append] at hread ⊢
  rw [value_scalar hquote hlist hdict, hread]

namespace Lawful

variable {L : Layout} (hL : L.Lawful)
include hL

theorem items_read {list : List (List Char × Json)} (hne : list ≠ [])
    (hread : ∀ item ∈ list, ReadAs item.1 item.2) (rest : List Char) {n : ℕ}
    (hn : (L.comma.intercalate (list.map Prod.fst)).length + 1 < n) :
    items n (L.comma.intercalate (list.map Prod.fst) ++ ']' :: rest) =
      some (list.map Prod.snd, rest) := by
  obtain ⟨blanks, hcomma, hblanks⟩ := hL.comma
  induction list generalizing n with
  | nil => exact absurd rfl hne
  | cons item list ih =>
    obtain ⟨n, rfl⟩ : ∃ m, n = m + 1 := ⟨n - 1, by omega⟩
    have hitem := (hread item (by simp)).read
    cases list with
    | nil =>
      simp only [List.map_cons, List.map_nil, List.intercalate_singleton] at hn ⊢
      rw [items, hitem n (']' :: rest) (by omega) rfl]
      rfl
    | cons next list =>
      obtain ⟨c, cs, hhead, hc, -⟩ := (hread next (by simp)).head
      have htail : ∃ more, L.comma.intercalate ((next :: list).map Prod.fst) ++ ']' :: rest =
          c :: more := by
        cases list <;> simp [hhead]
      obtain ⟨more, hmore⟩ := htail
      rw [List.map_cons, List.map_cons, List.intercalate_cons_cons, ← List.map_cons] at hn ⊢
      simp only [List.length_append] at hn
      have hlen : 0 < L.comma.length := by simp [hcomma]
      have hrest := ih (by simp) (fun item h => hread item (List.mem_cons_of_mem _ h)) (n := n)
        (by omega)
      rw [hmore] at hrest
      rw [List.append_assoc, List.append_assoc, hmore, hcomma, List.cons_append, items,
        hitem n _ (by omega) rfl]
      simp only [skip_cons (show isBlankChar ',' = false from rfl)]
      rw [skip_blanks hblanks hc, hrest]
      rfl

theorem members_read {list : List (String × List Char × Json)} (hne : list ≠ [])
    (hread : ∀ f ∈ list, ReadAs f.2.1 f.2.2) (rest : List Char)
    {n : ℕ} (hn : (L.comma.intercalate (list.map L.pairText)).length + 1 < n) :
    members n (L.comma.intercalate (list.map L.pairText) ++ '}' :: rest) =
      some (list.map fun f => (f.1, f.2.2), rest) := by
  obtain ⟨blanks, hcomma, hblanks⟩ := hL.comma
  obtain ⟨spaces, hcolon, hspaces⟩ := hL.colon
  -- One field, whatever follows its value.
  have hfield : ∀ f ∈ list, ∀ (m : ℕ) (after : List Char), (L.pairText f).length < m →
      endsValue after = true → ∃ body, L.pairText f ++ after = '"' :: body ∧
        ∃ tail tail', stringBody m body = some (f.1.toList, ':' :: tail) ∧ skip tail = tail' ∧
          value m tail' = some (f.2.2, after) := by
    intro f hf m after hm hafter
    obtain ⟨c, cs, hhead, hc, -⟩ := (hread f hf).head
    simp only [pairText, hcolon, List.length_append, List.length_cons] at hm
    obtain ⟨body, hbody, hstring⟩ := hL.quote_read f.1 (L.colon ++ (f.2.1 ++ after))
      (n := m) (by omega)
    refine ⟨body, ?_, spaces ++ (f.2.1 ++ after), _, ?_, rfl, ?_⟩
    · rw [pairText, List.append_assoc, List.append_assoc, hbody]
    · rw [hstring, hcolon, List.cons_append]
    · have hskip : skip (spaces ++ (f.2.1 ++ after)) = f.2.1 ++ after := by
        rw [hhead, List.cons_append, skip_blanks hspaces hc]
      rw [hskip]
      exact (hread f hf).read m after (by omega) hafter
  induction list generalizing n with
  | nil => exact absurd rfl hne
  | cons f list ih =>
    obtain ⟨n, rfl⟩ : ∃ m, n = m + 1 := ⟨n - 1, by omega⟩
    cases list with
    | nil =>
      simp only [List.map_cons, List.map_nil, List.intercalate_singleton] at hn ⊢
      obtain ⟨body, hbody, tail, tail', hstring, rfl, hvalue⟩ :=
        hfield f (by simp) n ('}' :: rest) (by omega) rfl
      rw [hbody, members, hstring]
      simp only [skip_cons (show isBlankChar ':' = false from rfl), hvalue,
        skip_cons (show isBlankChar '}' = false from rfl), String.ofList_toList]
    | cons next list =>
      have htail : ∃ more, L.comma.intercalate ((next :: list).map L.pairText) ++ '}' :: rest =
          '"' :: more := by
        cases list <;> simp [pairText, quote]
      obtain ⟨more, hmore⟩ := htail
      rw [List.map_cons, List.map_cons, List.intercalate_cons_cons, ← List.map_cons] at hn ⊢
      simp only [List.length_append] at hn
      have hlen : 0 < L.comma.length := by simp [hcomma]
      have hrest := ih (by simp) (fun f h => hread f (List.mem_cons_of_mem _ h)) (n := n) (by omega)
        (fun f h => hfield f (List.mem_cons_of_mem _ h))
      obtain ⟨body, hbody, tail, tail', hstring, rfl, hvalue⟩ :=
        hfield f (by simp) n (',' :: (blanks ++ '"' :: more)) (by omega) rfl
      rw [hmore] at hrest
      rw [List.append_assoc, List.append_assoc, hmore, hcomma, List.cons_append, hbody, members,
        hstring]
      simp only [skip_cons (show isBlankChar ':' = false from rfl), hvalue,
        skip_cons (show isBlankChar ',' = false from rfl), String.ofList_toList]
      rw [skip_blanks hblanks rfl, hrest]
      rfl

theorem str_read (s : String) : ReadAs (L.dumps (str s)) (str s) := by
  refine ⟨L.dumps_head (.str s), fun n rest hn _ => ?_⟩
  obtain ⟨n, rfl⟩ : ∃ m, n = m + 1 := ⟨n - 1, by omega⟩
  obtain ⟨body, hbody, hstring⟩ := hL.quote_read s rest (n := n) (by rw [Layout.dumps] at hn; omega)
  rw [Layout.dumps, hbody, value, hstring]
  simp only [Option.map_some, String.ofList_toList]

theorem arr_read (list : List (List Char × Json)) (hread : ∀ item ∈ list, ReadAs item.1 item.2) :
    ReadAs ('[' :: L.comma.intercalate (list.map Prod.fst) ++ [']']) (arr (list.map Prod.snd)) := by
  refine ⟨⟨'[', _, rfl, by decide, by decide⟩, fun n rest hn _ => ?_⟩
  obtain ⟨n, rfl⟩ : ∃ m, n = m + 1 := ⟨n - 1, by omega⟩
  rw [List.cons_append, List.cons_append, List.append_assoc, List.singleton_append]
  simp only [List.cons_append, List.length_append, List.length_cons, List.length_nil] at hn
  cases list with
  | nil => rfl
  | cons item list =>
    obtain ⟨c, cs, hhead, hc, hclose⟩ := (hread item (by simp)).head
    have hitems := hL.items_read (List.cons_ne_nil item list) hread rest (n := n) (by omega)
    have htail : ∃ more, L.comma.intercalate ((item :: list).map Prod.fst) ++ ']' :: rest =
        c :: more := by
      cases list <;> simp [hhead]
    obtain ⟨more, hmore⟩ := htail
    rw [hmore] at hitems ⊢
    rw [value, skip_cons hc]
    split
    · rename_i h
      exact absurd (List.cons_eq_cons.mp h).1 hclose
    · rw [hitems]
      rfl

theorem obj_read (list : List (String × List Char × Json)) (hkeys : (list.map Prod.fst).Nodup)
    (hread : ∀ f ∈ list, ReadAs f.2.1 f.2.2) :
    ReadAs ('{' :: L.comma.intercalate (list.map L.pairText) ++ ['}'])
      (obj (list.map fun f => (f.1, f.2.2))) := by
  refine ⟨⟨'{', _, rfl, by decide, by decide⟩, fun n rest hn _ => ?_⟩
  obtain ⟨n, rfl⟩ : ∃ m, n = m + 1 := ⟨n - 1, by omega⟩
  rw [List.cons_append, List.cons_append, List.append_assoc, List.singleton_append]
  simp only [List.cons_append, List.length_append, List.length_cons, List.length_nil] at hn
  have hnodup : ((list.map fun f => (f.1, f.2.2)).map (·.1)).Nodup := by
    rw [List.map_map]
    exact hkeys
  rw [← dictionary_eq hnodup]
  cases list with
  | nil => rfl
  | cons f list =>
    have hmembers := hL.members_read (List.cons_ne_nil f list) hread rest (n := n) (by omega)
    have htail : ∃ more, L.comma.intercalate ((f :: list).map L.pairText) ++ '}' :: rest =
        '"' :: more := by
      cases list <;> simp [pairText, quote]
    obtain ⟨more, hmore⟩ := htail
    rw [hmore] at hmembers ⊢
    rw [value, skip_cons (show isBlankChar '"' = false from rfl)]
    split
    · rename_i h
      exact absurd (List.cons_eq_cons.mp h).1 (by decide)
    · rw [hmembers]
      rfl

/-- **Every document is read back.** -/
theorem readAs_dumps {document : Json} (hplain : Plain document) :
    ReadAs (L.dumps document) (sorted document) := by
  induction hplain with
  | null => exact L.readAs_null
  | bool b => exact L.readAs_bool b
  | int n => exact L.readAs_int n
  | str s => exact hL.str_read s
  | @arr items hitems ih =>
    have hread := hL.arr_read (items.map fun item => (L.dumps item, sorted item))
      (by simpa using ih)
    rw [List.map_map, List.map_map] at hread
    rw [Layout.dumps, L.dumpsItems_eq, sorted, sortedItems_eq]
    exact hread
  | @obj fields hkeys hfields ih =>
    have hperm : (inKeyOrder fields).Perm fields := List.perm_insertionSort _ _
    have hread := hL.obj_read ((inKeyOrder fields).map fun f => (f.1, L.dumps f.2, sorted f.2))
      (by rw [List.map_map]; exact (hperm.map _).nodup_iff.mpr hkeys)
      (by
        intro g hg
        obtain ⟨f, hf, rfl⟩ := List.mem_map.mp hg
        exact ih f (hperm.mem_iff.mp hf))
    rw [List.map_map, List.map_map] at hread
    rw [L.dumps_obj, sorted_obj]
    exact hread

/-- **`json.loads(json.dumps(document, sort_keys=True))`.** -/
theorem loads_dumps {document : Json} (hplain : Plain document) :
    loads (String.ofList (L.dumps document)) = some (sorted document) :=
  (hL.readAs_dumps hplain).loads

end Lawful

/-! ### Keys as they stand -/

mutual

/-- `json.dumps(document)`, with the keys of each dictionary in their own order. -/
def dumpsAsIs (L : Layout) : Json → List Char
  | arr items => '[' :: L.comma.intercalate (dumpsItemsAsIs L items) ++ [']']
  | obj fields => '{' :: L.comma.intercalate (dumpsFieldsAsIs L fields) ++ ['}']
  | document => L.dumps document

/-- The items of a list, each dumped. -/
def dumpsItemsAsIs (L : Layout) : List Json → List (List Char)
  | [] => []
  | item :: items => dumpsAsIs L item :: dumpsItemsAsIs L items

/-- The fields of a dictionary, each dumped. -/
def dumpsFieldsAsIs (L : Layout) : List (String × Json) → List (List Char)
  | [] => []
  | (key, value) :: fields =>
    (L.quote key ++ L.colon ++ dumpsAsIs L value) :: dumpsFieldsAsIs L fields

end

theorem dumpsItemsAsIs_eq (L : Layout) (items : List Json) :
    L.dumpsItemsAsIs items = items.map L.dumpsAsIs := by
  induction items with
  | nil => rfl
  | cons item items ih => rw [dumpsItemsAsIs, ih, List.map_cons]

theorem dumpsFieldsAsIs_eq (L : Layout) (fields : List (String × Json)) :
    L.dumpsFieldsAsIs fields = fields.map fun f => L.quote f.1 ++ L.colon ++ L.dumpsAsIs f.2 := by
  induction fields with
  | nil => rfl
  | cons f fields ih => rw [dumpsFieldsAsIs, ih, List.map_cons]

theorem Lawful.readAs_dumpsAsIs {L : Layout} (hL : L.Lawful) {document : Json}
    (hplain : Plain document) : ReadAs (L.dumpsAsIs document) document := by
  induction hplain with
  | null => exact L.readAs_null
  | bool b => exact L.readAs_bool b
  | int n => exact L.readAs_int n
  | str s => exact hL.str_read s
  | @arr items hitems ih =>
    have hread := hL.arr_read (items.map fun item => (L.dumpsAsIs item, item))
      (by simpa using ih)
    have hsame : items.map (Prod.snd ∘ fun item => (L.dumpsAsIs item, item)) = items := List.map_id items
    rw [List.map_map, List.map_map, hsame] at hread
    rw [dumpsAsIs, dumpsItemsAsIs_eq]
    exact hread
  | @obj fields hkeys hfields ih =>
    have hread := hL.obj_read (fields.map fun f => (f.1, L.dumpsAsIs f.2, f.2))
      (by rw [List.map_map]; exact hkeys)
      (by
        intro g hg
        obtain ⟨f, hf, rfl⟩ := List.mem_map.mp hg
        exact ih f hf)
    have hsame : fields.map ((fun f : String × List Char × Json => (f.1, f.2.2)) ∘
        fun f => (f.1, L.dumpsAsIs f.2, f.2)) = fields := List.map_id fields
    rw [List.map_map, List.map_map, hsame] at hread
    rw [dumpsAsIs, dumpsFieldsAsIs_eq]
    exact hread

/-- **`json.loads(json.dumps(document))`.** -/
theorem Lawful.loads_dumpsAsIs {L : Layout} (hL : L.Lawful) {document : Json}
    (hplain : Plain document) : loads (String.ofList (L.dumpsAsIs document)) = some document :=
  (hL.readAs_dumpsAsIs hplain).loads

end Layout

/-! ### Looking up -/

theorem find?_perm {fields fields' : List (String × Json)} (hperm : fields.Perm fields')
    (hkeys : (fields.map (·.1)).Nodup) (key : String) :
    (fields.find? fun f => f.1 == key) = fields'.find? fun f => f.1 == key := by
  -- What a list of distinct keys finds is its one field of that key.
  have hfound : ∀ {list : List (String × Json)}, (list.map (·.1)).Nodup → ∀ f,
      (list.find? fun f => f.1 == key) = some f ↔ f ∈ list ∧ f.1 = key := by
    intro list hnodup f
    constructor
    · intro h
      exact ⟨List.mem_of_find?_eq_some h, by simpa using List.find?_some h⟩
    · rintro ⟨hmem, hkey⟩
      cases hfind : list.find? fun f => f.1 == key with
      | none => exact absurd hkey (by simpa using List.find?_eq_none.mp hfind f hmem)
      | some g =>
        have hg : g.1 = key := by simpa using List.find?_some hfind
        have heq := List.inj_on_of_nodup_map hnodup (List.mem_of_find?_eq_some hfind) hmem
          (hg.trans hkey.symm)
        rw [heq]
  ext f
  have hkeys' : (fields'.map (·.1)).Nodup := (hperm.map _).nodup_iff.mp hkeys
  rw [hfound hkeys, hfound hkeys', hperm.mem_iff]

theorem get?_sorted {document : Json} (hplain : Plain document) (key : String) :
    (sorted document).get? key = (document.get? key).map sorted := by
  cases hplain with
  | @obj fields hkeys hfields =>
    have hperm : (inKeyOrder fields).Perm fields := List.perm_insertionSort _ _
    have hsame : ((fun f : String × Json => f.1 == key) ∘
        fun f : String × Json => (f.1, sorted f.2)) = fun f => f.1 == key := rfl
    rw [sorted_obj, get?_obj, get?_obj, List.find?_map, hsame,
      ← find?_perm hperm.symm hkeys key, Option.map_map, Option.map_map]
    rfl
  | _ => rfl

theorem get_sorted {document : Json} (hplain : Plain document) (key : String) :
    (sorted document).get key = sorted (document.get key) := by
  rw [get, get, get?_sorted hplain]
  cases document.get? key <;> rfl

theorem sorted_arr (items : List Json) : sorted (arr items) = arr (items.map sorted) := by
  rw [sorted, sortedItems_eq]

theorem isObj_sorted (document : Json) : (sorted document).isObj = document.isObj := by
  cases document <;> rfl

end Json
end RepoMesh
