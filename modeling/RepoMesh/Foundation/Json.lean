/-
# JSON documents

A parsed JSON document as the source handles it: a value with the dictionary lookups, the truth
value and the `str` of a Python object, and the text `json.dumps` gives it.
-/
import Mathlib.Data.List.Sort
import RepoMesh.Foundation.Text

namespace RepoMesh

/-- A value `json.loads` returns. A float keeps its text; a dictionary keeps its insertion
order and holds each key once. -/
inductive Json where
  | null
  | bool (b : Bool)
  | int (n : ℤ)
  | float (text : String)
  | str (s : String)
  | arr (items : List Json)
  | obj (fields : List (String × Json))

namespace Json

/-- `document.get(key)` of a dictionary; other values have no keys. -/
def get? : Json → String → Option Json
  | obj fields, key => (fields.find? fun f => f.1 == key).map (·.2)
  | _, _ => none

/-- `document.get(key)` with the default `None`. -/
def get (document : Json) (key : String) : Json := (document.get? key).getD .null

/-- `key in document`. -/
def hasKey (document : Json) (key : String) : Bool := (document.get? key).isSome

/-- `isinstance(value, dict)`. -/
def isObj : Json → Bool
  | obj _ => true
  | _ => false

/-- `isinstance(value, list)`, with the items. -/
def list? : Json → Option (List Json)
  | arr items => some items
  | _ => none

/-- `isinstance(value, str)`, with the text. -/
def str? : Json → Option String
  | str s => some s
  | _ => none

/-- `isinstance(value, int)`: a Python `bool` is one too. -/
def int? : Json → Option ℤ
  | int n => some n
  | bool b => some (if b then 1 else 0)
  | _ => none

/-- `isinstance(value, bool)`. -/
def isBool : Json → Bool
  | bool _ => true
  | _ => false

/-- `bool(value)`. A float is false when its mantissa has no digit but zero; `NaN` and
`Infinity` are true. -/
def truthy : Json → Bool
  | null => false
  | bool b => b
  | int n => n != 0
  | float text => (text.toList.takeWhile fun c => c != 'e' && c != 'E').any fun c =>
      c.isAlpha || ('1' ≤ c && c ≤ '9')
  | str s => s != ""
  | arr items => !items.isEmpty
  | obj fields => !fields.isEmpty

/-- `a or b`. -/
def or (a b : Json) : Json := if a.truthy then a else b

@[simp] theorem get?_obj (fields : List (String × Json)) (key : String) :
    (obj fields).get? key = (fields.find? fun f => f.1 == key).map (·.2) := rfl

/-! ## `json.dumps` -/

open Text

/-- One character inside a JSON string, as `json.dumps` writes it with `ensure_ascii`: printable
ASCII as it is, the rest escaped, in UTF-16 units. -/
def escapeChar (c : Char) : List Char :=
  if c = '"' then ['\\', '"']
  else if c = '\\' then ['\\', '\\']
  else if 32 ≤ c.toNat ∧ c.toNat ≤ 126 then [c]
  else if c.toNat = 10 then ['\\', 'n']
  else if c.toNat = 13 then ['\\', 'r']
  else if c.toNat = 9 then ['\\', 't']
  else if c.toNat = 12 then ['\\', 'f']
  else if c.toNat = 8 then ['\\', 'b']
  else if c.toNat < 0x10000 then '\\' :: 'u' :: hexDigits 4 c.toNat
  else
    '\\' :: 'u' :: hexDigits 4 (0xd800 + (c.toNat - 0x10000) / 0x400) ++
      '\\' :: 'u' :: hexDigits 4 (0xdc00 + (c.toNat - 0x10000) % 0x400)

/-- A JSON string. -/
def quote (s : String) : List Char := '"' :: s.toList.flatMap escapeChar ++ ['"']

/-- `",".join(parts)`, on lists of characters. -/
def commaJoin (parts : List (List Char)) : List Char := [','].intercalate parts

mutual

/-- `json.dumps(document, sort_keys=True, separators=(",", ":"))`. -/
def dumps : Json → List Char
  | null => "null".toList
  | bool b => (if b then "true" else "false").toList
  | int n => (toString n).toList
  | float text => text.toList
  | str s => quote s
  | arr items => '[' :: commaJoin (dumpsItems items) ++ [']']
  | obj fields =>
    let sorted := (dumpsFields fields).insertionSort fun f g => f.1 ≤ g.1
    '{' :: commaJoin (sorted.map fun f => quote f.1 ++ ':' :: f.2) ++ ['}']

/-- The items of a list, each dumped. -/
def dumpsItems : List Json → List (List Char)
  | [] => []
  | item :: items => dumps item :: dumpsItems items

/-- The values of a dictionary, each dumped under its key. -/
def dumpsFields : List (String × Json) → List (String × List Char)
  | [] => []
  | (key, value) :: fields => (key, dumps value) :: dumpsFields fields

end

end Json
end RepoMesh
