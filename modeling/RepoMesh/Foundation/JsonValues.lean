/-
# What Python makes of a JSON value

`value.get(key)`, `list(value)`, `dict(value)` and `value[0]` of a value of any JSON type, with the
exceptions they raise.
-/
import RepoMesh.Foundation.JsonText

namespace RepoMesh
namespace Json

/-- What Python raises where a value is not of the type that was expected. -/
inductive Fault where
  | attributeError | typeError | valueError | keyError | indexError
  deriving DecidableEq

/-- `value.get(key, default)`. -/
def getOr (value : Json) (key : String) (default : Json) : Except Fault Json :=
  match value with
  | obj fields => .ok (((obj fields).get? key).getD default)
  | _ => .error .attributeError

/-- `list(value)`. -/
def listOf : Json → Except Fault (List Json)
  | arr items => .ok items
  | str s => .ok (s.toList.map fun c => str (String.singleton c))
  | obj fields => .ok (fields.map fun f => str f.1)
  | _ => .error .typeError

/-- A value that can be a key of a dictionary. -/
def hashable : Json → Bool
  | arr _ => false
  | obj _ => false
  | _ => true

/-- A key as `json.dumps` writes it. -/
def keyText : Json → String
  | str s => s
  | bool b => if b then "true" else "false"
  | int n => toString n
  | float text => text
  | _ => "null"

/-- An element of the sequence that `dict` is given. -/
def pairOf (value : Json) : Except Fault (String × Json) := do
  match ← value.listOf with
  | [key, item] => if key.hashable then .ok (key.keyText, item) else .error .typeError
  | _ => .error .valueError

/-- `dict(value)`. -/
def dictOf : Json → Except Fault (List (String × Json))
  | obj fields => .ok fields
  | value => do
    let pairs ← (← value.listOf).mapM pairOf
    .ok (pairs.foldl store [])

/-- `value[0]`. -/
def item0 : Json → Except Fault Json
  | arr (item :: _) => .ok item
  | arr [] => .error .indexError
  | str s =>
    match s.toList with
    | c :: _ => .ok (str (String.singleton c))
    | [] => .error .indexError
  | obj _ => .error .keyError
  | _ => .error .typeError

end Json
end RepoMesh
