/-
# The text of the evidence

What `json` and `uuid` do with the documents the gateway writes: the evidence stored on a task reads
back as the document that was written.
-/
import RepoMesh.Foundation.JsonText
import RepoMesh.Runner.Gateway

namespace RepoMesh
namespace Runner

open Text
open Orchestration
open Delivery (UUID uuidStr)

/-- Python's `json` and `uuid`: `json.loads` and `json.dumps` are those of the language, and
`UUID(str(id))` is `id`. -/
class PythonCodecs extends RunnerCodecs where
  jsonLoads_eq : ∀ text, jsonLoads text = Json.loads text
  evidenceText_eq : ∀ document,
    evidenceText document = String.ofList (Json.plainLayout.dumps document)
  uuidOfText_uuidStr : ∀ id : UUID, id < 2 ^ 128 → uuidOfText (uuidStr id) = some id

section

variable [PythonCodecs]

theorem strip_evidenceText (fields : List (String × Json)) :
    strip (RunnerCodecs.evidenceText (.obj fields)) =
      String.ofList (Json.plainLayout.dumps (.obj fields)) := by
  rw [PythonCodecs.evidenceText_eq, Json.Layout.strip_dumps_obj]

theorem isBlank_evidenceText (fields : List (String × Json)) :
    isBlank (RunnerCodecs.evidenceText (.obj fields)) = false := by
  rw [isBlank, strip_evidenceText, Json.Layout.dumps_obj, Bool.eq_false_iff]
  intro hempty
  have hlist := congrArg String.toList (String.isEmpty_iff.mp hempty)
  rw [String.toList_ofList] at hlist
  cases hlist

/-- **The stored evidence** reads back with its keys in order. -/
theorem parseEvidence_evidenceText {fields : List (String × Json)}
    (hplain : Json.Plain (.obj fields)) (hcommit : (Json.obj fields).hasKey "commitSha" = true) :
    parseEvidence (some (strip (RunnerCodecs.evidenceText (.obj fields)))) =
      some (evidenceOfDocument (Json.sorted (.obj fields))) := by
  have hread := Json.plainLayout_lawful.loads_dumps hplain
  have hnonempty : String.ofList (Json.plainLayout.dumps (.obj fields)) ≠ "" := by
    intro hempty
    have hlist := congrArg String.toList hempty
    rw [String.toList_ofList, Json.Layout.dumps_obj] at hlist
    cases hlist
  have hkey : (Json.sorted (.obj fields)).hasKey "commitSha" = true := by
    rw [Json.hasKey, Json.get?_sorted hplain, Option.isSome_map]
    exact hcommit
  rw [parseEvidence, strip_evidenceText]
  simp only [hnonempty, if_false, PythonCodecs.jsonLoads_eq, hread]
  rw [if_pos]
  rw [hkey, Json.sorted_obj]
  rfl

end

/-! ## Codecs that behave so -/

/-- `UUID(text)` of the 32 hexadecimal digits between dashes. -/
def uuidOfDigits (text : String) : Option UUID :=
  let hex := text.toList.filter fun c => c != '-'
  if hex.length = 32 ∧ hex.all isHexDigit then
    some (hex.foldl (fun n c => n * 16 + (Json.hexValue c).getD 0) 0)
  else none

theorem foldl_hexDigits (k n a : ℕ) :
    (hexDigits k n).foldl (fun n c => n * 16 + (Json.hexValue c).getD 0) a =
      a * 16 ^ k + n % 16 ^ k := by
  induction k generalizing n with
  | zero => simp [hexDigits, Nat.mod_one]
  | succ k ih =>
    have hvalue : ∀ m < 16, (Json.hexValue (hexDigit m)).getD 0 = m := by decide
    have hsplit := Nat.mod_mul (a := 16) (b := 16 ^ k) (x := n)
    have hpow : 16 ^ (k + 1) = 16 * 16 ^ k := by ring
    have hfactor : a * (16 * 16 ^ k) = a * 16 ^ k * 16 := by ring
    rw [hexDigits, List.foldl_append, ih, List.foldl_cons, List.foldl_nil,
      hvalue _ (Nat.mod_lt n (by omega)), hpow, hsplit, hfactor]
    omega

theorem append_parts (ds : List Char) :
    ds.take 8 ++ (ds.drop 8).take 4 ++ (ds.drop 12).take 4 ++ (ds.drop 16).take 4 ++ ds.drop 20 =
      ds := by
  have hcut : ∀ n, (ds.drop n).take 4 ++ ds.drop (n + 4) = ds.drop n := by
    intro n
    have hdrop : ds.drop (n + 4) = (ds.drop n).drop 4 := by rw [List.drop_drop]
    rw [hdrop, List.take_append_drop]
  rw [List.append_assoc, hcut 16, List.append_assoc, hcut 12, List.append_assoc, hcut 8,
    List.take_append_drop]

theorem filter_uuidStr (id : UUID) :
    (uuidStr id).toList.filter (fun c => c != '-') = hexDigits 32 id := by
  have hall : ∀ c ∈ hexDigits 32 id, c ≠ '-' := by
    rintro c hc rfl
    exact absurd (isHexDigit_of_mem_hexDigits hc) (by decide)
  rw [uuidStr, String.toList_ofList]
  generalize hexDigits 32 id = ds at hall ⊢
  have hkeep : ∀ l : List Char, (∀ c ∈ l, c ∈ ds) → l.filter (fun c => c != '-') = l := by
    intro l hl
    refine List.filter_eq_self.mpr fun c hc => ?_
    rw [bne_iff_ne]
    exact hall c (hl c hc)
  have hdash : ['-'].filter (fun c => c != '-') = [] := by decide
  simp only [List.filter_append, hdash, List.append_nil]
  rw [hkeep (ds.take 8) fun c => List.mem_of_mem_take,
    hkeep ((ds.drop 8).take 4) fun c hc => List.mem_of_mem_drop (List.mem_of_mem_take hc),
    hkeep ((ds.drop 12).take 4) fun c hc => List.mem_of_mem_drop (List.mem_of_mem_take hc),
    hkeep ((ds.drop 16).take 4) fun c hc => List.mem_of_mem_drop (List.mem_of_mem_take hc),
    hkeep (ds.drop 20) fun c => List.mem_of_mem_drop]
  exact append_parts ds

theorem uuidOfDigits_uuidStr {id : UUID} (hid : id < 2 ^ 128) :
    uuidOfDigits (uuidStr id) = some id := by
  have hdigits : (hexDigits 32 id).length = 32 ∧ (hexDigits 32 id).all isHexDigit = true :=
    ⟨length_hexDigits 32 id, List.all_eq_true.mpr fun c hc => isHexDigit_of_mem_hexDigits hc⟩
  have hvalue := foldl_hexDigits 32 id 0
  have hmod : id % 16 ^ 32 = id := Nat.mod_eq_of_lt (by omega)
  rw [hmod, Nat.zero_mul, Nat.zero_add] at hvalue
  rw [uuidOfDigits, filter_uuidStr]
  show (if (hexDigits 32 id).length = 32 ∧ (hexDigits 32 id).all isHexDigit then _ else none) = _
  rw [if_pos hdigits, hvalue]

/-- The codecs of the program, with commands told apart by their texts. -/
@[reducible] def pythonCodecs : PythonCodecs where
  toRunnerCodecs :=
    { proseCodecs with
      jsonLoads := Json.loads
      uuidOfText := uuidOfDigits
      documentText := fun document => String.ofList (Json.dumps document)
      evidenceText := fun document => String.ofList (Json.plainLayout.dumps document) }
  jsonLoads_eq _ := rfl
  evidenceText_eq _ := rfl
  uuidOfText_uuidStr _ hid := uuidOfDigits_uuidStr hid

end Runner
end RepoMesh
