/-
# Compact JSON texts

The layouts of `json.dumps(document, sort_keys=True, separators=(",", ":"))`, with and without
`ensure_ascii`: both are read back, so that two documents are told apart by their texts.
-/
import RepoMesh.Foundation.JsonText

namespace RepoMesh
namespace Json

open Text

/-- The layout with `ensure_ascii`. -/
def asciiLayout : Layout where
  escape := escapeChar
  comma := [',']
  colon := [':']

/-- The layout with `ensure_ascii=False`. -/
def compactLayout : Layout where
  escape := escapeControl
  comma := [',']
  colon := [':']

theorem compactLayout_lawful : compactLayout.Lawful where
  escape_read := escapeControl_read
  escape_head := plainLayout_lawful.escape_head
  comma := ⟨[], rfl, by simp⟩
  colon := ⟨[], rfl, by simp⟩

/-! ## Escaped characters -/

theorem character_unit {n : ℕ} (hn : n < 0xd800 ∨ 0xe000 ≤ n ∧ n < 0x10000) (rest : List Char) :
    character ('\\' :: 'u' :: (hexDigits 4 n ++ rest)) = some (Char.ofNat n, rest) := by
  have hfour := hexFour_hexDigits (n := n) (by omega) rest
  show escaped ('u' :: (hexDigits 4 n ++ rest)) = _
  rw [escaped, hfour]
  simp only
  rw [if_neg (by omega), if_neg (by omega)]

theorem character_pair (high low : ℕ) (hhigh : 0xd800 ≤ high ∧ high ≤ 0xdbff)
    (hlow : 0xdc00 ≤ low ∧ low ≤ 0xdfff) (rest : List Char) :
    character ('\\' :: 'u' :: (hexDigits 4 high ++ '\\' :: 'u' :: (hexDigits 4 low ++ rest))) =
      some (Char.ofNat (0x10000 + (high - 0xd800) * 0x400 + (low - 0xdc00)), rest) := by
  have hfour := hexFour_hexDigits (n := high) (by omega)
    ('\\' :: 'u' :: (hexDigits 4 low ++ rest))
  have hfour' := hexFour_hexDigits (n := low) (by omega) rest
  show escaped ('u' :: (hexDigits 4 high ++ _)) = _
  rw [escaped, hfour]
  simp only
  rw [if_pos hhigh, lowSurrogate, hfour']
  simp only
  rw [if_pos hlow]

theorem escapeChar_read (c : Char) (rest : List Char) :
    character (escapeChar c ++ rest) = some (c, rest) := by
  have hvalid := c.valid
  have hbound : c.toNat < 0xd800 ∨ 0xdfff < c.toNat ∧ c.toNat < 0x110000 := hvalid
  unfold escapeChar
  split_ifs with hquote hslash hplain hnewline hreturn htab hfeed hback hunit
  · rw [hquote]
    rfl
  · rw [hslash]
    rfl
  · rw [List.singleton_append, character]
    · rw [if_neg (by omega)]
    · intro h
      exact hslash h
  · rw [eq_ofNat hnewline]
    rfl
  · rw [eq_ofNat hreturn]
    rfl
  · rw [eq_ofNat htab]
    rfl
  · rw [eq_ofNat hfeed]
    rfl
  · rw [eq_ofNat hback]
    rfl
  · have hread := character_unit (n := c.toNat) (by omega) rest
    rw [Char.ofNat_toNat] at hread
    exact hread
  · have hpair : 0x10000 + (0xd800 + (c.toNat - 0x10000) / 0x400 - 0xd800) * 0x400 +
        (0xdc00 + (c.toNat - 0x10000) % 0x400 - 0xdc00) = c.toNat := by omega
    have hread := character_pair (0xd800 + (c.toNat - 0x10000) / 0x400)
      (0xdc00 + (c.toNat - 0x10000) % 0x400) (by omega) (by omega) rest
    rw [hpair, Char.ofNat_toNat] at hread
    simpa only [List.cons_append, List.append_assoc] using hread

theorem asciiLayout_lawful : asciiLayout.Lawful where
  escape_read := escapeChar_read
  escape_head c := by
    show ∃ d ds, escapeChar c = d :: ds ∧ d ≠ '"'
    unfold escapeChar
    split_ifs with hquote <;> exact ⟨_, _, rfl, by first | decide | exact hquote⟩
  comma := ⟨[], rfl, by simp⟩
  colon := ⟨[], rfl, by simp⟩

/-! ## Texts -/

theorem dumps_eq (document : Json) : document.dumps = asciiLayout.dumps document := by
  induction document using induct_members with
  | null => rfl
  | bool b => rfl
  | int n => rfl
  | float text => rfl
  | str s => rfl
  | arr items ih =>
    have hitems : dumpsItems items = asciiLayout.dumpsItems items := by
      induction items with
      | nil => rfl
      | cons item items ih' =>
        rw [dumpsItems, Layout.dumpsItems, ih item (by simp),
          ih' fun i hi => ih i (List.mem_cons_of_mem _ hi)]
    rw [dumps, Layout.dumps, hitems]
    rfl
  | obj fields ih =>
    have hfields : dumpsFields fields = asciiLayout.dumpsFields fields := by
      induction fields with
      | nil => rfl
      | cons f fields ih' =>
        rw [dumpsFields, Layout.dumpsFields, ih f (by simp),
          ih' fun g hg => ih g (List.mem_cons_of_mem _ hg)]
    rw [dumps, Layout.dumps, hfields]
    simp only [commaJoin, asciiLayout, List.append_assoc, List.singleton_append]
    rfl

/-- **A text says its document**, but for the order of the keys. -/
theorem Layout.Lawful.sorted_eq {L : Layout} (hL : L.Lawful) {document document' : Json}
    (hplain : Plain document) (hplain' : Plain document')
    (h : L.dumps document = L.dumps document') : sorted document = sorted document' := by
  have hread := hL.loads_dumps hplain
  rw [h, hL.loads_dumps hplain'] at hread
  exact (Option.some.inj hread).symm

theorem Layout.Lawful.get_eq {L : Layout} (hL : L.Lawful) {document document' : Json}
    (hplain : Plain document) (hplain' : Plain document')
    (h : L.dumps document = L.dumps document') (key : String) :
    sorted (document.get key) = sorted (document'.get key) := by
  rw [← get_sorted hplain, ← get_sorted hplain', hL.sorted_eq hplain hplain' h]

end Json
end RepoMesh
