/-
# File name patterns

`fnmatch.fnmatch` on a system whose file names keep their case: a pattern is read into tokens as
`fnmatch.translate` reads it, with its rules for a bracket that is never closed, for a hyphen that
makes no range and for a range that is empty.
-/
import Mathlib.Data.List.Infix

namespace RepoMesh
namespace Fnmatch

/-- What one part of a pattern stands for. -/
inductive Token where
  | star
  | any
  | lit (c : Char)
  | set (negated : Bool) (ranges : List (Char × Char))
  deriving DecidableEq

/-- The characters of a bracket and what follows it, when it is closed. A bracket first, after the
mark of a negation, does not close it. -/
def bracket (cs : List Char) : Option (List Char × List Char) :=
  let mark := if cs.head? = some '!' then ['!'] else []
  let rest := cs.drop mark.length
  let first := if rest.head? = some ']' then [']'] else []
  let rest := rest.drop first.length
  let body := rest.takeWhile (· ≠ ']')
  match rest.drop body.length with
  | [] => none
  | _ :: rest => some (mark ++ first ++ body, rest)

/-- The parts between the hyphens that make ranges: `skip` characters are part of the first one
whatever they are. -/
def chunksFrom : ℕ → List Char → List Char → List (List Char)
  | _, chunk, [] => [chunk]
  | skip + 1, chunk, c :: cs => chunksFrom skip (chunk ++ [c]) cs
  | 0, chunk, c :: cs =>
    if c = '-' then
      if cs = [] then [chunk ++ [c]] else chunk :: chunksFrom 2 [] cs
    else chunksFrom 0 (chunk ++ [c]) cs

/-- The parts of a bracket. -/
def chunks (stuff : List Char) : List (List Char) :=
  chunksFrom (if stuff.head? = some '!' then 2 else 1) [] stuff

/-- Empty ranges are removed from the right, and what is left of their parts is one part. -/
def withoutEmptyRanges : List (List Char) → List (List Char)
  | [] => []
  | chunk :: rest =>
    match withoutEmptyRanges rest with
    | [] => [chunk]
    | next :: rest =>
      match chunk.getLast?, next with
      | some low, high :: more =>
        if high < low then (chunk.dropLast ++ more) :: rest else chunk :: next :: rest
      | _, _ => chunk :: next :: rest

/-- The ranges of the parts; a character alone is one. -/
def rangesOf : List (List Char) → List (Char × Char)
  | [] => []
  | chunk :: rest =>
    match rest, chunk.getLast? with
    | (high :: _) :: _, some low =>
      (chunk.dropLast.map fun c => (c, c)) ++ (low, high) :: (rangesOf rest).tail
    | _ :: _, none => ('-', '-') :: rangesOf rest
    | _, _ => (chunk.map fun c => (c, c)) ++ rangesOf rest

/-- What a bracket stands for. -/
def setOf (stuff : List Char) : Token :=
  match withoutEmptyRanges (chunks stuff) with
  | ('!' :: chunk) :: rest => .set true (rangesOf (chunk :: rest))
  | parts => .set false (rangesOf parts)

/-- `fnmatch.translate`, with as much fuel as the pattern is long. -/
def translateFrom : ℕ → List Char → List Token
  | 0, _ => []
  | _ + 1, [] => []
  | n + 1, '*' :: cs => .star :: translateFrom n cs
  | n + 1, '?' :: cs => .any :: translateFrom n cs
  | n + 1, '[' :: cs =>
    match bracket cs with
    | none => .lit '[' :: translateFrom n cs
    | some (stuff, rest) => setOf stuff :: translateFrom n rest
  | n + 1, c :: cs => .lit c :: translateFrom n cs

/-- `fnmatch.translate`. -/
def translate (pattern : List Char) : List Token := translateFrom pattern.length pattern

/-- A character that a token of one character stands for. -/
def Token.accepts : Token → Char → Bool
  | .star, _ => false
  | .any, _ => true
  | .lit d, c => c == d
  | .set negated ranges, c => (ranges.any fun r => r.1 ≤ c && c ≤ r.2) != negated

/-- A whole name that tokens match. -/
def matchTokens : List Token → List Char → Bool
  | [], cs => cs.isEmpty
  | .star :: tokens, cs => cs.tails.any (matchTokens tokens)
  | _ :: _, [] => false
  | token :: tokens, c :: cs => token.accepts c && matchTokens tokens cs

/-- `fnmatch.fnmatch`. -/
def fnmatch (name pattern : List Char) : Bool := matchTokens (translate pattern) name

/-! ## What patterns match -/

theorem matchTokens_star {tokens : List Token} {cs : List Char} :
    matchTokens (.star :: tokens) cs = true ↔ ∃ x y, cs = x ++ y ∧ matchTokens tokens y = true := by
  rw [matchTokens, List.any_eq_true]
  constructor
  · rintro ⟨y, hy, hmatch⟩
    obtain ⟨x, rfl⟩ := (List.mem_tails _ _).mp hy
    exact ⟨x, y, rfl, hmatch⟩
  · rintro ⟨x, y, rfl, hmatch⟩
    exact ⟨y, (List.mem_tails _ _).mpr (List.suffix_append _ _), hmatch⟩

theorem matchTokens_cons {token : Token} (htoken : token ≠ .star) {tokens : List Token}
    {cs : List Char} :
    matchTokens (token :: tokens) cs = true ↔
      ∃ c rest, cs = c :: rest ∧ token.accepts c = true ∧ matchTokens tokens rest = true := by
  cases cs with
  | nil => cases token <;> simp_all [matchTokens]
  | cons c rest => cases token <;> simp_all [matchTokens]

/-- **One pattern after the other.** Matched is a text that the first matches, and one that the second
matches behind it. -/
theorem matchTokens_append {front back : List Token} {cs : List Char} :
    matchTokens (front ++ back) cs = true ↔
      ∃ x y, cs = x ++ y ∧ matchTokens front x = true ∧ matchTokens back y = true := by
  induction front generalizing cs with
  | nil =>
    constructor
    · intro h
      exact ⟨[], cs, rfl, rfl, h⟩
    · rintro ⟨x, y, rfl, hx, hy⟩
      obtain rfl := List.isEmpty_iff.mp hx
      exact hy
  | cons token front ih =>
    by_cases htoken : token = .star
    · subst htoken
      rw [List.cons_append, matchTokens_star]
      constructor
      · rintro ⟨w, z, rfl, hz⟩
        obtain ⟨x, y, rfl, hx, hy⟩ := ih.mp hz
        exact ⟨w ++ x, y, (List.append_assoc ..).symm, matchTokens_star.mpr ⟨w, x, rfl, hx⟩, hy⟩
      · rintro ⟨x, y, rfl, hx, hy⟩
        obtain ⟨w, z, rfl, hz⟩ := matchTokens_star.mp hx
        exact ⟨w, z ++ y, List.append_assoc .., ih.mpr ⟨z, y, rfl, hz, hy⟩⟩
    · rw [List.cons_append, matchTokens_cons htoken]
      constructor
      · rintro ⟨c, rest, rfl, hc, hrest⟩
        obtain ⟨x, y, rfl, hx, hy⟩ := ih.mp hrest
        exact ⟨c :: x, y, rfl, (matchTokens_cons htoken).mpr ⟨c, x, rfl, hc, hx⟩, hy⟩
      · rintro ⟨x, y, rfl, hx, hy⟩
        obtain ⟨c, z, rfl, hc, hz⟩ := (matchTokens_cons htoken).mp hx
        exact ⟨c, z ++ y, rfl, hc, ih.mpr ⟨z, y, rfl, hz, hy⟩⟩

/-- A token of one character that stands for all that another one does. -/
def Token.Includes (token other : Token) : Prop :=
  token ≠ .star ∧ other ≠ .star ∧ ∀ c, other.accepts c = true → token.accepts c = true

/-- A pattern that is matched by another one as it is written: a star takes any part of it, and a token of
one character one that stands for no more. -/
inductive Covers : List Token → List Token → Prop where
  | nil : Covers [] []
  | skip {tokens others : List Token} (h : Covers tokens others) : Covers (.star :: tokens) others
  | take {tokens others : List Token} (other : Token) (h : Covers (.star :: tokens) others) :
      Covers (.star :: tokens) (other :: others)
  | one {token other : Token} {tokens others : List Token} (hone : token.Includes other)
      (h : Covers tokens others) : Covers (token :: tokens) (other :: others)

/-- **A pattern that covers another** matches all that it matches. -/
theorem Covers.matchTokens {tokens others : List Token} (h : Covers tokens others) :
    ∀ cs, matchTokens others cs = true → matchTokens tokens cs = true := by
  induction h with
  | nil => exact fun _ h => h
  | skip _ ih => exact fun cs h => matchTokens_star.mpr ⟨[], cs, rfl, ih cs h⟩
  | @take tokens others other _ ih =>
    intro cs h
    obtain ⟨x, y, rfl, -, hy⟩ := (@matchTokens_append [other] others _).mp h
    obtain ⟨w, z, rfl, hz⟩ := matchTokens_star.mp (ih y hy)
    exact matchTokens_star.mpr ⟨x ++ w, z, (List.append_assoc ..).symm, hz⟩
  | one hone _ ih =>
    intro cs h
    obtain ⟨c, rest, rfl, hc, hrest⟩ := (matchTokens_cons hone.2.1).mp h
    exact (matchTokens_cons hone.1).mpr ⟨c, rest, rfl, hone.2.2 c hc, ih rest hrest⟩

theorem covers_lit {tokens : List Token} {cs : List Char} (h : matchTokens tokens cs = true) :
    Covers tokens (cs.map .lit) := by
  induction tokens generalizing cs with
  | nil =>
    obtain rfl := List.isEmpty_iff.mp h
    exact .nil
  | cons token tokens ih =>
    by_cases htoken : token = .star
    · subst htoken
      obtain ⟨x, y, rfl, hy⟩ := matchTokens_star.mp h
      induction x with
      | nil => exact .skip (ih hy)
      | cons c x ihx => exact .take _ (ihx (matchTokens_star.mpr ⟨x, y, rfl, hy⟩))
    · obtain ⟨c, rest, rfl, hc, hrest⟩ := (matchTokens_cons htoken).mp h
      refine .one ⟨htoken, by simp, fun d hd => ?_⟩ (ih hrest)
      obtain rfl : d = c := by simpa [Token.accepts] using hd
      exact hc

/-- No character of the text is one of a pattern. -/
def Plain (cs : List Char) : Prop := ∀ c ∈ cs, c ≠ '*' ∧ c ≠ '?' ∧ c ≠ '['

theorem translateFrom_plain {cs rest : List Char} (h : Plain cs) (n : ℕ) :
    translateFrom (cs.length + n) (cs ++ rest) = cs.map .lit ++ translateFrom n rest := by
  induction cs with
  | nil => simp
  | cons c cs ih =>
    obtain ⟨hstar, hany, hset⟩ := h c (List.mem_cons_self ..)
    have hrest := ih fun d hd => h d (List.mem_cons_of_mem _ hd)
    have hlength : (c :: cs).length + n = (cs.length + n) + 1 := by
      rw [List.length_cons]
      omega
    rw [hlength, List.map_cons, List.cons_append, List.cons_append, ← hrest]
    generalize hlater : translateFrom (cs.length + n) (cs ++ rest) = later
    unfold translateFrom
    split <;> simp_all

theorem translate_append {cs rest : List Char} (h : Plain cs) :
    translate (cs ++ rest) = cs.map .lit ++ translate rest := by
  rw [translate, List.length_append, translateFrom_plain h, translate]

theorem translate_plain {cs : List Char} (h : Plain cs) : translate cs = cs.map .lit := by
  have happend := @translate_append cs [] h
  rw [List.append_nil] at happend
  rw [happend]
  exact List.append_nil _

theorem matchTokens_lit (cs : List Char) : matchTokens (cs.map .lit) cs = true := by
  induction cs with
  | nil => rfl
  | cons c cs ih => simp [matchTokens, Token.accepts, ih]

end Fnmatch
end RepoMesh
