/-
# A buffered stream reader

Reading a stream that arrives in chunks, as `asyncio.StreamReader` does with a limit: `readline`
raises on a line that is too long, and takes from the buffer either that line, when its end has
arrived, or all there is; `read` takes some of what is buffered. The reader sees nothing but its
buffer, so what an error costs depends on what has arrived.
-/
import Mathlib.Data.List.Basic

namespace RepoMesh
namespace StreamReader

universe u

variable {β : Type u}

/-- A stream: what has arrived and was not read, and what has not arrived yet. -/
structure Stream (β : Type u) where
  buffer : List β
  incoming : List β

/-- What is still to be read. -/
def Stream.pending (s : Stream β) : List β := s.buffer ++ s.incoming

/-- A chunk of any size arrives. -/
inductive Arrives : Stream β → Stream β → Prop where
  | chunk (buffer chunk incoming : List β) :
      Arrives ⟨buffer, chunk ++ incoming⟩ ⟨buffer ++ chunk, incoming⟩

theorem Arrives.pending {s s' : Stream β} (h : Arrives s s') : s'.pending = s.pending := by
  cases h
  simp [Stream.pending]

/-- What `readline` comes back with: a line, or a `ValueError` that took something from the buffer. -/
inductive Line (β : Type u) where
  | line (text : List β)
  | tooLong (removed : List β)

/-- `readline()`, after more of the stream may have arrived. At the end of the stream it returns what
is left. -/
inductive ReadLine (newline : β) (limit : ℕ) : Stream β → Line β → Stream β → Prop where
  | found {s : Stream β} {text buffer incoming : List β}
      (arrived : Arrives s ⟨text ++ newline :: buffer, incoming⟩) (first : newline ∉ text)
      (fits : text.length ≤ limit) :
      ReadLine newline limit s (.line (text ++ [newline])) ⟨buffer, incoming⟩
  | foundTooLong {s : Stream β} {text buffer incoming : List β}
      (arrived : Arrives s ⟨text ++ newline :: buffer, incoming⟩) (first : newline ∉ text)
      (long : limit < text.length) :
      ReadLine newline limit s (.tooLong (text ++ [newline])) ⟨buffer, incoming⟩
  | notFound {s : Stream β} {buffer incoming : List β} (arrived : Arrives s ⟨buffer, incoming⟩)
      (none : newline ∉ buffer) (long : limit < buffer.length) :
      ReadLine newline limit s (.tooLong buffer) ⟨[], incoming⟩
  | atEnd {s : Stream β} {buffer : List β} (arrived : Arrives s ⟨buffer, []⟩)
      (none : newline ∉ buffer) (fits : buffer.length ≤ limit) :
      ReadLine newline limit s (.line buffer) ⟨[], []⟩

/-- `read(n)`: between one and `n` buffered items, or nothing at the end of the stream. -/
inductive Read (n : ℕ) : Stream β → List β → Stream β → Prop where
  | some {s : Stream β} {chunk buffer incoming : List β}
      (arrived : Arrives s ⟨chunk ++ buffer, incoming⟩) (nonempty : chunk ≠ [])
      (bounded : chunk.length ≤ n) : Read n s chunk ⟨buffer, incoming⟩
  | atEnd : Read n ⟨[], []⟩ [] ⟨[], []⟩

theorem Read.pending {n : ℕ} {s s' : Stream β} {chunk : List β} (h : Read n s chunk s') :
    s.pending = chunk ++ s'.pending := by
  cases h with
  | some arrived nonempty bounded =>
    rw [← arrived.pending]
    simp [Stream.pending]
  | atEnd => rfl

theorem Read.eq_nil {n : ℕ} {s s' : Stream β} (h : Read n s [] s') :
    s.pending = [] ∧ s'.pending = [] := by
  cases h with
  | some arrived nonempty bounded => exact absurd rfl nonempty
  | atEnd => exact ⟨rfl, rfl⟩

theorem ReadLine.line {newline : β} {limit : ℕ} {s s' : Stream β} {text : List β}
    (h : ReadLine newline limit s (.line text) s') :
    s.pending = text ++ s'.pending ∧
      ((∃ body, text = body ++ [newline] ∧ newline ∉ body ∧ body.length ≤ limit) ∨
        (newline ∉ text ∧ s'.pending = [])) := by
  cases h with
  | found arrived first fits =>
    rw [← arrived.pending]
    exact ⟨by simp [Stream.pending], .inl ⟨_, rfl, first, fits⟩⟩
  | atEnd arrived none fits =>
    rw [← arrived.pending]
    exact ⟨by simp [Stream.pending], .inr ⟨none, rfl⟩⟩

theorem ReadLine.tooLong {newline : β} {limit : ℕ} {s s' : Stream β} {removed : List β}
    (h : ReadLine newline limit s (.tooLong removed) s') :
    s.pending = removed ++ s'.pending ∧
      ((∃ body, removed = body ++ [newline] ∧ newline ∉ body ∧ limit < body.length) ∨
        (newline ∉ removed ∧ limit < removed.length)) := by
  cases h with
  | foundTooLong arrived first long =>
    rw [← arrived.pending]
    exact ⟨by simp [Stream.pending], .inl ⟨_, rfl, first, long⟩⟩
  | notFound arrived none long =>
    rw [← arrived.pending]
    exact ⟨by simp [Stream.pending], .inr ⟨none, long⟩⟩

/-! ## Lines -/

/-- A line without its end. -/
abbrev Body (newline : β) := {body : List β // newline ∉ body}

variable {newline : β}

/-- The stream of lines that all end. -/
def unlines (lines : List (Body newline)) : List β := lines.flatMap fun line => line.1 ++ [newline]

@[simp] theorem unlines_nil : unlines ([] : List (Body newline)) = [] := rfl

@[simp] theorem unlines_cons (line : Body newline) (lines : List (Body newline)) :
    unlines (line :: lines) = line.1 ++ newline :: unlines lines := by
  simp [unlines]

theorem append_newline_inj {a b x y : List β} (ha : newline ∉ a) (hb : newline ∉ b)
    (h : a ++ newline :: x = b ++ newline :: y) : a = b ∧ x = y := by
  induction a generalizing b with
  | nil =>
    cases b with
    | nil => exact ⟨rfl, (List.cons.inj h).2⟩
    | cons c b =>
      obtain ⟨rfl, -⟩ := List.cons.inj h
      exact absurd List.mem_cons_self hb
  | cons c a ih =>
    cases b with
    | nil =>
      obtain ⟨rfl, -⟩ := List.cons.inj h
      exact absurd List.mem_cons_self ha
    | cons d b =>
      obtain ⟨rfl, hrest⟩ := List.cons.inj h
      have ha' : newline ∉ a := fun hm => ha (List.mem_cons_of_mem _ hm)
      have hb' : newline ∉ b := fun hm => hb (List.mem_cons_of_mem _ hm)
      obtain ⟨rfl, hxy⟩ := ih ha' hb' hrest
      exact ⟨rfl, hxy⟩

theorem unlines_line {lines : List (Body newline)} {body rest : List β} (hbody : newline ∉ body)
    (h : unlines lines = body ++ newline :: rest) :
    ∃ lines', lines = ⟨body, hbody⟩ :: lines' ∧ rest = unlines lines' := by
  cases lines with
  | nil => simp at h
  | cons line lines' =>
    rw [unlines_cons] at h
    obtain ⟨hline, hrest⟩ := append_newline_inj line.2 hbody h
    refine ⟨lines', ?_, hrest.symm⟩
    congr 1
    exact Subtype.ext hline

theorem unlines_part {lines : List (Body newline)} {part rest : List β} (hpart : newline ∉ part)
    (hne : part ≠ []) (h : unlines lines = part ++ rest) :
    ∃ line lines' tail, lines = line :: lines' ∧ line.1 = part ++ tail ∧ newline ∉ tail ∧
      rest = tail ++ newline :: unlines lines' := by
  cases lines with
  | nil =>
    rw [unlines_nil] at h
    exact absurd (List.append_eq_nil_iff.mp h.symm).1 hne
  | cons line lines' =>
    rw [unlines_cons] at h
    rcases List.append_eq_append_iff.mp h with ⟨tail, hpart', hrest⟩ | ⟨tail, hline, hrest⟩
    · -- The part would reach past the end of the line.
      cases tail with
      | nil =>
        refine ⟨line, lines', [], rfl, by simpa using hpart'.symm, by simp, ?_⟩
        simpa using hrest.symm
      | cons c tail =>
        obtain ⟨rfl, -⟩ := List.cons.inj hrest
        have hmem : newline ∈ part := by simp [hpart']
        exact absurd hmem hpart
    · refine ⟨line, lines', tail, rfl, hline, fun hm => line.2 (by rw [hline]; simp [hm]), hrest⟩

end StreamReader
end RepoMesh
