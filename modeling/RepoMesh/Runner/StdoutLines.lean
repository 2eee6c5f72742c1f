/-
# The lines of a driver's output

`SubprocessHandle.stdout_lines`: read lines, and after one that is too long skip forward to the next
end of a line. The reader has already dropped the long line when its end was buffered, and a chunk
that is skipped may reach past the end it is skipped for; what follows is then lost.
-/
import RepoMesh.Foundation.StreamReader

namespace RepoMesh
namespace Runner

open StreamReader

universe u

variable {β : Type u}

/-- Where `stdout_lines` is: reading a line, in `_discard_until_newline`, or returned. -/
inductive StdoutMode where
  | reading | discarding | returned
  deriving DecidableEq

/-- The generator: the stream it reads, and the lines it has yielded. -/
structure StdoutLines (β : Type u) where
  mode : StdoutMode := .reading
  stream : Stream β
  yielded : List (List β) := []

/-- What a step does. -/
inductive StdoutAction (β : Type u) where
  | yields (line : List β)
  | returns
  | raises (removed : List β)
  | discards (chunk : List β)

/-- The chunks of `_discard_until_newline`. -/
def discardChunk : ℕ := 65536

/-- One step: `readline`, or one `read` while discarding. -/
inductive StdoutLines.Step (newline : β) (limit : ℕ) :
    StdoutLines β → StdoutAction β → StdoutLines β → Prop where
  | yields {s s' : Stream β} {yielded : List (List β)} {line : List β}
      (read : ReadLine newline limit s (.line line) s') (nonempty : line ≠ []) :
      StdoutLines.Step newline limit ⟨.reading, s, yielded⟩ (.yields line)
        ⟨.reading, s', yielded ++ [line]⟩
  | returns {s s' : Stream β} {yielded : List (List β)}
      (read : ReadLine newline limit s (.line []) s') :
      StdoutLines.Step newline limit ⟨.reading, s, yielded⟩ .returns ⟨.returned, s', yielded⟩
  | raises {s s' : Stream β} {yielded : List (List β)} {removed : List β}
      (read : ReadLine newline limit s (.tooLong removed) s') :
      StdoutLines.Step newline limit ⟨.reading, s, yielded⟩ (.raises removed)
        ⟨.discarding, s', yielded⟩
  | discards {s s' : Stream β} {yielded : List (List β)} {chunk : List β}
      (read : Read discardChunk s chunk s') (goesOn : chunk ≠ [] ∧ newline ∉ chunk) :
      StdoutLines.Step newline limit ⟨.discarding, s, yielded⟩ (.discards chunk)
        ⟨.discarding, s', yielded⟩
  | stops {s s' : Stream β} {yielded : List (List β)} {chunk : List β}
      (read : Read discardChunk s chunk s') (done : chunk = [] ∨ newline ∈ chunk) :
      StdoutLines.Step newline limit ⟨.discarding, s, yielded⟩ (.discards chunk)
        ⟨.reading, s', yielded⟩

/-- The runs: the steps with the states they start in. -/
inductive StdoutLines.Run (newline : β) (limit : ℕ) (start : StdoutLines β) :
    List (StdoutLines β × StdoutAction β) → StdoutLines β → Prop where
  | nil : StdoutLines.Run newline limit start [] start
  | snoc {steps : List (StdoutLines β × StdoutAction β)} {c c' : StdoutLines β}
      {action : StdoutAction β} (before : StdoutLines.Run newline limit start steps c)
      (step : StdoutLines.Step newline limit c action c') :
      StdoutLines.Run newline limit start (steps ++ [(c, action)]) c'

/-- Before anything has arrived. -/
def StdoutLines.opened (input : List β) : StdoutLines β where
  stream := ⟨[], input⟩

/-- The lines that fit, with their ends. -/
def fitting (newline : β) (limit : ℕ) (lines : List (Body newline)) : List (List β) :=
  (lines.filter fun line => decide (line.1.length ≤ limit)).map fun line => line.1 ++ [newline]

/-- **Where nothing else is lost.** An error finds the end of its line not buffered yet, or the
stream at its end, and a chunk that is skipped does not reach past an end of a line. -/
def Harmless (newline : β) (c : StdoutLines β) : StdoutAction β → Prop
  | .raises removed => newline ∉ removed ∨ c.stream.pending = removed
  | .discards chunk => newline ∉ chunk.dropLast
  | .yields _ | .returns => True

variable {newline : β} {limit : ℕ}

theorem fitting_append (before after : List (Body newline)) :
    fitting newline limit (before ++ after) =
      fitting newline limit before ++ fitting newline limit after := by
  simp [fitting]

theorem fitting_fits {line : Body newline} (h : line.1.length ≤ limit) :
    fitting newline limit [line] = [line.1 ++ [newline]] := by
  simp [fitting, h]

theorem fitting_long {line : Body newline} (h : limit < line.1.length) :
    fitting newline limit [line] = [] := by
  simp [fitting, h]

/-- What is still to be read, beside the lines that were read or skipped: whole lines, or the rest of
a line that is too long and whole lines, or nothing. -/
def StdoutLines.Remaining (after : List (Body newline)) (c : StdoutLines β) : Prop :=
  match c.mode with
  | .reading => c.stream.pending = unlines after
  | .discarding => (c.stream.pending = [] ∧ after = []) ∨
      ∃ tail, newline ∉ tail ∧ c.stream.pending = tail ++ newline :: unlines after
  | .returned => after = []

/-- The invariant: what was yielded is what fits of the lines before. -/
def StdoutLines.Faithful (lines : List (Body newline)) (limit : ℕ) (c : StdoutLines β) : Prop :=
  ∃ before after, lines = before ++ after ∧ c.yielded = fitting newline limit before ∧
    c.Remaining after

theorem dropLast_append_of_mem {chunk : List β} {c : β} (hmem : c ∈ chunk)
    (hlast : c ∉ chunk.dropLast) : chunk = chunk.dropLast ++ [c] := by
  have hne : chunk ≠ [] := List.ne_nil_of_mem hmem
  have hsplit := List.dropLast_append_getLast hne
  have hc : c = chunk.getLast hne := by
    rw [← hsplit] at hmem
    rcases List.mem_append.mp hmem with h | h
    · exact absurd h hlast
    · exact List.mem_singleton.mp h
  rw [hc]
  exact hsplit.symm

/-- One step that loses nothing else. -/
theorem StdoutLines.Faithful.step {lines : List (Body newline)} {c c' : StdoutLines β}
    {action : StdoutAction β} (h : c.Faithful lines limit) (hharmless : Harmless newline c action)
    (hstep : StdoutLines.Step newline limit c action c') : c'.Faithful lines limit := by
  obtain ⟨before, after, rfl, hyielded, hremaining⟩ := h
  cases hstep with
  | @yields s s' yielded line read nonempty =>
    have hpending : s.pending = unlines after := hremaining
    obtain ⟨hread, hline⟩ := read.line
    rcases hline with ⟨body, rfl, hbody, hfits⟩ | ⟨hnone, hend⟩
    · rw [hpending, List.append_assoc, List.singleton_append] at hread
      obtain ⟨after', rfl, hrest⟩ := unlines_line hbody hread
      refine ⟨before ++ [⟨body, hbody⟩], after', by simp, ?_, hrest⟩
      have hself : fitting newline limit [⟨body, hbody⟩] = [body ++ [newline]] := fitting_fits hfits
      show yielded ++ [body ++ [newline]] = fitting newline limit (before ++ [⟨body, hbody⟩])
      rw [fitting_append, hself]
      exact congrArg (· ++ [body ++ [newline]]) hyielded
    · -- The stream ends with an end of a line.
      rw [hpending] at hread
      obtain ⟨line', after', tail, -, -, -, hrest⟩ := unlines_part hnone nonempty hread
      rw [hend] at hrest
      exact absurd hrest.symm (by simp)
  | @returns s s' yielded read =>
    have hpending : s.pending = unlines after := hremaining
    obtain ⟨hread, hline⟩ := read.line
    rcases hline with ⟨body, hbody, -⟩ | ⟨-, hend⟩
    · exact absurd hbody (by simp)
    · rw [hpending, hend] at hread
      refine ⟨before, after, rfl, hyielded, ?_⟩
      show after = []
      cases after with
      | nil => rfl
      | cons line after => simp at hread
  | @raises s s' yielded removed read =>
    have hpending : s.pending = unlines after := hremaining
    obtain ⟨hread, hremoved⟩ := read.tooLong
    rcases hremoved with ⟨body, rfl, hbody, hlong⟩ | ⟨hnone, hlong⟩
    · -- The long line is gone with its end; the stream has to be at its end as well.
      have hall : s.pending = body ++ [newline] := by
        rcases hharmless with hno | hall
        · exact absurd (by simp) hno
        · exact hall
      have hend : s'.pending = [] := by
        rw [hall] at hread
        exact List.self_eq_append_right.mp hread
      rw [hpending, List.append_assoc, List.singleton_append] at hread
      obtain ⟨after', rfl, hrest⟩ := unlines_line hbody hread
      have hself : fitting newline limit [⟨body, hbody⟩] = [] := fitting_long hlong
      have hnil : after' = [] := by
        cases after' with
        | nil => rfl
        | cons line after' => rw [hend] at hrest; simp at hrest
      refine ⟨before ++ [⟨body, hbody⟩], after', by simp, ?_, .inl ⟨hend, hnil⟩⟩
      show yielded = fitting newline limit (before ++ [⟨body, hbody⟩])
      rw [fitting_append, hself, List.append_nil]
      exact hyielded
    · have hne : removed ≠ [] := by
        rintro rfl
        simp at hlong
      rw [hpending] at hread
      obtain ⟨line, after', tail, rfl, hline, htail, hrest⟩ := unlines_part hnone hne hread
      have hself : fitting newline limit [line] = [] := by
        refine fitting_long ?_
        rw [hline, List.length_append]
        omega
      refine ⟨before ++ [line], after', by simp, ?_, .inr ⟨tail, htail, hrest⟩⟩
      show yielded = fitting newline limit (before ++ [line])
      rw [fitting_append, hself, List.append_nil]
      exact hyielded
  | @discards s s' yielded chunk read goesOn =>
    obtain ⟨hne, hnone⟩ := goesOn
    have hread := read.pending
    refine ⟨before, after, rfl, hyielded, ?_⟩
    rcases hremaining with ⟨hend, hafter⟩ | ⟨tail, htail, hpending⟩
    · have hend' : s.pending = [] := hend
      rw [hend'] at hread
      exact absurd (List.append_eq_nil_iff.mp hread.symm).1 hne
    · have hpending' : s.pending = tail ++ newline :: unlines after := hpending
      rw [hpending'] at hread
      rcases List.append_eq_append_iff.mp hread with ⟨rest, hchunk, hrest⟩ | ⟨rest, htail', hrest⟩
      · cases rest with
        | nil => exact .inr ⟨[], by simp, by simpa using hrest.symm⟩
        | cons d rest =>
          obtain ⟨rfl, -⟩ := List.cons.inj hrest
          have hmem : newline ∈ chunk := by simp [hchunk]
          exact absurd hmem hnone
      · have hrest' : newline ∉ rest := fun hm => htail (by simp [htail', hm])
        exact .inr ⟨rest, hrest', hrest⟩
  | @stops s s' yielded chunk read done =>
    have hread := read.pending
    refine ⟨before, after, rfl, hyielded, ?_⟩
    show s'.pending = unlines after
    rcases hremaining with ⟨hend, rfl⟩ | ⟨tail, htail, hpending⟩
    · have hend' : s.pending = [] := hend
      rw [hend'] at hread
      exact (List.append_eq_nil_iff.mp hread.symm).2
    · have hpending' : s.pending = tail ++ newline :: unlines after := hpending
      rcases done with rfl | hmem
      · have hnil := read.eq_nil.1
        rw [hpending'] at hnil
        exact absurd hnil (by simp)
      · -- The chunk ends where the long line ends.
        have hchunk := dropLast_append_of_mem hmem hharmless
        rw [hpending', hchunk, List.append_assoc, List.singleton_append] at hread
        exact (append_newline_inj htail hharmless hread).2.symm

/-! ## Every run ends -/

/-- What is left to do: each step makes it less. -/
def StdoutLines.weight (c : StdoutLines β) : ℕ :=
  2 * c.stream.pending.length +
    match c.mode with
    | .reading => 1
    | .discarding => 2
    | .returned => 0

theorem StdoutLines.Step.weight_lt {c c' : StdoutLines β} {action : StdoutAction β}
    (h : StdoutLines.Step newline limit c action c') : c'.weight < c.weight := by
  cases h with
  | @yields s s' yielded line read nonempty =>
    have hread := congrArg List.length read.line.1
    have hline : 0 < line.length := List.length_pos_iff.mpr nonempty
    rw [List.length_append] at hread
    simp only [StdoutLines.weight]
    omega
  | @returns s s' yielded read =>
    have hread := congrArg List.length read.line.1
    simp only [List.nil_append] at hread
    simp only [StdoutLines.weight]
    omega
  | @raises s s' yielded removed read =>
    obtain ⟨hread, hremoved⟩ := read.tooLong
    have hpos : 0 < removed.length := by
      rcases hremoved with ⟨body, rfl, -, -⟩ | ⟨-, hlong⟩
      · simp
      · omega
    have hlength := congrArg List.length hread
    rw [List.length_append] at hlength
    simp only [StdoutLines.weight]
    omega
  | @discards s s' yielded chunk read goesOn =>
    have hread := congrArg List.length read.pending
    have hchunk : 0 < chunk.length := List.length_pos_iff.mpr goesOn.1
    rw [List.length_append] at hread
    simp only [StdoutLines.weight]
    omega
  | @stops s s' yielded chunk read done =>
    have hread := congrArg List.length read.pending
    rw [List.length_append] at hread
    simp only [StdoutLines.weight]
    omega

theorem StdoutLines.Run.length_le {start c : StdoutLines β}
    {steps : List (StdoutLines β × StdoutAction β)} (h : StdoutLines.Run newline limit start steps c) :
    steps.length + c.weight ≤ start.weight := by
  induction h with
  | nil => simp
  | snoc before step ih =>
    have hlt := step.weight_lt
    rw [List.length_append, List.length_singleton]
    omega

theorem StdoutLines.exists_step (newline : β) (limit : ℕ) {c : StdoutLines β}
    (h : c.mode ≠ .returned) : ∃ action c', StdoutLines.Step newline limit c action c' := by
  classical
  obtain ⟨mode, ⟨buffer, incoming⟩, yielded⟩ := c
  have harrives : Arrives ⟨buffer, incoming⟩ ⟨buffer ++ incoming, []⟩ := by
    simpa using Arrives.chunk buffer incoming []
  generalize hall : buffer ++ incoming = all at harrives
  cases mode with
  | returned => exact absurd rfl h
  | reading =>
    by_cases hmem : newline ∈ all
    · obtain ⟨body, rest, rfl, hbody⟩ := List.eq_append_cons_of_mem hmem
      by_cases hlong : limit < body.length
      · exact ⟨_, _, .raises (.foundTooLong harrives hbody hlong)⟩
      · exact ⟨_, _, .yields (.found harrives hbody (Nat.not_lt.mp hlong)) (by simp)⟩
    · by_cases hlong : limit < all.length
      · exact ⟨_, _, .raises (.notFound harrives hmem hlong)⟩
      · by_cases hnil : all = []
        · subst hnil
          exact ⟨_, _, .returns (.atEnd harrives hmem (by simp))⟩
        · exact ⟨_, _, .yields (.atEnd harrives hmem (Nat.not_lt.mp hlong)) hnil⟩
  | discarding =>
    cases all with
    | nil =>
      obtain ⟨rfl, rfl⟩ := List.append_eq_nil_iff.mp hall
      exact ⟨_, _, .stops .atEnd (.inl rfl)⟩
    | cons b rest =>
      have hread : Read discardChunk ⟨buffer, incoming⟩ [b] ⟨rest, []⟩ :=
        .some harrives (by simp) (by simp [discardChunk])
      by_cases hb : newline = b
      · exact ⟨_, _, .stops hread (.inr (by simp [hb]))⟩
      · exact ⟨_, _, .discards hread ⟨by simp, by simpa using hb⟩⟩

/-! ## What is yielded -/

/-- **An oversized line costs only itself**, in a run of steps that lose nothing else: what was
yielded are the lines that fit of those before, and of all of them when the generator returns, which
it does after boundedly many steps. -/
theorem stdoutLines_fitting {lines : List (Body newline)} {limit : ℕ} {c : StdoutLines β}
    {steps : List (StdoutLines β × StdoutAction β)}
    (h : StdoutLines.Run newline limit (.opened (unlines lines)) steps c)
    (hharmless : ∀ e ∈ steps, Harmless newline e.1 e.2) :
    c.yielded <+: fitting newline limit lines ∧
      (c.mode = .returned → c.yielded = fitting newline limit lines) ∧
      (c.mode ≠ .returned → ∃ action c', StdoutLines.Step newline limit c action c') ∧
      steps.length ≤ 2 * (unlines lines).length + 1 := by
  have hfaithful : c.Faithful lines limit := by
    induction h with
    | nil => exact ⟨[], lines, rfl, rfl, rfl⟩
    | @snoc steps c c' action before step ih =>
      have hbefore := ih fun e he => hharmless e (List.mem_append_left _ he)
      have hlast : Harmless newline c action :=
        hharmless (c, action) (List.mem_append_right _ (List.mem_singleton_self _))
      exact hbefore.step hlast step
  have hlength := h.length_le
  have hstart : (StdoutLines.opened (unlines lines)).weight = 2 * (unlines lines).length + 1 := rfl
  obtain ⟨before, after, rfl, hyielded, hremaining⟩ := hfaithful
  refine ⟨?_, fun hmode => ?_, StdoutLines.exists_step newline limit, by omega⟩
  · rw [fitting_append, hyielded]
    exact List.prefix_append _ _
  · have hafter : after = [] := by
      simpa [StdoutLines.Remaining, hmode] using hremaining
    rw [hyielded, hafter, List.append_nil]

/-! ## Two runs -/

namespace OversizedLine

/-- A line of three and a line of one; two fit. -/
def lines : List (Body 10) := [⟨[97, 97, 97], by decide⟩, ⟨[98], by decide⟩]

theorem ended : ReadLine 10 2 (⟨[], []⟩ : Stream ℕ) (.line []) ⟨[], []⟩ :=
  .atEnd (.chunk [] [] []) (by decide) (by decide)

theorem apart : StdoutLines.Run 10 2 (.opened (unlines lines))
    [(⟨.reading, ⟨[], [97, 97, 97, 10, 98, 10]⟩, []⟩, .raises [97, 97, 97]),
      (⟨.discarding, ⟨[], [10, 98, 10]⟩, []⟩, .discards [10]),
      (⟨.reading, ⟨[], [98, 10]⟩, []⟩, .yields [98, 10]),
      (⟨.reading, ⟨[], []⟩, [[98, 10]]⟩, .returns)] ⟨.returned, ⟨[], []⟩, [[98, 10]]⟩ := by
  have raises : StdoutLines.Step 10 2 ⟨.reading, ⟨[], [97, 97, 97, 10, 98, 10]⟩, []⟩
      (.raises [97, 97, 97]) ⟨.discarding, ⟨[], [10, 98, 10]⟩, []⟩ :=
    .raises (.notFound (.chunk [] [97, 97, 97] _) (by decide) (by decide))
  have stops : StdoutLines.Step 10 2 ⟨.discarding, ⟨[], [10, 98, 10]⟩, []⟩ (.discards [10])
      ⟨.reading, ⟨[], [98, 10]⟩, []⟩ :=
    .stops (.some (.chunk [] [10] _) (by decide) (by decide)) (.inr (by decide))
  have yields : StdoutLines.Step 10 2 ⟨.reading, ⟨[], [98, 10]⟩, []⟩ (.yields [98, 10])
      ⟨.reading, ⟨[], []⟩, [[98, 10]]⟩ :=
    .yields (@ReadLine.found _ 10 2 _ [98] [] [] (.chunk [] [98, 10] []) (by decide) (by decide))
      (by decide)
  have returns : StdoutLines.Step 10 2 ⟨.reading, ⟨[], []⟩, [[98, 10]]⟩ .returns
      ⟨.returned, ⟨[], []⟩, [[98, 10]]⟩ :=
    .returns ended
  exact (((StdoutLines.Run.nil.snoc raises).snoc stops).snoc yields).snoc returns

theorem together : StdoutLines.Run 10 2 (.opened (unlines lines))
    [(⟨.reading, ⟨[], [97, 97, 97, 10, 98, 10]⟩, []⟩, .raises [97, 97, 97, 10]),
      (⟨.discarding, ⟨[98, 10], []⟩, []⟩, .discards [98, 10]),
      (⟨.reading, ⟨[], []⟩, []⟩, .returns)] ⟨.returned, ⟨[], []⟩, []⟩ := by
  have raises : StdoutLines.Step 10 2 ⟨.reading, ⟨[], [97, 97, 97, 10, 98, 10]⟩, []⟩
      (.raises [97, 97, 97, 10]) ⟨.discarding, ⟨[98, 10], []⟩, []⟩ :=
    .raises (@ReadLine.foundTooLong _ 10 2 _ [97, 97, 97] [98, 10] []
      (.chunk [] [97, 97, 97, 10, 98, 10] []) (by decide) (by decide))
  have stops : StdoutLines.Step 10 2 ⟨.discarding, ⟨[98, 10], []⟩, []⟩ (.discards [98, 10])
      ⟨.reading, ⟨[], []⟩, []⟩ :=
    .stops (.some (.chunk [98, 10] [] []) (by decide) (by decide)) (.inr (by decide))
  have returns : StdoutLines.Step 10 2 ⟨.reading, ⟨[], []⟩, []⟩ .returns ⟨.returned, ⟨[], []⟩, []⟩ :=
    .returns ended
  exact ((StdoutLines.Run.nil.snoc raises).snoc stops).snoc returns

end OversizedLine

open OversizedLine in
/-- The line after a long one whose end arrives alone is yielded. -/
theorem stdoutLines_fitting_sample :
    (⟨.returned, ⟨[], []⟩, [[98, 10]]⟩ : StdoutLines ℕ).yielded = fitting 10 2 lines := by
  have hharmless := stdoutLines_fitting apart (by simp [Harmless])
  exact hharmless.2.1 rfl

open OversizedLine in
/-- The line after a long one that arrives with it is lost. -/
theorem next_line_lost : ¬ ∀ (lines : List (Body 10)) (limit : ℕ) (c : StdoutLines ℕ)
    (steps : List (StdoutLines ℕ × StdoutAction ℕ)),
    StdoutLines.Run 10 limit (.opened (unlines lines)) steps c → c.mode = .returned →
      c.yielded = fitting 10 limit lines := by
  intro h
  have hlost := h lines 2 _ _ together rfl
  revert hlost
  decide

end Runner
end RepoMesh
