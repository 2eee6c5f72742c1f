/-
# A backlog that is read from its oldest end

A queue of items of which each round looks at the oldest ones that are not handled yet, up to a
limit. An item may be passed over, which leaves it where it is, or it is taken, which may fail and
then ends the round. So an item is handled in some round exactly when fewer items than the limit are
passed over in front of it and none in front of it fails.
-/
import Mathlib.Data.List.Infix
import Mathlib.Logic.Function.Iterate

namespace RepoMesh
namespace Backlog

universe u v

variable {α : Type u} {σ : Type v}

section Pass

variable (skip : α → Bool) (take : σ → α → Option σ)

/-- One pass over items: those to skip are passed over, and a failure ends it. -/
def pass : List α → σ → σ
  | [], s => s
  | x :: xs, s =>
    if skip x then pass xs s
    else
      match take s x with
      | none => s
      | some s' => pass xs s'

/-- All of the items are taken that are not to be skipped. -/
def landed : List α → σ → σ
  | [], s => s
  | x :: xs, s => if skip x then landed xs s else landed xs ((take s x).getD s)

/-- No item fails when the ones in front of it have been taken. -/
def Clear (s : σ) (xs : List α) : Prop :=
  ∀ before x after, xs = before ++ x :: after → skip x = false →
    (take (landed skip take before s) x).isSome = true

variable {skip take}

theorem landed_append (xs ys : List α) (s : σ) :
    landed skip take (xs ++ ys) s = landed skip take ys (landed skip take xs s) := by
  induction xs generalizing s with
  | nil => rfl
  | cons x xs ih =>
    simp only [List.cons_append, landed]
    split_ifs <;> exact ih _

theorem clear_nil (s : σ) : Clear skip take s [] := by
  intro before x after h
  simp at h

theorem clear_cons {s : σ} {x : α} {xs : List α} :
    Clear skip take s (x :: xs) ↔ (skip x = false → (take s x).isSome = true) ∧
      Clear skip take (landed skip take [x] s) xs := by
  constructor
  · intro h
    refine ⟨fun hx => h [] x xs rfl hx, ?_⟩
    intro before y after heq hy
    have hclear := h (x :: before) y after (by rw [heq, List.cons_append]) hy
    rwa [← List.singleton_append, landed_append] at hclear
  · rintro ⟨hx, hxs⟩ before y after heq hy
    cases before with
    | nil =>
      obtain ⟨rfl, -⟩ := List.cons.inj heq
      exact hx hy
    | cons z before =>
      obtain ⟨rfl, hrest⟩ := List.cons.inj heq
      rw [← List.singleton_append, landed_append]
      exact hxs before y after hrest hy

theorem Clear.append {s : σ} {xs ys : List α} (hxs : Clear skip take s xs)
    (hys : Clear skip take (landed skip take xs s) ys) : Clear skip take s (xs ++ ys) := by
  induction xs generalizing s with
  | nil => exact hys
  | cons x xs ih =>
    rw [clear_cons] at hxs
    rw [List.cons_append, clear_cons]
    rw [← List.singleton_append, landed_append] at hys
    exact ⟨hxs.1, ih hxs.2 hys⟩

theorem Clear.left {s : σ} {xs ys : List α} (h : Clear skip take s (xs ++ ys)) :
    Clear skip take s xs := by
  intro before x after heq hx
  exact h before x (after ++ ys) (by rw [heq, List.append_assoc, List.cons_append]) hx

/-- An item that fails. -/
def Fails (skip : α → Bool) (take : σ → α → Option σ) (s : σ) (x : α) : Prop :=
  skip x = false ∧ take s x = none

/-- **One pass.** It takes the items in front of the first that fails. -/
theorem pass_eq (xs : List α) (s : σ) : ∃ front rest, xs = front ++ rest ∧
    pass skip take xs s = landed skip take front s ∧ Clear skip take s front ∧
      ∀ x ∈ rest.head?, Fails skip take (landed skip take front s) x := by
  induction xs generalizing s with
  | nil => exact ⟨[], [], rfl, rfl, clear_nil s, by simp⟩
  | cons x xs ih =>
    by_cases hx : skip x = true
    · obtain ⟨front, rest, rfl, hpass, hclear, hstop⟩ := ih s
      refine ⟨x :: front, rest, rfl, ?_, ?_, ?_⟩
      · rw [pass, if_pos hx, hpass, landed, if_pos hx]
      · rw [clear_cons, landed, if_pos hx]
        exact ⟨fun h => absurd (hx.symm.trans h) (by simp), hclear⟩
      · rw [landed, if_pos hx]
        exact hstop
    · have hskip : skip x = false := by simpa using hx
      cases htake : take s x with
      | none =>
        refine ⟨[], x :: xs, rfl, ?_, clear_nil s, ?_⟩
        · rw [pass, if_neg hx, htake]
          rfl
        · simpa using ⟨hskip, htake⟩
      | some s' =>
        obtain ⟨front, rest, rfl, hpass, hclear, hstop⟩ := ih s'
        refine ⟨x :: front, rest, rfl, ?_, ?_, ?_⟩
        · rw [pass, if_neg hx, htake, landed, if_neg hx, htake]
          exact hpass
        · rw [clear_cons, landed, if_neg hx, htake]
          exact ⟨fun _ => rfl, hclear⟩
        · rw [landed, if_neg hx, htake]
          exact hstop

theorem pass_skipped {xs : List α} (h : ∀ x ∈ xs, skip x = true) (ys : List α) (s : σ) :
    pass skip take (xs ++ ys) s = pass skip take ys s := by
  induction xs with
  | nil => rfl
  | cons x xs ih =>
    rw [List.cons_append, pass, if_pos (h x (by simp))]
    exact ih fun y hy => h y (by simp [hy])

end Pass

section Rounds

variable (skip : α → Bool) (take : σ → α → Option σ) (done : σ → α → Bool) (queue : List α)
  (limit : ℕ)

/-- One round: a pass over the oldest items that are not handled. -/
def round (s : σ) : σ := pass skip take ((queue.filter fun x => !done s x).take limit) s

/-- Taking an item handles it and nothing else. -/
def Handles : Prop :=
  ∀ s s' x, x ∈ queue → skip x = false → take s x = some s' →
    ∀ y ∈ queue, done s' y = true ↔ done s y = true ∨ y = x

variable {skip take done queue limit} {s₀ : σ}

theorem done_landed (h : Handles skip take done queue) {xs : List α} (hsub : ∀ x ∈ xs, x ∈ queue) {s : σ}
    (hclear : Clear skip take s xs) {y : α} (hy : y ∈ queue) :
    done (landed skip take xs s) y = true ↔ done s y = true ∨ y ∈ xs ∧ skip y = false := by
  induction xs generalizing s with
  | nil => simp [landed]
  | cons x xs ih =>
    rw [clear_cons] at hclear
    have hrest := ih (fun z hz => hsub z (by simp [hz])) hclear.2
    rw [← List.singleton_append, landed_append, hrest]
    by_cases hx : skip x = true
    · have hsame : landed skip take [x] s = s := by rw [landed, if_pos hx, landed]
      rw [hsame]
      constructor
      · rintro (hdone | hmem)
        · exact Or.inl hdone
        · exact Or.inr ⟨by simp [hmem.1], hmem.2⟩
      · rintro (hdone | ⟨hmem, hskip⟩)
        · exact Or.inl hdone
        · rcases List.mem_cons.mp hmem with rfl | hmem
          · rw [hx] at hskip
            cases hskip
          · exact Or.inr ⟨hmem, hskip⟩
    · have hskip : skip x = false := by simpa using hx
      obtain ⟨s', hs'⟩ := Option.isSome_iff_exists.mp (hclear.1 hskip)
      have hnext : landed skip take [x] s = s' := by
        rw [landed, if_neg hx, hs', landed]
        rfl
      rw [hnext, h s s' x (hsub x (by simp)) hskip hs' y hy]
      constructor
      · rintro ((hdone | rfl) | hmem)
        · exact Or.inl hdone
        · exact Or.inr ⟨by simp, hskip⟩
        · exact Or.inr ⟨by simp [hmem.1], hmem.2⟩
      · rintro (hdone | ⟨hmem, hyskip⟩)
        · exact Or.inl (Or.inl hdone)
        · rcases List.mem_cons.mp hmem with rfl | hmem
          · exact Or.inl (Or.inr rfl)
          · exact Or.inr ⟨hmem, hyskip⟩

/-- How many items are passed over. -/
def skipped (skip : α → Bool) (xs : List α) : ℕ := (xs.filter skip).length

/-- What the rounds have come to: the front of the queue, of which everything has been taken that is
not to be skipped, with fewer items than the limit passed over in front of each. -/
structure Reached (skip : α → Bool) (take : σ → α → Option σ) (limit : ℕ) (s₀ : σ)
    (front : List α) : Prop where
  clear : Clear skip take s₀ front
  within : ∀ before x after, front = before ++ x :: after → skip x = false →
    skipped skip before < limit

/-- Where the rounds come to a stop. -/
def Stuck (skip : α → Bool) (take : σ → α → Option σ) (limit : ℕ) (s : σ) (front rest : List α) :
    Prop :=
  limit ≤ skipped skip front ∨ ∀ x ∈ rest.head?, Fails skip take s x

theorem unhandled (h : Handles skip take done queue) (hnodup : queue.Nodup)
    (hnew : ∀ x ∈ queue, done s₀ x = false) {front rest : List α} (hqueue : queue = front ++ rest)
    (hclear : Clear skip take s₀ front) :
    (queue.filter fun x => !done (landed skip take front s₀) x) = front.filter skip ++ rest := by
  have hsub : ∀ x ∈ front, x ∈ queue := fun x hx => by simp [hqueue, hx]
  have hfront : (front.filter fun x => !done (landed skip take front s₀) x) = front.filter skip := by
    refine List.filter_congr fun x hx => ?_
    have hdone := done_landed h hsub hclear (hsub x hx)
    rw [hnew x (hsub x hx)] at hdone
    cases hx' : skip x <;> simp_all
  have hrest : (rest.filter fun x => !done (landed skip take front s₀) x) = rest := by
    rw [List.filter_eq_self]
    intro x hx
    have hmem : x ∈ queue := by simp [hqueue, hx]
    have hdone := done_landed h hsub hclear hmem
    have hnot : x ∉ front := by
      intro hfront'
      rw [hqueue] at hnodup
      exact (List.nodup_append.mp hnodup).2.2 x hfront' x hx rfl
    rw [hnew x hmem] at hdone
    simpa [hnot] using hdone
  have hsplit := List.filter_append (p := fun x => !done (landed skip take front s₀) x) front rest
  rw [← hqueue, hfront, hrest] at hsplit
  exact hsplit

theorem take_limit (skips rest : List α) (limit : ℕ) :
    (skips ++ rest).take limit = skips.take limit ++ rest.take (limit - skips.length) :=
  List.take_append

/-- **One round.** It gets further, or it is stuck and changes nothing. -/
theorem round_reached (h : Handles skip take done queue) (hnodup : queue.Nodup)
    (hnew : ∀ x ∈ queue, done s₀ x = false) {front rest : List α} (hqueue : queue = front ++ rest)
    (hreached : Reached skip take limit s₀ front) :
    ∃ more rest', rest = more ++ rest' ∧ Reached skip take limit s₀ (front ++ more) ∧
      round skip take done queue limit (landed skip take front s₀)
        = landed skip take (front ++ more) s₀ ∧
      (more = [] → Stuck skip take limit (landed skip take front s₀) front rest) := by
  have hwindow := unhandled h hnodup hnew hqueue hreached.clear
  have hskips : ∀ x ∈ (front.filter skip).take limit, skip x = true := by
    intro x hx
    exact (List.mem_filter.mp (List.mem_of_mem_take hx)).2
  obtain ⟨more, left, hsplit, hpass, hclear, hstop⟩ := @pass_eq _ _ skip take
    (rest.take (limit - skipped skip front)) (landed skip take front s₀)
  have hrest : rest = more ++ (left ++ rest.drop (limit - skipped skip front)) := by
    rw [← List.append_assoc, ← hsplit, List.take_append_drop]
  have hlen : more.length ≤ limit - skipped skip front := by
    have hle := congrArg List.length hsplit
    rw [List.length_take, List.length_append] at hle
    omega
  refine ⟨more, _, hrest, ⟨hreached.clear.append hclear, ?_⟩, ?_, ?_⟩
  · intro before x after heq hx
    rcases List.append_eq_append_iff.mp heq with ⟨gap, hbefore, hmore⟩ | ⟨gap, hfront, hafter⟩
    · -- an item of this round: what is passed over in front of it is in the window with it
      have hgap : skipped skip gap ≤ gap.length := List.length_filter_le _ _
      have hsum : skipped skip before = skipped skip front + skipped skip gap := by
        rw [hbefore, skipped, List.filter_append, List.length_append, skipped, skipped]
      rw [hmore, List.length_append, List.length_cons] at hlen
      omega
    · cases gap with
      | nil =>
        rw [List.append_nil] at hfront
        rw [List.nil_append] at hafter
        rw [← hafter, List.length_cons, hfront] at hlen
        omega
      | cons y gap =>
        rw [List.cons_append] at hafter
        obtain ⟨rfl, -⟩ := List.cons.inj hafter
        exact hreached.within before x gap hfront hx
  · rw [round, hwindow, take_limit, pass_skipped hskips, landed_append]
    exact hpass
  · rintro rfl
    by_cases hlimit : limit ≤ skipped skip front
    · exact Or.inl hlimit
    · have hleft : left.head? = rest.head? := by
        rw [List.nil_append] at hsplit
        rw [← hsplit, List.head?_take, if_neg (by omega)]
      rw [hleft] at hstop
      exact Or.inr hstop

theorem iterate_reached (h : Handles skip take done queue) (hnodup : queue.Nodup)
    (hnew : ∀ x ∈ queue, done s₀ x = false) (n : ℕ) :
    ∃ front rest, queue = front ++ rest ∧ Reached skip take limit s₀ front ∧
      (round skip take done queue limit)^[n] s₀ = landed skip take front s₀ := by
  induction n with
  | zero =>
    refine ⟨[], queue, rfl, ⟨clear_nil s₀, ?_⟩, rfl⟩
    intro before x after heq
    simp at heq
  | succ n ih =>
    obtain ⟨front, rest, hqueue, hreached, hstate⟩ := ih
    obtain ⟨more, rest', rfl, hreached', hround, -⟩ := round_reached h hnodup hnew hqueue hreached
    refine ⟨front ++ more, rest', by rw [hqueue, List.append_assoc], hreached', ?_⟩
    rw [Function.iterate_succ_apply', hstate, hround]

/-- **The rounds come to a stop**, where a further round changes nothing. -/
theorem exists_stuck (h : Handles skip take done queue) (hnodup : queue.Nodup)
    (hnew : ∀ x ∈ queue, done s₀ x = false) :
    ∃ n front rest, queue = front ++ rest ∧ Reached skip take limit s₀ front ∧
      (round skip take done queue limit)^[n] s₀ = landed skip take front s₀ ∧
      Stuck skip take limit (landed skip take front s₀) front rest ∧
      round skip take done queue limit (landed skip take front s₀) = landed skip take front s₀ := by
  -- induction on what is left of the queue: a round that is not stuck takes some of it
  suffices hgo : ∀ k n front rest, rest.length ≤ k → queue = front ++ rest →
      Reached skip take limit s₀ front →
      (round skip take done queue limit)^[n] s₀ = landed skip take front s₀ →
      ∃ n front rest, queue = front ++ rest ∧ Reached skip take limit s₀ front ∧
        (round skip take done queue limit)^[n] s₀ = landed skip take front s₀ ∧
        Stuck skip take limit (landed skip take front s₀) front rest ∧
        round skip take done queue limit (landed skip take front s₀)
          = landed skip take front s₀ by
    obtain ⟨front, rest, hqueue, hreached, hstate⟩ := @iterate_reached _ _ skip take done queue limit
      s₀ h hnodup hnew 0
    exact hgo rest.length 0 front rest le_rfl hqueue hreached hstate
  intro k
  induction k with
  | zero =>
    intro n front rest hlen hqueue hreached hstate
    have hrest : rest = [] := List.eq_nil_of_length_eq_zero (by omega)
    subst hrest
    obtain ⟨more, rest', hnil, -, hround, hstuck⟩ := round_reached h hnodup hnew hqueue hreached
    obtain ⟨rfl, -⟩ := List.append_eq_nil_iff.mp hnil.symm
    rw [List.append_nil] at hround
    exact ⟨n, front, [], hqueue, hreached, hstate, hstuck rfl, hround⟩
  | succ k ih =>
    intro n front rest hlen hqueue hreached hstate
    obtain ⟨more, rest', rfl, hreached', hround, hstuck⟩ :=
      round_reached h hnodup hnew hqueue hreached
    by_cases hmore : more = []
    · subst hmore
      rw [List.append_nil] at hround
      exact ⟨n, front, rest', hqueue, hreached, hstate, hstuck rfl, hround⟩
    · have hpos : 0 < more.length := List.length_pos_of_ne_nil hmore
      rw [List.length_append] at hlen
      refine ih (n + 1) (front ++ more) rest' (by omega) (by rw [hqueue, List.append_assoc])
        hreached' ?_
      rw [Function.iterate_succ_apply', hstate, hround]

theorem reach_of_handled (h : Handles skip take done queue) (hnodup : queue.Nodup)
    (hnew : ∀ x ∈ queue, done s₀ x = false) {before : List α} {x : α} {after : List α}
    (hqueue : queue = before ++ x :: after) (hskip : skip x = false) {n : ℕ}
    (hdone : done ((round skip take done queue limit)^[n] s₀) x = true) :
    skipped skip before < limit ∧ Clear skip take s₀ before := by
  have hx : x ∈ queue := by simp [hqueue]
  obtain ⟨front, rest, hfront, hreached, hstate⟩ :=
    @iterate_reached _ _ skip take done queue limit s₀ h hnodup hnew n
  have hsub : ∀ y ∈ front, y ∈ queue := fun y hy => by simp [hfront, hy]
  rw [hstate, done_landed h hsub hreached.clear hx, hnew x hx] at hdone
  have hmem : x ∈ front := by simpa using hdone.elim (fun hf => absurd hf (by simp)) And.left
  obtain ⟨before', after', rfl⟩ := List.append_of_mem hmem
  have hsame : before = before' := by
    have heq : before ++ x :: after = before' ++ x :: (after' ++ rest) := by
      rw [← hqueue, hfront, List.append_assoc, List.cons_append]
    rw [hqueue, List.nodup_append] at hnodup
    have hnotBefore : x ∉ before := fun hb => hnodup.2.2 x hb x (by simp) rfl
    have hnotAfter : x ∉ after := (List.nodup_cons.mp hnodup.2.1).1
    exact ((List.append_cons_inj_of_notMem hnotBefore hnotAfter).mp heq).1
  subst hsame
  exact ⟨hreached.within before x after' rfl hskip, hreached.clear.left⟩

theorem mem_front_of_stuck {front rest before : List α} {x : α} {after : List α}
    (hqueue : front ++ rest = before ++ x :: after)
    (hsafe : (take (landed skip take front s₀) x).isSome = true)
    (hstuck : Stuck skip take limit (landed skip take front s₀) front rest)
    (hwithin : skipped skip before < limit) (hclear : Clear skip take s₀ before) : x ∈ front := by
  have hsafe' : ¬ Fails skip take (landed skip take front s₀) x := by
    rintro ⟨-, hnone⟩
    rw [hnone] at hsafe
    cases hsafe
  rcases List.append_eq_append_iff.mp hqueue.symm with ⟨gap, hlong, hgap⟩ | ⟨gap, hshort, hgap⟩
  · cases gap with
    | nil =>
      rw [List.append_nil] at hlong
      rw [List.nil_append] at hgap
      rw [← hgap] at hstuck
      rcases hstuck with hlimit | hfails
      · rw [hlong] at hlimit
        omega
      · exact absurd (hfails x rfl) hsafe'
    | cons y gap =>
      rw [List.cons_append] at hgap
      obtain ⟨rfl, -⟩ := List.cons.inj hgap
      simp [hlong]
  · exfalso
    rcases hstuck with hlimit | hfails
    · have hsum : skipped skip before = skipped skip front + skipped skip gap := by
        rw [hshort, skipped, List.filter_append, List.length_append, skipped, skipped]
      omega
    · cases gap with
      | nil =>
        rw [List.nil_append] at hgap
        exact hsafe' (hfails x (by rw [hgap]; rfl))
      | cons y gap =>
        obtain ⟨hyskip, hnone⟩ := hfails y (by rw [hgap]; rfl)
        have hsome := hclear front y gap hshort hyskip
        rw [hnone] at hsome
        cases hsome

theorem iterate_settled {f : σ → σ} {s : σ} {n : ℕ} (hfix : f (f^[n] s) = f^[n] s) :
    ∀ m, n ≤ m → f^[m] s = f^[n] s := by
  intro m hm
  obtain ⟨k, rfl⟩ := Nat.exists_eq_add_of_le hm
  induction k with
  | zero => rfl
  | succ k ih =>
    have hk := ih (Nat.le_add_right n k)
    rw [← Nat.add_assoc, Function.iterate_succ_apply', hk, hfix]

/-- **The rounds settle.** -/
theorem settles (h : Handles skip take done queue) (hnodup : queue.Nodup)
    (hnew : ∀ x ∈ queue, done s₀ x = false) :
    ∃ n, ∀ m, n ≤ m →
      (round skip take done queue limit)^[m] s₀ = (round skip take done queue limit)^[n] s₀ := by
  obtain ⟨n, front, rest, -, -, hstate, -, hfix⟩ :=
    @exists_stuck _ _ skip take done queue limit s₀ h hnodup hnew
  exact ⟨n, iterate_settled (by rw [hstate, hfix])⟩

/-- **When every good item is handled.** Good items are not skipped and never fail. From some round on
all of them are handled exactly when in front of each fewer items than the limit are passed over and
none fails. -/
theorem all_handled_iff {Good : α → Prop} (h : Handles skip take done queue) (hnodup : queue.Nodup)
    (hnew : ∀ x ∈ queue, done s₀ x = false) (hskip : ∀ x, Good x → skip x = false)
    (hsafe : ∀ x, Good x → ∀ front, (take (landed skip take front s₀) x).isSome = true) :
    (∃ n, ∀ m, n ≤ m → ∀ x ∈ queue, Good x →
      done ((round skip take done queue limit)^[m] s₀) x = true) ↔
      ∀ before x after, queue = before ++ x :: after → Good x →
        skipped skip before < limit ∧ Clear skip take s₀ before := by
  constructor
  · rintro ⟨n, hall⟩ before x after hqueue hgood
    have hx : x ∈ queue := by simp [hqueue]
    exact reach_of_handled h hnodup hnew hqueue (hskip x hgood) (hall n le_rfl x hx hgood)
  · intro hreach
    obtain ⟨n, front, rest, hfront, hreached, hstate, hstuck, hfix⟩ :=
      @exists_stuck _ _ skip take done queue limit s₀ h hnodup hnew
    have hsub : ∀ y ∈ front, y ∈ queue := fun y hy => by simp [hfront, hy]
    refine ⟨n, fun m hm x hx hgood => ?_⟩
    obtain ⟨before, after, hqueue⟩ := List.append_of_mem hx
    obtain ⟨hwithin, hclear⟩ := hreach before x after hqueue hgood
    have hmem : x ∈ front :=
      mem_front_of_stuck (hfront.symm.trans hqueue) (hsafe x hgood front) hstuck hwithin
        hclear
    rw [iterate_settled (by rw [hstate, hfix]) m hm, hstate, done_landed h hsub hreached.clear hx]
    exact Or.inr ⟨hmem, hskip x hgood⟩

end Rounds

end Backlog
end RepoMesh
