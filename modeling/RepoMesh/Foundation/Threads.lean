/-
# Interleaved calls

Any number of asynchronous calls over one shared state, interrupted at every `await`: the steps of
such a system, its traces, and the rely-guarantee rule that proves a call correct on its own
against everything the others may do in between.
-/
import Mathlib.Data.List.Induction
import RepoMesh.Foundation.Async

namespace RepoMesh
namespace Async

universe u

namespace Prog

variable {Op : Type} {Answer : Op → Type} {ε α β : Type} {σ : Type u}

/-- How an operation may answer: from which state, with what, into which state. -/
abbrev Execution (Answer : Op → Type) (ε : Type) (σ : Type u) :=
  (op : Op) → σ → Except ε (Answer op) → σ → Prop

/-- **Interference.** Before an operation is performed the state may move along `R`; it is performed
in a state of `Inv`, where `Ev` has to hold. -/
def interfered (R : σ → σ → Prop) (Inv : σ → Prop) (Exec : Execution Answer ε σ)
    (Ev : Op → σ → Prop) : Spec Answer ε σ :=
  fun op Q s => ∀ s₁, R s s₁ → Inv s₁ → Ev op s₁ ∧
    ∀ r s₂, Exec op s₁ r s₂ → R s₁ s₂ → Inv s₂ → Q r s₂

variable {R : σ → σ → Prop} {Inv : σ → Prop} {Exec : Execution Answer ε σ} {Ev : Op → σ → Prop}

theorem interfered_mono : (interfered R Inv Exec Ev).Mono := by
  intro op Q Q' s h hQ s₁ hR hInv
  obtain ⟨hev, hall⟩ := hQ s₁ hR hInv
  exact ⟨hev, fun r s₂ hexec hR₂ hInv₂ => h r s₂ (hall r s₂ hexec hR₂ hInv₂)⟩

/-- The call is correct whatever happens between its operations. -/
def Resilient (R : σ → σ → Prop) (Inv : σ → Prop) (Exec : Execution Answer ε σ)
    (Ev : Op → σ → Prop) (p : Prog Answer ε α) (s : σ) : Prop :=
  wp (interfered R Inv Exec Ev) p (fun _ _ => True) s

theorem Resilient.mono (trans : ∀ a b c, R a b → R b c → R a c) {p : Prog Answer ε α} {s s' : σ}
    (h : Resilient R Inv Exec Ev p s) (hR : R s s') : Resilient R Inv Exec Ev p s' := by
  cases p with
  | done r => trivial
  | await op next => exact fun s₁ hR₁ hInv => h s₁ (trans _ _ _ hR hR₁) hInv

theorem Resilient.rel (trans : ∀ a b c, R a b → R b c → R a c) {p : Prog Answer ε α} {s₀ s : σ}
    (hp : Resilient R Inv Exec Ev p s) (h : R s₀ s) :
    wp (interfered R Inv Exec Ev) p (fun _ s' => R s₀ s') s := by
  induction p generalizing s with
  | done r => exact h
  | await op next ih =>
    intro s₁ hR hInv
    obtain ⟨hev, hall⟩ := hp s₁ hR hInv
    refine ⟨hev, fun r s₂ hexec hR₂ hInv₂ => ?_⟩
    exact ih r (hall r s₂ hexec hR₂ hInv₂) (trans _ _ _ (trans _ _ _ h hR) hR₂)

/-- Whatever happens between its operations, the call is correct, and `Q` holds of what it returns
and of the state it leaves. -/
def Ends (R : σ → σ → Prop) (Inv : σ → Prop) (Exec : Execution Answer ε σ) (Ev : Op → σ → Prop)
    (p : Prog Answer ε α) (Q : α → σ → Prop) (s : σ) : Prop :=
  wp (interfered R Inv Exec Ev) p (fun r s' => ∀ a, r = .ok a → Q a s') s

theorem Ends.resilient {p : Prog Answer ε α} {Q : α → σ → Prop} {s : σ}
    (h : Ends R Inv Exec Ev p Q s) : Resilient R Inv Exec Ev p s :=
  wp_mono interfered_mono (fun _ _ _ => trivial) h

theorem Resilient.ends {p : Prog Answer ε α} {s : σ} (h : Resilient R Inv Exec Ev p s) :
    Ends R Inv Exec Ev p (fun _ _ => True) s :=
  wp_mono interfered_mono (fun _ _ _ _ _ => trivial) h

theorem ends_pure {Q : α → σ → Prop} {a : α} {s : σ} (h : Q a s) :
    Ends R Inv Exec Ev (pure a : Prog Answer ε α) Q s := by
  intro b hb
  rw [← Except.ok.inj hb]
  exact h

theorem ends_throw (Q : α → σ → Prop) (e : ε) (s : σ) :
    Ends R Inv Exec Ev (throw e : Prog Answer ε α) Q s :=
  fun a ha => by cases ha

/-- **Sequence.** The second part may use what is known of the first. -/
theorem Ends.bind {p : Prog Answer ε α} {f : α → Prog Answer ε β} {Q : α → σ → Prop}
    {Q' : β → σ → Prop} {s : σ} (hp : Ends R Inv Exec Ev p Q s)
    (hf : ∀ a s', Q a s' → Ends R Inv Exec Ev (f a) Q' s') :
    Ends R Inv Exec Ev (p >>= f) Q' s := by
  refine (wp_bind interfered_mono p f _ s).mpr (wp_mono interfered_mono ?_ hp)
  rintro (e | a) s' h
  · exact fun b hb => by cases hb
  · exact hf a s' (h a rfl)

/-- **One operation**, with what is known of its answer. -/
theorem ends_perform_bind {op : Op} {f : Answer op → Prog Answer ε β} {Q : β → σ → Prop} {s : σ}
    (h : ∀ s₁, R s s₁ → Inv s₁ → Ev op s₁ ∧ ∀ a s₂, Exec op s₁ (.ok a) s₂ → R s₁ s₂ → Inv s₂ →
      Ends R Inv Exec Ev (f a) Q s₂) :
    Ends R Inv Exec Ev (perform op >>= f) Q s := by
  intro s₁ hR hInv
  obtain ⟨hev, hall⟩ := h s₁ hR hInv
  refine ⟨hev, fun r s₂ hexec hR₂ hInv₂ => ?_⟩
  cases r with
  | error e => exact fun b hb => by cases hb
  | ok a => exact hall a s₂ hexec hR₂ hInv₂

theorem ends_lift_bind {r : Except ε α} {f : α → Prog Answer ε β} {Q : β → σ → Prop} {s : σ}
    (h : ∀ a, r = .ok a → Ends R Inv Exec Ev (f a) Q s) :
    Ends R Inv Exec Ev (lift r >>= f) Q s := by
  cases r with
  | error e => exact ends_throw Q e s
  | ok a => exact h a rfl

theorem Resilient.ends_rel (refl : ∀ s, R s s) (trans : ∀ a b c, R a b → R b c → R a c)
    {p : Prog Answer ε α} {s : σ} (h : Resilient R Inv Exec Ev p s) :
    Ends R Inv Exec Ev p (fun _ s' => R s s') s :=
  wp_mono interfered_mono (fun _ _ hR _ _ => hR) (h.rel trans (refl s))

theorem Only.resilient {P : Op → Prop} {p : Prog Answer ε α} (hp : Only P p)
    (hEv : ∀ op s, P op → Ev op s) (s : σ) : Resilient R Inv Exec Ev p s := by
  induction p generalizing s with
  | done r => trivial
  | await op next ih =>
    obtain ⟨hop, hnext⟩ := only_await.mp hp
    exact fun s₁ _ _ => ⟨hEv op s₁ hop, fun r s₂ _ _ _ => ih r (hnext r) s₂⟩

theorem Resilient.bind {p : Prog Answer ε α} {f : α → Prog Answer ε β} {Q : α → σ → Prop} {s : σ}
    (hp : Ends R Inv Exec Ev p Q s) (hf : ∀ a s', Q a s' → Resilient R Inv Exec Ev (f a) s') :
    Resilient R Inv Exec Ev (p >>= f) s :=
  (Ends.bind hp fun a s' h => (hf a s' h).ends).resilient

theorem Resilient.perform_bind {op : Op} {f : Answer op → Prog Answer ε β} {s : σ}
    (h : ∀ s₁, R s s₁ → Inv s₁ → Ev op s₁ ∧ ∀ a s₂, Exec op s₁ (.ok a) s₂ → R s₁ s₂ → Inv s₂ →
      Resilient R Inv Exec Ev (f a) s₂) :
    Resilient R Inv Exec Ev (perform op >>= f) s := by
  refine (ends_perform_bind (Q := fun _ _ => True) fun s₁ hR hInv => ?_).resilient
  obtain ⟨hev, hall⟩ := h s₁ hR hInv
  exact ⟨hev, fun a s₂ hexec hR₂ hInv₂ => (hall a s₂ hexec hR₂ hInv₂).ends⟩

theorem Resilient.lift_bind {r : Except ε α} {f : α → Prog Answer ε β} {s : σ}
    (h : ∀ a, r = .ok a → Resilient R Inv Exec Ev (f a) s) :
    Resilient R Inv Exec Ev (lift r >>= f) s := by
  cases r with
  | error e => trivial
  | ok a => exact h a rfl

/-- **Caught exceptions.** The handler has to be resilient wherever it starts. -/
theorem Resilient.tryCatch {p : Prog Answer ε α} {h : ε → Prog Answer ε α} {s : σ}
    (hp : Resilient R Inv Exec Ev p s) (hh : ∀ e s', Resilient R Inv Exec Ev (h e) s') :
    Resilient R Inv Exec Ev (MonadExcept.tryCatch p h) s := by
  refine (wp_tryCatch interfered_mono p h _ s).mpr (wp_mono interfered_mono ?_ hp)
  rintro (e | a) s' -
  · exact hh e s'
  · trivial

theorem resilient_of_always (hEv : ∀ op s, Ev op s) (p : Prog Answer ε α) (s : σ) :
    Resilient R Inv Exec Ev p s := by
  induction p generalizing s with
  | done r => trivial
  | await op next ih => exact fun s₁ _ _ => ⟨hEv op s₁, fun r s₂ _ _ _ => ih r s₂⟩

/-- **Loop.** Each round is resilient wherever the state has moved to. -/
theorem Resilient.each (refl : ∀ s, R s s) (trans : ∀ a b c, R a b → R b c → R a c)
    {f : α → Prog Answer ε β} {xs : List α} {s : σ}
    (hf : ∀ x ∈ xs, ∀ s', R s s' → Resilient R Inv Exec Ev (f x) s') :
    Resilient R Inv Exec Ev (each f xs) s := by
  induction xs generalizing s with
  | nil => trivial
  | cons x xs ih =>
    have hx : Resilient R Inv Exec Ev (f x) s := hf x (by simp) s (refl s)
    refine Resilient.bind (hx.ends_rel refl trans) fun y s' hR => ?_
    have hrest : Resilient R Inv Exec Ev (Prog.each f xs) s' :=
      ih fun z hz s'' hR' => hf z (List.mem_cons_of_mem _ hz) s'' (trans _ _ _ hR hR')
    exact Resilient.bind hrest.ends fun ys s'' _ => trivial

/-- **Loop.** What each round keeps, and how its result answers to its input. -/
theorem Ends.each {f : α → Prog Answer ε β} {P : α → β → Prop} {I : σ → Prop} {xs : List α}
    (hf : ∀ x ∈ xs, ∀ s, I s → Ends R Inv Exec Ev (f x) (fun y s' => P x y ∧ I s') s) {s : σ}
    (hs : I s) : Ends R Inv Exec Ev (Prog.each f xs) (fun ys s' => List.Forall₂ P xs ys ∧ I s') s := by
  induction xs generalizing s with
  | nil => exact ends_pure ⟨.nil, hs⟩
  | cons x xs ih =>
    refine Ends.bind (hf x (by simp) s hs) fun y s' hy => ?_
    obtain ⟨hxy, hs'⟩ := hy
    have hrest := ih (fun z hz => hf z (List.mem_cons_of_mem _ hz)) hs'
    refine Ends.bind hrest fun ys s'' hys => ?_
    obtain ⟨hall, hs''⟩ := hys
    exact ends_pure ⟨.cons hxy hall, hs''⟩

theorem resilient_marked {τ : Type} {mark : τ}
    {Exec : Execution (fun o : τ × Op => Answer o.2) ε σ} {Ev : τ × Op → σ → Prop}
    {p : Prog Answer ε α} {s : σ}
    (h : Resilient R Inv (fun op => Exec (mark, op)) (fun op => Ev (mark, op)) p s) :
    Resilient R Inv Exec Ev (marked mark p) s := by
  induction p generalizing s with
  | done r => trivial
  | await op next ih =>
    intro s₁ hR hInv
    obtain ⟨hev, hall⟩ := h s₁ hR hInv
    exact ⟨hev, fun r s₂ hexec hR₂ hInv₂ => ih r (hall r s₂ hexec hR₂ hInv₂)⟩

end Prog

/-! ## The pool -/

variable {Op : Type} {Answer : Op → Type} {ε α : Type} {σ : Type u}

/-- The shared state and the calls under way. -/
structure Pool (Answer : Op → Type) (ε α : Type) (σ : Type u) where
  state : σ
  threads : List (Prog Answer ε α)

/-- A system of interleaved calls: how operations are executed, which calls may be started, and
what else may happen to the state. -/
structure Threaded (Answer : Op → Type) (ε α : Type) (σ : Type u) where
  Exec : Prog.Execution Answer ε σ
  Starts : Prog Answer ε α → Prop
  Environment : σ → σ → Prop

/-- One step: a call performs its next operation, a call is started, or the environment moves. -/
inductive Threaded.Step (T : Threaded Answer ε α σ) : Pool Answer ε α σ → Option Op →
    Pool Answer ε α σ → Prop
  | perform {s s' : σ} {threads : List (Prog Answer ε α)} {i : ℕ} {op : Op}
      {next : Except ε (Answer op) → Prog Answer ε α} {r : Except ε (Answer op)}
      (running : threads[i]? = some (.await op next)) (answered : T.Exec op s r s') :
      Threaded.Step T ⟨s, threads⟩ (some op) ⟨s', threads.set i (next r)⟩
  | start {s : σ} {threads : List (Prog Answer ε α)} {p : Prog Answer ε α} (starts : T.Starts p) :
      Threaded.Step T ⟨s, threads⟩ none ⟨s, threads ++ [p]⟩
  | environment {s s' : σ} {threads : List (Prog Answer ε α)} (moves : T.Environment s s') :
      Threaded.Step T ⟨s, threads⟩ none ⟨s', threads⟩

/-- The traces from a state without calls: the steps taken, each with the operation performed and
the state it found, and the pool they lead to. -/
inductive Threaded.Trace (T : Threaded Answer ε α σ) (s : σ) :
    List (Option Op × σ) → Pool Answer ε α σ → Prop
  | nil : Threaded.Trace T s [] ⟨s, []⟩
  | snoc {steps : List (Option Op × σ)} {c c' : Pool Answer ε α σ} {op : Option Op}
      (before : Threaded.Trace T s steps c) (step : T.Step c op c') :
      Threaded.Trace T s (steps ++ [(op, c.state)]) c'

/-- What a system has to respect: each operation performed in `Ev` and each move of the environment
goes along `R` and keeps `Inv`, and each call that may be started is resilient. -/
structure Threaded.Respects (T : Threaded Answer ε α σ) (R : σ → σ → Prop) (Inv : σ → Prop)
    (Ev : Op → σ → Prop) : Prop where
  refl : ∀ s, R s s
  trans : ∀ a b c, R a b → R b c → R a c
  exec : ∀ op s r s', Inv s → Ev op s → T.Exec op s r s' → R s s' ∧ Inv s'
  environment : ∀ s s', Inv s → T.Environment s s' → R s s' ∧ Inv s'
  starts : ∀ p s, T.Starts p → Inv s → Prog.Resilient R Inv T.Exec Ev p s

/-- **Rely-guarantee.** In every trace each step finds a state in `Inv` and each operation one in
`Ev`, and `R` holds between every earlier and every later state. -/
theorem Threaded.Trace.sound {T : Threaded Answer ε α σ} {R : σ → σ → Prop} {Inv : σ → Prop}
    {Ev : Op → σ → Prop} (hT : T.Respects R Inv Ev) {s : σ} (hs : Inv s)
    {steps : List (Option Op × σ)} {c : Pool Answer ε α σ} (h : T.Trace s steps c) :
    (∀ e ∈ steps, Inv e.2 ∧ ∀ op, e.1 = some op → Ev op e.2) ∧
      (steps.map (·.2) ++ [c.state]).Pairwise R ∧ Inv c.state ∧
      ∀ p ∈ c.threads, Prog.Resilient R Inv T.Exec Ev p c.state := by
  induction h with
  | nil => exact ⟨fun e he => (by cases he), by simp, hs, fun p hp => (by cases hp)⟩
  | @snoc steps c c' op before step ih =>
    obtain ⟨hevents, hpairs, hInv, hthreads⟩ := ih
    obtain ⟨hop, hR, hInv', hthreads'⟩ : (∀ op', op = some op' → Ev op' c.state) ∧
        R c.state c'.state ∧ Inv c'.state ∧
        ∀ p ∈ c'.threads, Prog.Resilient R Inv T.Exec Ev p c'.state := by
      cases step with
      | @perform s₁ s₂ threads i op next r running answered =>
        obtain ⟨hev, hnext⟩ := hthreads _ (List.mem_of_getElem? running) s₁ (hT.refl _) hInv
        obtain ⟨hR, hInv'⟩ := hT.exec op s₁ r s₂ hInv hev answered
        refine ⟨fun op' hop => Option.some.inj hop ▸ hev, hR, hInv', fun p hp => ?_⟩
        rcases List.mem_or_eq_of_mem_set hp with hp | rfl
        · exact (hthreads p hp).mono hT.trans hR
        · exact hnext r s₂ answered hR hInv'
      | @start s₁ threads p starts =>
        refine ⟨fun op' hop => (by cases hop), hT.refl _, hInv, fun q hq => ?_⟩
        rcases List.mem_append.mp hq with hq | hq
        · exact hthreads q hq
        · rw [List.mem_singleton.mp hq]
          exact hT.starts p s₁ starts hInv
      | @environment s₁ s₂ threads moves =>
        obtain ⟨hR, hInv'⟩ := hT.environment s₁ s₂ hInv moves
        exact ⟨fun op' hop => (by cases hop), hR, hInv',
          fun p hp => (hthreads p hp).mono hT.trans hR⟩
    have hlast : ∀ a ∈ steps.map (·.2) ++ [c.state], R a c'.state := by
      intro a ha
      rcases List.mem_append.mp ha with ha | ha
      · have hac : R a c.state := (List.pairwise_append.mp hpairs).2.2 a ha c.state (by simp)
        exact hT.trans _ _ _ hac hR
      · rw [List.mem_singleton.mp ha]
        exact hR
    refine ⟨fun e he => ?_, ?_, hInv', hthreads'⟩
    · rcases List.mem_append.mp he with he | he
      · exact hevents e he
      · rw [List.mem_singleton.mp he]
        exact ⟨hInv, hop⟩
    · rw [List.map_append, List.pairwise_append]
      refine ⟨hpairs, by simp, fun a ha b hb => ?_⟩
      rw [List.mem_singleton.mp hb]
      exact hlast a ha

theorem Threaded.Trace.invariant {T : Threaded Answer ε α σ} {R : σ → σ → Prop} {Inv : σ → Prop}
    {Ev : Op → σ → Prop} (hT : T.Respects R Inv Ev) {s : σ} (hs : Inv s)
    {steps : List (Option Op × σ)} {c : Pool Answer ε α σ} (h : T.Trace s steps c) :
    ∀ s' ∈ steps.map (·.2) ++ [c.state], Inv s' := by
  obtain ⟨hevents, -, hend, -⟩ := h.sound hT hs
  intro s' hs'
  rcases List.mem_append.mp hs' with hs' | hs'
  · obtain ⟨e, he, rfl⟩ := List.mem_map.mp hs'
    exact (hevents e he).1
  · rw [List.mem_singleton.mp hs']
    exact hend

theorem Threaded.Trace.comparable {T : Threaded Answer ε α σ} {R : σ → σ → Prop} {Inv : σ → Prop}
    {Ev : Op → σ → Prop} (hT : T.Respects R Inv Ev) {s : σ} (hs : Inv s)
    {steps : List (Option Op × σ)} {c : Pool Answer ε α σ} (h : T.Trace s steps c) {a b : σ}
    (ha : a ∈ steps.map (·.2) ++ [c.state]) (hb : b ∈ steps.map (·.2) ++ [c.state]) :
    R a b ∨ R b a := by
  obtain ⟨-, hpairs, -, -⟩ := h.sound hT hs
  have hself : ∀ x ∈ steps.map (·.2) ++ [c.state], R x x ∨ R x x := fun x _ => .inl (hT.refl x)
  exact List.Pairwise.forall_of_forall_of_flip (R := fun a b => R a b ∨ R b a) hself
    (hpairs.imp fun hab => Or.inl hab) (hpairs.imp fun hab => Or.inr hab) ha hb

/-! ## The moves of a trace -/

/-- The moves of a trace that ends in `s`: what was performed, and the states before and after. -/
def moves (steps : List (Option Op × σ)) (s : σ) : List (Option Op × σ × σ) :=
  steps.zipWith (fun e s' => (e.1, e.2, s')) ((steps.map (·.2)).tail ++ [s])

theorem moves_snoc (steps : List (Option Op × σ)) (op : Option Op) (s s' : σ) :
    moves (steps ++ [(op, s)]) s' = moves steps s ++ [(op, s, s')] := by
  induction steps with
  | nil => rfl
  | cons e steps ih =>
    cases steps with
    | nil => rfl
    | cons e' steps =>
      simp only [moves, List.cons_append, List.map_cons, List.tail_cons, List.zipWith_cons_cons]
      exact congrArg _ ih

theorem mem_of_mem_moves {steps : List (Option Op × σ)} {s : σ} {e : Option Op × σ × σ}
    (he : e ∈ moves steps s) : (e.1, e.2.1) ∈ steps := by
  induction steps using List.reverseRecOn generalizing s with
  | nil => cases he
  | append_singleton steps e' ih =>
    obtain ⟨op, s₁⟩ := e'
    rw [moves_snoc] at he
    rcases List.mem_append.mp he with he | he
    · exact List.mem_append_left _ (ih he)
    · rw [List.mem_singleton.mp he]
      simp

/-- **One move at a time.** What holds of each operation performed in `Ev`, of each start and of
each move of the environment, holds of every move of a trace. -/
theorem Threaded.Trace.moves {T : Threaded Answer ε α σ} {R : σ → σ → Prop} {Inv : σ → Prop}
    {Ev : Op → σ → Prop} (hT : T.Respects R Inv Ev) {G : Option Op → σ → σ → Prop}
    (exec : ∀ op s r s', Inv s → Ev op s → T.Exec op s r s' → G (some op) s s')
    (start : ∀ s, G none s s) (environment : ∀ s s', Inv s → T.Environment s s' → G none s s')
    {s : σ} (hs : Inv s) {steps : List (Option Op × σ)} {c : Pool Answer ε α σ}
    (h : T.Trace s steps c) : ∀ e ∈ Async.moves steps c.state, G e.1 e.2.1 e.2.2 := by
  induction h with
  | nil => exact fun e he => (by cases he)
  | @snoc steps c c' op before step ih =>
    intro e he
    rw [moves_snoc] at he
    rcases List.mem_append.mp he with he | he
    · exact ih e he
    · rw [List.mem_singleton.mp he]
      obtain ⟨-, -, hInv, hthreads⟩ := before.sound hT hs
      cases step with
      | perform running answered =>
        obtain ⟨hev, -⟩ := hthreads _ (List.mem_of_getElem? running) _ (hT.refl _) hInv
        exact exec _ _ _ _ hInv hev answered
      | start starts => exact start _
      | environment moves => exact environment _ _ hInv moves

theorem pairwise_of_moves {R : σ → σ → Prop} (trans : ∀ a b c, R a b → R b c → R a c)
    (steps : List (Option Op × σ)) (s : σ) (h : ∀ e ∈ moves steps s, R e.2.1 e.2.2) :
    (steps.map (·.2) ++ [s]).Pairwise R := by
  induction steps using List.reverseRecOn generalizing s with
  | nil => simp
  | append_singleton steps e ih =>
    obtain ⟨op, s₁⟩ := e
    rw [moves_snoc] at h
    have hpairs : (steps.map (·.2) ++ [s₁]).Pairwise R :=
      ih s₁ fun e he => h e (List.mem_append_left _ he)
    have hlast : R s₁ s := h (op, s₁, s) (by simp)
    rw [List.map_append, List.map_singleton, List.pairwise_append]
    refine ⟨hpairs, by simp, fun a ha b hb => ?_⟩
    rw [List.mem_singleton.mp hb]
    rcases List.mem_append.mp ha with ha | ha
    · exact trans _ _ _ ((List.pairwise_append.mp hpairs).2.2 a ha s₁ (by simp)) hlast
    · rw [List.mem_singleton.mp ha]
      exact hlast

theorem moves_of_pairwise {R : σ → σ → Prop} {steps : List (Option Op × σ)} {s : σ}
    (h : (steps.map (·.2) ++ [s]).Pairwise R) : ∀ e ∈ moves steps s, R e.2.1 e.2.2 := by
  induction steps using List.reverseRecOn generalizing s with
  | nil => exact fun e he => (by cases he)
  | append_singleton steps e ih =>
    obtain ⟨op, s₁⟩ := e
    rw [List.map_append, List.map_singleton] at h
    obtain ⟨hpairs, -, hlast⟩ := List.pairwise_append.mp h
    intro e he
    rw [moves_snoc] at he
    rcases List.mem_append.mp he with he | he
    · exact ih hpairs e he
    · rw [List.mem_singleton.mp he]
      exact hlast s₁ (by simp) s (by simp)

/-! ## Traces whose operations meet a condition -/

/-- The system in which operations are executed only where `C` holds. -/
def Threaded.restrict (T : Threaded Answer ε α σ) (C : Op → σ → Prop) : Threaded Answer ε α σ :=
  { T with Exec := fun op s r s' => T.Exec op s r s' ∧ C op s }

theorem Threaded.Trace.restrict {T : Threaded Answer ε α σ} {C : Op → σ → Prop} {s : σ}
    {steps : List (Option Op × σ)} {c : Pool Answer ε α σ} (h : T.Trace s steps c)
    (hC : ∀ e ∈ steps, ∀ op, e.1 = some op → C op e.2) : (T.restrict C).Trace s steps c := by
  induction h with
  | nil => exact .nil
  | @snoc steps c c' op before step ih =>
    have hlast : ∀ op', op = some op' → C op' c.state := fun op' hop =>
      hC (op, c.state) (by simp) op' hop
    refine .snoc (ih fun e he => hC e (List.mem_append_left _ he)) ?_
    cases step with
    | perform running answered => exact .perform running ⟨answered, hlast _ rfl⟩
    | start starts => exact .start starts
    | environment moves => exact .environment moves

/-! ## What one call does -/

/-- One operation of a call: its answer, and the states before and after it. -/
structure Prog.Answered {Op : Type} (Answer : Op → Type) (ε : Type) (σ : Type u) where
  op : Op
  before : σ
  answer : Except ε (Answer op)
  after : σ

/-- A call that comes to its end, whatever has happened between its operations. -/
inductive Prog.Ran (Exec : Prog.Execution Answer ε σ) :
    Prog Answer ε α → List (Prog.Answered Answer ε σ) → Except ε α → Prop
  | done (r : Except ε α) : Prog.Ran Exec (.done r) [] r
  | await {op : Op} {next : Except ε (Answer op) → Prog Answer ε α} {s s' : σ}
      {a : Except ε (Answer op)} {l : List (Prog.Answered Answer ε σ)} {r : Except ε α}
      (answered : Exec op s a s') (rest : Prog.Ran Exec (next a) l r) :
      Prog.Ran Exec (.await op next) (⟨op, s, a, s'⟩ :: l) r

theorem Prog.Ran.answered {Exec : Prog.Execution Answer ε σ} {p : Prog Answer ε α}
    {l : List (Prog.Answered Answer ε σ)} {r : Except ε α} (h : Prog.Ran Exec p l r) :
    ∀ m ∈ l, Exec m.op m.before m.answer m.after := by
  induction h with
  | done r => exact fun m hm => (by cases hm)
  | await answered rest ih =>
    intro m hm
    rcases List.mem_cons.mp hm with rfl | hm
    · exact answered
    · exact ih m hm

theorem Prog.Ran.only {Exec : Prog.Execution Answer ε σ} {P : Op → Prop} {p : Prog Answer ε α}
    {l : List (Prog.Answered Answer ε σ)} {r : Except ε α} (h : Prog.Ran Exec p l r)
    (hp : Prog.Only P p) : ∀ m ∈ l, P m.op := by
  induction h with
  | done r => exact fun m hm => (by cases hm)
  | await answered rest ih =>
    obtain ⟨hop, hnext⟩ := Prog.only_await.mp hp
    intro m hm
    rcases List.mem_cons.mp hm with rfl | hm
    · exact hop
    · exact ih (hnext _) m hm

/-- **At most one.** No operation of `W` is performed after one that was answered. -/
theorem Prog.Ran.atMostOnce {Exec : Prog.Execution Answer ε σ} {W : Op → Prop}
    {p : Prog Answer ε α} {l : List (Prog.Answered Answer ε σ)} {r : Except ε α}
    (h : Prog.Ran Exec p l r) (hp : Prog.AtMostOnce W p) :
    l.Pairwise fun m m' => W m.op → (∃ a, m.answer = .ok a) → ¬ W m'.op := by
  induction h with
  | done r => exact .nil
  | await answered rest ih =>
    obtain ⟨honce, hnext⟩ := Prog.atMostOnce_await.mp hp
    refine .cons (fun m hm hW hanswer => ?_) (ih (hnext _))
    obtain ⟨a, ha⟩ := hanswer
    have hrest := honce hW a
    rw [← ha] at hrest
    exact rest.only hrest m hm

/-! ## Running one call for some steps -/

/-- A call and its state after `n` of its operations. -/
def Prog.advance (exec : (op : Op) → σ → Except ε (Answer op) × σ) :
    ℕ → Prog Answer ε α × σ → Prog Answer ε α × σ
  | n + 1, (.await op next, s) => advance exec n (next (exec op s).1, (exec op s).2)
  | _, c => c

/-- The steps it takes. -/
def Prog.path (exec : (op : Op) → σ → Except ε (Answer op) × σ) :
    ℕ → Prog Answer ε α × σ → List (Option Op × σ)
  | n + 1, (.await op next, s) => (some op, s) :: path exec n (next (exec op s).1, (exec op s).2)
  | _, _ => []

theorem Threaded.Trace.advance {T : Threaded Answer ε α σ}
    {exec : (op : Op) → σ → Except ε (Answer op) × σ}
    (hexec : ∀ op s, T.Exec op s (exec op s).1 (exec op s).2) (n i : ℕ) {s s₁ : σ}
    {threads : List (Prog Answer ε α)} {p : Prog Answer ε α} {steps : List (Option Op × σ)}
    (hp : threads[i]? = some p) (h : T.Trace s steps ⟨s₁, threads⟩) :
    T.Trace s (steps ++ Prog.path exec n (p, s₁)) ⟨(Prog.advance exec n (p, s₁)).2,
      threads.set i (Prog.advance exec n (p, s₁)).1⟩ := by
  have hstay : threads.set i p = threads := by
    obtain ⟨hi, rfl⟩ := List.getElem?_eq_some_iff.mp hp
    exact List.set_getElem_self hi
  induction n generalizing s₁ p threads steps with
  | zero => simpa only [Prog.advance, Prog.path, hstay, List.append_nil] using h
  | succ n ih =>
    cases p with
    | done r => simpa only [Prog.advance, Prog.path, hstay, List.append_nil] using h
    | await op next =>
      have hstep : T.Step ⟨s₁, threads⟩ (some op)
          ⟨(exec op s₁).2, threads.set i (next (exec op s₁).1)⟩ :=
        .perform hp (hexec op s₁)
      have hi : i < threads.length := (List.getElem?_eq_some_iff.mp hp).1
      have hrest := ih (by simp [hi]) (h.snoc hstep) (List.set_set ..)
      simpa only [Prog.advance, Prog.path, List.set_set, List.append_assoc,
        List.singleton_append] using hrest

end Async
end RepoMesh
