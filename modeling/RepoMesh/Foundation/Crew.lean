/-
# Interleaved calls that own a part of the state

Any number of asynchronous calls over one shared state, each under a number of its own. What the
others do leaves the part of the state a call owns; what it does itself is not restricted.
-/
import RepoMesh.Foundation.Threads

namespace RepoMesh
namespace Async

universe u

namespace Prog

variable {Op : Type} {Answer : Op → Type} {ε α β : Type} {σ : Type u}

/-- **Others.** Before an operation the others may move the state along `R`; it is performed in a
state of `Inv`, where `Ev` has to hold, and leaves a state of `Inv`. -/
def attended (R : σ → σ → Prop) (Inv : σ → Prop) (Exec : Execution Answer ε σ)
    (Ev : Op → σ → Prop) : Spec Answer ε σ :=
  fun op Q s => ∀ s₁, R s s₁ → Inv s₁ → Ev op s₁ ∧
    ∀ r s₂, Exec op s₁ r s₂ → Inv s₂ → Q r s₂

variable {R : σ → σ → Prop} {Inv : σ → Prop} {Exec : Execution Answer ε σ} {Ev : Op → σ → Prop}

theorem attended_mono : (attended R Inv Exec Ev).Mono := by
  intro op Q Q' s h hQ s₁ hR hInv
  obtain ⟨hev, hall⟩ := hQ s₁ hR hInv
  exact ⟨hev, fun r s₂ hexec hInv₂ => h r s₂ (hall r s₂ hexec hInv₂)⟩

/-- The call is correct whatever the others do, and `Q` holds of what it returns and of the state it
leaves. -/
def Attends (R : σ → σ → Prop) (Inv : σ → Prop) (Exec : Execution Answer ε σ) (Ev : Op → σ → Prop)
    (p : Prog Answer ε α) (Q : α → σ → Prop) (s : σ) : Prop :=
  wp (attended R Inv Exec Ev) p (fun r s' => ∀ a, r = .ok a → Q a s') s

theorem Attends.mono {p : Prog Answer ε α} {Q Q' : α → σ → Prop} {s : σ}
    (h : Attends R Inv Exec Ev p Q s) (hQ : ∀ a s', Q a s' → Q' a s') :
    Attends R Inv Exec Ev p Q' s :=
  wp_mono attended_mono (fun _ _ h a ha => hQ a _ (h a ha)) h

theorem Attends.moved (trans : ∀ a b c, R a b → R b c → R a c) {op : Op}
    {next : Except ε (Answer op) → Prog Answer ε α} {Q : α → σ → Prop} {s s' : σ}
    (h : Attends R Inv Exec Ev (.await op next) Q s) (hR : R s s') :
    Attends R Inv Exec Ev (.await op next) Q s' :=
  fun s₁ hR₁ hInv => h s₁ (trans _ _ _ hR hR₁) hInv

theorem attends_pure {Q : α → σ → Prop} {a : α} {s : σ} (h : Q a s) :
    Attends R Inv Exec Ev (pure a : Prog Answer ε α) Q s := by
  intro b hb
  rw [← Except.ok.inj hb]
  exact h

theorem attends_throw (Q : α → σ → Prop) (e : ε) (s : σ) :
    Attends R Inv Exec Ev (throw e : Prog Answer ε α) Q s :=
  fun a ha => by cases ha

/-- **Sequence.** -/
theorem Attends.bind {p : Prog Answer ε α} {f : α → Prog Answer ε β} {Q : α → σ → Prop}
    {Q' : β → σ → Prop} {s : σ} (hp : Attends R Inv Exec Ev p Q s)
    (hf : ∀ a s', Q a s' → Attends R Inv Exec Ev (f a) Q' s') :
    Attends R Inv Exec Ev (p >>= f) Q' s := by
  refine (wp_bind attended_mono p f _ s).mpr (wp_mono attended_mono ?_ hp)
  rintro (e | a) s' h
  · exact fun b hb => by cases hb
  · exact hf a s' (h a rfl)

/-- **One operation.** -/
theorem attends_perform_bind {op : Op} {f : Answer op → Prog Answer ε β} {Q : β → σ → Prop} {s : σ}
    (h : ∀ s₁, R s s₁ → Inv s₁ → Ev op s₁ ∧ ∀ a s₂, Exec op s₁ (.ok a) s₂ → Inv s₂ →
      Attends R Inv Exec Ev (f a) Q s₂) :
    Attends R Inv Exec Ev (perform op >>= f) Q s := by
  intro s₁ hR hInv
  obtain ⟨hev, hall⟩ := h s₁ hR hInv
  refine ⟨hev, fun r s₂ hexec hInv₂ => ?_⟩
  cases r with
  | error e => exact fun b hb => by cases hb
  | ok a => exact hall a s₂ hexec hInv₂

theorem wp_perform_bind {op : Op} {f : Answer op → Prog Answer ε β} {Q : Except ε β → σ → Prop}
    {s : σ}
    (h : ∀ s₁, R s s₁ → Inv s₁ → Ev op s₁ ∧ ∀ r s₂, Exec op s₁ r s₂ → Inv s₂ →
      andThen (attended R Inv Exec Ev) f Q r s₂) :
    wp (attended R Inv Exec Ev) (perform op >>= f) Q s := by
  rw [wp_bind attended_mono]
  exact h

end Prog

/-! ## The pool -/

variable {Op : Type} {Answer : Op → Type} {ε α : Type} {σ : Type u}

/-- A system of interleaved calls that know their number: how an operation of a call is executed,
which calls may be started, and what else may happen. -/
structure Crew (Answer : Op → Type) (ε α : Type) (σ : Type u) where
  Exec : ℕ → Prog.Execution Answer ε σ
  Starts : Prog Answer ε α → Prop
  Environment : σ → σ → Prop

/-- One step: a call performs its next operation, a call is started under the next number, or the
environment moves. -/
inductive Crew.Step (T : Crew Answer ε α σ) : Pool Answer ε α σ → Option (ℕ × Op) →
    Pool Answer ε α σ → Prop
  | perform {s s' : σ} {threads : List (Prog Answer ε α)} {i : ℕ} {op : Op}
      {next : Except ε (Answer op) → Prog Answer ε α} {r : Except ε (Answer op)}
      (running : threads[i]? = some (.await op next)) (answered : T.Exec i op s r s') :
      Crew.Step T ⟨s, threads⟩ (some (i, op)) ⟨s', threads.set i (next r)⟩
  | start {s : σ} {threads : List (Prog Answer ε α)} {p : Prog Answer ε α} (starts : T.Starts p) :
      Crew.Step T ⟨s, threads⟩ none ⟨s, threads ++ [p]⟩
  | environment {s s' : σ} {threads : List (Prog Answer ε α)} (moves : T.Environment s s') :
      Crew.Step T ⟨s, threads⟩ none ⟨s', threads⟩

/-- The traces from a state without calls. -/
inductive Crew.Trace (T : Crew Answer ε α σ) (s : σ) :
    List (Option (ℕ × Op) × σ) → Pool Answer ε α σ → Prop
  | nil : Crew.Trace T s [] ⟨s, []⟩
  | snoc {steps : List (Option (ℕ × Op) × σ)} {c c' : Pool Answer ε α σ} {op : Option (ℕ × Op)}
      (before : Crew.Trace T s steps c) (step : T.Step c op c') :
      Crew.Trace T s (steps ++ [(op, c.state)]) c'

/-- What a crew has to respect: an operation performed in `Ev` keeps `Inv` and moves the state along
the relation of every other call, the environment along that of every call; a number stays fresh
until its call starts, and each call that may be started is correct under a fresh number. -/
structure Crew.Respects (T : Crew Answer ε α σ) (R : ℕ → σ → σ → Prop) (Inv : σ → Prop)
    (Ev : ℕ → Op → σ → Prop) (Fresh : ℕ → σ → Prop) : Prop where
  refl : ∀ i s, R i s s
  trans : ∀ i a b c, R i a b → R i b c → R i a c
  exec : ∀ i op s r s', Inv s → Ev i op s → T.Exec i op s r s' → Inv s' ∧ ∀ j, j ≠ i → R j s s'
  environment : ∀ s s', Inv s → T.Environment s s' → Inv s' ∧ ∀ j, R j s s'
  fresh : ∀ i s s', Fresh i s → R i s s' → Fresh i s'
  starts : ∀ i p s, T.Starts p → Fresh i s → Inv s →
    Prog.Attends (R i) Inv (T.Exec i) (Ev i) p (fun _ _ => True) s

/-- **Rely-guarantee.** In every trace each step finds a state of `Inv`, and each operation one of
`Ev`; the calls under way are correct, and the numbers to come are fresh. -/
theorem Crew.Trace.sound {T : Crew Answer ε α σ} {R : ℕ → σ → σ → Prop} {Inv : σ → Prop}
    {Ev : ℕ → Op → σ → Prop} {Fresh : ℕ → σ → Prop} (hT : T.Respects R Inv Ev Fresh) {s : σ}
    (hs : Inv s) (hfresh : ∀ i, Fresh i s) {steps : List (Option (ℕ × Op) × σ)}
    {c : Pool Answer ε α σ} (h : T.Trace s steps c) :
    (∀ e ∈ steps, Inv e.2 ∧ ∀ i op, e.1 = some (i, op) → Ev i op e.2) ∧ Inv c.state ∧
      (∀ i p, c.threads[i]? = some p →
        Prog.Attends (R i) Inv (T.Exec i) (Ev i) p (fun _ _ => True) c.state) ∧
      ∀ i, c.threads.length ≤ i → Fresh i c.state := by
  -- A call that waits is correct after every step of the others.
  have hwait : ∀ {i : ℕ} {p : Prog Answer ε α} {a b : σ},
      Prog.Attends (R i) Inv (T.Exec i) (Ev i) p (fun _ _ => True) a → R i a b →
        Prog.Attends (R i) Inv (T.Exec i) (Ev i) p (fun _ _ => True) b := by
    intro i p a b hp hR
    cases p with
    | done r => exact fun _ _ => trivial
    | await op next => exact hp.moved (hT.trans i) hR
  induction h with
  | nil => exact ⟨fun e he => (by cases he), hs, fun i p hp => (by cases hp), fun i _ => hfresh i⟩
  | @snoc steps c c' op before step ih =>
    obtain ⟨hevents, hInv, hthreads, hnumbers⟩ := ih
    obtain ⟨hop, hInv', hthreads', hnumbers'⟩ :
        (∀ i op', op = some (i, op') → Ev i op' c.state) ∧ Inv c'.state ∧
        (∀ i p, c'.threads[i]? = some p →
          Prog.Attends (R i) Inv (T.Exec i) (Ev i) p (fun _ _ => True) c'.state) ∧
        ∀ i, c'.threads.length ≤ i → Fresh i c'.state := by
      cases step with
      | @perform s₁ s₂ threads i op next r running answered =>
        obtain ⟨hev, hnext⟩ := hthreads i _ running s₁ (hT.refl i _) hInv
        obtain ⟨hInv', hothers⟩ := hT.exec i op s₁ r s₂ hInv hev answered
        have hi : i < threads.length := (List.getElem?_eq_some_iff.mp running).1
        refine ⟨?_, hInv', fun j p hp => ?_, fun j hj => ?_⟩
        · rintro j op' heq
          cases heq
          exact hev
        · by_cases hji : i = j
          · subst hji
            have hpnext : next r = p := by
              rw [List.getElem?_set_self (by simpa using hi)] at hp
              exact Option.some.inj hp
            rw [← hpnext]
            exact hnext r s₂ answered hInv'
          · rw [List.getElem?_set_ne hji] at hp
            exact hwait (hthreads j p hp) (hothers j (Ne.symm hji))
        · have hlength : threads.length ≤ j := by simpa using hj
          exact hT.fresh j _ _ (hnumbers j hlength) (hothers j (by omega))
      | @start s₁ threads p starts =>
        refine ⟨fun i op' heq => (by cases heq), hInv, fun j q hq => ?_, fun j hj => ?_⟩
        · by_cases hj : j < threads.length
          · rw [List.getElem?_append_left hj] at hq
            exact hthreads j q hq
          · have hbound := (List.getElem?_eq_some_iff.mp hq).1
            have hlast : j = threads.length := by
              rw [List.length_append, List.length_singleton] at hbound
              omega
            subst hlast
            rw [List.getElem?_concat_length] at hq
            obtain rfl := Option.some.inj hq
            exact hT.starts _ _ _ starts (hnumbers _ (Nat.le_refl _)) hInv
        · have hlength : threads.length + 1 ≤ j := by simpa using hj
          exact hnumbers j (Nat.le_of_succ_le hlength)
      | @environment s₁ s₂ threads moves =>
        obtain ⟨hInv', hothers⟩ := hT.environment s₁ s₂ hInv moves
        exact ⟨fun i op' heq => (by cases heq), hInv',
          fun j p hp => hwait (hthreads j p hp) (hothers j),
          fun j hj => hT.fresh j _ _ (hnumbers j hj) (hothers j)⟩
    refine ⟨fun e he => ?_, hInv', hthreads', hnumbers'⟩
    rcases List.mem_append.mp he with he | he
    · exact hevents e he
    · rw [List.mem_singleton.mp he]
      exact ⟨hInv, hop⟩

/-- The steps of one call that runs while the others wait. -/
def numbered (i : ℕ) (path : List (Option Op × σ)) : List (Option (ℕ × Op) × σ) :=
  path.map fun e => (e.1.map fun op => (i, op), e.2)

theorem Crew.Trace.advance {T : Crew Answer ε α σ} (i : ℕ)
    {exec : (op : Op) → σ → Except ε (Answer op) × σ}
    (hexec : ∀ op s, T.Exec i op s (exec op s).1 (exec op s).2) (n : ℕ) {s s₁ : σ}
    {threads : List (Prog Answer ε α)} {p : Prog Answer ε α} {steps : List (Option (ℕ × Op) × σ)}
    (hp : threads[i]? = some p) (h : T.Trace s steps ⟨s₁, threads⟩) :
    T.Trace s (steps ++ numbered i (Prog.path exec n (p, s₁)))
      ⟨(Prog.advance exec n (p, s₁)).2, threads.set i (Prog.advance exec n (p, s₁)).1⟩ := by
  have hstay : threads.set i p = threads := by
    obtain ⟨hi, rfl⟩ := List.getElem?_eq_some_iff.mp hp
    exact List.set_getElem_self hi
  induction n generalizing s₁ p threads steps with
  | zero =>
    simpa only [Prog.advance, Prog.path, numbered, List.map_nil, hstay, List.append_nil] using h
  | succ n ih =>
    cases p with
    | done r =>
      simpa only [Prog.advance, Prog.path, numbered, List.map_nil, hstay, List.append_nil] using h
    | await op next =>
      have hstep : T.Step ⟨s₁, threads⟩ (some (i, op))
          ⟨(exec op s₁).2, threads.set i (next (exec op s₁).1)⟩ :=
        .perform hp (hexec op s₁)
      have hi : i < threads.length := (List.getElem?_eq_some_iff.mp hp).1
      have hrest := ih (by simp [hi]) (h.snoc hstep) (List.set_set ..)
      simpa only [Prog.advance, Prog.path, numbered, List.map_cons, Option.map_some, List.set_set,
        List.append_assoc, List.singleton_append] using hrest

/-- A call and its state after at most `n` of its operations, with the steps it takes; nothing when an
operation would have to wait. -/
def Prog.proceed (exec : (op : Op) → σ → Option (Except ε (Answer op) × σ)) :
    ℕ → Prog Answer ε α → σ → Option (List (Option Op × σ) × Prog Answer ε α × σ)
  | n + 1, .await op next, s =>
    match exec op s with
    | none => none
    | some (a, s') => (proceed exec n (next a) s').map fun r => ((some op, s) :: r.1, r.2)
  | _, p, s => some ([], p, s)

theorem Crew.Trace.proceed {T : Crew Answer ε α σ} (i : ℕ)
    {exec : (op : Op) → σ → Option (Except ε (Answer op) × σ)}
    (hexec : ∀ op s a s', exec op s = some (a, s') → T.Exec i op s a s') (n : ℕ) {s s₁ s₂ : σ}
    {threads : List (Prog Answer ε α)} {p p' : Prog Answer ε α}
    {steps : List (Option (ℕ × Op) × σ)} {path : List (Option Op × σ)}
    (hp : threads[i]? = some p) (h : T.Trace s steps ⟨s₁, threads⟩)
    (hrun : Prog.proceed exec n p s₁ = some (path, p', s₂)) :
    T.Trace s (steps ++ numbered i path) ⟨s₂, threads.set i p'⟩ := by
  -- A call that takes no step leaves the pool as it is.
  have hstays : ∀ {threads : List (Prog Answer ε α)} {q : Prog Answer ε α}
      {steps : List (Option (ℕ × Op) × σ)} {s₁ : σ}, threads[i]? = some q →
      T.Trace s steps ⟨s₁, threads⟩ →
      T.Trace s (steps ++ numbered i []) ⟨s₁, threads.set i q⟩ := by
    intro threads q steps s₁ hq h
    obtain ⟨hi, rfl⟩ := List.getElem?_eq_some_iff.mp hq
    simpa only [numbered, List.map_nil, List.set_getElem_self hi, List.append_nil] using h
  induction n generalizing s₁ p threads steps path with
  | zero =>
    obtain ⟨rfl, rfl, rfl⟩ : [] = path ∧ p = p' ∧ s₁ = s₂ := by
      simpa only [Prog.proceed, Option.some.injEq, Prod.mk.injEq] using hrun
    exact hstays hp h
  | succ n ih =>
    cases p with
    | done r =>
      obtain ⟨rfl, rfl, rfl⟩ : [] = path ∧ .done r = p' ∧ s₁ = s₂ := by
        simpa only [Prog.proceed, Option.some.injEq, Prod.mk.injEq] using hrun
      exact hstays hp h
    | await op next =>
      cases hop : exec op s₁ with
      | none => simp only [Prog.proceed, hop, reduceCtorEq] at hrun
      | some answered =>
        obtain ⟨a, s'⟩ := answered
        simp only [Prog.proceed, hop, Option.map_eq_some_iff] at hrun
        obtain ⟨⟨later, p'', s''⟩, hrest, heq⟩ := hrun
        obtain ⟨rfl, rfl, rfl⟩ : (some op, s₁) :: later = path ∧ p'' = p' ∧ s'' = s₂ := by
          simpa only [Prod.mk.injEq] using heq
        have hi : i < threads.length := (List.getElem?_eq_some_iff.mp hp).1
        have hstep : T.Step ⟨s₁, threads⟩ (some (i, op)) ⟨s', threads.set i (next a)⟩ :=
          .perform hp (hexec op s₁ a s' hop)
        have hlater := ih (by simp [hi]) (h.snoc hstep) hrest
        simpa only [numbered, List.map_cons, Option.map_some, List.set_set, List.append_assoc,
          List.singleton_append] using hlater

end Async
end RepoMesh
