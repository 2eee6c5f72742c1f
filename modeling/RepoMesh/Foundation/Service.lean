/-
# A service that may stop at any point

One process that runs a round of calls again and again over a state that survives it. It may stop
between any two operations, with the round it was in lost, and boot again from what it left. The
module gives its traces and the rule that carries an invariant through rounds and through stops.
-/
import RepoMesh.Foundation.Crew

namespace RepoMesh
namespace Async

universe u

namespace Prog

variable {Op : Type} {Answer : Op → Type} {ε α β : Type} {σ : Type u}

/-- Whatever `A` lets be answered, the call performs operations of `P` only and ends in `φ`. -/
def Within (P : Op → Prop) (A : (op : Op) → Except ε (Answer op) → Prop) (φ : Except ε α → Prop) :
    Prog Answer ε α → Prop
  | .done r => φ r
  | .await op next => P op ∧ ∀ r, A op r → Within P A φ (next r)

variable {P : Op → Prop} {A : (op : Op) → Except ε (Answer op) → Prop} {φ : Except ε α → Prop}

@[simp] theorem within_perform {op : Op} {ψ : Except ε (Answer op) → Prop} :
    Within P A ψ (perform op : Prog Answer ε (Answer op)) ↔ P op ∧ ∀ r, A op r → ψ r := Iff.rfl

/-- **Consequence.** -/
theorem Within.mono {p : Prog Answer ε α} {φ' : Except ε α → Prop} (h : Within P A φ p)
    (hφ : ∀ r, φ r → φ' r) : Within P A φ' p := by
  induction p with
  | done r => exact hφ r h
  | await op next ih => exact ⟨h.1, fun r hr => ih r (h.2 r hr)⟩

/-- **Weakening.** More operations may be performed, and less be answered. -/
theorem Within.weaken {P' : Op → Prop} {A' : (op : Op) → Except ε (Answer op) → Prop}
    {p : Prog Answer ε α} (h : Within P A φ p) (hP : ∀ op, P op → P' op)
    (hA : ∀ op r, P op → A' op r → A op r) : Within P' A' φ p := by
  induction p with
  | done r => exact h
  | await op next ih => exact ⟨hP op h.1, fun r hr => ih r (h.2 r (hA op r h.1 hr))⟩

/-- **Going on with an outcome.** -/
theorem Within.resume {p : Prog Answer ε α} {k : Except ε α → Prog Answer ε β}
    {ψ : Except ε β → Prop} (hp : Within P A φ p) (hk : ∀ r, φ r → Within P A ψ (k r)) :
    Within P A ψ (resume p k) := by
  induction p with
  | done r => exact hk r hp
  | await op next ih => exact ⟨hp.1, fun r hr => ih r (hp.2 r hr)⟩

/-- **Sequence.** -/
theorem Within.bind {p : Prog Answer ε α} {f : α → Prog Answer ε β} {ψ : Except ε β → Prop}
    (hp : Within P A φ p) (hok : ∀ a, φ (.ok a) → Within P A ψ (f a))
    (herror : ∀ e, φ (.error e) → ψ (.error e)) : Within P A ψ (p >>= f) := by
  induction p with
  | done r =>
    cases r with
    | ok a => exact hok a hp
    | error e => exact herror e hp
  | await op next ih => exact ⟨hp.1, fun r hr => ih r (hp.2 r hr)⟩

/-- **Loop.** -/
theorem Within.each {f : α → Prog Answer ε β} {E : ε → Prop} {xs : List α}
    (hf : ∀ x ∈ xs, Within P A (fun r => ∀ e, r = .error e → E e) (f x)) :
    Within P A (fun r => ∀ e, r = .error e → E e) (each f xs) := by
  induction xs with
  | nil => exact fun e he => by cases he
  | cons x xs ih =>
    refine (hf x (by simp)).bind (fun y _ => ?_) fun e he e' hee => ?_
    · refine (ih fun z hz => hf z (by simp [hz])).bind (fun ys _ => ?_) fun e he e' hee => ?_
      · exact fun e he => by cases he
      · cases hee
        exact he e rfl
    · cases hee
      exact he e rfl

/-- **Frame.** What the others and each operation of the call leave holds however the call ends. -/
theorem Within.attended {R : σ → σ → Prop} {Inv : σ → Prop} {Exec : Execution Answer ε σ}
    {Ev : Op → σ → Prop} {p : Prog Answer ε α} (hp : Within P A φ p) {I : σ → Prop}
    (others : ∀ s s', I s → R s s' → I s')
    (own : ∀ op s, P op → I s → Inv s →
      Ev op s ∧ ∀ r s', Exec op s r s' → Inv s' → A op r ∧ I s')
    {s : σ} (hs : I s) :
    wp (Prog.attended R Inv Exec Ev) p (fun r s' => φ r ∧ I s') s := by
  induction p generalizing s with
  | done r => exact ⟨hp, hs⟩
  | await op next ih =>
    obtain ⟨hop, hnext⟩ := hp
    intro s₁ hR hInv
    have hs₁ := others s s₁ hs hR
    obtain ⟨hev, hexec⟩ := own op s₁ hop hs₁ hInv
    refine ⟨hev, fun r s₂ hr hInv₂ => ?_⟩
    obtain ⟨hanswer, hs₂⟩ := hexec r s₂ hr hInv₂
    exact ih r (hnext r hanswer) hs₂

/-- **Sequence** after a part that is framed. -/
theorem Within.attended_bind {R : σ → σ → Prop} {Inv : σ → Prop} {Exec : Execution Answer ε σ}
    {Ev : Op → σ → Prop} {p : Prog Answer ε α} {f : α → Prog Answer ε β}
    {Q : Except ε β → σ → Prop} (hp : Within P A φ p) {I : σ → Prop}
    (others : ∀ s s', I s → R s s' → I s')
    (own : ∀ op s, P op → I s → Inv s →
      Ev op s ∧ ∀ r s', Exec op s r s' → Inv s' → A op r ∧ I s')
    {s : σ} (hs : I s)
    (hok : ∀ a s', φ (.ok a) → I s' → wp (Prog.attended R Inv Exec Ev) (f a) Q s')
    (herror : ∀ e s', φ (.error e) → I s' → Q (.error e) s') :
    wp (Prog.attended R Inv Exec Ev) (p >>= f) Q s := by
  refine (wp_bind attended_mono p f Q s).mpr ?_
  refine wp_mono attended_mono ?_ (hp.attended others own hs)
  rintro (e | a) s' ⟨hφ, hI⟩
  · exact herror e s' hφ hI
  · exact hok a s' hφ hI

end Prog

variable {Op Event : Type} {Answer : Op → Type} {ε α : Type} {σ : Type u}

/-- Where the process is: stopped, between two rounds, or in one. -/
inductive Phase (Answer : Op → Type) (ε α : Type) where
  | stopped
  | waiting
  | serving (p : Prog Answer ε α)

/-- What a step is: the process boots, stops at once, starts a round, performs an operation, ends
a round with a result, goes on after an exception, ends with one, or something else happens. -/
inductive Move (Op Event : Type) (ε : Type) where
  | boot
  | stop
  | start
  | perform (op : Op)
  | finish
  | retry (e : ε)
  | quit (e : ε)
  | other (event : Event)

/-- A service: how operations are executed, its round, the exceptions after which it starts the
next round, what booting makes of the state, and what else may happen to it. -/
structure Service (Answer : Op → Type) (Event : Type) (ε α : Type) (σ : Type u) where
  Exec : Prog.Execution Answer ε σ
  round : Prog Answer ε α
  Absorbs : ε → Prop
  Boot : σ → σ → Prop
  Environment : Event → σ → σ → Prop

namespace Service

/-- One step. -/
inductive Step (T : Service Answer Event ε α σ) :
    Phase Answer ε α × σ → Move Op Event ε → Phase Answer ε α × σ → Prop
  | boot {s s' : σ} (boots : T.Boot s s') : Step T (.stopped, s) .boot (.waiting, s')
  | stop {φ : Phase Answer ε α} {s : σ} : Step T (φ, s) .stop (.stopped, s)
  | start {s : σ} : Step T (.waiting, s) .start (.serving T.round, s)
  | perform {s s' : σ} {op : Op} {next : Except ε (Answer op) → Prog Answer ε α}
      {r : Except ε (Answer op)} (answered : T.Exec op s r s') :
      Step T (.serving (.await op next), s) (.perform op) (.serving (next r), s')
  | finish {s : σ} {a : α} : Step T (.serving (.done (.ok a)), s) .finish (.waiting, s)
  | retry {s : σ} {e : ε} (absorbed : T.Absorbs e) :
      Step T (.serving (.done (.error e)), s) (.retry e) (.waiting, s)
  | quit {s : σ} {e : ε} (passed : ¬ T.Absorbs e) :
      Step T (.serving (.done (.error e)), s) (.quit e) (.stopped, s)
  | other {φ : Phase Answer ε α} {s s' : σ} {event : Event} (happens : T.Environment event s s') :
      Step T (φ, s) (.other event) (φ, s')

/-- The traces of a service that has not been booted: each step with the states before and after
it. -/
inductive Trace (T : Service Answer Event ε α σ) (s₀ : σ) :
    List (Move Op Event ε × σ × σ) → Phase Answer ε α × σ → Prop
  | nil : Trace T s₀ [] (.stopped, s₀)
  | snoc {moves : List (Move Op Event ε × σ × σ)} {c c' : Phase Answer ε α × σ} {m : Move Op Event ε}
      (before : Trace T s₀ moves c) (step : T.Step c m c') :
      Trace T s₀ (moves ++ [(m, c.2, c'.2)]) c'

/-- The states a trace goes through. -/
def visited (s₀ : σ) (moves : List (Move Op Event ε × σ × σ)) : List σ := s₀ :: moves.map fun m => m.2.2

/-- What a service has to respect: `Inv` always holds, `Ready` holds between two rounds, `R` is what
the environment does, an operation is performed in `Ev`, and a round ends in `Q`. -/
structure Respects (T : Service Answer Event ε α σ) (R : σ → σ → Prop) (Inv Ready : σ → Prop)
    (Ev : Op → σ → Prop) (Q : Except ε α → σ → Prop) : Prop where
  refl : ∀ s, R s s
  trans : ∀ a b c, R a b → R b c → R a c
  environment : ∀ event s s', Inv s → T.Environment event s s' → R s s' ∧ Inv s'
  exec : ∀ op s r s', Inv s → Ev op s → T.Exec op s r s' → Inv s'
  boot : ∀ s s', Inv s → T.Boot s s' → Inv s' ∧ Ready s'
  ready : ∀ s s', Ready s → R s s' → Ready s'
  round : ∀ s, Inv s → Ready s → Prog.wp (Prog.attended R Inv T.Exec Ev) T.round Q s
  stable : ∀ r s s', Q r s → R s s' → Q r s'
  finish : ∀ a s, Inv s → Q (.ok a) s → Ready s
  retry : ∀ e s, Inv s → T.Absorbs e → Q (.error e) s → Ready s

variable {T : Service Answer Event ε α σ} {R : σ → σ → Prop} {Inv Ready : σ → Prop}
  {Ev : Op → σ → Prop} {Q : Except ε α → σ → Prop}

/-- What is known of the process in each phase. -/
def Holds (T : Service Answer Event ε α σ) (R : σ → σ → Prop) (Inv Ready : σ → Prop)
    (Ev : Op → σ → Prop) (Q : Except ε α → σ → Prop) : Phase Answer ε α × σ → Prop
  | (.stopped, _) => True
  | (.waiting, s) => Ready s
  | (.serving p, s) => Prog.wp (Prog.attended R Inv T.Exec Ev) p Q s

/-- What is known of a step. -/
def Sound (Inv : σ → Prop) (Ev : Op → σ → Prop) (Q : Except ε α → σ → Prop)
    (move : Move Op Event ε × σ × σ) : Prop :=
  Inv move.2.1 ∧ Inv move.2.2 ∧
    (∀ op, move.1 = .perform op → Ev op move.2.1) ∧
    (move.1 = .finish → ∃ a, Q (.ok a) move.2.1) ∧
    ∀ e, move.1 = .quit e ∨ move.1 = .retry e → Q (.error e) move.2.1

/-- **One step.** -/
theorem Respects.step (h : T.Respects R Inv Ready Ev Q) {c c' : Phase Answer ε α × σ}
    {m : Move Op Event ε} (hInv : Inv c.2) (hholds : Holds T R Inv Ready Ev Q c) (step : T.Step c m c') :
    Sound Inv Ev Q (m, c.2, c'.2) ∧ Holds T R Inv Ready Ev Q c' := by
  cases step with
  | boot boots =>
    obtain ⟨hInv', hready⟩ := h.boot _ _ hInv boots
    exact ⟨⟨hInv, hInv', by simp, by simp, by simp⟩, hready⟩
  | stop => exact ⟨⟨hInv, hInv, by simp, by simp, by simp⟩, trivial⟩
  | start => exact ⟨⟨hInv, hInv, by simp, by simp, by simp⟩, h.round _ hInv hholds⟩
  | @perform s s' op next r answered =>
    obtain ⟨hev, hrest⟩ := hholds s (h.refl s) hInv
    have hInv' : Inv s' := h.exec op s r s' hInv hev answered
    refine ⟨⟨hInv, hInv', ?_, by simp, by simp⟩, hrest r s' answered hInv'⟩
    intro op' hop
    cases hop
    exact hev
  | @finish s a =>
    have hQ : Q (.ok a) s := hholds
    exact ⟨⟨hInv, hInv, by simp, fun _ => ⟨a, hQ⟩, by simp⟩, h.finish a s hInv hQ⟩
  | @retry s e absorbed =>
    have hQ : Q (.error e) s := hholds
    refine ⟨⟨hInv, hInv, by simp, by simp, ?_⟩, h.retry e s hInv absorbed hQ⟩
    rintro e' (he | he)
    · cases he
    · cases he
      exact hQ
  | @quit s e passed =>
    have hQ : Q (.error e) s := hholds
    refine ⟨⟨hInv, hInv, by simp, by simp, ?_⟩, trivial⟩
    rintro e' (he | he)
    · cases he
      exact hQ
    · cases he
  | @other φ s s' event happens =>
    obtain ⟨hR, hInv'⟩ := h.environment event s s' hInv happens
    refine ⟨⟨hInv, hInv', by simp, by simp, by simp⟩, ?_⟩
    cases φ with
    | stopped => trivial
    | waiting => exact h.ready s s' hholds hR
    | serving p =>
      cases p with
      | done r => exact h.stable r s s' hholds hR
      | await op next => exact fun s₁ hR₁ hInv₁ => hholds s₁ (h.trans _ _ _ hR hR₁) hInv₁

/-- **Soundness.** In every trace each step is sound, whatever was lost when the process stopped. -/
theorem Trace.sound (h : T.Respects R Inv Ready Ev Q) {s₀ : σ} (hs₀ : Inv s₀)
    {moves : List (Move Op Event ε × σ × σ)} {c : Phase Answer ε α × σ} (trace : T.Trace s₀ moves c) :
    (∀ m ∈ moves, Sound Inv Ev Q m) ∧ Inv c.2 ∧ Holds T R Inv Ready Ev Q c := by
  induction trace with
  | nil => exact ⟨by simp, hs₀, trivial⟩
  | @snoc moves c c' m before step ih =>
    obtain ⟨hmoves, hInv, hholds⟩ := ih
    obtain ⟨hsound, hholds'⟩ := h.step hInv hholds step
    refine ⟨fun m' hm' => ?_, hsound.2.1, hholds'⟩
    rcases List.mem_append.mp hm' with hm' | hm'
    · exact hmoves m' hm'
    · rw [List.mem_singleton.mp hm']
      exact hsound

/-- **Soundness from a round on.** Whatever came before it, a round that begins in `Inv` and `Ready`
and all that follows it are sound. -/
theorem Trace.sound_since (h : T.Respects R Inv Ready Ev Q) {s₀ s s' : σ}
    {moves before after : List (Move Op Event ε × σ × σ)} {c : Phase Answer ε α × σ}
    (trace : T.Trace s₀ moves c) (hmoves : moves = before ++ (.start, s, s') :: after)
    (hInv : Inv s) (hready : Ready s) :
    (∀ m ∈ after, Sound Inv Ev Q m) ∧ Inv c.2 ∧ Holds T R Inv Ready Ev Q c := by
  induction trace generalizing after with
  | nil => simp at hmoves
  | @snoc moves c c' m trace step ih =>
    rcases List.eq_nil_or_concat' after with rfl | ⟨front, last, rfl⟩
    · -- The round begins with this step.
      obtain ⟨-, hlast⟩ := List.append_inj' hmoves rfl
      have hstart : (m, c.2, c'.2) = (.start, s, s') := List.singleton_inj.mp hlast
      simp only [Prod.mk.injEq] at hstart
      obtain ⟨rfl, rfl, rfl⟩ := hstart
      cases step with
      | start => exact ⟨by simp, hInv, h.round _ hInv hready⟩
    · have hsplit : moves ++ [(m, c.2, c'.2)] = (before ++ (.start, s, s') :: front) ++ [last] := by
        rw [hmoves, List.append_assoc, List.cons_append]
      obtain ⟨hbefore, hlast⟩ := List.append_inj' hsplit rfl
      obtain ⟨hfront, hInv', hholds⟩ := ih hbefore
      obtain ⟨hsound, hholds'⟩ := h.step hInv' hholds step
      refine ⟨fun m' hm' => ?_, hsound.2.1, hholds'⟩
      rcases List.mem_append.mp hm' with hm' | hm'
      · exact hfront m' hm'
      · rw [List.mem_singleton.mp hm', ← List.singleton_inj.mp hlast]
        exact hsound

/-- What a step does to the state. -/
def Effect (T : Service Answer Event ε α σ) : Move Op Event ε → σ → σ → Prop
  | .boot, s, s' => T.Boot s s'
  | .perform op, s, s' => ∃ r, T.Exec op s r s'
  | .other event, s, s' => T.Environment event s s'
  | _, s, s' => s' = s

theorem Step.effect {c c' : Phase Answer ε α × σ} {m : Move Op Event ε} (step : T.Step c m c') :
    T.Effect m c.2 c'.2 := by
  cases step with
  | boot boots => exact boots
  | perform answered => exact ⟨_, answered⟩
  | other happens => exact happens
  | _ => exact rfl

theorem Trace.effects {s₀ : σ} {moves : List (Move Op Event ε × σ × σ)} {c : Phase Answer ε α × σ}
    (trace : T.Trace s₀ moves c) : ∀ m ∈ moves, T.Effect m.1 m.2.1 m.2.2 := by
  induction trace with
  | nil => simp
  | @snoc moves c c' m before step ih =>
    intro m' hm'
    rcases List.mem_append.mp hm' with hm' | hm'
    · exact ih m' hm'
    · rw [List.mem_singleton.mp hm']
      exact step.effect

theorem Trace.quits {s₀ : σ} {moves : List (Move Op Event ε × σ × σ)} {c : Phase Answer ε α × σ}
    (trace : T.Trace s₀ moves c) : ∀ m ∈ moves, ∀ e, m.1 = .quit e → ¬ T.Absorbs e := by
  induction trace with
  | nil => simp
  | @snoc moves c c' m before step ih =>
    intro m' hm' e he
    rcases List.mem_append.mp hm' with hm' | hm'
    · exact ih m' hm' e he
    · rw [List.mem_singleton.mp hm'] at he
      subst he
      cases step with
      | quit passed => exact passed

/-! ## The states of a trace -/

theorem Trace.getLast {s₀ : σ} {moves : List (Move Op Event ε × σ × σ)} {c : Phase Answer ε α × σ}
    (trace : T.Trace s₀ moves c) : (visited s₀ moves).getLast? = some c.2 := by
  cases trace with
  | nil => rfl
  | @snoc moves c' _ m before step =>
    have hvisited : visited s₀ (moves ++ [(m, c'.2, c.2)]) = visited s₀ moves ++ [c.2] := by
      simp [visited]
    rw [hvisited, List.getLast?_concat]

theorem Trace.mem_visited {s₀ : σ} {moves : List (Move Op Event ε × σ × σ)} {c : Phase Answer ε α × σ}
    (trace : T.Trace s₀ moves c) : c.2 ∈ visited s₀ moves :=
  List.mem_of_getLast? trace.getLast

theorem Trace.visits {s₀ : σ} {moves : List (Move Op Event ε × σ × σ)} {c : Phase Answer ε α × σ}
    (trace : T.Trace s₀ moves c) :
    ∀ m ∈ moves, m.2.1 ∈ visited s₀ moves ∧ m.2.2 ∈ visited s₀ moves := by
  induction trace with
  | nil => simp
  | @snoc moves c c' m before step ih =>
    have hvisited : visited s₀ (moves ++ [(m, c.2, c'.2)]) = visited s₀ moves ++ [c'.2] := by
      simp [visited]
    rw [hvisited]
    intro m' hm'
    rcases List.mem_append.mp hm' with hm' | hm'
    · exact ⟨List.mem_append_left _ (ih m' hm').1, List.mem_append_left _ (ih m' hm').2⟩
    · rw [List.mem_singleton.mp hm']
      exact ⟨List.mem_append_left _ before.mem_visited, by simp⟩

/-- **Invariant rule.** What every step of the trace keeps, every visited state has. -/
theorem Trace.keeps {P : σ → Prop} {s₀ : σ} (hs₀ : P s₀) {moves : List (Move Op Event ε × σ × σ)}
    {c : Phase Answer ε α × σ} (trace : T.Trace s₀ moves c)
    (hkeep : ∀ m ∈ moves, P m.2.1 → P m.2.2) : ∀ s ∈ visited s₀ moves, P s := by
  induction trace with
  | nil => simpa [visited] using hs₀
  | @snoc moves c c' m before step ih =>
    have hbefore := ih fun m' hm' => hkeep m' (List.mem_append_left _ hm')
    intro s hs
    have hvisited : visited s₀ (moves ++ [(m, c.2, c'.2)]) = visited s₀ moves ++ [c'.2] := by
      simp [visited]
    rw [hvisited] at hs
    rcases List.mem_append.mp hs with hs | hs
    · exact hbefore s hs
    · rw [List.mem_singleton.mp hs]
      exact hkeep (m, c.2, c'.2) (by simp) (hbefore _ before.mem_visited)

/-- **Relation rule.** A transitive relation over every step relates every earlier state to every
later one. -/
theorem Trace.pairwise {P : σ → σ → Prop} (trans : ∀ a b c, P a b → P b c → P a c) {s₀ : σ}
    {moves : List (Move Op Event ε × σ × σ)} {c : Phase Answer ε α × σ} (trace : T.Trace s₀ moves c)
    (hsteps : ∀ m ∈ moves, P m.2.1 m.2.2) : (visited s₀ moves).Pairwise P := by
  induction trace with
  | nil => simp [visited]
  | @snoc moves c c' m before step ih =>
    have hbefore := ih fun m' hm' => hsteps m' (List.mem_append_left _ hm')
    have hlast : P c.2 c'.2 := hsteps (m, c.2, c'.2) (by simp)
    have hvisited : visited s₀ (moves ++ [(m, c.2, c'.2)]) = visited s₀ moves ++ [c'.2] := by
      simp [visited]
    rw [hvisited, List.pairwise_append]
    refine ⟨hbefore, by simp, fun a ha b hb => ?_⟩
    rw [List.mem_singleton.mp hb]
    obtain ⟨front, hfront⟩ : ∃ front, visited s₀ moves = front ++ [c.2] :=
      List.getLast?_eq_some_iff.mp before.getLast
    rw [hfront] at ha hbefore
    rcases List.mem_append.mp ha with ha | ha
    · exact trans _ _ _ ((List.pairwise_append.mp hbefore).2.2 a ha c.2 (by simp)) hlast
    · rw [List.mem_singleton.mp ha]
      exact hlast

/-! ## Traces whose operations meet a condition -/

/-- The service in which operations are executed, and events happen, only where `C` and `D` hold. -/
def restrict (T : Service Answer Event ε α σ) (C : Op → σ → Prop) (D : Event → σ → Prop) :
    Service Answer Event ε α σ :=
  { T with
    Exec := fun op s r s' => T.Exec op s r s' ∧ C op s
    Environment := fun event s s' => T.Environment event s s' ∧ D event s }

theorem Trace.restrict {C : Op → σ → Prop} {D : Event → σ → Prop} {s₀ : σ} {moves : List (Move Op Event ε × σ × σ)}
    {c : Phase Answer ε α × σ} (trace : T.Trace s₀ moves c)
    (hC : ∀ m ∈ moves, ∀ op, m.1 = .perform op → C op m.2.1)
    (hD : ∀ m ∈ moves, ∀ event, m.1 = .other event → D event m.2.1) :
    (T.restrict C D).Trace s₀ moves c := by
  induction trace with
  | nil => exact .nil
  | @snoc moves c c' m before step ih =>
    have hlast : ∀ op, m = .perform op → C op c.2 := fun op hop =>
      hC (m, c.2, c'.2) (by simp) op hop
    have hevent : ∀ event, m = .other event → D event c.2 := fun event he =>
      hD (m, c.2, c'.2) (by simp) event he
    refine .snoc (ih (fun m' hm' => hC m' (List.mem_append_left _ hm'))
      fun m' hm' => hD m' (List.mem_append_left _ hm')) ?_
    cases step with
    | boot boots => exact .boot boots
    | stop => exact .stop
    | start => exact .start
    | perform answered => exact .perform ⟨answered, hlast _ rfl⟩
    | finish => exact .finish
    | retry absorbed => exact .retry absorbed
    | quit passed => exact .quit passed
    | other happens => exact .other ⟨happens, hevent _ rfl⟩

/-! ## Running a round -/

/-- The operations of a run, each with the state it is performed in. -/
def performed (exec : (op : Op) → σ → Except ε (Answer op) × σ) : Prog Answer ε α → σ → List (Op × σ)
  | .done _, _ => []
  | .await op next, s => (op, s) :: performed exec (next (exec op s).1) (exec op s).2

theorem Trace.runs {exec : (op : Op) → σ → Except ε (Answer op) × σ}
    (hexec : ∀ op s, T.Exec op s (exec op s).1 (exec op s).2) {s₀ : σ} {p : Prog Answer ε α}
    {s : σ} {moves : List (Move Op Event ε × σ × σ)} (trace : T.Trace s₀ moves (.serving p, s)) :
    T.Trace s₀ (moves ++ (performed exec p s).map fun x => (.perform x.1, x.2, (exec x.1 x.2).2))
      (.serving (.done (p.run exec s).1), (p.run exec s).2) := by
  induction p generalizing s moves with
  | done r => simpa [performed] using trace
  | await op next ih =>
    have hstep : T.Step (.serving (.await op next), s) (.perform op)
        (.serving (next (exec op s).1), (exec op s).2) := .perform (hexec op s)
    have hmoves := ih _ (trace.snoc hstep)
    rw [List.append_assoc, List.singleton_append] at hmoves
    exact hmoves

end Service
end Async
end RepoMesh
