/-
# Asynchronous calls

A call of an asynchronous system as data: it asks one operation at a time and goes on with the
answer, which may be an exception. The module runs such a call without interruption, lists the
operations that run performs, and gives the rules of weakest preconditions.
-/
import Mathlib.Data.List.Basic

namespace RepoMesh
namespace Async

universe u

/-- A call: finished with a result, or waiting for the answer to one operation. -/
inductive Prog {Op : Type} (Answer : Op → Type) (ε α : Type) where
  | done (r : Except ε α)
  | await (op : Op) (next : Except ε (Answer op) → Prog Answer ε α)

namespace Prog

variable {Op : Type} {Answer : Op → Type} {ε α β γ : Type}

/-- Sequencing: an exception skips the rest. -/
def bind (p : Prog Answer ε α) (f : α → Prog Answer ε β) : Prog Answer ε β :=
  match p with
  | .done (.ok a) => f a
  | .done (.error e) => .done (.error e)
  | .await op next => .await op fun r => bind (next r) f

/-- `try: p except: h`. -/
def tryCatch (p : Prog Answer ε α) (h : ε → Prog Answer ε α) : Prog Answer ε α :=
  match p with
  | .done (.ok a) => .done (.ok a)
  | .done (.error e) => h e
  | .await op next => .await op fun r => tryCatch (next r) h

instance : Monad (Prog Answer ε) where
  pure a := .done (.ok a)
  bind := bind

instance : MonadExceptOf ε (Prog Answer ε) where
  throw e := .done (.error e)
  tryCatch := tryCatch

/-- One operation, with its answer as the result. -/
def perform (op : Op) : Prog Answer ε (Answer op) := .await op .done

/-- A computation that asks nothing. -/
def lift (r : Except ε α) : Prog Answer ε α := .done r

/-- `for x in xs: ys.append(f(x))`. -/
def each (f : α → Prog Answer ε β) : List α → Prog Answer ε (List β)
  | [] => pure []
  | x :: xs => do
    let y ← f x
    let ys ← each f xs
    pure (y :: ys)

@[simp] theorem pure_eq (a : α) : (pure a : Prog Answer ε α) = .done (.ok a) := rfl

@[simp] theorem throw_eq (e : ε) : (throw e : Prog Answer ε α) = .done (.error e) := rfl

@[simp] theorem ok_bind (a : α) (f : α → Prog Answer ε β) :
    (Prog.done (.ok a) >>= f) = f a := rfl

@[simp] theorem error_bind (e : ε) (f : α → Prog Answer ε β) :
    (Prog.done (.error e) >>= f) = .done (.error e) := rfl

@[simp] theorem await_bind (op : Op) (next : Except ε (Answer op) → Prog Answer ε α)
    (f : α → Prog Answer ε β) :
    (Prog.await op next >>= f) = .await op fun r => next r >>= f := rfl

theorem bind_assoc (p : Prog Answer ε α) (f : α → Prog Answer ε β) (g : β → Prog Answer ε γ) :
    (p >>= f) >>= g = p >>= fun a => f a >>= g := by
  induction p with
  | done r => cases r <;> rfl
  | await op next ih =>
    simp only [await_bind]
    congr 1
    funext r
    exact ih r

/-- Go on with the outcome of a call, be it a result or an exception. -/
def resume (p : Prog Answer ε α) (k : Except ε α → Prog Answer ε β) : Prog Answer ε β :=
  match p with
  | .done r => k r
  | .await op next => .await op fun r => resume (next r) k

/-- Replace each operation by a call of finer operations. -/
def expand {Op' : Type} {Answer' : Op' → Type} (f : (op : Op) → Prog Answer' ε (Answer op)) :
    Prog Answer ε α → Prog Answer' ε α
  | .done r => .done r
  | .await op next => resume (f op) fun r => expand f (next r)

/-- The call with a mark on each of its operations, for telling apart what different callers do. -/
def marked {τ : Type} (mark : τ) :
    Prog Answer ε α → Prog (fun o : τ × Op => Answer o.2) ε α
  | .done r => .done r
  | .await op next => .await (mark, op) fun r => marked mark (next r)

/-! ## Uninterrupted runs -/

section Run

variable {σ : Type u} (exec : (op : Op) → σ → Except ε (Answer op) × σ)

/-- The whole call without interruption: its result and the state it leaves. -/
def run : Prog Answer ε α → σ → Except ε α × σ
  | .done r, s => (r, s)
  | .await op next, s => run (next (exec op s).1) (exec op s).2

/-- The operations of that run, each with the state it finds. -/
def events : Prog Answer ε α → σ → List (Op × σ)
  | .done _, _ => []
  | .await op next, s => (op, s) :: events (next (exec op s).1) (exec op s).2

@[simp] theorem run_done (r : Except ε α) (s : σ) : run exec (.done r) s = (r, s) := rfl

@[simp] theorem run_perform (op : Op) (s : σ) : run exec (perform op) s = exec op s := rfl

@[simp] theorem run_lift (r : Except ε α) (s : σ) : run exec (lift r) s = (r, s) := rfl

theorem run_bind (p : Prog Answer ε α) (f : α → Prog Answer ε β) (s : σ) :
    run exec (p >>= f) s =
      match run exec p s with
      | (.ok a, s') => run exec (f a) s'
      | (.error e, s') => (.error e, s') := by
  induction p generalizing s with
  | done r => cases r <;> rfl
  | await op next ih => exact ih _ _

theorem run_bind_ok {p : Prog Answer ε α} {f : α → Prog Answer ε β} {s s' : σ} {a : α}
    (h : run exec p s = (.ok a, s')) : run exec (p >>= f) s = run exec (f a) s' := by
  rw [run_bind, h]

theorem run_bind_error {p : Prog Answer ε α} {f : α → Prog Answer ε β} {s s' : σ} {e : ε}
    (h : run exec p s = (.error e, s')) : run exec (p >>= f) s = (.error e, s') := by
  rw [run_bind, h]

theorem exists_of_run_bind {p : Prog Answer ε α} {f : α → Prog Answer ε β} {s s'' : σ} {b : β}
    (h : run exec (p >>= f) s = (.ok b, s'')) :
    ∃ a s', run exec p s = (.ok a, s') ∧ run exec (f a) s' = (.ok b, s'') := by
  rw [run_bind] at h
  cases hrun : run exec p s with
  | mk r s' =>
    rw [hrun] at h
    cases r with
    | error e => cases congrArg Prod.fst h
    | ok a => exact ⟨a, s', rfl, h⟩

theorem run_perform_ok {op : Op} {f : Answer op → Prog Answer ε β} {s s' : σ} {a : Answer op}
    (h : exec op s = (.ok a, s')) : run exec (perform op >>= f) s = run exec (f a) s' :=
  run_bind_ok exec (by rw [run_perform, h])

theorem run_perform_error {op : Op} {f : Answer op → Prog Answer ε β} {s s' : σ} {e : ε}
    (h : exec op s = (.error e, s')) : run exec (perform op >>= f) s = (.error e, s') :=
  run_bind_error exec (by rw [run_perform, h])

theorem run_bind_rel {R : σ → σ → Prop} (trans : ∀ a b c, R a b → R b c → R a c)
    {p : Prog Answer ε α} {f : α → Prog Answer ε β} {s : σ} (hp : R s (run exec p s).2)
    (hf : ∀ a s', run exec p s = (.ok a, s') → R s' (run exec (f a) s').2) :
    R s (run exec (p >>= f) s).2 := by
  rw [run_bind]
  cases hrun : run exec p s with
  | mk r s' =>
    rw [hrun] at hp
    cases r with
    | error e => exact hp
    | ok a => exact trans _ _ _ hp (hf a s' hrun)

theorem run_tryCatch (p : Prog Answer ε α) (h : ε → Prog Answer ε α) (s : σ) :
    run exec (MonadExcept.tryCatch p h) s =
      match run exec p s with
      | (.ok a, s') => (.ok a, s')
      | (.error e, s') => run exec (h e) s' := by
  induction p generalizing s with
  | done r => cases r <;> rfl
  | await op next ih => exact ih _ _

theorem run_tryCatch_ok {p : Prog Answer ε α} {h : ε → Prog Answer ε α} {s s' : σ} {a : α}
    (hp : run exec p s = (.ok a, s')) : run exec (MonadExcept.tryCatch p h) s = (.ok a, s') := by
  rw [run_tryCatch, hp]

theorem run_tryCatch_error {p : Prog Answer ε α} {h : ε → Prog Answer ε α} {s s' : σ} {e : ε}
    (hp : run exec p s = (.error e, s')) :
    run exec (MonadExcept.tryCatch p h) s = run exec (h e) s' := by
  rw [run_tryCatch, hp]

theorem events_bind (p : Prog Answer ε α) (f : α → Prog Answer ε β) (s : σ) :
    events exec (p >>= f) s = events exec p s ++
      match run exec p s with
      | (.ok a, s') => events exec (f a) s'
      | (.error _, _) => [] := by
  induction p generalizing s with
  | done r => cases r <;> rfl
  | await op next ih => exact congrArg ((op, s) :: ·) (ih _ _)

theorem run_invariant {I : σ → Prop} (step : ∀ op s, I s → I (exec op s).2) (p : Prog Answer ε α)
    {s : σ} (hs : I s) : (∀ e ∈ events exec p s, I e.2) ∧ I (run exec p s).2 := by
  induction p generalizing s with
  | done r => exact ⟨fun e he => absurd he List.not_mem_nil, hs⟩
  | await op next ih =>
    obtain ⟨hevents, hend⟩ := ih _ (step op s hs)
    refine ⟨fun e he => ?_, hend⟩
    rcases List.mem_cons.mp he with rfl | he
    · exact hs
    · exact hevents e he

end Run

/-! ## Calls that raise nothing of their own -/

section Passes

/-- The call raises what its operations raise, and nothing else. -/
def Passes : Prog Answer ε α → Prop
  | .done (.ok _) => True
  | .done (.error _) => False
  | .await _ next => (∀ a, Passes (next (.ok a))) ∧ ∀ e, next (.error e) = .done (.error e)

theorem passes_pure (a : α) : Passes (pure a : Prog Answer ε α) := trivial

theorem passes_perform (op : Op) : Passes (perform op : Prog Answer ε (Answer op)) :=
  ⟨fun _ => trivial, fun _ => rfl⟩

theorem Passes.bind {p : Prog Answer ε α} {f : α → Prog Answer ε β} (hp : Passes p)
    (hf : ∀ a, Passes (f a)) : Passes (p >>= f) := by
  induction p with
  | done r =>
    cases r with
    | error e => exact hp.elim
    | ok a => exact hf a
  | await op next ih =>
    refine ⟨fun a => ih _ (hp.1 a), fun e => ?_⟩
    show next (.error e) >>= f = .done (.error e)
    rw [hp.2 e]
    rfl

/-- **Such a call raises at one of its operations**, and there it ends. -/
theorem Passes.run_error_iff {σ : Type u} {exec : (op : Op) → σ → Except ε (Answer op) × σ}
    {p : Prog Answer ε α} (hp : Passes p) {s s' : σ} :
    (∃ e, run exec p s = (.error e, s')) ↔
      ∃ event ∈ events exec p s, ∃ e, exec event.1 event.2 = (.error e, s') := by
  induction p generalizing s with
  | done r =>
    cases r with
    | error e => exact hp.elim
    | ok a =>
      constructor
      · rintro ⟨e, he⟩
        cases he
      · rintro ⟨event, he, -⟩
        cases he
  | await op next ih =>
    have hrun : run exec (.await op next) s = run exec (next (exec op s).1) (exec op s).2 := rfl
    rw [hrun]
    constructor
    · rintro ⟨e, he⟩
      cases hop : (exec op s).1 with
      | error e' =>
        rw [hop, hp.2 e', run_done] at he
        have hstate : (exec op s).2 = s' := congrArg Prod.snd he
        exact ⟨(op, s), List.mem_cons_self, e', Prod.ext hop hstate⟩
      | ok a =>
        rw [hop] at he
        obtain ⟨event, hevent, hfails⟩ := (ih _ (hp.1 a)).mp ⟨e, he⟩
        refine ⟨event, List.mem_cons_of_mem _ ?_, hfails⟩
        rw [hop]
        exact hevent
    · rintro ⟨event, hevent, e, hfails⟩
      cases hop : (exec op s).1 with
      | error e' =>
        rw [hp.2 e']
        have hnone : events exec (next (.error e')) (exec op s).2 = [] := by rw [hp.2 e']; rfl
        rcases List.mem_cons.mp hevent with rfl | hevent
        · have hstate : (exec op s).2 = s' := congrArg Prod.snd hfails
          exact ⟨e', by rw [run_done, hstate]⟩
        · rw [hop, hnone] at hevent
          cases hevent
      | ok a =>
        rcases List.mem_cons.mp hevent with rfl | hevent
        · have hok := congrArg Prod.fst hfails
          rw [hop] at hok
          cases hok
        · rw [hop] at hevent
          exact (ih _ (hp.1 a)).mpr ⟨event, hevent, e, hfails⟩

end Passes

/-! ## The operations a call may perform -/

section Only

/-- Whatever is answered, the call performs operations of `P` only. -/
def Only (P : Op → Prop) : Prog Answer ε α → Prop
  | .done _ => True
  | .await op next => P op ∧ ∀ r, Only P (next r)

variable {P P' : Op → Prop}

@[simp] theorem only_done (r : Except ε α) : Only P (.done r : Prog Answer ε α) := trivial

theorem only_await {op : Op} {next : Except ε (Answer op) → Prog Answer ε α} :
    Only P (.await op next) ↔ P op ∧ ∀ r, Only P (next r) := Iff.rfl

@[simp] theorem only_lift (r : Except ε α) : Only P (lift r : Prog Answer ε α) := trivial

@[simp] theorem only_perform (op : Op) :
    Only P (perform op : Prog Answer ε (Answer op)) ↔ P op :=
  ⟨fun h => h.1, fun h => ⟨h, fun _ => trivial⟩⟩

theorem only_bind {p : Prog Answer ε α} {f : α → Prog Answer ε β} (hp : Only P p)
    (hf : ∀ a, Only P (f a)) : Only P (p >>= f) := by
  induction p with
  | done r =>
    cases r with
    | error e => trivial
    | ok a => exact hf a
  | await op next ih => exact ⟨hp.1, fun r => ih r (hp.2 r)⟩

theorem only_tryCatch {p : Prog Answer ε α} {h : ε → Prog Answer ε α} (hp : Only P p)
    (hh : ∀ e, Only P (h e)) : Only P (MonadExcept.tryCatch p h) := by
  induction p with
  | done r =>
    cases r with
    | error e => exact hh e
    | ok a => trivial
  | await op next ih => exact ⟨hp.1, fun r => ih r (hp.2 r)⟩

theorem only_each {f : α → Prog Answer ε β} {xs : List α} (hf : ∀ x ∈ xs, Only P (f x)) :
    Only P (each f xs) := by
  induction xs with
  | nil => trivial
  | cons x xs ih =>
    refine only_bind (hf x (by simp)) fun y => ?_
    exact only_bind (ih fun z hz => hf z (by simp [hz])) fun ys => trivial

theorem Only.mono {p : Prog Answer ε α} (hp : Only P p) (h : ∀ op, P op → P' op) : Only P' p := by
  induction p with
  | done r => trivial
  | await op next ih => exact ⟨h op hp.1, fun r => ih r (hp.2 r)⟩

theorem Only.run_rel {σ : Type u} {exec : (op : Op) → σ → Except ε (Answer op) × σ}
    {R : σ → σ → Prop} (refl : ∀ s, R s s) (trans : ∀ a b c, R a b → R b c → R a c)
    (step : ∀ op s, P op → R s (exec op s).2) {p : Prog Answer ε α} (hp : Only P p) (s : σ) :
    R s (run exec p s).2 := by
  induction p generalizing s with
  | done r => exact refl s
  | await op next ih => exact trans _ _ _ (step op s hp.1) (ih _ (hp.2 _) _)

theorem Only.events {σ : Type u} {exec : (op : Op) → σ → Except ε (Answer op) × σ}
    {p : Prog Answer ε α} (hp : Only P p) (s : σ) : ∀ e ∈ events exec p s, P e.1 := by
  induction p generalizing s with
  | done r => intro e he; cases he
  | await op next ih =>
    intro e he
    rcases List.mem_cons.mp he with rfl | he
    · exact hp.1
    · exact ih _ (hp.2 _) _ e he

theorem Only.run_eq {σ : Type u} {exec : (op : Op) → σ → Except ε (Answer op) × σ}
    (step : ∀ op s, P op → (exec op s).2 = s) {p : Prog Answer ε α} (hp : Only P p) (s : σ) :
    (run exec p s).2 = s :=
  hp.run_rel (R := fun a b => b = a) (fun _ => rfl) (fun _ _ _ hab hbc => hbc.trans hab) step s

theorem Only.run_congr {σ : Type u} {exec : (op : Op) → σ → Except ε (Answer op) × σ}
    {R : σ → σ → Prop}
    (step : ∀ op s t, P op → R s t →
      (exec op s).1 = (exec op t).1 ∧ R (exec op s).2 (exec op t).2)
    {p : Prog Answer ε α} (hp : Only P p) {s t : σ} (h : R s t) :
    (run exec p s).1 = (run exec p t).1 := by
  induction p generalizing s t with
  | done r => rfl
  | await op next ih =>
    obtain ⟨hanswer, hrel⟩ := step op s t hp.1 h
    show (run exec (next (exec op s).1) (exec op s).2).1 =
      (run exec (next (exec op t).1) (exec op t).2).1
    rw [hanswer]
    exact ih _ (hp.2 _) hrel

/-- Whatever is answered, no operation of `W` is performed after one that was answered with a
result. -/
def AtMostOnce (W : Op → Prop) : Prog Answer ε α → Prop
  | .done _ => True
  | .await op next =>
    (W op → ∀ a, Only (fun o => ¬ W o) (next (.ok a))) ∧ ∀ r, AtMostOnce W (next r)

variable {W : Op → Prop}

@[simp] theorem atMostOnce_done (r : Except ε α) : AtMostOnce W (.done r : Prog Answer ε α) := trivial

theorem atMostOnce_await {op : Op} {next : Except ε (Answer op) → Prog Answer ε α} :
    AtMostOnce W (.await op next) ↔
      (W op → ∀ a, Only (fun o => ¬ W o) (next (.ok a))) ∧ ∀ r, AtMostOnce W (next r) := Iff.rfl

theorem Only.atMostOnce {p : Prog Answer ε α} (hp : Only (fun o => ¬ W o) p) : AtMostOnce W p := by
  induction p with
  | done r => trivial
  | await op next ih => exact ⟨fun hop => absurd hop hp.1, fun r => ih r (hp.2 r)⟩

theorem AtMostOnce.bind_left {p : Prog Answer ε α} {f : α → Prog Answer ε β}
    (hp : Only (fun o => ¬ W o) p) (hf : ∀ a, AtMostOnce W (f a)) : AtMostOnce W (p >>= f) := by
  induction p with
  | done r =>
    cases r with
    | error e => trivial
    | ok a => exact hf a
  | await op next ih => exact ⟨fun hop => absurd hop hp.1, fun r => ih r (hp.2 r)⟩

theorem AtMostOnce.bind_right {p : Prog Answer ε α} {f : α → Prog Answer ε β}
    (hp : AtMostOnce W p) (hf : ∀ a, Only (fun o => ¬ W o) (f a)) : AtMostOnce W (p >>= f) := by
  induction p with
  | done r =>
    cases r with
    | error e => trivial
    | ok a => exact (hf a).atMostOnce
  | await op next ih =>
    exact ⟨fun hop a => only_bind (hp.1 hop a) hf, fun r => ih r (hp.2 r)⟩

theorem atMostOnce_perform (op : Op) : AtMostOnce W (perform op : Prog Answer ε (Answer op)) :=
  ⟨fun _ _ => trivial, fun _ => trivial⟩

-- From here on the rules above are used; unfolding would evaluate the call itself.
attribute [irreducible] Only AtMostOnce

end Only

/-! ## Weakest preconditions -/

section Wp

variable {σ : Type u}

/-- What one operation has to meet: from what must hold of its answer and of the state after
it, what must hold before it. -/
abbrev Spec (Answer : Op → Type) (ε : Type) (σ : Type u) :=
  (op : Op) → (Except ε (Answer op) → σ → Prop) → σ → Prop

/-- A specification is monotone in what must hold afterwards. -/
def Spec.Mono (Φ : Spec Answer ε σ) : Prop :=
  ∀ op {Q Q' : Except ε (Answer op) → σ → Prop} {s : σ},
    (∀ r s', Q r s' → Q' r s') → Φ op Q s → Φ op Q' s

/-- The weakest precondition of a call under a specification of its operations. -/
def wp (Φ : Spec Answer ε σ) : Prog Answer ε α → (Except ε α → σ → Prop) → σ → Prop
  | .done r, Q, s => Q r s
  | .await op next, Q, s => Φ op (fun r s' => wp Φ (next r) Q s') s

variable {Φ Ψ : Spec Answer ε σ}

@[simp] theorem wp_done (r : Except ε α) (Q : Except ε α → σ → Prop) (s : σ) :
    wp Φ (.done r) Q s ↔ Q r s := Iff.rfl

@[simp] theorem wp_lift (r : Except ε α) (Q : Except ε α → σ → Prop) (s : σ) :
    wp Φ (lift r) Q s ↔ Q r s := Iff.rfl

/-- **Consequence.** What follows from a postcondition may replace it. -/
theorem wp_mono (hΦ : Φ.Mono) {p : Prog Answer ε α} {Q Q' : Except ε α → σ → Prop}
    (hQ : ∀ r s', Q r s' → Q' r s') {s : σ} (h : wp Φ p Q s) : wp Φ p Q' s := by
  induction p generalizing s with
  | done r => exact hQ r s h
  | await op next ih => exact hΦ op (fun r s' hr => ih r hr) h

/-- What must hold after the first part of a sequence: the second part is safe from there, or
the exception is. -/
def andThen (Φ : Spec Answer ε σ) (f : α → Prog Answer ε β) (Q : Except ε β → σ → Prop) :
    Except ε α → σ → Prop
  | .ok a, s => wp Φ (f a) Q s
  | .error e, s => Q (.error e) s

@[simp] theorem andThen_ok (f : α → Prog Answer ε β) (Q : Except ε β → σ → Prop) (a : α) (s : σ) :
    andThen Φ f Q (.ok a) s ↔ wp Φ (f a) Q s := Iff.rfl

@[simp] theorem andThen_error (f : α → Prog Answer ε β) (Q : Except ε β → σ → Prop) (e : ε)
    (s : σ) : andThen Φ f Q (.error e) s ↔ Q (.error e) s := Iff.rfl

/-- **Sequence.** -/
theorem wp_bind (hΦ : Φ.Mono) (p : Prog Answer ε α) (f : α → Prog Answer ε β)
    (Q : Except ε β → σ → Prop) (s : σ) :
    wp Φ (p >>= f) Q s ↔ wp Φ p (andThen Φ f Q) s := by
  induction p generalizing s with
  | done r => cases r <;> rfl
  | await op next ih =>
    exact ⟨hΦ op fun r s' => (ih r s').mp, hΦ op fun r s' => (ih r s').mpr⟩

/-- What must hold where an exception may be caught. -/
def orElse (Φ : Spec Answer ε σ) (h : ε → Prog Answer ε α) (Q : Except ε α → σ → Prop) :
    Except ε α → σ → Prop
  | .ok a, s => Q (.ok a) s
  | .error e, s => wp Φ (h e) Q s

@[simp] theorem orElse_ok (h : ε → Prog Answer ε α) (Q : Except ε α → σ → Prop) (a : α) (s : σ) :
    orElse Φ h Q (.ok a) s ↔ Q (.ok a) s := Iff.rfl

@[simp] theorem orElse_error (h : ε → Prog Answer ε α) (Q : Except ε α → σ → Prop) (e : ε)
    (s : σ) : orElse Φ h Q (.error e) s ↔ wp Φ (h e) Q s := Iff.rfl

/-- **Caught exceptions.** -/
theorem wp_tryCatch (hΦ : Φ.Mono) (p : Prog Answer ε α) (h : ε → Prog Answer ε α)
    (Q : Except ε α → σ → Prop) (s : σ) :
    wp Φ (MonadExcept.tryCatch p h) Q s ↔ wp Φ p (orElse Φ h Q) s := by
  induction p generalizing s with
  | done r => cases r <;> rfl
  | await op next ih =>
    exact ⟨hΦ op fun r s' => (ih r s').mp, hΦ op fun r s' => (ih r s').mpr⟩

/-- **Loop.** An invariant that every round keeps, whatever the round answers, holds after the
loop; it may speak about the rounds still to come. -/
theorem wp_each (hΦ : Φ.Mono) {f : α → Prog Answer ε β} {Inv : List α → σ → Prop}
    {E : ε → σ → Prop}
    (round : ∀ x xs s, Inv (x :: xs) s →
      wp Φ (f x) (fun r s' => match r with
        | .ok _ => Inv xs s'
        | .error e => E e s') s)
    (xs : List α) {s : σ} (hs : Inv xs s) :
    wp Φ (each f xs) (fun r s' => match r with
      | .ok _ => Inv [] s'
      | .error e => E e s') s := by
  induction xs generalizing s with
  | nil => exact hs
  | cons x xs ih =>
    rw [each, wp_bind hΦ]
    refine wp_mono hΦ ?_ (round x xs s hs)
    rintro (e | y) s' h
    · exact h
    · rw [andThen_ok, wp_bind hΦ]
      refine wp_mono hΦ ?_ (ih h)
      rintro (e | ys) s'' h'
      · exact h'
      · exact h'

/-- **Going on with an outcome.** -/
theorem wp_resume (p : Prog Answer ε α) (k : Except ε α → Prog Answer ε β)
    (hΦ : Φ.Mono) (Q : Except ε β → σ → Prop) (s : σ) :
    wp Φ (resume p k) Q s ↔ wp Φ p (fun r s' => wp Φ (k r) Q s') s := by
  induction p generalizing s with
  | done r => rfl
  | await op next ih => exact ⟨hΦ op fun r s' => (ih r s').mp, hΦ op fun r s' => (ih r s').mpr⟩

/-- **Refinement of operations.** What a call guarantees by a specification of its operations, it
guarantees when each operation is replaced by a finer call that meets the specification. -/
theorem wp_expand {Op' : Type} {Answer' : Op' → Type} {Φ' : Spec Answer' ε σ} (hΦ' : Φ'.Mono)
    {f : (op : Op) → Prog Answer' ε (Answer op)}
    (hf : ∀ op (Q : Except ε (Answer op) → σ → Prop) s, Φ op Q s → wp Φ' (f op) Q s)
    {p : Prog Answer ε α} {Q : Except ε α → σ → Prop} {s : σ} (h : wp Φ p Q s) :
    wp Φ' (expand f p) Q s := by
  induction p generalizing s with
  | done r => exact h
  | await op next ih =>
    refine (wp_resume _ _ hΦ' _ _).mpr ?_
    exact wp_mono hΦ' (fun r s' hr => ih r hr) (hf op _ s h)

end Wp

/-! ## The specification of an uninterrupted run -/

section Uninterrupted

variable {σ : Type u} (exec : (op : Op) → σ → Except ε (Answer op) × σ)

/-- Every operation finds a state that satisfies `Ev` and answers as `exec` does. -/
def uninterrupted (Ev : Op → σ → Prop) : Spec Answer ε σ :=
  fun op Q s => Ev op s ∧ Q (exec op s).1 (exec op s).2

theorem uninterrupted_mono (Ev : Op → σ → Prop) : (uninterrupted exec Ev).Mono :=
  fun _ _ _ _ h hQ => ⟨hQ.1, h _ _ hQ.2⟩

/-- **Meaning of the weakest precondition.** All operations of the run satisfy `Ev` where they
are performed, and its result satisfies `Q`. -/
theorem wp_uninterrupted (Ev : Op → σ → Prop) (p : Prog Answer ε α)
    (Q : Except ε α → σ → Prop) (s : σ) :
    wp (uninterrupted exec Ev) p Q s ↔
      (∀ e ∈ events exec p s, Ev e.1 e.2) ∧ Q (run exec p s).1 (run exec p s).2 := by
  induction p generalizing s with
  | done r => simp [wp, events, run]
  | await op next ih =>
    have hstep := ih (exec op s).1 (exec op s).2
    simp only [wp, uninterrupted, events, run, List.forall_mem_cons, and_assoc]
    exact and_congr_right fun _ => hstep

variable {exec} {Ev : Op → σ → Prop} {I : σ → Prop}

/-- Along the run of a call every operation finds a state in `Ev`, and `I` holds when it ends,
with a result or with an exception. -/
def Along (exec : (op : Op) → σ → Except ε (Answer op) × σ) (Ev : Op → σ → Prop) (I : σ → Prop)
    (p : Prog Answer ε α) (s : σ) : Prop :=
  wp (uninterrupted exec Ev) p (fun _ => I) s

theorem along_iff {p : Prog Answer ε α} {s : σ} :
    Along exec Ev I p s ↔ (∀ e ∈ events exec p s, Ev e.1 e.2) ∧ I (run exec p s).2 :=
  wp_uninterrupted exec Ev p _ s

theorem along_done {r : Except ε α} {s : σ} (h : I s) : Along exec Ev I (.done r) s := h

theorem along_perform {op : Op} {s : σ} (hop : Ev op s) (h : I (exec op s).2) :
    Along exec Ev I (perform op : Prog Answer ε (Answer op)) s := ⟨hop, h⟩

/-- **Sequence**, when only `I` matters of what the first part leaves. -/
theorem along_bind {p : Prog Answer ε α} {f : α → Prog Answer ε β} {s : σ}
    (hp : Along exec Ev I p s) (hf : ∀ a s', I s' → Along exec Ev I (f a) s') :
    Along exec Ev I (p >>= f) s := by
  refine (wp_bind (uninterrupted_mono exec Ev) p f _ s).mpr ?_
  refine wp_mono (uninterrupted_mono exec Ev) ?_ hp
  rintro (e | a) s' h
  · exact h
  · exact hf a s' h

/-- **Sequence** after one operation: the rest may use what it answered. -/
theorem along_perform_bind {op : Op} {f : Answer op → Prog Answer ε β} {s : σ} (hop : Ev op s)
    (hok : ∀ a s', exec op s = (.ok a, s') → Along exec Ev I (f a) s')
    (herror : ∀ e s', exec op s = (.error e, s') → I s') :
    Along exec Ev I (perform op >>= f) s := by
  refine ⟨hop, ?_⟩
  cases h : exec op s with
  | mk r s' =>
    cases r with
    | ok a => exact hok a s' h
    | error e => exact herror e s' h

/-- **Consequence.** -/
theorem Along.mono {Ev' : Op → σ → Prop} {I' : σ → Prop} {p : Prog Answer ε α} {s : σ}
    (h : Along exec Ev I p s) (hEv : ∀ op s, Ev op s → Ev' op s) (hI : ∀ s, I s → I' s) :
    Along exec Ev' I' p s := by
  obtain ⟨hevents, hend⟩ := along_iff.mp h
  exact along_iff.mpr ⟨fun e he => hEv _ _ (hevents e he), hI _ hend⟩

theorem Only.along {P : Op → Prop} {p : Prog Answer ε α} (hp : Only P p)
    (hEv : ∀ op s, P op → Ev op s) (hI : ∀ op s, P op → I s → I (exec op s).2) {s : σ} (hs : I s) :
    Along exec Ev I p s := by
  refine along_iff.mpr ⟨fun e he => hEv _ _ (hp.events s e he), ?_⟩
  exact hp.run_rel (R := fun a b => I a → I b) (fun _ h => h) (fun _ _ _ hab hbc ha => hbc (hab ha))
    hI s hs

end Uninterrupted

end Prog
end Async
end RepoMesh
