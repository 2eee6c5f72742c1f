/-
# Runs of a deterministic system

A system with one `next` function, run on a list of operations: the states it visits, the
steps it takes, and the rules that carry a property of one step to every run.
-/
import Mathlib.Data.List.Chain
import Mathlib.Logic.Relation

namespace RepoMesh
namespace Runs

universe u v w

variable {σ : Type u} {ι : Type v}

section Attempt

variable {ε : Type w}

/-- An operation that may be refused, as a total step: a refused one changes nothing. -/
def attempt (apply : ι → σ → Except ε σ) (s : σ) (op : ι) : σ :=
  match apply op s with
  | .ok s' => s'
  | .error _ => s

theorem attempt_ok {apply : ι → σ → Except ε σ} {s s' : σ} {op : ι} (h : apply op s = .ok s') :
    attempt apply s op = s' := by
  simp only [attempt, h]

theorem attempt_error {apply : ι → σ → Except ε σ} {s : σ} {op : ι} {e : ε}
    (h : apply op s = .error e) : attempt apply s op = s := by
  simp only [attempt, h]

theorem attempt_cases {apply : ι → σ → Except ε σ} {s : σ} {op : ι} {P : σ → Prop} (hs : P s)
    (hok : ∀ s', apply op s = .ok s' → P s') : P (attempt apply s op) := by
  cases h : apply op s with
  | ok s' => rw [attempt_ok h]; exact hok s' h
  | error e => rw [attempt_error h]; exact hs

end Attempt

variable (next : σ → ι → σ)

/-- The states a run visits, its first state included. -/
def states (s : σ) : List ι → List σ
  | [] => [s]
  | op :: ops => s :: states (next s op) ops

/-- The steps of a run: each operation with the state it is tried in. -/
def steps (s : σ) : List ι → List (σ × ι)
  | [] => []
  | op :: ops => (s, op) :: steps (next s op) ops

variable {next}

theorem foldl_mem_states (s : σ) (ops : List ι) : ops.foldl next s ∈ states next s ops := by
  induction ops generalizing s with
  | nil => simp [states]
  | cons op ops ih => exact List.mem_cons_of_mem _ (ih (next s op))

theorem steps_append (s : σ) (xs ys : List ι) :
    steps next s (xs ++ ys) = steps next s xs ++ steps next (xs.foldl next s) ys := by
  induction xs generalizing s with
  | nil => rfl
  | cons x xs ih => exact congrArg _ (ih (next s x))

theorem mem_states_self (s : σ) (ops : List ι) : s ∈ states next s ops := by
  cases ops <;> simp [states]

theorem fst_mem_states {s : σ} {ops : List ι} {p : σ × ι} (hp : p ∈ steps next s ops) :
    p.1 ∈ states next s ops := by
  induction ops generalizing s with
  | nil => cases hp
  | cons op ops ih =>
    rcases List.mem_cons.mp hp with rfl | hp
    · exact List.mem_cons_self ..
    · exact List.mem_cons_of_mem _ (ih hp)

theorem snd_mem_ops {s : σ} {ops : List ι} {p : σ × ι} (hp : p ∈ steps next s ops) : p.2 ∈ ops := by
  induction ops generalizing s with
  | nil => cases hp
  | cons op ops ih =>
    rcases List.mem_cons.mp hp with rfl | hp
    · exact List.mem_cons_self ..
    · exact List.mem_cons_of_mem _ (ih hp)

/-- **Invariant rule.** What one step preserves, every visited state has. -/
theorem states_invariant {Inv : σ → Prop} (step : ∀ s op, Inv s → Inv (next s op)) {s : σ}
    (hs : Inv s) (ops : List ι) : ∀ t ∈ states next s ops, Inv t := by
  induction ops generalizing s with
  | nil => intro t ht; rw [List.mem_singleton.mp ht]; exact hs
  | cons op ops ih =>
    intro t ht
    rcases List.mem_cons.mp ht with rfl | ht
    · exact hs
    · exact ih (step s op hs) t ht

/-- **Guarded invariant rule.** When only the allowed steps preserve the property, a run of
allowed steps keeps it in every visited state. -/
theorem states_guarded {Inv : σ → Prop} {Allowed : σ → ι → Prop}
    (step : ∀ s op, Inv s → Allowed s op → Inv (next s op)) {s : σ} (hs : Inv s) (ops : List ι)
    (hops : ∀ p ∈ steps next s ops, Allowed p.1 p.2) : ∀ t ∈ states next s ops, Inv t := by
  induction ops generalizing s with
  | nil => intro t ht; rw [List.mem_singleton.mp ht]; exact hs
  | cons op ops ih =>
    intro t ht
    rcases List.mem_cons.mp ht with rfl | ht
    · exact hs
    · refine ih (step s op hs (hops (s, op) (by simp [steps]))) ?_ t ht
      intro p hp
      exact hops p (List.mem_cons_of_mem _ hp)

/-- **Guarded step rule.** What the invariant and the guard give of one step holds of every step of
a run of allowed steps. -/
theorem steps_guarded {I : σ → Prop} {A Q : σ → ι → Prop}
    (step : ∀ s op, I s → A s op → I (next s op))
    (hQ : ∀ s op, I s → A s op → Q s op) {s : σ} (hs : I s) (ops : List ι)
    (hops : ∀ p ∈ steps next s ops, A p.1 p.2) : ∀ p ∈ steps next s ops, Q p.1 p.2 := by
  intro p hp
  have hinv : I p.1 := states_guarded step hs ops hops p.1 (fst_mem_states hp)
  exact hQ p.1 p.2 hinv (hops p hp)

/-- **Exact guard.** `Inv` carries the property `Q` through the allowed steps, and a step that
is not allowed loses `Q` at once: then a run has `Q` everywhere exactly when all its steps are
allowed. `W` is what every step preserves. -/
theorem states_forall_iff {W Inv Q : σ → Prop} {Allowed : σ → ι → Prop}
    (hW : ∀ s op, W s → W (next s op)) (hQ : ∀ s, W s → Inv s → Q s)
    (keep : ∀ s op, W s → Inv s → Allowed s op → Inv (next s op))
    (lose : ∀ s op, W s → Inv s → ¬ Allowed s op → ¬ Q (next s op))
    {s : σ} (hw : W s) (hs : Inv s) (ops : List ι) :
    (∀ t ∈ states next s ops, Q t) ↔ ∀ p ∈ steps next s ops, Allowed p.1 p.2 := by
  induction ops generalizing s with
  | nil => simpa [states, steps] using hQ s hw hs
  | cons op ops ih =>
    simp only [states, steps, List.forall_mem_cons]
    constructor
    · rintro ⟨-, hrest⟩
      have hop : Allowed s op := by
        by_contra hno
        exact lose s op hw hs hno (hrest _ (mem_states_self _ _))
      exact ⟨hop, (ih (hW s op hw) (keep s op hw hs hop)).mp hrest⟩
    · rintro ⟨hop, hrest⟩
      exact ⟨hQ s hw hs, (ih (hW s op hw) (keep s op hw hs hop)).mpr hrest⟩

/-- **Exact guard for a relation.** A transitive relation holds between every earlier and every
later state of a run exactly when each step is allowed, where the allowed steps are those that
relate the state before to the state after. -/
theorem states_pairwise_iff {W : σ → Prop} {R : σ → σ → Prop} {Allowed : σ → ι → Prop}
    (trans : ∀ a b c, R a b → R b c → R a c) (hW : ∀ s op, W s → W (next s op))
    (rel : ∀ s op, W s → (R s (next s op) ↔ Allowed s op)) {s : σ} (hw : W s) (ops : List ι) :
    (states next s ops).Pairwise R ↔ ∀ p ∈ steps next s ops, Allowed p.1 p.2 := by
  induction ops generalizing s with
  | nil => simp [states, steps]
  | cons op ops ih =>
    simp only [states, steps, List.forall_mem_cons, List.pairwise_cons, ih (hW s op hw)]
    constructor
    · rintro ⟨hfirst, hrest⟩
      exact ⟨(rel s op hw).mp (hfirst _ (mem_states_self _ _)), hrest⟩
    · rintro ⟨hop, hrest⟩
      refine ⟨fun t ht => ?_, hrest⟩
      have hstep : R s (next s op) := (rel s op hw).mpr hop
      have hpair : (states next (next s op) ops).Pairwise R := (ih (hW s op hw)).mpr hrest
      cases ops with
      | nil => rw [List.mem_singleton.mp ht]; exact hstep
      | cons op' ops =>
        rcases List.mem_cons.mp ht with rfl | ht
        · exact hstep
        · exact trans _ _ _ hstep (List.rel_of_pairwise_cons hpair ht)

theorem rel_of_states_pairwise {R : σ → σ → Prop} {s : σ} (before : List ι) (op : ι)
    (after : List ι) (h : (states next s (before ++ op :: after)).Pairwise R) :
    R (before.foldl next s) ((before ++ op :: after).foldl next s) := by
  induction before generalizing s with
  | nil =>
    rw [List.nil_append, states, List.pairwise_cons] at h
    exact h.1 _ (foldl_mem_states _ _)
  | cons b before ih =>
    rw [List.cons_append, states, List.pairwise_cons] at h
    exact ih h.2

theorem rel_of_mem_steps {R : σ → σ → Prop} {s : σ} {ops : List ι}
    (h : (states next s ops).Pairwise R) {p : σ × ι} (hp : p ∈ steps next s ops) :
    R p.1 (next p.1 p.2) := by
  induction ops generalizing s with
  | nil => cases hp
  | cons op ops ih =>
    rw [states, List.pairwise_cons] at h
    rcases List.mem_cons.mp hp with rfl | hp
    · exact h.1 _ (mem_states_self _ _)
    · exact ih h.2 hp

end Runs
end RepoMesh
