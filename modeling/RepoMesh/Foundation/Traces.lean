/-
# Traces of a system that answers

A system whose calls answer and move on: what it answered to a list of calls, the state it ends
in, the rule that ties an invariant to the history, and the simulation of one system by another.
-/
import RepoMesh.Foundation.Runs

namespace RepoMesh
namespace Traces

universe u v w x

variable {σ : Type u} {τ : Type x} {ι : Type v} {α : Type w}

section System

variable (call : σ → ι → α × σ)

/-- The state after a list of calls. -/
def final (s : σ) (ops : List ι) : σ := ops.foldl (fun s op => (call s op).2) s

/-- The calls with their answers. -/
def trace (s : σ) : List ι → List (ι × α)
  | [] => []
  | op :: ops => (op, (call s op).1) :: trace (call s op).2 ops

variable {call}

theorem trace_append (s : σ) (before after : List ι) :
    trace call s (before ++ after) = trace call s before ++ trace call (final call s before) after := by
  induction before generalizing s with
  | nil => rfl
  | cons op before ih =>
    show (op, (call s op).1) :: trace call (call s op).2 (before ++ after) = _
    rw [ih]
    rfl

theorem final_append (s : σ) (before after : List ι) :
    final call s (before ++ after) = final call (final call s before) after := by
  rw [final, List.foldl_append]
  rfl

/-- **History rule.** What every call preserves, given everything answered so far, holds of the
trace and the state of every run. -/
theorem history_invariant {I : List (ι × α) → σ → Prop}
    (step : ∀ h s op, I h s → I (h ++ [(op, (call s op).1)]) (call s op).2) {s : σ}
    (start : I [] s) (ops : List ι) : I (trace call s ops) (final call s ops) := by
  induction ops using List.reverseRecOn with
  | nil => exact start
  | append_singleton ops op ih =>
    rw [trace_append, final_append]
    exact step _ _ op ih

end System

/-- **Simulation.** Two systems that answer alike and stay related through every allowed call
answer alike throughout every run of allowed calls. -/
theorem trace_eq_of_simulation {call₁ : σ → ι → α × σ} {call₂ : τ → ι → α × τ}
    {R : σ → τ → Prop} {Allowed : σ → ι → Prop}
    (step : ∀ s t op, R s t → Allowed s op →
      (call₁ s op).1 = (call₂ t op).1 ∧ R (call₁ s op).2 (call₂ t op).2)
    {s : σ} {t : τ} (h : R s t) (ops : List ι)
    (hops : ∀ p ∈ Runs.steps (fun s op => (call₁ s op).2) s ops, Allowed p.1 p.2) :
    trace call₁ s ops = trace call₂ t ops := by
  induction ops generalizing s t with
  | nil => rfl
  | cons op ops ih =>
    obtain ⟨hanswer, hnext⟩ := step s t op h (hops (s, op) (by simp [Runs.steps]))
    have hrest := ih hnext fun p hp => hops p (List.mem_cons_of_mem _ hp)
    rw [trace, trace, hanswer, hrest]

end Traces
end RepoMesh
