/-
# Calls that have ended

What a call did that came to its end, taken apart the way the call was put together: the parts of a
sequence, the iterations of a loop, the operations of a call whose operations are calls themselves.
-/
import RepoMesh.Foundation.Periodic

namespace RepoMesh
namespace Async
namespace Prog

universe u

variable {Op Op' : Type} {Answer : Op → Type} {Answer' : Op' → Type} {ε α β : Type} {σ : Type u}
  {Exec : Execution Answer ε σ}

/-! ## Sequences -/

theorem Ran.of_bind {p : Prog Answer ε α} {f : α → Prog Answer ε β}
    {l : List (Answered Answer ε σ)} {r : Except ε β} (h : Ran Exec (p >>= f) l r) :
    (∃ a l₁ l₂, l = l₁ ++ l₂ ∧ Ran Exec p l₁ (.ok a) ∧ Ran Exec (f a) l₂ r) ∨
      ∃ e, Ran Exec p l (.error e) ∧ r = .error e := by
  induction p generalizing l with
  | done outcome =>
    cases outcome with
    | ok a => exact .inl ⟨a, [], l, rfl, .done _, h⟩
    | error e =>
      cases h with
      | done => exact .inr ⟨e, .done _, rfl⟩
  | await op next ih =>
    cases h with
    | await answered rest =>
      rcases ih _ rest with ⟨a, l₁, l₂, rfl, hp, hf⟩ | ⟨e, hp, rfl⟩
      · exact .inl ⟨a, _ :: l₁, l₂, rfl, .await answered hp, hf⟩
      · exact .inr ⟨e, .await answered hp, rfl⟩

/-- **Where it raised.** A call that raises at `U` only has ended with an exception exactly when
an operation of `U` was answered with one. -/
theorem Ran.raised_iff {U : Op → Prop} {p : Prog Answer ε α} (hp : RaisesAt U p)
    {l : List (Answered Answer ε σ)} {r : Except ε α} (h : Ran Exec p l r) :
    (∃ e, r = .error e) ↔ ∃ m ∈ l, U m.op ∧ ∃ e, m.answer = .error e := by
  induction h with
  | done r =>
    cases r with
    | error e => exact hp.elim
    | ok a =>
      constructor
      · rintro ⟨e, he⟩
        cases he
      · rintro ⟨m, hm, -⟩
        cases hm
  | @await op next s s' a l r answered rest ih =>
    by_cases hraised : U op ∧ ∃ e, a = .error e
    · obtain ⟨hop, e, rfl⟩ := hraised
      obtain ⟨e', he'⟩ := (hp.2 e).1 hop
      rw [he'] at rest
      cases rest with
      | done => exact ⟨fun _ => ⟨_, List.mem_cons_self, hop, e, rfl⟩, fun _ => ⟨e', rfl⟩⟩
    · have hnext : RaisesAt U (next a) := by
        cases a with
        | ok a => exact hp.1 a
        | error e => exact (hp.2 e).2 fun hop => hraised ⟨hop, e, rfl⟩
      rw [ih hnext]
      constructor
      · rintro ⟨m, hm, hmU⟩
        exact ⟨m, List.mem_cons_of_mem _ hm, hmU⟩
      · rintro ⟨m, hm, hmU⟩
        rcases List.mem_cons.mp hm with rfl | hm
        · exact absurd hmU hraised
        · exact ⟨m, hm, hmU⟩

/-! ## Coarse and fine operations -/

variable (f : (op : Op) → Prog Answer' ε (Answer op))

@[simp] theorem resume_done (p : Prog Answer ε α) : p.resume .done = p := by
  induction p with
  | done r => rfl
  | await op next ih => exact congrArg (Prog.await op) (funext ih)

@[simp] theorem expand_perform (op : Op) : (perform op).expand f = f op := resume_done (f op)

theorem resume_bind {γ : Type} (p : Prog Answer ε α) (k : Except ε α → Prog Answer ε β)
    (g : β → Prog Answer ε γ) : p.resume k >>= g = p.resume fun r => k r >>= g := by
  induction p with
  | done r => rfl
  | await op next ih => exact congrArg (Prog.await op) (funext ih)

theorem expand_bind (p : Prog Answer ε α) (g : α → Prog Answer ε β) :
    (p >>= g).expand f = p.expand f >>= fun a => (g a).expand f := by
  induction p with
  | done r => cases r <;> rfl
  | await op next ih =>
    show (f op).resume (fun r => (next r >>= g).expand f) =
      (f op).resume (fun r => (next r).expand f) >>= fun a => (g a).expand f
    rw [resume_bind]
    exact congrArg (f op).resume (funext ih)

theorem expand_each {γ : Type} (g : γ → Prog Answer ε β) (xs : List γ) :
    (each g xs).expand f = each (fun x => (g x).expand f) xs := by
  induction xs with
  | nil => rfl
  | cons x xs ih =>
    rw [each, expand_bind, each]
    refine congrArg ((g x).expand f >>= ·) (funext fun y => ?_)
    rw [expand_bind, ih]
    rfl

end Prog
end Async
end RepoMesh
