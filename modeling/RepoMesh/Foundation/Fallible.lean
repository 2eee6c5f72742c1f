/-
# Fallible computations

Taking a `do` block in `Except` apart: from the block's result to the results of its parts.
-/
import Mathlib.Data.List.Forall2

namespace RepoMesh
namespace Fallible

universe u v w

variable {ε : Type u} {α β : Type v}

theorem bind_ok {x : Except ε α} {f : α → Except ε β} {b : β} (h : x >>= f = .ok b) :
    ∃ a, x = .ok a ∧ f a = .ok b := by
  cases x with
  | error e => cases h
  | ok a => exact ⟨a, rfl, h⟩

@[simp] theorem ok_bind (a : α) (f : α → Except ε β) : (Except.ok a >>= f) = f a := rfl

@[simp] theorem error_bind (e : ε) (f : α → Except ε β) :
    ((Except.error e : Except ε α) >>= f) = .error e := rfl

theorem mapError_ok {ε' : Type*} {f : ε → ε'} {x : Except ε α} {a : α}
    (h : x.mapError f = .ok a) : ∃ b, x = .ok b ∧ b = a := by
  cases x with
  | error e => cases h
  | ok b => exact ⟨b, rfl, Except.ok.inj h⟩

theorem mapM_ok {f : α → Except ε β} {xs : List α} {ys : List β} (h : xs.mapM f = .ok ys) :
    List.Forall₂ (fun x y => f x = .ok y) xs ys := by
  induction xs generalizing ys with
  | nil =>
    rw [List.mapM_nil] at h
    obtain rfl := Except.ok.inj h
    exact .nil
  | cons x xs ih =>
    rw [List.mapM_cons] at h
    obtain ⟨y, hy, h⟩ := bind_ok h
    obtain ⟨ys', hys, h⟩ := bind_ok h
    obtain rfl := Except.ok.inj h
    exact .cons hy (ih hys)

theorem mapM_eq_ok {f : α → Except ε β} {xs : List α} {ys : List β}
    (h : List.Forall₂ (fun x y => f x = .ok y) xs ys) : xs.mapM f = .ok ys := by
  induction h with
  | nil => rfl
  | cons hxy _ ih => rw [List.mapM_cons, hxy, ok_bind, ih]; rfl

theorem mapM_map_ok {encode : β → α} {decode : α → Except ε β} (h : ∀ y, decode (encode y) = .ok y)
    (ys : List β) : (ys.map encode).mapM decode = .ok ys := by
  refine mapM_eq_ok ?_
  induction ys with
  | nil => exact .nil
  | cons y ys ih => exact .cons (h y) ih

theorem exists_mapM_ok {f : α → Except ε β} {xs : List α} (h : ∀ x ∈ xs, ∃ y, f x = .ok y) :
    ∃ ys, xs.mapM f = .ok ys := by
  induction xs with
  | nil => exact ⟨[], rfl⟩
  | cons x xs ih =>
    obtain ⟨y, hy⟩ := h x (by simp)
    obtain ⟨ys, hys⟩ := ih fun z hz => h z (by simp [hz])
    exact ⟨y :: ys, by rw [List.mapM_cons, hy, ok_bind, hys]; rfl⟩

theorem forall₂_exists_right {R : α → β → Prop} {xs : List α} {ys : List β}
    (h : List.Forall₂ R xs ys) {x : α} (hx : x ∈ xs) : ∃ y ∈ ys, R x y := by
  induction h with
  | nil => cases hx
  | cons hxy _ ih =>
    rcases List.mem_cons.mp hx with rfl | hx
    · exact ⟨_, by simp, hxy⟩
    · obtain ⟨y, hy, hr⟩ := ih hx
      exact ⟨y, by simp [hy], hr⟩

theorem forM_ok_iff {α ε : Type} {check : α → Except ε Unit} {items : List α} :
    items.forM check = .ok () ↔ ∀ item ∈ items, check item = .ok () := by
  induction items with
  | nil => exact ⟨fun _ _ h => absurd h List.not_mem_nil, fun _ => rfl⟩
  | cons item items ih =>
    rw [List.forall_mem_cons]
    have hstep : (item :: items).forM check = check item >>= fun _ => items.forM check := rfl
    rw [hstep]
    constructor
    · intro h
      obtain ⟨_, hitem, hrest⟩ := bind_ok h
      exact ⟨hitem, ih.mp hrest⟩
    · rintro ⟨hitem, hrest⟩
      rw [hitem, ok_bind]
      exact ih.mpr hrest

theorem checked_ok_iff {ε : Type} {p : Prop} [Decidable p] {e : ε} {rest : Except ε Unit} :
    (if p then .error e else rest) = .ok () ↔ ¬ p ∧ rest = .ok () := by
  by_cases hp : p
  · simp [hp]
  · simp [hp]

theorem forall₂_exists_left {R : α → β → Prop} {xs : List α} {ys : List β}
    (h : List.Forall₂ R xs ys) {y : β} (hy : y ∈ ys) : ∃ x ∈ xs, R x y :=
  forall₂_exists_right h.flip hy

theorem forall₂_exists_ne {R : α → α → Prop} {xs ys : List α} (h : List.Forall₂ R xs ys)
    (hne : ys ≠ xs) : ∃ x ∈ xs, ∃ y, R x y ∧ y ≠ x := by
  induction h with
  | nil => exact absurd rfl hne
  | @cons x y xs ys hxy _ ih =>
    by_cases heq : y = x
    · obtain ⟨x', hx', y', hr, hdiff⟩ := ih fun hs => hne (by rw [heq, hs])
      exact ⟨x', by simp [hx'], y', hr, hdiff⟩
    · exact ⟨x, by simp, y, hxy, heq⟩

end Fallible
end RepoMesh
