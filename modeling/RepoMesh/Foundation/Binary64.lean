/-
# Doubles under powers of two

Doubles that are neither negative nor `NaN`, as multiples of the smallest positive one, and their
product with a power of two given as an unbounded integer. The integer is made a double first, which
fails from `2 ** 1024` on; the product itself is exact, or infinite. What is capped grows with the
power.
-/
import Mathlib.Data.Rat.Cast.Order
import Mathlib.Order.WithBot
import Mathlib.Order.Lattice
import Mathlib.Tactic.NormNum
import Mathlib.Tactic.Positivity

namespace RepoMesh
namespace Binary64

/-- A natural number of units of `2 ^ -1074` is a double: a significand below `2 ^ 53` times a power
of two in range. -/
def Representable (k : ℕ) : Prop := ∃ m e, m < 2 ^ 53 ∧ e ≤ 2045 ∧ k = m * 2 ^ e

/-- A double that is neither negative nor `NaN`, in units of `2 ^ -1074`; infinity is the top. -/
structure Double where
  units : WithTop ℕ
  representable : ∀ k : ℕ, units = k → Representable k

theorem units_injective : Function.Injective Double.units := by
  rintro ⟨a, _⟩ ⟨b, _⟩ rfl
  rfl

instance : LinearOrder Double := LinearOrder.lift' Double.units units_injective

theorem Double.le_iff {a b : Double} : a ≤ b ↔ a.units ≤ b.units := Iff.rfl

/-- A whole number of seconds. -/
def Double.ofNat (n : ℕ) (hn : n < 2 ^ 53) : Double where
  units := (n * 2 ^ 1074 : ℕ)
  representable := by
    intro k hk
    refine ⟨n, 1074, hn, by omega, ?_⟩
    exact (WithTop.coe_injective hk).symm

/-- The seconds of a finite double. -/
def Double.seconds (d : Double) : Option ℚ :=
  match d.units with
  | ⊤ => none
  | (k : ℕ) => some (k / 2 ^ 1074)

/-- `OverflowError: int too large to convert to float`. -/
inductive OverflowError where
  | intTooLarge
  | infinity
  deriving DecidableEq

theorem Representable.mul_pow {k n : ℕ} (h : Representable k) (hk : k * 2 ^ n < 2 ^ 2098) :
    Representable (k * 2 ^ n) := by
  obtain ⟨m, e, hm, he, rfl⟩ := h
  by_cases hsmall : e + n ≤ 2045
  · refine ⟨m, e + n, hm, hsmall, ?_⟩
    rw [pow_add, mul_assoc]
  · -- The exponent is at its end: the rest of the power goes into the significand.
    have hsplit : m * 2 ^ e * 2 ^ n = m * 2 ^ (e + n - 2045) * 2 ^ 2045 := by
      have hsum : e + n = (e + n - 2045) + 2045 := by omega
      rw [mul_assoc, ← pow_add, hsum, pow_add, Nat.add_sub_cancel, mul_assoc]
    refine ⟨m * 2 ^ (e + n - 2045), 2045, ?_, le_rfl, hsplit⟩
    rw [hsplit] at hk
    have hbound : (2 : ℕ) ^ 2098 = 2 ^ 53 * 2 ^ 2045 := by rw [← pow_add]
    rw [hbound] at hk
    exact lt_of_mul_lt_mul_right hk (Nat.zero_le _)

/-- The exact product with a power of two, or infinity. -/
def scaled (d : Double) (n : ℕ) : Double where
  units :=
    match d.units with
    | ⊤ => ⊤
    | (k : ℕ) => if k * 2 ^ n < 2 ^ 2098 then (k * 2 ^ n : ℕ) else ⊤
  representable := by
    intro k hk
    split at hk
    · cases hk
    · rename_i j hj
      split_ifs at hk with hlt
      · obtain rfl := WithTop.coe_injective hk
        exact (d.representable j hj).mul_pow hlt
      · cases hk

/-- `d * (2 ** n)` of a double and an integer. -/
def timesPow (d : Double) (n : ℕ) : Except OverflowError Double :=
  if n < 1024 then .ok (scaled d n) else .error .intTooLarge

/-- `timedelta(seconds=d)`, in seconds. -/
def timedelta (d : Double) : Except OverflowError ℚ :=
  match d.seconds with
  | none => .error .infinity
  | some seconds => .ok seconds

theorem scaled_mono (d : Double) {n m : ℕ} (h : n ≤ m) : scaled d n ≤ scaled d m := by
  rw [Double.le_iff, scaled, scaled]
  dsimp only
  cases hd : d.units with
  | top => exact le_rfl
  | coe k =>
    have hpow : k * 2 ^ n ≤ k * 2 ^ m := Nat.mul_le_mul_left k (Nat.pow_le_pow_right (by omega) h)
    show (if k * 2 ^ n < 2 ^ 2098 then ((k * 2 ^ n : ℕ) : WithTop ℕ) else ⊤) ≤
      if k * 2 ^ m < 2 ^ 2098 then ((k * 2 ^ m : ℕ) : WithTop ℕ) else ⊤
    split_ifs with hn hm
    · exact WithTop.coe_le_coe.mpr hpow
    · exact le_top
    · omega
    · exact le_rfl

/-- **Capped back-off**: `min(base * (2 ** n), cap)`. -/
def capped (base cap : Double) (n : ℕ) : Except OverflowError Double :=
  (timesPow base n).map fun d => min d cap

theorem capped_ok {base cap : Double} {n : ℕ} (h : n < 1024) :
    capped base cap n = .ok (min (scaled base n) cap) := by
  rw [capped, timesPow, if_pos h]
  rfl

theorem capped_error {base cap : Double} {n : ℕ} (h : ¬ n < 1024) :
    capped base cap n = .error .intTooLarge := by
  rw [capped, timesPow, if_neg h]
  rfl

theorem seconds_of_le {d cap : Double} {c : ℚ} (h : d ≤ cap) (hcap : cap.seconds = some c) :
    ∃ s, d.seconds = some s ∧ 0 ≤ s ∧ s ≤ c := by
  rw [Double.le_iff] at h
  unfold Double.seconds at hcap ⊢
  cases hc : cap.units with
  | top =>
    rw [hc] at hcap
    cases hcap
  | coe k =>
    rw [hc] at hcap h
    obtain rfl := Option.some.inj hcap
    cases hd : d.units with
    | top =>
      rw [hd] at h
      exact absurd h (by simp)
    | coe j =>
      rw [hd] at h
      have hjk : (j : ℚ) ≤ k := by exact_mod_cast WithTop.coe_le_coe.mp h
      refine ⟨j / 2 ^ 1074, rfl, by positivity, ?_⟩
      exact div_le_div_of_nonneg_right hjk (by positivity)

end Binary64
end RepoMesh
