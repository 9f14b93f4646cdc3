import Mathlib.Algebra.Order.Ring.Nat
import Mathlib.Tactic.Ring

/-!
# Quantities in decimals

A number together with its decimals denotes a quantity: `m` with `a` decimals is `m / 10 ^ a`.
`SameQuantity` compares two of them without dividing, and `RoundedDown` says that one is the
other rounded down to a unit. Scaling by powers of ten keeps the quantity in one case only,
when the exponents make up for the decimals: `sameQuantity_scaled_iff`, and with dust
`roundedDown_of_eq` and `eq_of_roundedDown`.
-/

namespace Decimals

/-- `m` with `a` decimals is as much as `n` with `b` decimals. -/
def SameQuantity (m a n b : ℕ) : Prop := m * 10 ^ b = n * 10 ^ a

/-- `n` with `b` decimals is `m` with `a` decimals, less than one `unit` of `n` dropped. -/
def RoundedDown (m a n b unit : ℕ) : Prop :=
  n * 10 ^ a ≤ m * 10 ^ b ∧ m * 10 ^ b < (n + unit) * 10 ^ a

variable {a b x y : ℕ}

/-- **Scaling.** The same number of scaled units is the same quantity exactly when the
exponents make up for the decimals, or there are none. -/
theorem sameQuantity_scaled_iff {q : ℕ} :
    SameQuantity (q * 10 ^ x) a (q * 10 ^ y) b ↔ x + b = y + a ∨ q = 0 := by
  rw [SameQuantity, mul_assoc, mul_assoc, ← pow_add, ← pow_add, mul_eq_mul_left_iff,
    Nat.pow_right_inj (by decide)]

/-- **Rounding.** Dropping what is below `10 ^ x` rounds down when the exponents make up for the
decimals. -/
theorem roundedDown_of_eq (h : x + b = y + a) (m : ℕ) :
    RoundedDown m a (m / 10 ^ x * 10 ^ y) b (10 ^ y) := by
  have hpos : 0 < 10 ^ b := Nat.pow_pos (by decide)
  have hscale : ∀ q, q * 10 ^ y * 10 ^ a = q * 10 ^ x * 10 ^ b := by
    intro q
    rw [mul_assoc, mul_assoc, ← pow_add, ← pow_add, h]
  constructor
  · rw [hscale]
    exact Nat.mul_le_mul_right _ (Nat.div_mul_le_self m (10 ^ x))
  · have hunit : m / 10 ^ x * 10 ^ y + 10 ^ y = (m / 10 ^ x + 1) * 10 ^ y := by ring
    rw [hunit, hscale]
    exact Nat.mul_lt_mul_of_pos_right (Nat.lt_mul_of_div_lt (Nat.lt_succ_self _)
      (Nat.pow_pos (by decide))) hpos

/-- The first whole unit is rounded down only when the exponents make up for the decimals. -/
theorem eq_of_roundedDown (h : RoundedDown (10 ^ x) a (10 ^ y) b (10 ^ y)) : x + b = y + a := by
  obtain ⟨hle, hlt⟩ := h
  have hunit : (10 ^ y + 10 ^ y) * 10 ^ a ≤ 10 ^ (y + a + 1) := by
    calc (10 ^ y + 10 ^ y) * 10 ^ a = 2 * 10 ^ (y + a) := by ring
      _ ≤ 10 * 10 ^ (y + a) := Nat.mul_le_mul_right _ (by decide)
      _ = 10 ^ (y + a + 1) := by ring
  have hlt' := hlt.trans_le hunit
  rw [← pow_add, ← pow_add, Nat.pow_le_pow_iff_right (by decide)] at hle
  rw [← pow_add, Nat.pow_lt_pow_iff_right (by decide)] at hlt'
  omega

end Decimals
