import Mathlib.Data.BitVec
import Mathlib.Order.MinMax

/-!
# Checked and saturating machine arithmetic

Unsigned machine integers of width `w` are bit vectors. The checked operations return
`none` where the exact result does not fit, so each of them is characterised by the exact
result over the natural numbers alone (`checkedAdd_eq_some` and its siblings): a proof
about checked code is a proof about unbounded numbers. Saturating operations are clamped
(`toNat_saturatingAdd`, `toNat_saturatingMul`), and `tryCast` is the narrowing conversion
that fails instead of dropping high bits.
-/

/-- An unsigned 8-bit integer. -/
abbrev U8 := UInt8

/-- An unsigned 16-bit integer. -/
abbrev U16 := BitVec 16

/-- An unsigned 32-bit integer. -/
abbrev U32 := BitVec 32

/-- An unsigned 64-bit integer. -/
abbrev U64 := BitVec 64

/-- An unsigned 128-bit integer. -/
abbrev U128 := BitVec 128

/-- An unsigned 256-bit integer. -/
abbrev U256 := BitVec 256

namespace Word

variable {w v : ℕ}

/-- The machine integer of value `n`, if there is one. -/
def ofNat? (w n : ℕ) : Option (BitVec w) := if n < 2 ^ w then some (BitVec.ofNat w n) else none

/-- Addition that fails on overflow. -/
def checkedAdd (a b : BitVec w) : Option (BitVec w) := ofNat? w (a.toNat + b.toNat)

/-- Subtraction that fails on underflow. -/
def checkedSub (a b : BitVec w) : Option (BitVec w) :=
  if b.toNat ≤ a.toNat then some (a - b) else none

/-- Multiplication that fails on overflow. -/
def checkedMul (a b : BitVec w) : Option (BitVec w) := ofNat? w (a.toNat * b.toNat)

/-- Division that fails on a zero divisor. -/
def checkedDiv (a b : BitVec w) : Option (BitVec w) := if b = 0#w then none else some (a / b)

/-- Exponentiation that fails on overflow. -/
def checkedPow (a : BitVec w) (n : ℕ) : Option (BitVec w) := ofNat? w (a.toNat ^ n)

/-- Conversion between widths that fails instead of dropping high bits. -/
def tryCast (v : ℕ) (a : BitVec w) : Option (BitVec v) := ofNat? v a.toNat

/-- Addition clamped at the largest value. -/
def saturatingAdd (a b : BitVec w) : BitVec w :=
  BitVec.ofNat w (Min.min (a.toNat + b.toNat) (2 ^ w - 1))

/-- Multiplication clamped at the largest value. -/
def saturatingMul (a b : BitVec w) : BitVec w :=
  BitVec.ofNat w (Min.min (a.toNat * b.toNat) (2 ^ w - 1))

/-- The smaller of two machine integers. -/
def min (a b : BitVec w) : BitVec w := if a ≤ b then a else b

theorem ofNat?_eq_some {n : ℕ} {c : BitVec w} : ofNat? w n = some c ↔ c.toNat = n := by
  simp only [ofNat?, Option.ite_none_right_eq_some, Option.some.injEq]
  constructor
  · rintro ⟨h, rfl⟩
    rw [BitVec.toNat_ofNat, Nat.mod_eq_of_lt h]
  · rintro rfl
    exact ⟨c.isLt, by rw [BitVec.ofNat_toNat, BitVec.setWidth_eq]⟩

theorem ofNat?_isSome {n : ℕ} : (ofNat? w n).isSome ↔ n < 2 ^ w := by
  rw [ofNat?]
  split <;> simp [*]

theorem exists_ofNat? {n : ℕ} (h : n < 2 ^ w) : ∃ c, ofNat? w n = some c ∧ c.toNat = n := by
  obtain ⟨c, hc⟩ := Option.isSome_iff_exists.mp (ofNat?_isSome.mpr h)
  exact ⟨c, hc, ofNat?_eq_some.mp hc⟩

/-- A machine integer is the one of its value. -/
theorem ofNat?_toNat (a : BitVec w) : ofNat? w a.toNat = some a := ofNat?_eq_some.mpr rfl

/-- **Exactness.** A checked sum is the sum of the natural numbers. -/
theorem checkedAdd_eq_some {a b c : BitVec w} :
    checkedAdd a b = some c ↔ c.toNat = a.toNat + b.toNat :=
  ofNat?_eq_some

theorem checkedSub_eq_some {a b c : BitVec w} :
    checkedSub a b = some c ↔ c.toNat + b.toNat = a.toNat := by
  simp only [checkedSub, Option.ite_none_right_eq_some, Option.some.injEq]
  constructor
  · rintro ⟨h, rfl⟩
    rw [BitVec.toNat_sub_of_le h]
    omega
  · intro h
    refine ⟨by omega, BitVec.eq_of_toNat_eq ?_⟩
    rw [BitVec.toNat_sub_of_le (show b.toNat ≤ a.toNat by omega)]
    omega

theorem checkedMul_eq_some {a b c : BitVec w} :
    checkedMul a b = some c ↔ c.toNat = a.toNat * b.toNat :=
  ofNat?_eq_some

theorem checkedDiv_eq_some {a b c : BitVec w} :
    checkedDiv a b = some c ↔ 0 < b.toNat ∧ c.toNat = a.toNat / b.toNat := by
  simp only [checkedDiv, Option.ite_none_left_eq_some, Option.some.injEq]
  have hb : ¬b = 0#w ↔ 0 < b.toNat := by
    rw [← BitVec.toNat_inj, BitVec.toNat_ofNat, Nat.zero_mod]
    omega
  rw [hb]
  refine and_congr_right fun _ => ?_
  rw [← BitVec.toNat_inj, BitVec.toNat_udiv, eq_comm]

theorem checkedPow_eq_some {a c : BitVec w} {n : ℕ} :
    checkedPow a n = some c ↔ c.toNat = a.toNat ^ n :=
  ofNat?_eq_some

/-- A clamped natural number survives the conversion to a machine integer. -/
private theorem toNat_ofNat_min (n : ℕ) :
    (BitVec.ofNat w (Min.min n (2 ^ w - 1))).toNat = Min.min n (2 ^ w - 1) := by
  have hpos : 0 < 2 ^ w := Nat.two_pow_pos w
  rw [BitVec.toNat_ofNat, Nat.mod_eq_of_lt (by omega)]

theorem toNat_saturatingAdd (a b : BitVec w) :
    (saturatingAdd a b).toNat = Min.min (a.toNat + b.toNat) (2 ^ w - 1) :=
  toNat_ofNat_min _

theorem toNat_saturatingMul (a b : BitVec w) :
    (saturatingMul a b).toNat = Min.min (a.toNat * b.toNat) (2 ^ w - 1) :=
  toNat_ofNat_min _

theorem toNat_min (a b : BitVec w) : (min a b).toNat = Min.min a.toNat b.toNat := by
  simp only [min, BitVec.le_def, Nat.min_def]
  split <;> rfl

end Word
