import Mathlib.Algebra.Order.Floor.Div
import Mathlib.Order.GaloisConnection.Basic
import Mathlib.Order.Monotone.Basic
import Mathlib.Tactic.Ring

/-!
# Proportional fees, rounded up and capped

A `CappedFee` takes `rate / scale` of an amount, rounded up, and never more than `cap`.
`post a` is what is left of the amount `a`, and `pre x` is the smallest amount that leaves
`x`. The two are adjoint (`pre_le_iff`: `pre x ≤ a ↔ x ≤ post a`), so each determines the
other and both are monotone. Since `post` grows by at most one when the amount does, no
value is skipped and the inverse is exact (`post_pre`).

`FlooredFee.kept` is what the simpler fee leaves that is rounded down and has no cap: more of a
larger amount and less at a higher rate, and of whole units the same number of units.
-/

/-- A fee of `rate / scale` of the amount, rounded up, of at most `cap`. -/
structure CappedFee where
  rate : ℕ
  scale : ℕ
  cap : ℕ
  scale_pos : 0 < scale
  rate_le : rate ≤ scale

namespace CappedFee

variable (F : CappedFee)

/-- The fee on an amount. -/
def fee (a : ℕ) : ℕ := min F.cap (a * F.rate ⌈/⌉ F.scale)

/-- What is left of an amount. -/
def post (a : ℕ) : ℕ := a - F.fee a

/-- The smallest amount that leaves `x` if the cap is ignored; meant for rates below one. -/
def raw (x : ℕ) : ℕ := x * F.scale ⌈/⌉ (F.scale - F.rate)

/-- The smallest amount that leaves `x`. -/
def pre (x : ℕ) : ℕ :=
  if x = 0 then 0 else if F.rate = F.scale then x + F.cap else min (x + F.cap) (F.raw x)

/-- The fee that takes nothing. -/
def free : CappedFee := ⟨0, 1, 0, Nat.one_pos, Nat.zero_le 1⟩

variable {F}

@[simp] theorem fee_free (a : ℕ) : free.fee a = 0 := Nat.min_eq_left (Nat.zero_le _)

@[simp] theorem post_free (a : ℕ) : free.post a = a := by rw [post, fee_free, Nat.sub_zero]

theorem fee_le (a : ℕ) : F.fee a ≤ a := by
  refine (min_le_right _ _).trans ?_
  rw [ceilDiv_le_iff_le_mul F.scale_pos, mul_comm F.scale]
  exact Nat.mul_le_mul_left a F.rate_le

theorem post_le (a : ℕ) : F.post a ≤ a := Nat.sub_le _ _

@[simp] theorem post_zero : F.post 0 = 0 := Nat.zero_sub _

/-- One more unit pays at most one more unit of fee. -/
theorem fee_succ_le (a : ℕ) : F.fee (a + 1) ≤ F.fee a + 1 := by
  have hceil : (a + 1) * F.rate ⌈/⌉ F.scale ≤ a * F.rate ⌈/⌉ F.scale + 1 := by
    rw [ceilDiv_le_iff_le_mul F.scale_pos, mul_add, mul_one, add_mul, one_mul]
    exact Nat.add_le_add ((ceilDiv_le_iff_le_mul F.scale_pos).mp le_rfl) F.rate_le
  simp only [fee]
  omega

theorem fee_mono : Monotone F.fee := by
  intro a b hab
  refine min_le_min_left _ ((ceilDiv_le_iff_le_mul F.scale_pos).mpr ?_)
  exact (Nat.mul_le_mul_right _ hab).trans ((ceilDiv_le_iff_le_mul F.scale_pos).mp le_rfl)

theorem post_mono : Monotone F.post := by
  refine monotone_nat_of_le_succ fun a => ?_
  have hstep : F.fee (a + 1) ≤ F.fee a + 1 := fee_succ_le a
  simp only [post]
  omega

/-- One more unit leaves at most one more unit. -/
theorem post_succ_le (a : ℕ) : F.post (a + 1) ≤ F.post a + 1 := by
  have hmono : F.fee a ≤ F.fee (a + 1) := fee_mono (Nat.le_succ a)
  have hle : F.fee a ≤ a := fee_le a
  simp only [post]
  omega

/-- The proportional part alone leaves `x` exactly when `x * scale` is covered by what the
rate leaves of `a * scale`. -/
private theorem ceil_add_le_iff {x a : ℕ} :
    a * F.rate ⌈/⌉ F.scale + x ≤ a ↔ x * F.scale ≤ a * (F.scale - F.rate) := by
  have hsub : a * (F.scale - F.rate) = a * F.scale - a * F.rate := Nat.mul_sub ..
  have hle : a * F.rate ≤ a * F.scale := Nat.mul_le_mul_left a F.rate_le
  constructor
  · intro h
    have hceil : a * F.rate ⌈/⌉ F.scale ≤ a - x := by omega
    rw [ceilDiv_le_iff_le_mul F.scale_pos, mul_comm F.scale, Nat.sub_mul] at hceil
    have hx : x * F.scale ≤ a * F.scale := Nat.mul_le_mul_right _ (by omega)
    omega
  · intro h
    have hx : x ≤ a := Nat.le_of_mul_le_mul_right (by omega) F.scale_pos
    have hceil : a * F.rate ⌈/⌉ F.scale ≤ a - x := by
      rw [ceilDiv_le_iff_le_mul F.scale_pos, mul_comm F.scale, Nat.sub_mul]
      omega
    omega

/-- A positive `x` is left in one of two ways: above the cap, or by the proportional part. -/
private theorem le_post_iff {x a : ℕ} (hx : 0 < x) :
    x ≤ F.post a ↔ x + F.cap ≤ a ∨ x * F.scale ≤ a * (F.scale - F.rate) := by
  rw [← ceil_add_le_iff]
  simp only [post, fee]
  omega

/-- Below rate one, `raw x` is the smallest amount whose proportional part leaves `x`. -/
theorem raw_le_iff (hrate : F.rate < F.scale) {x a : ℕ} :
    F.raw x ≤ a ↔ x * F.scale ≤ a * (F.scale - F.rate) := by
  rw [raw, ceilDiv_le_iff_le_mul (Nat.sub_pos_of_lt hrate), mul_comm a]

theorem le_raw (hrate : F.rate < F.scale) (x : ℕ) : x ≤ F.raw x := by
  have hraw : x * F.scale ≤ F.raw x * (F.scale - F.rate) := (raw_le_iff hrate).mp le_rfl
  refine Nat.le_of_mul_le_mul_right (hraw.trans ?_) F.scale_pos
  exact Nat.mul_le_mul_left _ (Nat.sub_le _ _)

/-- **Adjunction.** An amount leaves at least `x` exactly when it is at least `pre x`. -/
theorem pre_le_iff {x a : ℕ} : F.pre x ≤ a ↔ x ≤ F.post a := by
  rcases Nat.eq_zero_or_pos x with rfl | hx
  · simp [pre]
  rw [le_post_iff hx, pre, if_neg hx.ne']
  split
  case isTrue heq =>
    -- nothing of the proportional part is left at rate one
    have hpos : 0 < x * F.scale := Nat.mul_pos hx F.scale_pos
    rw [heq, Nat.sub_self, mul_zero]
    omega
  case isFalse hne =>
    have hrate : F.rate < F.scale := lt_of_le_of_ne F.rate_le hne
    rw [← raw_le_iff hrate, min_le_iff]

variable (F) in
theorem gc : GaloisConnection F.pre F.post := fun _ _ => pre_le_iff

theorem pre_mono : Monotone F.pre := F.gc.monotone_l

theorem le_pre (x : ℕ) : x ≤ F.pre x := (F.gc.le_u_l x).trans (post_le _)

/-- Without a fee an amount is what it leaves. -/
theorem pre_of_rate_eq_zero (h : F.rate = 0) (x : ℕ) : F.pre x = x := by
  refine le_antisymm (pre_le_iff.mpr ?_) (le_pre x)
  have hfee : F.fee x = 0 := by
    rw [fee, h, mul_zero, zero_ceilDiv, Nat.min_zero]
  rw [post, hfee, Nat.sub_zero]

/-- At rate one only the cap leaves anything. -/
theorem pre_of_rate_eq_scale (h : F.rate = F.scale) {x : ℕ} (hx : 0 < x) :
    F.pre x = x + F.cap := by
  rw [pre, if_neg hx.ne', if_pos h]

/-- Below rate one the smallest amount is the uncapped one unless its fee reaches the cap. -/
theorem pre_eq_ite (hrate : F.rate < F.scale) (x : ℕ) (hx : 0 < x) :
    F.pre x = if F.cap ≤ F.raw x - x then x + F.cap else F.raw x := by
  have hle : x ≤ F.raw x := le_raw hrate x
  rw [pre, if_neg hx.ne', if_neg hrate.ne]
  split <;> omega

/-- **Exactness.** The smallest amount that leaves at least `x` leaves `x`. -/
theorem post_pre (x : ℕ) : F.post (F.pre x) = x := by
  refine le_antisymm ?_ (F.gc.le_u_l x)
  rcases Nat.eq_zero_or_pos (F.pre x) with hzero | hpos
  · rw [hzero, post_zero]
    exact Nat.zero_le x
  · -- one unit less leaves less than `x`, and one unit more makes up for one unit
    have hbelow : ¬x ≤ F.post (F.pre x - 1) := fun h => by
      have hle : F.pre x ≤ F.pre x - 1 := pre_le_iff.mpr h
      omega
    have hstep : F.post (F.pre x - 1 + 1) ≤ F.post (F.pre x - 1) + 1 := post_succ_le _
    rw [Nat.sub_add_cancel hpos] at hstep
    omega

end CappedFee

namespace FlooredFee

/-- What is left of an amount after `rate / scale` of it, rounded down. -/
def kept (rate scale a : ℕ) : ℕ := a - a * rate / scale

variable {rate rate' scale a : ℕ}

/-- One more unit pays at most one more unit. -/
theorem kept_mono (h : rate ≤ scale) : Monotone (kept rate scale) := by
  refine monotone_nat_of_le_succ fun a => ?_
  have hstep : (a + 1) * rate / scale ≤ a * rate / scale + 1 := by
    rcases Nat.eq_zero_or_pos scale with rfl | hscale
    · rw [Nat.div_zero]
      exact Nat.zero_le _
    · rw [← Nat.add_div_right _ hscale]
      refine Nat.div_le_div_right ?_
      rw [Nat.add_mul, Nat.one_mul]
      exact Nat.add_le_add_left h _
  simp only [kept]
  omega

theorem kept_anti (h : rate ≤ rate') (scale a : ℕ) : kept rate' scale a ≤ kept rate scale a :=
  Nat.sub_le_sub_left (Nat.div_le_div_right (Nat.mul_le_mul_left a h)) a

/-- Below rate one something is left of something. -/
theorem kept_pos (h : rate < scale) (ha : 0 < a) : 0 < kept rate scale a := by
  refine Nat.sub_pos_of_lt (Nat.div_lt_of_lt_mul ?_)
  rw [Nat.mul_comm scale]
  exact Nat.mul_lt_mul_of_pos_left h ha

/-- **Units.** The fee on whole units, counted in whole units, is the fee on their number. -/
theorem mul_unit_div {unit : ℕ} (hunit : 0 < unit) (rate scale a : ℕ) :
    a * unit * rate / scale / unit = a * rate / scale := by
  rw [Nat.div_div_eq_div_mul, Nat.mul_right_comm, Nat.mul_div_mul_right _ _ hunit]

end FlooredFee
