import Mathlib.Algebra.Order.Ring.Nat
import Mathlib.Tactic.Ring

/-!
# Token buckets

A bucket holds at most `capacity` tokens and gains `rate` of them per unit of time. `available`
is what it holds at a time, `give` puts tokens in and `take` takes tokens out or refuses.

What is available bounds what can flow out: over any number of steps (`Flow`), the tokens taken
are at most the capacity, what the elapsed time brought and what was given
(`Flow.taken_le`).

Giving nothing only brings the bucket up to date, and does not show later (`give_give`).
-/

/-- A bucket with its content at the time it was last touched. -/
structure TokenBucket where
  capacity : ℕ
  rate : ℕ
  level : ℕ
  last : ℕ
  level_le : level ≤ capacity

namespace TokenBucket

/-- A number of tokens asked for at a time. -/
structure Demand where
  time : ℕ
  amount : ℕ

variable (b : TokenBucket)

/-- What the bucket holds at a time. -/
def available (t : ℕ) : ℕ := min b.capacity (b.level + b.rate * (t - b.last))

/-- Put tokens in; what does not fit is lost. -/
def give (t n : ℕ) : TokenBucket where
  capacity := b.capacity
  rate := b.rate
  level := min b.capacity (b.level + (n + b.rate * (t - b.last)))
  last := t
  level_le := Nat.min_le_left ..

/-- Take tokens out, if they are there. -/
def take (d : Demand) : Option TokenBucket :=
  if d.amount ≤ b.available d.time then
    some
      { b with
        level := b.available d.time - d.amount
        last := d.time
        level_le := (Nat.sub_le ..).trans (Nat.min_le_left ..) }
  else none

variable {b} {b' : TokenBucket} {t t' : ℕ}

theorem available_le (t : ℕ) : b.available t ≤ b.capacity := Nat.min_le_left ..

/-- Time brings at most its rate. -/
theorem available_le_add (h : t ≤ t') : b.available t' ≤ b.available t + b.rate * (t' - t) := by
  have hsplit : b.rate * (t' - b.last) ≤ b.rate * (t - b.last) + b.rate * (t' - t) := by
    rw [← Nat.mul_add]
    exact Nat.mul_le_mul_left _ (by omega)
  simp only [available]
  omega

/-- A bucket just touched holds its level. -/
theorem available_self (b : TokenBucket) : b.available b.last = b.level := by
  rw [available, Nat.sub_self, Nat.mul_zero, Nat.add_zero, Nat.min_eq_right b.level_le]

/-- **Updating.** To give nothing first does not change what is given later. -/
theorem give_give (h : b.last ≤ t) (h' : t ≤ t') (n : ℕ) :
    (b.give t 0).give t' n = b.give t' n := by
  have hsplit : b.rate * (t' - b.last) = b.rate * (t - b.last) + b.rate * (t' - t) := by
    rw [← Nat.mul_add]
    congr 1
    omega
  -- what is cut off at the first time would be cut off at the second
  have hlevel : min b.capacity (min b.capacity (b.level + (0 + b.rate * (t - b.last))) +
      (n + b.rate * (t' - t))) = min b.capacity (b.level + (n + b.rate * (t' - b.last))) := by
    omega
  simp only [give, hlevel]

theorem take_eq_some {d : Demand} :
    b.take d = some b' ↔ b'.capacity = b.capacity ∧ b'.rate = b.rate ∧ b'.last = d.time ∧
      b'.level + d.amount = b.available d.time := by
  rw [take, Option.ite_none_right_eq_some]
  constructor
  · rintro ⟨hle, h⟩
    obtain rfl := Option.some.inj h
    exact ⟨rfl, rfl, rfl, Nat.sub_add_cancel hle⟩
  · rintro ⟨hcapacity, hrate, hlast, hlevel⟩
    refine ⟨hlevel ▸ Nat.le_add_left .., ?_⟩
    obtain ⟨capacity, rate, level, last, level_le⟩ := b'
    obtain rfl : level = b.available d.time - d.amount := Nat.eq_sub_of_add_eq hlevel
    subst hcapacity hrate hlast
    rfl

/-! ### Flows -/

/-- From the bucket `b` at the time `t` to the bucket `b'` at the time `t'`, `taken` tokens went
out and `given` tokens were put in. -/
structure Flow (b : TokenBucket) (t : ℕ) (b' : TokenBucket) (t' taken given : ℕ) : Prop where
  time_le : t ≤ t'
  capacity_eq : b'.capacity = b.capacity
  rate_eq : b'.rate = b.rate
  balance : b'.available t' + taken ≤ b.available t + b.rate * (t' - t) + given

namespace Flow

variable {b'' : TokenBucket} {t'' x y x' y' : ℕ}

/-- Time passes. -/
theorem wait (h : t ≤ t') : Flow b t b t' 0 0 := ⟨h, rfl, rfl, available_le_add h⟩

theorem take {d : Demand} (h : b.take d = some b') : Flow b d.time b' d.time d.amount 0 := by
  obtain ⟨hcapacity, hrate, hlast, hlevel⟩ := take_eq_some.mp h
  refine ⟨le_rfl, hcapacity, hrate, ?_⟩
  have havailable : b'.available d.time = b'.level := hlast ▸ b'.available_self
  rw [havailable, hlevel, Nat.sub_self, Nat.mul_zero]
  exact le_rfl

theorem give (b : TokenBucket) (t n : ℕ) : Flow b t (b.give t n) t 0 n := by
  refine ⟨le_rfl, rfl, rfl, ?_⟩
  have havailable : (b.give t n).available t = (b.give t n).level := (b.give t n).available_self
  rw [havailable, Nat.sub_self, Nat.mul_zero]
  simp only [TokenBucket.give, available]
  omega

/-- **Composition.** Flows add up. -/
theorem trans (h : Flow b t b' t' x y) (h' : Flow b' t' b'' t'' x' y') :
    Flow b t b'' t'' (x + x') (y + y') := by
  refine ⟨h.time_le.trans h'.time_le, h'.capacity_eq.trans h.capacity_eq,
    h'.rate_eq.trans h.rate_eq, ?_⟩
  have hsplit : b.rate * (t'' - t) = b.rate * (t' - t) + b.rate * (t'' - t') := by
    have htime := h.time_le
    have htime' := h'.time_le
    rw [← Nat.mul_add]
    congr 1
    omega
  have hbalance := h.balance
  have hbalance' := h'.balance
  rw [h.rate_eq] at hbalance'
  omega

/-- **The bound.** No more flows out than the capacity, what time brings and what is given. -/
theorem taken_le (h : Flow b t b' t' x y) : x ≤ b.capacity + b.rate * (t' - t) + y := by
  have hbalance := h.balance
  have hle : b.available t ≤ b.capacity := available_le t
  omega

end Flow

end TokenBucket
