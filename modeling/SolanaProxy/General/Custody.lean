import Mathlib.Data.Int.Notation
import Mathlib.Data.Nat.Notation
import Mathlib.Logic.Relation

/-!
# Custody

A custodian holds an amount and owes a part of it. It may take in at least what it promises,
hand out what it owes, and give away its surplus. However these are mixed, it can always pay
what it owes (`Steps.covered`): nothing it gives away was owed, and a part of what is owed can
be handed out at any time (`Covered.le_held`).
-/

/-- What a custodian owes and what it holds. -/
structure Custody where
  owed : ℕ
  held : ℕ

namespace Custody

/-- What is owed is held. -/
def Covered (c : Custody) : Prop := c.owed ≤ c.held

/-- What is held beyond what is owed. -/
def surplus (c : Custody) : ℕ := c.held - c.owed

/-- The same with its sign: negative where something owed is missing. -/
def margin (c : Custody) : ℤ := c.held - c.owed

/-- What a custodian may do. -/
inductive Step (c : Custody) : Custody → Prop
  /-- take in `y` and promise at most as much -/
  | lock {x y : ℕ} (h : x ≤ y) : Step c ⟨c.owed + x, c.held + y⟩
  /-- hand out `x` of what is owed -/
  | release {x : ℕ} (howed : x ≤ c.owed) (hheld : x ≤ c.held) : Step c ⟨c.owed - x, c.held - x⟩
  /-- give away `x` of the surplus -/
  | withdraw {x : ℕ} (h : x ≤ c.surplus) : Step c ⟨c.owed, c.held - x⟩

/-- Any number of steps. -/
abbrev Steps : Custody → Custody → Prop := Relation.ReflTransGen Step

variable {c c' : Custody}

/-- Part of what is owed is held. -/
theorem Covered.le_held (h : c.Covered) {x : ℕ} (hx : x ≤ c.owed) : x ≤ c.held :=
  Nat.le_trans hx h

theorem le_surplus {x : ℕ} (h : (x : ℤ) ≤ c.margin) : x ≤ c.surplus := by
  rw [margin] at h
  rw [surplus]
  omega

theorem Step.covered (h : c.Step c') (hc : c.Covered) : c'.Covered := by
  simp only [Covered] at hc ⊢
  cases h with
  | lock h => exact Nat.add_le_add hc h
  | release => exact Nat.sub_le_sub_right hc _
  | withdraw h =>
    rw [surplus] at h
    show c.owed ≤ c.held - _
    omega

/-- **Coverage.** A custodian that can pay what it owes stays able to. -/
theorem Steps.covered (h : Steps c c') (hc : c.Covered) : c'.Covered := by
  induction h with
  | refl => exact hc
  | tail _ hstep ih => exact hstep.covered ih

/-- Whoever gives something to a custodian asks for nothing. -/
theorem Steps.gain {owed held held' : ℕ} (h : held ≤ held') : Steps ⟨owed, held⟩ ⟨owed, held'⟩ := by
  have hstep : Step ⟨owed, held⟩ ⟨owed + 0, held + (held' - held)⟩ := .lock (Nat.zero_le _)
  rw [Nat.add_zero, Nat.add_sub_cancel' h] at hstep
  exact .single hstep

end Custody
