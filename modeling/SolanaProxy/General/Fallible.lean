import Mathlib.Tactic.TypeStar

/-!
# Fallible computations

The calculus of `Except` used to read a program off as the conjunction of its steps: a
computation ends in `ok` exactly when every step does, so `simp only` with
`Except.bind_eq_ok`, `Except.require_eq_ok` and `Except.ofOption_eq_ok` turns "this
program succeeded" into the list of its guards and intermediate values.
-/

namespace Except

universe u v

variable {ε : Type u} {α β : Type v}

/-- Go on only if `p` holds, and fail with `e` otherwise. -/
def require (p : Prop) [Decidable p] (e : ε) : Except ε Unit := if p then ok () else error e

/-- The value of an option, or failure with `e`. -/
def ofOption (e : ε) : Option α → Except ε α
  | some a => ok a
  | none => error e

theorem pure_eq_ok {a b : α} : (pure a : Except ε α) = ok b ↔ a = b :=
  ⟨fun h => Except.ok.inj h, fun h => congrArg _ h⟩

/-- **Sequencing.** A sequence succeeds exactly when both of its parts do. -/
theorem bind_eq_ok {x : Except ε α} {f : α → Except ε β} {b : β} :
    (x >>= f) = ok b ↔ ∃ a, x = ok a ∧ f a = ok b := by
  cases x with
  | error e => exact ⟨fun h => (nomatch h), fun ⟨_, h, _⟩ => (nomatch h)⟩
  | ok a => exact ⟨fun h => ⟨a, rfl, h⟩, fun ⟨_, h, h'⟩ => (Except.ok.inj h) ▸ h'⟩

theorem require_eq_ok {p : Prop} [Decidable p] {e : ε} {u : Unit} :
    require p e = ok u ↔ p := by
  by_cases h : p <;> simp [require, h]

theorem ofOption_eq_ok {e : ε} {o : Option α} {a : α} : ofOption e o = ok a ↔ o = some a := by
  cases o <;> simp [ofOption]

theorem map_eq_ok {x : Except ε α} {f : α → β} {b : β} :
    x.map f = ok b ↔ ∃ a, x = ok a ∧ f a = b := by
  cases x with
  | error e => exact ⟨fun h => (nomatch h), fun ⟨_, h, _⟩ => (nomatch h)⟩
  | ok a => exact ⟨fun h => ⟨a, rfl, Except.ok.inj h⟩, fun ⟨_, h, h'⟩ => by
      rw [Except.ok.inj h, Except.map, h']⟩

theorem map_bind {γ : Type v} {x : Except ε α} {f : α → Except ε β} {g : β → γ} :
    (x >>= f).map g = x >>= fun a => (f a).map g := by
  cases x <;> rfl

theorem mapError_eq_ok {ε' : Type*} {x : Except ε α} {f : ε → ε'} {a : α} :
    x.mapError f = ok a ↔ x = ok a := by
  cases x with
  | error e =>
    constructor
    · intro h
      cases h
    · intro h
      cases h
  | ok a' => exact ⟨fun h => congrArg ok (ok.inj h), fun h => congrArg ok (ok.inj h)⟩

/-- A sequence fails exactly when its first part does or what follows it does. -/
theorem bind_eq_error {x : Except ε α} {f : α → Except ε β} {e : ε} :
    (x >>= f) = error e ↔ x = error e ∨ ∃ a, x = ok a ∧ f a = error e := by
  cases x with
  | error e' =>
    constructor
    · intro h
      exact Or.inl (congrArg _ (Except.error.inj h))
    · rintro (h | ⟨a, ha, -⟩)
      · exact congrArg _ (Except.error.inj h)
      · cases ha
  | ok a =>
    constructor
    · intro h
      exact Or.inr ⟨a, rfl, h⟩
    · rintro (h | ⟨a', ha, h⟩)
      · cases h
      · exact (Except.ok.inj ha) ▸ h

theorem pure_ne_error {a : α} {e : ε} : (pure a : Except ε α) ≠ error e := fun h => nomatch h

theorem require_eq_error {p : Prop} [Decidable p] {e e' : ε} :
    require p e = error e' ↔ ¬p ∧ e = e' := by
  by_cases h : p <;> simp [require, h]

theorem ofOption_eq_error {e e' : ε} {o : Option α} :
    ofOption e o = error e' ↔ o = none ∧ e = e' := by
  cases o <;> simp [ofOption]

theorem toOption_eq_some {x : Except ε α} {a : α} : x.toOption = some a ↔ x = ok a := by
  cases x with
  | error e => simp [Except.toOption]
  | ok a' => simp [Except.toOption]

/-- A computation that can be run to success has a result. -/
theorem exists_of_isOk {x : Except ε α} (h : x.isOk = true) : ∃ a, x = ok a := by
  cases x with
  | error e => cases h
  | ok a => exact ⟨a, rfl⟩

@[simp] theorem ok_bind (a : α) (f : α → Except ε β) : (ok a >>= f) = f a := rfl

@[simp] theorem error_bind (e : ε) (f : α → Except ε β) : (error e >>= f) = error e := rfl

@[simp]
theorem require_of_true {p : Prop} [Decidable p] (h : p) (e : ε) : require p e = ok () :=
  if_pos h

@[simp]
theorem require_of_false {p : Prop} [Decidable p] (h : ¬p) (e : ε) : require p e = error e :=
  if_neg h

@[simp] theorem ofOption_some (e : ε) (a : α) : ofOption e (some a) = ok a := rfl

@[simp] theorem ofOption_none (e : ε) : (ofOption e none : Except ε α) = error e := rfl

end Except
