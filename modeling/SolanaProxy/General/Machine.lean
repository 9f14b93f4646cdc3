import SolanaProxy.General.Fallible
import Mathlib.Data.List.Induction
import Mathlib.Algebra.BigOperators.Group.List.Basic
import Mathlib.Algebra.Order.Monoid.Defs

/-!
# Machines whose failed steps leave the state alone

A machine is a function `step : σ → ι → Except ε (σ × ο)`: an input either fails, and then
nothing happens, or moves to a new state with an output. `run` plays a list of inputs and
`history` records the inputs that succeeded together with their outputs.

The two induction rules are `run_invariant`, for a property of states that every successful
step preserves, and `run_refines`, for a relation between the state and an abstract value
computed from the history alone. `exists_of_history_eq` goes back from an entry of the
history to the step that produced it.

`exists_component_run` reads a run of a machine as a run of one of its parts.

`transitions` keeps the state before each step as well. `run_books` is the induction rule for
books: debits and credits of the steps add up to debits and credits of the run.

`Register.read` is the abstract value used most: a cell that the entries of a history write
or clear. `Register.read_eq_some_iff` says that it holds `a` exactly when the last entry
that touched the cell wrote `a`.
-/

namespace Machine

variable {σ ι ο ε α : Type*}

section Run

variable (step : σ → ι → Except ε (σ × ο))

/-- The state after one input; a failed step changes nothing. -/
def next (s : σ) (i : ι) : σ :=
  match step s i with
  | .ok (s', _) => s'
  | .error _ => s

/-- The state after a list of inputs. -/
def run (s : σ) (is : List ι) : σ := is.foldl (next step) s

/-- The inputs that succeeded, each with its output, oldest first. -/
def history : σ → List ι → List (ι × ο)
  | _, [] => []
  | s, i :: is =>
    match step s i with
    | .ok (s', o) => (i, o) :: history s' is
    | .error _ => history s is

/-- The steps that succeeded, each with the state before it. -/
def transitions : σ → List ι → List (σ × ι × ο)
  | _, [] => []
  | s, i :: is =>
    match step s i with
    | .ok (s', o) => (s, i, o) :: transitions s' is
    | .error _ => transitions s is

end Run

variable {step : σ → ι → Except ε (σ × ο)}

@[simp] theorem run_nil (s : σ) : run step s [] = s := rfl

@[simp]
theorem run_cons (s : σ) (i : ι) (is : List ι) :
    run step s (i :: is) = run step (next step s i) is := rfl

theorem next_of_ok {s s' : σ} {i : ι} {o : ο} (h : step s i = .ok (s', o)) :
    next step s i = s' := by
  rw [next, h]

theorem next_of_error {s : σ} {i : ι} {e : ε} (h : step s i = .error e) :
    next step s i = s := by
  rw [next, h]

@[simp] theorem history_nil (s : σ) : history step s [] = [] := rfl

theorem history_cons_of_ok {s s' : σ} {i : ι} {o : ο} (h : step s i = .ok (s', o))
    (is : List ι) : history step s (i :: is) = (i, o) :: history step s' is := by
  rw [history, h]

theorem history_cons_of_error {s : σ} {i : ι} {e : ε} (h : step s i = .error e)
    (is : List ι) : history step s (i :: is) = history step s is := by
  rw [history, h]

/-- **Invariance.** A property that every successful step preserves holds after every run. -/
theorem run_invariant {P : σ → Prop}
    (hstep : ∀ s i s' o, P s → step s i = .ok (s', o) → P s') {s : σ} (hs : P s)
    (is : List ι) : P (run step s is) := by
  induction is generalizing s with
  | nil => exact hs
  | cons i is ih =>
    refine ih ?_
    cases h : step s i with
    | error e => rwa [next_of_error h]
    | ok r => rw [next_of_ok h]; exact hstep s i r.1 r.2 hs h

/-- **Refinement.** A relation between the state and an abstract value that every successful
step preserves relates the state after a run to the value its history folds to. -/
theorem run_refines {R : σ → α → Prop} {f : α → ι × ο → α}
    (hstep : ∀ s a i s' o, R s a → step s i = .ok (s', o) → R s' (f a (i, o)))
    {s : σ} {a : α} (hs : R s a) (is : List ι) :
    R (run step s is) ((history step s is).foldl f a) := by
  induction is generalizing s a with
  | nil => exact hs
  | cons i is ih =>
    cases h : step s i with
    | error e => rw [run_cons, next_of_error h, history_cons_of_error h]; exact ih hs
    | ok r =>
      rw [run_cons, next_of_ok h, history_cons_of_ok h]
      exact ih (hstep s a i r.1 r.2 hs h)

/-- **Invariance with the history.** A relation between the state and the history that every
successful step preserves holds after every run. -/
theorem run_history_invariant {Q : σ → List (ι × ο) → Prop}
    (hstep : ∀ s l i s' o, Q s l → step s i = .ok (s', o) → Q s' (l ++ [(i, o)])) {s : σ}
    (hs : Q s []) (is : List ι) : Q (run step s is) (history step s is) := by
  have h := run_refines (R := Q) (f := fun l e => l ++ [e]) hstep hs is
  have hfold : (history step s is).foldl (fun l e => l ++ [e]) [] = history step s is := by
    rw [List.foldl_append_eq_append, List.nil_append, ← List.flatMap_def, List.flatMap_singleton']
  rwa [hfold] at h

/-- **Locating an entry.** Every entry of a history comes from one input of the run, and the
entries before it are the history of the inputs before that one. -/
theorem exists_of_history_eq {s : σ} {is : List ι} {pre post : List (ι × ο)} {e : ι × ο}
    (h : history step s is = pre ++ e :: post) :
    ∃ is₁ is₂ s', is = is₁ ++ e.1 :: is₂ ∧ history step s is₁ = pre ∧
      step (run step s is₁) e.1 = .ok (s', e.2) := by
  induction is generalizing s pre with
  | nil => simp at h
  | cons i is ih =>
    cases hi : step s i with
    | error err =>
      rw [history_cons_of_error hi] at h
      obtain ⟨is₁, is₂, s', rfl, hpre, hstep⟩ := ih h
      refine ⟨i :: is₁, is₂, s', rfl, ?_, ?_⟩
      · rwa [history_cons_of_error hi]
      · rwa [run_cons, next_of_error hi]
    | ok r =>
      rw [history_cons_of_ok hi] at h
      cases pre with
      | nil =>
        obtain ⟨rfl, -⟩ := List.cons.inj h
        exact ⟨[], is, r.1, rfl, rfl, hi⟩
      | cons e' pre =>
        obtain ⟨rfl, htail⟩ := List.cons.inj h
        obtain ⟨is₁, is₂, s', rfl, hpre, hstep⟩ := ih htail
        refine ⟨i :: is₁, is₂, s', rfl, ?_, ?_⟩
        · rw [history_cons_of_ok hi, hpre]
        · rwa [run_cons, next_of_ok hi]

/-- The inputs of a history are inputs of the run. -/
theorem mem_of_mem_history {s : σ} {is : List ι} {e : ι × ο} (h : e ∈ history step s is) :
    e.1 ∈ is := by
  obtain ⟨pre, post, hsplit⟩ := List.append_of_mem h
  obtain ⟨is₁, is₂, s', rfl, -, -⟩ := exists_of_history_eq hsplit
  exact List.mem_append_right is₁ List.mem_cons_self

theorem run_append (s : σ) (is js : List ι) :
    run step s (is ++ js) = run step (run step s is) js := List.foldl_append

theorem history_append (s : σ) (is js : List ι) :
    history step s (is ++ js) = history step s is ++ history step (run step s is) js := by
  induction is generalizing s with
  | nil => rfl
  | cons i is ih =>
    rw [List.cons_append, run_cons]
    cases h : step s i with
    | error e => rw [history_cons_of_error h, history_cons_of_error h, next_of_error h, ih]
    | ok r => rw [history_cons_of_ok h, history_cons_of_ok h, next_of_ok h, ih, List.cons_append]

/-- **Laps.** Where some lists of inputs all lead back to the state, so do they one after the
other, and the history is made of theirs. -/
theorem run_history_flatMap {β : Type*} {f : β → List ι} {s : σ} {l : List β}
    (h : ∀ b ∈ l, run step s (f b) = s) :
    run step s (l.flatMap f) = s ∧
      history step s (l.flatMap f) = l.flatMap fun b => history step s (f b) := by
  induction l with
  | nil => exact ⟨rfl, rfl⟩
  | cons b l ih =>
    obtain ⟨hrun, hhistory⟩ := ih fun b' hb' => h b' (.tail _ hb')
    have hlap := h b List.mem_cons_self
    rw [List.flatMap_cons, run_append, history_append, hlap, hhistory]
    exact ⟨hrun, rfl⟩

/-- **Components.** Where every step is a step of a component or leaves it alone, a run is a run of
the component, and its history says what the component did. -/
theorem exists_component_run {σ' ι' ο' ε' : Type*} {step' : σ' → ι' → Except ε' (σ' × ο')}
    {f : σ → σ'} {p : ι × ο → Option (ι' × ο')}
    (hother : ∀ s i s' o, step s i = .ok (s', o) → p (i, o) = none → f s' = f s)
    (hstep : ∀ s i s' o e, step s i = .ok (s', o) → p (i, o) = some e →
      step' (f s) e.1 = .ok (f s', e.2)) (s : σ) (is : List ι) :
    ∃ js, run step' (f s) js = f (run step s is) ∧
      history step' (f s) js = (history step s is).filterMap p := by
  induction is generalizing s with
  | nil => exact ⟨[], rfl, rfl⟩
  | cons i is ih =>
    cases h : step s i with
    | error e =>
      rw [run_cons, next_of_error h, history_cons_of_error h]
      exact ih s
    | ok r =>
      obtain ⟨js, hrun, hhistory⟩ := ih r.1
      rw [run_cons, next_of_ok h, history_cons_of_ok h]
      cases hp : p (i, r.2) with
      | none =>
        rw [hother s i r.1 r.2 h hp] at hrun hhistory
        exact ⟨js, hrun, by rw [hhistory, List.filterMap_cons_none hp]⟩
      | some e =>
        have hcomponent := hstep s i r.1 r.2 e h hp
        refine ⟨e.1 :: js, ?_, ?_⟩
        · rw [run_cons, next_of_ok hcomponent, hrun]
        · rw [history_cons_of_ok hcomponent, hhistory, List.filterMap_cons_some hp]

theorem transitions_cons_of_ok {s s' : σ} {i : ι} {o : ο} (h : step s i = .ok (s', o))
    (is : List ι) : transitions step s (i :: is) = (s, i, o) :: transitions step s' is := by
  rw [transitions, h]

theorem transitions_cons_of_error {s : σ} {i : ι} {e : ε} (h : step s i = .error e)
    (is : List ι) : transitions step s (i :: is) = transitions step s is := by
  rw [transitions, h]

/-- The history is what the transitions say without their states. -/
theorem map_transitions (s : σ) (is : List ι) :
    (transitions step s is).map Prod.snd = history step s is := by
  induction is generalizing s with
  | nil => rfl
  | cons i is ih =>
    cases h : step s i with
    | error e => rw [transitions_cons_of_error h, history_cons_of_error h, ih]
    | ok r => rw [transitions_cons_of_ok h, history_cons_of_ok h, List.map_cons, ih]

/-- **Locating a transition.** Every transition is a step from the state of a part of the run. -/
theorem exists_of_mem_transitions {s : σ} {is : List ι} {t : σ × ι × ο}
    (h : t ∈ transitions step s is) :
    ∃ is₁ is₂ s', is = is₁ ++ t.2.1 :: is₂ ∧ t.1 = run step s is₁ ∧
      step t.1 t.2.1 = .ok (s', t.2.2) := by
  induction is generalizing s with
  | nil => cases h
  | cons i is ih =>
    cases hi : step s i with
    | error e =>
      rw [transitions_cons_of_error hi] at h
      obtain ⟨is₁, is₂, s', rfl, hrun, hstep⟩ := ih h
      exact ⟨i :: is₁, is₂, s', rfl, by rw [hrun, run_cons, next_of_error hi], hstep⟩
    | ok r =>
      rw [transitions_cons_of_ok hi] at h
      rcases List.mem_cons.mp h with rfl | h
      · exact ⟨[], is, r.1, rfl, rfl, hi⟩
      · obtain ⟨is₁, is₂, s', rfl, hrun, hstep⟩ := ih h
        exact ⟨i :: is₁, is₂, s', rfl, by rw [hrun, run_cons, next_of_ok hi], hstep⟩

theorem mem_of_mem_transitions {s : σ} {is : List ι} {t : σ × ι × ο}
    (h : t ∈ transitions step s is) : t.2.1 ∈ is := by
  obtain ⟨is₁, is₂, s', rfl, -, -⟩ := exists_of_mem_transitions h
  exact List.mem_append_right is₁ List.mem_cons_self

/-- **Invariance along a run.** A property that the steps of a run preserve holds after it. -/
theorem run_invariant_of_transitions {P : σ → Prop} {s : σ} {is : List ι}
    (hstep : ∀ t ∈ transitions step s is, ∀ s', P t.1 → step t.1 t.2.1 = .ok (s', t.2.2) → P s')
    (hs : P s) : P (run step s is) := by
  induction is generalizing s with
  | nil => exact hs
  | cons i is ih =>
    cases h : step s i with
    | error e =>
      rw [transitions_cons_of_error h] at hstep
      rw [run_cons, next_of_error h]
      exact ih hstep hs
    | ok r =>
      rw [transitions_cons_of_ok h] at hstep
      rw [run_cons, next_of_ok h]
      refine ih (fun t ht => hstep t (.tail _ ht)) ?_
      exact hstep _ List.mem_cons_self r.1 hs h

/-- Such a property holds where the steps of the run start, too. -/
theorem of_mem_transitions {P : σ → Prop} {s : σ} {is : List ι}
    (hstep : ∀ t ∈ transitions step s is, ∀ s', P t.1 → step t.1 t.2.1 = .ok (s', t.2.2) → P s')
    (hs : P s) {t : σ × ι × ο} (ht : t ∈ transitions step s is) : P t.1 := by
  induction is generalizing s with
  | nil => cases ht
  | cons i is ih =>
    cases h : step s i with
    | error e =>
      rw [transitions_cons_of_error h] at hstep ht
      exact ih hstep hs ht
    | ok r =>
      rw [transitions_cons_of_ok h] at hstep ht
      rcases List.mem_cons.mp ht with rfl | ht
      · exact hs
      · refine ih (fun t ht => hstep t (.tail _ ht)) ?_ ht
        exact hstep _ List.mem_cons_self r.1 hs h

theorem mem_history_of_mem_transitions {s : σ} {is : List ι} {t : σ × ι × ο}
    (h : t ∈ transitions step s is) : t.2 ∈ history step s is := by
  rw [← map_transitions]
  exact List.mem_map_of_mem h

/-- **Books.** A quantity that every step moves by a debit and a credit has moved by the sum of
the debits and the sum of the credits after a run. -/
theorem run_books {M : Type*} [AddCommMonoid M] {f : σ → M} {debit credit : σ × ι × ο → M} {s : σ}
    {is : List ι} (hstep : ∀ t ∈ transitions step s is, ∀ s', step t.1 t.2.1 = .ok (s', t.2.2) →
      f s' + debit t = f t.1 + credit t) :
    f (run step s is) + ((transitions step s is).map debit).sum =
      f s + ((transitions step s is).map credit).sum := by
  induction is generalizing s with
  | nil => rfl
  | cons i is ih =>
    cases h : step s i with
    | error e =>
      rw [transitions_cons_of_error h] at hstep ⊢
      rw [run_cons, next_of_error h, ih hstep]
    | ok r =>
      rw [transitions_cons_of_ok h] at hstep ⊢
      have hfirst := hstep _ List.mem_cons_self r.1 h
      have hrest := ih fun t ht => hstep t (.tail _ ht)
      rw [run_cons, next_of_ok h, List.map_cons, List.map_cons, List.sum_cons, List.sum_cons,
        add_left_comm, hrest, ← add_assoc, ← add_assoc, ← hfirst, add_comm (debit _)]

/-- Books kept from the history alone. -/
theorem history_books {M : Type*} [AddCommMonoid M] {f : σ → M} {debit credit : ι × ο → M} {s : σ}
    {is : List ι} (hstep : ∀ t ∈ transitions step s is, ∀ s', step t.1 t.2.1 = .ok (s', t.2.2) →
      f s' + debit t.2 = f t.1 + credit t.2) :
    f (run step s is) + ((history step s is).map debit).sum =
      f s + ((history step s is).map credit).sum := by
  rw [← map_transitions, List.map_map, List.map_map]
  exact run_books hstep

/-- **Books with losses.** A quantity that every step raises by at least its credit, but for a
debit, is raised by at least the sum of the credits, but for the debits, after a run. -/
theorem run_books_le {M : Type*} [AddCommMonoid M] [PartialOrder M] [IsOrderedAddMonoid M]
    {f : σ → M} {debit credit : σ × ι × ο → M} {s : σ} {is : List ι}
    (hstep : ∀ t ∈ transitions step s is, ∀ s', step t.1 t.2.1 = .ok (s', t.2.2) →
      f t.1 + credit t ≤ f s' + debit t) :
    f s + ((transitions step s is).map credit).sum ≤
      f (run step s is) + ((transitions step s is).map debit).sum := by
  induction is generalizing s with
  | nil => exact le_rfl
  | cons i is ih =>
    cases h : step s i with
    | error e =>
      rw [transitions_cons_of_error h] at hstep ⊢
      rw [run_cons, next_of_error h]
      exact ih hstep
    | ok r =>
      rw [transitions_cons_of_ok h] at hstep ⊢
      have hfirst := hstep _ List.mem_cons_self r.1 h
      have hrest := ih fun t ht => hstep t (.tail _ ht)
      rw [run_cons, next_of_ok h, List.map_cons, List.map_cons, List.sum_cons, List.sum_cons]
      calc f s + (credit (s, i, r.2) + _)
          = f s + credit (s, i, r.2) + _ := (add_assoc _ _ _).symm
        _ ≤ f r.1 + debit (s, i, r.2) + _ := add_le_add_left hfirst _
        _ = debit (s, i, r.2) + (f r.1 + _) := by rw [add_comm (f r.1), add_assoc]
        _ ≤ debit (s, i, r.2) + (_ + _) := add_le_add_right hrest _
        _ = _ := add_left_comm _ _ _

end Machine

namespace Register

variable {η α : Type*}

/-- The cell after one entry: `f e` is `none` when the entry leaves the cell alone, and
otherwise the new content. -/
def write (f : η → Option (Option α)) (r : Option α) (e : η) : Option α := (f e).getD r

/-- The cell after a history, empty at the start. -/
def read (f : η → Option (Option α)) (l : List η) : Option α := l.foldl (write f) none

theorem read_concat (f : η → Option (Option α)) (l : List η) (e : η) :
    read f (l ++ [e]) = (f e).getD (read f l) := by
  rw [read, List.foldl_append]
  rfl

/-- **Last write.** The cell holds `a` exactly when some entry wrote `a` and no later entry
touched the cell. -/
theorem read_eq_some_iff {f : η → Option (Option α)} {l : List η} {a : α} :
    read f l = some a ↔
      ∃ pre e post, l = pre ++ e :: post ∧ f e = some (some a) ∧ ∀ x ∈ post, f x = none := by
  constructor
  · intro h
    induction l using List.reverseRecOn with
    | nil => cases h
    | append_singleton l e ih =>
      rw [read_concat] at h
      cases he : f e with
      | some r =>
        rw [he, Option.getD_some] at h
        exact ⟨l, e, [], rfl, by rw [he, h], fun x hx => (nomatch hx)⟩
      | none =>
        rw [he, Option.getD_none] at h
        obtain ⟨pre, e', post, rfl, he', hpost⟩ := ih h
        refine ⟨pre, e', post ++ [e], by simp, he', fun x hx => ?_⟩
        rcases List.mem_append.mp hx with hx | hx
        · exact hpost x hx
        · rwa [List.mem_singleton.mp hx]
  · rintro ⟨pre, e, post, rfl, he, hpost⟩
    induction post using List.reverseRecOn with
    | nil => rw [read_concat, he, Option.getD_some]
    | append_singleton post e' ih =>
      have hl : pre ++ e :: (post ++ [e']) = (pre ++ e :: post) ++ [e'] := by simp
      rw [hl, read_concat, hpost e' (by simp), Option.getD_none]
      exact ih fun x hx => hpost x (by simp [hx])

/-- A cell that was cleared and holds a value again was written in between. -/
theorem exists_write_of_clear {f : η → Option (Option α)} {pre mid : List η} {e : η} {a : α}
    (he : f e = some none) (h : read f (pre ++ e :: mid) = some a) :
    ∃ x ∈ mid, f x = some (some a) := by
  induction mid using List.reverseRecOn with
  | nil =>
    rw [read_concat, he] at h
    cases h
  | append_singleton mid x ih =>
    have hl : pre ++ e :: (mid ++ [x]) = (pre ++ e :: mid) ++ [x] := by simp
    rw [hl, read_concat] at h
    cases hx : f x with
    | some r =>
      rw [hx, Option.getD_some] at h
      exact ⟨x, by simp, by rw [hx, h]⟩
    | none =>
      rw [hx, Option.getD_none] at h
      obtain ⟨y, hy, hfy⟩ := ih h
      exact ⟨y, List.mem_append_left _ hy, hfy⟩

/-- Where only a full cell is cleared, every clearing uses up a writing of its own. -/
theorem countP_clear_le {f : η → Option (Option α)} {l : List η}
    (h : ∀ pre e post, l = pre ++ e :: post → f e = some none → (read f pre).isSome) :
    (l.filterMap f).countP Option.isNone + (read f l).toList.length ≤
      (l.filterMap f).countP Option.isSome := by
  induction l using List.reverseRecOn with
  | nil => exact Nat.le_refl 0
  | append_singleton l e ih =>
    have hl := ih fun pre e' post hsplit => h pre e' (post ++ [e]) (by simp [hsplit])
    have hbound : (read f l).toList.length ≤ 1 := Option.length_toList_le
    rw [read_concat, List.filterMap_append, List.countP_append, List.countP_append]
    rcases he : f e with _ | _ | a
    · rw [List.filterMap_cons_none he]
      exact hl
    · -- the cell was full, and it is empty now
      obtain ⟨b, hb⟩ := Option.isSome_iff_exists.mp (h l e [] rfl he)
      rw [hb] at hl
      rw [List.filterMap_cons_some he]
      simp at hl ⊢
      omega
    · rw [List.filterMap_cons_some he]
      simp
      omega

end Register
