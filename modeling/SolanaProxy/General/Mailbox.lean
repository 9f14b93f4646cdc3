import Mathlib.Data.List.Basic
import Mathlib.Data.List.Nodup
import Mathlib.Logic.Function.Basic

/-!
# Mailboxes

A mailbox has a slot for every key. A slot is empty, it holds a digest, or its digest was taken;
what was taken is never held again. `Agrees` relates a mailbox to the operations it has seen: no
key is taken twice (`Agrees.nodup`), only what was put is held, and what was put is held until
it is taken (`Agrees.holds_or_taken`). It is kept by both operations where they are allowed.
-/

/-- What a slot can be. -/
inductive Mailbox.Slot (D : Type*) where
  | empty
  | holds (d : D)
  | taken
deriving DecidableEq

/-- A slot for every key. -/
abbrev Mailbox (K D : Type*) := K → Mailbox.Slot D

namespace Mailbox

variable {K D : Type*}

/-- The two operations on a mailbox. -/
inductive Op (K D : Type*) where
  | put (k : K) (d : D)
  | take (k : K)

/-- The key an operation takes, if it does. -/
def Op.taken? : Op K D → Option K
  | take k => some k
  | put .. => none

/-- Nothing was put. -/
def start : Mailbox K D := fun _ => .empty

section Ops

variable [DecidableEq K]

/-- A key is given a datum to hold, whatever it held before. -/
def put (m : Mailbox K D) (k : K) (d : D) : Mailbox K D := Function.update m k (.holds d)

/-- What a key holds is taken. -/
def take (m : Mailbox K D) (k : K) : Mailbox K D := Function.update m k .taken

end Ops

/-- The mailbox is what the operations make of it: the keys that are taken are those that were,
each once, what is held was put, and where something was put the slot is not empty. -/
structure Agrees (m : Mailbox K D) (ops : List (Op K D)) : Prop where
  nodup : (ops.filterMap Op.taken?).Nodup
  taken_iff : ∀ k, m k = .taken ↔ k ∈ ops.filterMap Op.taken?
  put_of_holds : ∀ k d, m k = .holds d → .put k d ∈ ops
  ne_empty_of_put : ∀ k d, .put k d ∈ ops → m k ≠ .empty

namespace Agrees

theorem start : Agrees (start : Mailbox K D) [] where
  nodup := List.nodup_nil
  taken_iff _ := iff_of_false nofun List.not_mem_nil
  put_of_holds _ _ h := nomatch h
  ne_empty_of_put _ _ h := (List.not_mem_nil h).elim

variable {m : Mailbox K D} {ops : List (Op K D)}

/-- **What was put** is held until it is taken. -/
theorem holds_or_taken (h : m.Agrees ops) {k : K} {d : D} (hput : .put k d ∈ ops)
    (hunique : ∀ d', .put k d' ∈ ops → d' = d) :
    m k = .holds d ∨ k ∈ ops.filterMap Op.taken? := by
  cases hk : m k with
  | empty => exact absurd hk (h.ne_empty_of_put k d hput)
  | holds d' => rw [hunique d' (h.put_of_holds k d' hk)]; exact .inl rfl
  | taken => exact .inr ((h.taken_iff k).mp hk)

variable [DecidableEq K]

/-- Something is put into a slot that was not taken. -/
theorem put (h : m.Agrees ops) {k : K} (hk : m k ≠ .taken) (d : D) :
    (m.put k d).Agrees (ops ++ [.put k d]) := by
  have htaken : (ops ++ [Op.put k d]).filterMap Op.taken? = ops.filterMap Op.taken? := by
    rw [List.filterMap_append]
    exact List.append_nil _
  refine ⟨?_, fun k' => ?_, fun k' d' hd' => ?_, fun k' d' hd' => ?_⟩
  · rw [htaken]
    exact h.nodup
  · rw [htaken, ← h.taken_iff, Mailbox.put, Function.update_apply]
    split
    case isTrue heq => exact iff_of_false nofun (heq ▸ hk)
    case isFalse => rfl
  · rw [Mailbox.put, Function.update_apply] at hd'
    rw [List.mem_append, List.mem_singleton]
    split at hd'
    case isTrue heq =>
      obtain rfl := Slot.holds.inj hd'
      exact .inr (heq ▸ rfl)
    case isFalse => exact .inl (h.put_of_holds k' d' hd')
  · rw [List.mem_append, List.mem_singleton] at hd'
    rw [Mailbox.put, Function.update_apply]
    split
    case isTrue => nofun
    case isFalse hne =>
      rcases hd' with hd' | hd'
      · exact h.ne_empty_of_put k' d' hd'
      · exact absurd (Op.put.inj hd').1 hne

/-- What is held is taken. -/
theorem take (h : m.Agrees ops) {k : K} {d : D} (hk : m k = .holds d) :
    (m.take k).Agrees (ops ++ [.take k]) := by
  have htaken : (ops ++ [Op.take k]).filterMap Op.taken? = ops.filterMap Op.taken? ++ [k] :=
    List.filterMap_append
  -- a key that was taken before is not held any more
  have hfresh : k ∉ ops.filterMap Op.taken? := by
    intro hmem
    rw [← h.taken_iff, hk] at hmem
    cases hmem
  refine ⟨?_, fun k' => ?_, fun k' d' hd' => ?_, fun k' d' hd' => ?_⟩
  · rw [htaken, List.nodup_append]
    exact ⟨h.nodup, List.nodup_singleton k, fun a ha b hb => by
      rintro rfl
      exact hfresh (List.mem_singleton.mp hb ▸ ha)⟩
  · rw [htaken, List.mem_append, List.mem_singleton, ← h.taken_iff, Mailbox.take,
      Function.update_apply]
    split
    case isTrue heq => exact iff_of_true rfl (.inr heq)
    case isFalse hne => exact (or_iff_left hne).symm
  · rw [Mailbox.take, Function.update_apply] at hd'
    split at hd'
    case isTrue => cases hd'
    case isFalse => exact List.mem_append_left _ (h.put_of_holds k' d' hd')
  · rw [Mailbox.take, Function.update_apply]
    split
    case isTrue => nofun
    case isFalse =>
      rcases List.mem_append.mp hd' with hd' | hd'
      · exact h.ne_empty_of_put k' d' hd'
      · cases List.mem_singleton.mp hd'

end Agrees

end Mailbox
