import SolanaProxy.General.Machine
import SolanaProxy.General.Mailbox
import Mathlib.Algebra.GroupWithZero.Nat
import Mathlib.Data.List.Flatten
import Mathlib.Data.List.Perm.Subperm

/-!
# Channels

A channel has the messages that were sent through it, oldest first, and a mailbox on the other
side. A message is known by a key, which is used once, and the mailbox stores a digest of it: it
is `verified` after it was sent, and `taken` when the digest of what is taken is stored.

`Agrees` relates a channel to the events it has seen, and every event keeps it. Where no two of
the messages share key and digest, what was taken is, as a multiset and together with what is still
open, part of what was sent (`Agrees.open_taken_subperm`), and what was verified is stored until it
is taken (`Agrees.holds_or_mem_taken`).

A machine has a channel when each of its steps plays the events it stands for. Then the channel
agrees with the history (`agrees_run`), and what the machine does with the messages it takes is part
of what was asked for where they were sent (`crosses_once`).
-/

/-- What is taken from equivalent lists by a partial function. -/
theorem List.Subperm.filterMap {α β : Type*} {l l' : List α} (h : l.Subperm l')
    (f : α → Option β) : (l.filterMap f).Subperm (l'.filterMap f) := by
  obtain ⟨l₁, hperm, hsub⟩ := h
  exact ⟨l₁.filterMap f, hperm.filterMap f, hsub.filterMap f⟩

theorem List.Subperm.sum_map_le {α : Type*} {l l' : List α} (h : l.Subperm l') (f : α → ℕ) :
    (l.map f).sum ≤ (l'.map f).sum := by
  obtain ⟨l₁, hperm, hsub⟩ := h
  obtain ⟨l₂, hrest⟩ := hsub.exists_perm_append
  rw [← (hperm.map f).sum_nat, (hrest.map f).sum_nat, List.map_append, List.sum_append_nat]
  exact Nat.le_add_right _ _

/-- How the messages of a channel are known: by a key, and by the digest that is stored. -/
structure Channel.Labels (M K D : Type*) where
  key : M → K
  digest : M → D

/-- What was sent, and what the other side has stored of it. -/
structure Channel (M K D : Type*) where
  sent : List M
  inbox : Mailbox K D

namespace Channel

variable {M K D : Type*}

/-- What happens to a message. -/
inductive Event (M : Type*) where
  | send (m : M)
  | verify (m : M)
  | take (m : M)

namespace Event

/-- The message an event is about. -/
def message : Event M → M
  | send m | verify m | take m => m

/-- The message that was sent, if one was. -/
def sent? : Event M → Option M
  | send m => some m
  | _ => none

/-- The message that was taken, if one was. -/
def taken? : Event M → Option M
  | take m => some m
  | _ => none

theorem mem_filterMap_sent {evs : List (Event M)} {m : M} :
    m ∈ evs.filterMap sent? ↔ send m ∈ evs := by
  rw [List.mem_filterMap]
  constructor
  · rintro ⟨ev, hev, h⟩
    cases ev <;> cases h
    exact hev
  · exact fun h => ⟨_, h, rfl⟩

theorem mem_filterMap_taken {evs : List (Event M)} {m : M} :
    m ∈ evs.filterMap taken? ↔ take m ∈ evs := by
  rw [List.mem_filterMap]
  constructor
  · rintro ⟨ev, hev, h⟩
    cases ev <;> cases h
    exact hev
  · exact fun h => ⟨_, h, rfl⟩

/-- What an event does to the mailbox. -/
def op? (L : Labels M K D) : Event M → Option (Mailbox.Op K D)
  | send _ => none
  | verify m => some (.put (L.key m) (L.digest m))
  | take m => some (.take (L.key m))

end Event

/-- Nothing was sent. -/
def start : Channel M K D := ⟨[], Mailbox.start⟩

section Step

variable [DecidableEq M] [DecidableEq K] [DecidableEq D]

/-- One event: a key is used once, what was sent and not taken is verified, and what is stored is
taken. -/
def step (L : Labels M K D) (c : Channel M K D) : Event M → Option (Channel M K D)
  | .send m =>
    if L.key m ∈ c.sent.map L.key then none else some { c with sent := c.sent ++ [m] }
  | .verify m =>
    if m ∈ c.sent ∧ c.inbox (L.key m) ≠ .taken then
      some { c with inbox := c.inbox.put (L.key m) (L.digest m) }
    else none
  | .take m =>
    if c.inbox (L.key m) = .holds (L.digest m) then
      some { c with inbox := c.inbox.take (L.key m) }
    else none

/-- A list of events, each of which has to be possible. -/
def play (L : Labels M K D) (c : Channel M K D) : List (Event M) → Option (Channel M K D)
  | [] => some c
  | ev :: evs => (c.step L ev).bind fun c' => play L c' evs

end Step

/-- The channel is what the events make of it. -/
structure Agrees (L : Labels M K D) (c : Channel M K D) (evs : List (Event M)) : Prop where
  sent_eq : evs.filterMap Event.sent? = c.sent
  keys : (c.sent.map L.key).Nodup
  verified : ∀ m, .verify m ∈ evs → m ∈ c.sent
  taken : ∀ m, .take m ∈ evs → ∃ m' ∈ c.sent, L.key m' = L.key m ∧ L.digest m' = L.digest m
  inbox : c.inbox.Agrees (evs.filterMap (Event.op? L))

/-- The message was sent and not taken. -/
def Open (L : Labels M K D) (c : Channel M K D) (m : M) : Prop :=
  m ∈ c.sent ∧ c.inbox (L.key m) ≠ .taken

namespace Agrees

variable {L : Labels M K D} {c c' : Channel M K D} {evs : List (Event M)} {ev : Event M}

theorem start (L : Labels M K D) : Agrees L (start : Channel M K D) [] where
  sent_eq := rfl
  keys := List.nodup_nil
  verified _ h := (List.not_mem_nil h).elim
  taken _ h := (List.not_mem_nil h).elim
  inbox := .start

/-- What the mailbox holds is the digest of a message that was sent. -/
theorem exists_of_holds (h : Agrees L c evs) {k : K} {d : D} (hk : c.inbox k = .holds d) :
    ∃ m ∈ c.sent, L.key m = k ∧ L.digest m = d := by
  obtain ⟨ev, hev, hop⟩ := List.mem_filterMap.mp (h.inbox.put_of_holds k d hk)
  cases ev with
  | send m => cases hop
  | verify m =>
    obtain ⟨rfl, rfl⟩ := Mailbox.Op.put.inj (Option.some.inj hop)
    exact ⟨m, h.verified m hev, rfl, rfl⟩
  | take m => cases hop

/-- The taken keys of the mailbox are those of the messages that were taken. -/
theorem taken_keys (L : Labels M K D) (evs : List (Event M)) :
    (evs.filterMap (Event.op? L)).filterMap Mailbox.Op.taken? =
      (evs.filterMap Event.taken?).map L.key := by
  rw [List.filterMap_filterMap, List.map_filterMap]
  refine List.filterMap_congr fun ev _ => ?_
  cases ev <;> rfl

/-- What is taken is what was sent, where no two of the payloads that were seen have one digest. -/
theorem eq_of_labels {B : Type*} (h : Agrees L c evs) (payload : M → B) (hash : B → D)
    (hdigest : ∀ m, L.digest m = hash (payload m))
    (heq : ∀ m m', L.key m = L.key m' → payload m = payload m' → m = m')
    (hhash : ∀ x ∈ evs.map (payload ∘ Event.message), ∀ y ∈ evs.map (payload ∘ Event.message),
      hash x = hash y → x = y) :
    ∀ m ∈ evs.filterMap Event.taken?, ∀ m' ∈ c.sent, L.key m' = L.key m →
      L.digest m' = L.digest m → m' = m := by
  intro m hm m' hm' hkey hd
  rw [hdigest, hdigest] at hd
  refine heq m' m hkey (hhash _ ?_ _ ?_ hd)
  · rw [← h.sent_eq, Event.mem_filterMap_sent] at hm'
    exact List.mem_map_of_mem hm'
  · exact List.mem_map_of_mem (Event.mem_filterMap_taken.mp hm)

/-- **What is open and what was taken** is part of what was sent, unless it only shares key and
digest with it. -/
theorem open_taken_subperm (h : Agrees L c evs)
    (hinj : ∀ m ∈ evs.filterMap Event.taken?, ∀ m' ∈ c.sent, L.key m' = L.key m →
      L.digest m' = L.digest m → m' = m) {l : List M} (hl : l.Nodup) (hopen : ∀ m ∈ l, c.Open L m) :
    (l ++ evs.filterMap Event.taken?).Subperm (evs.filterMap Event.sent?) := by
  have htaken : (evs.filterMap Event.taken?).Nodup := by
    refine .of_map L.key ?_
    rw [← taken_keys]
    exact h.inbox.nodup
  have hdisjoint : ∀ m ∈ l, ∀ m' ∈ evs.filterMap Event.taken?, m ≠ m' := by
    rintro m hm m' hm' rfl
    refine (hopen m hm).2 ((h.inbox.taken_iff _).mpr ?_)
    rw [taken_keys]
    exact List.mem_map_of_mem hm'
  refine (List.nodup_append.mpr ⟨hl, htaken, hdisjoint⟩).subperm fun m hm => ?_
  rw [h.sent_eq]
  rcases List.mem_append.mp hm with hm | hm
  · exact (hopen m hm).1
  · obtain ⟨m', hm', hkey, hdigest⟩ := h.taken m (Event.mem_filterMap_taken.mp hm)
    rwa [← hinj m hm m' hm' hkey hdigest]

/-- **What was verified** is stored until it is taken. -/
theorem holds_or_mem_taken (h : Agrees L c evs) {m : M} (hm : .verify m ∈ evs)
    (hinj : ∀ m' ∈ evs.filterMap Event.taken?, ∀ m'' ∈ c.sent, L.key m'' = L.key m' →
      L.digest m'' = L.digest m' → m'' = m') :
    c.inbox (L.key m) = .holds (L.digest m) ∨ m ∈ evs.filterMap Event.taken? := by
  have hsent := h.verified m hm
  have hput : .put (L.key m) (L.digest m) ∈ evs.filterMap (Event.op? L) :=
    List.mem_filterMap.mpr ⟨_, hm, rfl⟩
  -- a key belongs to one message, so nothing else was stored under it
  have hunique : ∀ d, .put (L.key m) d ∈ evs.filterMap (Event.op? L) → d = L.digest m := by
    intro d hd
    obtain ⟨ev, hev, hop⟩ := List.mem_filterMap.mp hd
    cases ev with
    | send m' => cases hop
    | take m' => cases hop
    | verify m' =>
      obtain ⟨hkey, rfl⟩ := Mailbox.Op.put.inj (Option.some.inj hop)
      rw [List.inj_on_of_nodup_map h.keys (h.verified m' hev) hsent hkey]
  refine (h.inbox.holds_or_taken hput hunique).imp_right fun htaken => ?_
  rw [taken_keys] at htaken
  obtain ⟨m', hm', hkey⟩ := List.mem_map.mp htaken
  obtain ⟨m'', hm'', hkey', hdigest'⟩ := h.taken m' (Event.mem_filterMap_taken.mp hm')
  obtain rfl := hinj m' hm' m'' hm'' hkey' hdigest'
  rwa [← List.inj_on_of_nodup_map h.keys hm'' hsent hkey]

variable [DecidableEq M] [DecidableEq K] [DecidableEq D]

/-- **One event** keeps the channel in agreement with what it has seen. -/
theorem step (h : Agrees L c evs) (hstep : c.step L ev = some c') :
    Agrees L c' (evs ++ [ev]) := by
  cases ev with
  | send m =>
    simp only [Channel.step, Option.ite_none_left_eq_some, Option.some.injEq] at hstep
    obtain ⟨hfresh, rfl⟩ := hstep
    refine ⟨?_, ?_, fun m' hm' => ?_, fun m' hm' => ?_, ?_⟩
    · rw [List.filterMap_append, h.sent_eq]
      rfl
    · rw [List.map_append, List.nodup_append]
      refine ⟨h.keys, List.nodup_singleton _, fun a ha b hb => ?_⟩
      rintro rfl
      exact hfresh (List.mem_singleton.mp hb ▸ ha)
    · have hmem : Event.verify m' ∈ evs := by simpa using hm'
      exact List.mem_append_left _ (h.verified m' hmem)
    · have hmem : Event.take m' ∈ evs := by simpa using hm'
      obtain ⟨m'', hsent, hlabels⟩ := h.taken m' hmem
      exact ⟨m'', List.mem_append_left _ hsent, hlabels⟩
    · have hops : (evs ++ [Event.send m]).filterMap (Event.op? L) =
          evs.filterMap (Event.op? L) := by
        rw [List.filterMap_append]
        exact List.append_nil _
      rw [hops]
      exact h.inbox
  | verify m =>
    simp only [Channel.step, Option.ite_none_right_eq_some, Option.some.injEq] at hstep
    obtain ⟨⟨hsent, huntaken⟩, rfl⟩ := hstep
    refine ⟨?_, h.keys, fun m' hm' => ?_, fun m' hm' => ?_, ?_⟩
    · rw [List.filterMap_append, h.sent_eq]
      exact List.append_nil _
    · have hmem : Event.verify m' ∈ evs ∨ m' = m := by simpa using hm'
      rcases hmem with hmem | rfl
      · exact h.verified m' hmem
      · exact hsent
    · have hmem : Event.take m' ∈ evs := by simpa using hm'
      exact h.taken m' hmem
    · rw [List.filterMap_append]
      exact h.inbox.put huntaken _
  | take m =>
    simp only [Channel.step, Option.ite_none_right_eq_some, Option.some.injEq] at hstep
    obtain ⟨hholds, rfl⟩ := hstep
    refine ⟨?_, h.keys, fun m' hm' => ?_, fun m' hm' => ?_, ?_⟩
    · rw [List.filterMap_append, h.sent_eq]
      exact List.append_nil _
    · have hmem : Event.verify m' ∈ evs := by simpa using hm'
      exact h.verified m' hmem
    · have hmem : Event.take m' ∈ evs ∨ m' = m := by simpa using hm'
      rcases hmem with hmem | rfl
      · exact h.taken m' hmem
      · exact h.exists_of_holds hholds
    · rw [List.filterMap_append]
      exact h.inbox.take hholds

/-- So does every list of events. -/
theorem play {l : List (Event M)} (h : Agrees L c evs) (hplay : c.play L l = some c') :
    Agrees L c' (evs ++ l) := by
  induction l generalizing c evs with
  | nil =>
    obtain rfl := Option.some.inj hplay
    rwa [List.append_nil]
  | cons ev l ih =>
    obtain ⟨c₁, hstep, hrest⟩ := Option.bind_eq_some_iff.mp hplay
    have hlist : evs ++ ev :: l = evs ++ [ev] ++ l := by simp
    rw [hlist]
    exact ih (h.step hstep) hrest

end Agrees

/-! ### Channels of machines -/

section Machine

open Machine

variable {σ ι ο ε R : Type*} {step : σ → ι → Except ε (σ × ο)} {L : Labels M K D}
  {events : ι × ο → List (Event M)}

/-- **A channel over runs** agrees with the history. -/
theorem agrees_run [DecidableEq M] [DecidableEq K] [DecidableEq D] (chan : σ → Channel M K D)
    {s : σ} (hstep : ∀ s i s' o, step s i = .ok (s', o) →
      (chan s).play L (events (i, o)) = some (chan s'))
    (hs : chan s = start) (is : List ι) :
    (chan (run step s is)).Agrees L ((history step s is).flatMap events) := by
  refine run_history_invariant (Q := fun s h => (chan s).Agrees L (h.flatMap events))
    (fun s h i s' o hagrees hok => ?_) (hs ▸ .start L) is
  rw [List.flatMap_append, List.flatMap_singleton]
  exact hagrees.play (hstep s i s' o hok)

/-- **What is open and what is got** from the messages taken is part of what was asked for in the
steps that sent them. -/
theorem open_crosses_once (chan : σ → Channel M K D) (read : M → Option R) {s : σ} {is : List ι}
    (hagrees : (chan (run step s is)).Agrees L ((history step s is).flatMap events))
    (hinj : ∀ m ∈ ((history step s is).flatMap events).filterMap Event.taken?,
      ∀ m' ∈ (chan (run step s is)).sent, L.key m' = L.key m → L.digest m' = L.digest m → m' = m)
    {got : ι × ο → List R} {asked : σ × ι × ο → Option R}
    (hgot : ∀ t ∈ transitions step s is,
      got t.2 = ((events t.2).filterMap Event.taken?).filterMap read)
    (hasked : ∀ t ∈ transitions step s is,
      (((events t.2).filterMap Event.sent?).filterMap read).Sublist (asked t).toList)
    {l : List M} (hl : l.Nodup) (hopen : ∀ m ∈ l, (chan (run step s is)).Open L m) :
    (l.filterMap read ++ (history step s is).flatMap got).Subperm
      ((transitions step s is).filterMap asked) := by
  have htaken : (history step s is).flatMap got =
      (((history step s is).flatMap events).filterMap Event.taken?).filterMap read := by
    rw [List.filterMap_flatMap, List.filterMap_flatMap, ← map_transitions, List.flatMap_map,
      List.flatMap_map]
    exact List.flatMap_congr hgot
  have hsent : ((((history step s is).flatMap events).filterMap Event.sent?).filterMap
      read).Sublist ((transitions step s is).filterMap asked) := by
    rw [List.filterMap_flatMap, List.filterMap_flatMap, ← map_transitions, List.flatMap_map,
      List.filterMap_eq_flatMap_toList]
    exact List.Sublist.flatMap_right _ hasked
  rw [htaken, ← List.filterMap_append]
  exact ((hagrees.open_taken_subperm hinj hl hopen).filterMap _).trans hsent.subperm

/-- **Messages cross once.** What is got from the messages taken is part of what was asked for. -/
theorem crosses_once (chan : σ → Channel M K D) (read : M → Option R) {s : σ} {is : List ι}
    (hagrees : (chan (run step s is)).Agrees L ((history step s is).flatMap events))
    (hinj : ∀ m ∈ ((history step s is).flatMap events).filterMap Event.taken?,
      ∀ m' ∈ (chan (run step s is)).sent, L.key m' = L.key m → L.digest m' = L.digest m → m' = m)
    {got : ι × ο → List R} {asked : σ × ι × ο → Option R}
    (hgot : ∀ t ∈ transitions step s is,
      got t.2 = ((events t.2).filterMap Event.taken?).filterMap read)
    (hasked : ∀ t ∈ transitions step s is,
      (((events t.2).filterMap Event.sent?).filterMap read).Sublist (asked t).toList) :
    ((history step s is).flatMap got).Subperm ((transitions step s is).filterMap asked) :=
  open_crosses_once chan read hagrees hinj hgot hasked List.nodup_nil
    fun _ hm => (List.not_mem_nil hm).elim

end Machine

end Channel
