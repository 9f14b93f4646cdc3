import SolanaProxy.General.TokenBucket
import SolanaProxy.Solana.PeerConfig

/-!
# Rate limiters are token buckets

A `RateLimiter` counts in saturating 64-bit arithmetic. That makes no difference: its capacity is
a 64-bit number, so whatever saturates does not fit into the bucket either. `refill` is
`TokenBucket.give` and `tryConsume` is `TokenBucket.take` at the clock of the instruction
(`refill_bucket`, `tryConsume_bucket`). No setting leaves more tokens than the capacity
(`WithinCapacity.update`).

A limiter is brought up to date by every call, and `polling_changes_nothing` says that this can
be done at any times in between without a difference.
-/

namespace Solana

variable {E : Type} {env : Env}

/-- The clock of an instruction that reads it. -/
theorem currentTime_eq_ok {t : U64} :
    currentTime (E := E) env = .ok t ↔ (t.toNat : ℤ) = env.unixTimestamp := by
  rw [currentTime, Except.ofOption_eq_ok, Option.ite_none_right_eq_some, Word.ofNat?_eq_some]
  omega

theorem currentTime_ne_program {e : E} : currentTime env ≠ .error (.program e) := by
  simp only [currentTime, ne_eq, Except.ofOption_eq_error, reduceCtorEq, and_false,
    not_false_eq_true]

namespace RateLimiter

variable {l l' : RateLimiter} {extra amount : U64} {e : E}

/-- A limiter with no more tokens than its capacity. -/
def WithinCapacity (l : RateLimiter) : Prop := l.tokens.toNat ≤ l.capacity.toNat

/-- A limiter as a token bucket. -/
def bucket (l : RateLimiter) (h : l.WithinCapacity) : TokenBucket where
  capacity := l.capacity.toNat
  rate := l.refillPerSecond.toNat
  level := l.tokens.toNat
  last := l.lastRefillTime.toNat
  level_le := h

/-- What saturates is more than the capacity. -/
private theorem toNat_refilled (l : RateLimiter) (now extra : U64) :
    (Word.min l.capacity (Word.saturatingAdd l.tokens
      (if l.lastRefillTime < now then
        Word.saturatingAdd extra
          (Word.saturatingMul (now - l.lastRefillTime) l.refillPerSecond)
      else extra))).toNat =
    min l.capacity.toNat (l.tokens.toNat +
      (extra.toNat + l.refillPerSecond.toNat * (now.toNat - l.lastRefillTime.toNat))) := by
  have hcapacity : l.capacity.toNat < 2 ^ 64 := l.capacity.isLt
  have hextra : extra.toNat < 2 ^ 64 := extra.isLt
  rw [Word.toNat_min, Word.toNat_saturatingAdd]
  split
  case isTrue hlt =>
    have helapsed : (now - l.lastRefillTime).toNat = now.toNat - l.lastRefillTime.toNat :=
      BitVec.toNat_sub_of_le (BitVec.le_of_lt hlt)
    rw [Word.toNat_saturatingAdd, Word.toNat_saturatingMul, helapsed, Nat.mul_comm]
    omega
  case isFalse hge =>
    have hzero : now.toNat - l.lastRefillTime.toNat = 0 :=
      Nat.sub_eq_zero_of_le (Nat.le_of_not_lt hge)
    rw [hzero, Nat.mul_zero]
    omega

/-- **Refilling** puts tokens into the bucket at the current time. -/
theorem refill_bucket (h : l.WithinCapacity) (hrefill : l.refill (E := E) env extra = .ok l') :
    ∃ (now : ℕ) (h' : l'.WithinCapacity), (now : ℤ) = env.unixTimestamp ∧
      l'.bucket h' = (l.bucket h).give now extra.toNat := by
  simp only [refill, Except.bind_eq_ok, Except.pure_eq_ok] at hrefill
  obtain ⟨now, hnow, rfl⟩ := hrefill
  have htokens := toNat_refilled l now extra
  have hwithin : WithinCapacity { l with
      tokens := Word.min l.capacity (Word.saturatingAdd l.tokens
        (if l.lastRefillTime < now then
          Word.saturatingAdd extra
            (Word.saturatingMul (now - l.lastRefillTime) l.refillPerSecond)
        else extra))
      lastRefillTime := now } := htokens.trans_le (min_le_left _ _)
  refine ⟨now.toNat, hwithin, currentTime_eq_ok.mp hnow, ?_⟩
  simp only [bucket, TokenBucket.give, htokens]

/-- **Consuming** takes tokens out of the bucket at the current time. -/
theorem tryConsume_bucket (h : l.WithinCapacity)
    (hconsume : l.tryConsume e env amount = .ok l') :
    ∃ (now : ℕ) (h' : l'.WithinCapacity), (now : ℤ) = env.unixTimestamp ∧
      (l.bucket h).take ⟨now, amount.toNat⟩ = some (l'.bucket h') := by
  simp only [tryConsume, Except.bind_eq_ok, Except.ofOption_eq_ok, Word.checkedSub_eq_some,
    Except.pure_eq_ok] at hconsume
  obtain ⟨l₁, hrefill, tokens, htokens, rfl⟩ := hconsume
  obtain ⟨now, h₁, hnow, hbucket⟩ := refill_bucket h hrefill
  have hlevel : l₁.tokens.toNat = (l.bucket h).available now := by
    refine (congrArg TokenBucket.level hbucket).trans ?_
    simp only [TokenBucket.give, TokenBucket.available, BitVec.toNat_ofNat, Nat.zero_mod,
      Nat.zero_add]
  have hwithin : WithinCapacity { l₁ with tokens := tokens } := by
    have hcapacity : l₁.tokens.toNat ≤ l₁.capacity.toNat := h₁
    show tokens.toNat ≤ l₁.capacity.toNat
    omega
  have hcapacity : (l₁.bucket h₁).capacity = (l.bucket h).capacity := by rw [hbucket]; rfl
  have hrate : (l₁.bucket h₁).rate = (l.bucket h).rate := by rw [hbucket]; rfl
  have hlast : (l₁.bucket h₁).last = now := by rw [hbucket]; rfl
  exact ⟨now, hwithin, hnow, TokenBucket.take_eq_some.mpr ⟨hcapacity, hrate, hlast,
    htokens.trans hlevel⟩⟩

/-- The two operations as flows of the bucket. -/
theorem flow_of_tryConsume (h : l.WithinCapacity) (hconsume : l.tryConsume e env amount = .ok l') :
    ∃ h' : l'.WithinCapacity, TokenBucket.Flow (l.bucket h) env.unixTimestamp.toNat
      (l'.bucket h') env.unixTimestamp.toNat amount.toNat 0 := by
  obtain ⟨now, h', hnow, hbucket⟩ := tryConsume_bucket h hconsume
  have hflow : TokenBucket.Flow (l.bucket h) now (l'.bucket h') now amount.toNat 0 := .take hbucket
  exact ⟨h', by rwa [← hnow]⟩

theorem flow_of_refill (h : l.WithinCapacity) (hrefill : l.refill (E := E) env amount = .ok l') :
    ∃ h' : l'.WithinCapacity, TokenBucket.Flow (l.bucket h) env.unixTimestamp.toNat
      (l'.bucket h') env.unixTimestamp.toNat 0 amount.toNat := by
  obtain ⟨now, h', hnow, hbucket⟩ := refill_bucket h hrefill
  have hflow : TokenBucket.Flow (l.bucket h) now (l'.bucket h') now 0 amount.toNat :=
    hbucket ▸ .give _ _ _
  exact ⟨h', by rwa [← hnow]⟩

/-- A limiter fails with its own error only, and only when it is asked for too much. -/
theorem refill_ne_program : l.refill env extra ≠ .error (.program e) := by
  simp only [refill, ne_eq, Except.bind_eq_error, currentTime_ne_program, Except.pure_ne_error,
    and_false, exists_false, or_self, not_false_eq_true]

theorem tryConsume_ne_program {e' : E} (hne : e ≠ e') :
    l.tryConsume e env amount ≠ .error (.program e') := by
  simp only [tryConsume, ne_eq, Except.bind_eq_error, refill_ne_program, Except.ofOption_eq_error,
    Failure.program.injEq, hne, Except.pure_ne_error, and_false, exists_false, or_self,
    not_false_eq_true]

/-! ### Settings -/

theorem WithinCapacity.of_setCapacity {capacity : U64}
    (h : l.setCapacity (E := E) env capacity = .ok l') : l'.WithinCapacity := by
  simp only [setCapacity, Except.bind_eq_ok, Except.pure_eq_ok] at h
  obtain ⟨now, -, rfl⟩ := h
  exact le_rfl

theorem WithinCapacity.setRate {rate : U64} (h : l.WithinCapacity)
    (hrate : l.setRate (E := E) env rate = .ok l') : l'.WithinCapacity := by
  simp only [RateLimiter.setRate, Except.bind_eq_ok, Except.pure_eq_ok] at hrate
  obtain ⟨l₁, hrefill, rfl⟩ := hrate
  obtain ⟨now, hwithin, -, -⟩ := refill_bucket h hrefill
  exact hwithin

/-- **Settings** leave a limiter within its capacity, be it new or not. -/
theorem WithinCapacity.update {o o' : Option RateLimiter} {params : Option RateLimitParams}
    (h : ∀ l ∈ o, l.WithinCapacity)
    (hupdate : updateRateLimiter (E := E) env o params = .ok o') :
    ∀ l ∈ o', l.WithinCapacity := by
  have hstart : (o.getD zero).WithinCapacity := by
    cases o with
    | none => exact le_rfl
    | some l => exact h l rfl
  intro l hl
  rcases params with _ | ⟨_ | rate, _ | capacity⟩
  · obtain rfl := Except.pure_eq_ok.mp hupdate
    cases hl
  · obtain rfl := Except.pure_eq_ok.mp hupdate
    exact Option.some.inj hl ▸ hstart
  · simp only [updateRateLimiter, Except.bind_eq_ok, Except.pure_eq_ok] at hupdate
    obtain ⟨l₁, hcapacity, l₂, rfl, rfl⟩ := hupdate
    exact Option.some.inj hl ▸ .of_setCapacity hcapacity
  · simp only [updateRateLimiter, Except.bind_eq_ok, Except.pure_eq_ok] at hupdate
    obtain ⟨l₁, rfl, l₂, hrate, rfl⟩ := hupdate
    exact Option.some.inj hl ▸ hstart.setRate hrate
  · simp only [updateRateLimiter, Except.bind_eq_ok, Except.pure_eq_ok] at hupdate
    obtain ⟨l₁, hcapacity, l₂, hrate, rfl⟩ := hupdate
    exact Option.some.inj hl ▸ (WithinCapacity.of_setCapacity hcapacity).setRate hrate

/-- A limiter that is set has the capacity and the rate that are named. -/
theorem of_updateRateLimiter {o o' : Option RateLimiter} {limit : RateLimitParams}
    (h : updateRateLimiter (E := E) env o (some limit) = .ok o') :
    ∃ l, o' = some l ∧ (∀ c ∈ limit.capacity, l.capacity = c) ∧
      ∀ r ∈ limit.refillPerSecond, l.refillPerSecond = r := by
  obtain ⟨_ | rate, _ | capacity⟩ := limit
  · obtain rfl := Except.pure_eq_ok.mp h
    exact ⟨_, rfl, by simp, by simp⟩
  · simp only [updateRateLimiter, RateLimiter.setCapacity, Except.bind_eq_ok,
      Except.pure_eq_ok] at h
    obtain ⟨_, ⟨_, -, rfl⟩, _, rfl, rfl⟩ := h
    exact ⟨_, rfl, by simp, by simp⟩
  · simp only [updateRateLimiter, RateLimiter.setRate, Except.bind_eq_ok, Except.pure_eq_ok] at h
    obtain ⟨_, rfl, _, ⟨_, -, rfl⟩, rfl⟩ := h
    exact ⟨_, rfl, by simp, by simp⟩
  · simp only [updateRateLimiter, RateLimiter.setCapacity, RateLimiter.setRate, RateLimiter.refill,
      Except.bind_eq_ok, Except.pure_eq_ok] at h
    obtain ⟨_, ⟨_, -, rfl⟩, _, ⟨_, ⟨_, -, rfl⟩, rfl⟩, rfl⟩ := h
    exact ⟨_, rfl, by simp, by simp⟩

/-! ### Polling -/

/-- A call that neither adds tokens nor takes any. -/
inductive Touch where
  | refill
  | tryConsume
deriving DecidableEq

/-- The call, with no tokens to add or to take. -/
def touch (rateLimitExceeded : E) (env : Env) (l : RateLimiter) : Touch → Result E RateLimiter
  | .refill => l.refill env 0#64
  | .tryConsume => l.tryConsume rateLimitExceeded env 0#64

/-- Such calls one after the other, each at a time of its own. -/
def poll (rateLimitExceeded : E) (l : RateLimiter) : List (Env × Touch) → Result E RateLimiter
  | [] => return l
  | (env, call) :: calls => do
    let l ← l.touch rateLimitExceeded env call
    poll rateLimitExceeded l calls

/-- `l'` is `l` with what its rate brought until the time `t`, in exact arithmetic. -/
structure UpToDate (l l' : RateLimiter) (t : ℤ) : Prop where
  capacity_eq : l'.capacity = l.capacity
  rate_eq : l'.refillPerSecond = l.refillPerSecond
  time_eq : (l'.lastRefillTime.toNat : ℤ) = t
  tokens_eq : (l'.tokens.toNat : ℤ) = min (l.capacity.toNat : ℤ)
    (l.tokens.toNat + l.refillPerSecond.toNat * (t - l.lastRefillTime.toNat))

/-- To consume nothing is to refill with nothing. -/
theorem tryConsume_zero (e : E) (env : Env) (l : RateLimiter) :
    l.tryConsume e env 0#64 = l.refill env 0#64 := by
  have hsub : ∀ x : U64, Word.checkedSub x 0#64 = some x := fun x =>
    Word.checkedSub_eq_some.mpr (Nat.add_zero _)
  simp only [tryConsume, hsub, Except.ofOption_some, Except.ok_bind]
  exact bind_pure _

theorem touch_eq (e : E) (env : Env) (l : RateLimiter) (call : Touch) :
    l.touch e env call = l.refill env 0#64 := by
  cases call with
  | refill => rfl
  | tryConsume => exact tryConsume_zero e env l

/-- A refill at a time not before the last one brings the limiter up to date. -/
theorem UpToDate.of_refill (hfrom : (l.lastRefillTime.toNat : ℤ) ≤ env.unixTimestamp)
    (h : l.refill (E := E) env 0#64 = .ok l') : UpToDate l l' env.unixTimestamp := by
  simp only [refill, Except.bind_eq_ok, Except.pure_eq_ok] at h
  obtain ⟨now, hnow, rfl⟩ := h
  rw [currentTime_eq_ok] at hnow
  have htokens := toNat_refilled l now 0#64
  have hle : l.lastRefillTime.toNat ≤ now.toNat := by omega
  have hzero : (0#64).toNat = 0 := rfl
  refine ⟨rfl, rfl, hnow, ?_⟩
  rw [htokens, hzero, Nat.zero_add, ← hnow, ← Int.ofNat_sub hle]
  omega

/-- Limiters with the same bucket are the same. -/
private theorem eq_of_bucket_eq {h : l.WithinCapacity} {h' : l'.WithinCapacity}
    (heq : l.bucket h = l'.bucket h') : l = l' := by
  have hcapacity : l.capacity = l'.capacity :=
    BitVec.eq_of_toNat_eq (congrArg TokenBucket.capacity heq)
  have htokens : l.tokens = l'.tokens := BitVec.eq_of_toNat_eq (congrArg TokenBucket.level heq)
  have hrate : l.refillPerSecond = l'.refillPerSecond :=
    BitVec.eq_of_toNat_eq (congrArg TokenBucket.rate heq)
  have hlast : l.lastRefillTime = l'.lastRefillTime :=
    BitVec.eq_of_toNat_eq (congrArg TokenBucket.last heq)
  obtain ⟨capacity, tokens, rate, last⟩ := l
  subst hcapacity htokens hrate hlast
  rfl

theorem exists_refill {now : U64} (hnow : currentTime (E := E) env = .ok now) (l : RateLimiter)
    (extra : U64) : ∃ l', l.refill (E := E) env extra = .ok l' := by
  simp only [refill, hnow, Except.ok_bind]
  exact ⟨_, rfl⟩

/-- **Polling once.** A refill with nothing does not change what a later refill leaves. -/
theorem refill_of_refill (h : l.WithinCapacity)
    (hfrom : (l.lastRefillTime.toNat : ℤ) ≤ env.unixTimestamp) {env' : Env}
    (hle : env.unixTimestamp ≤ env'.unixTimestamp)
    (hrefill : l.refill (E := E) env 0#64 = .ok l') :
    l'.refill (E := E) env' extra = l.refill env' extra := by
  cases hnow : currentTime (E := E) env' with
  | error e => simp only [refill, hnow, Except.error_bind]
  | ok now =>
    obtain ⟨l₁, h₁⟩ := exists_refill hnow l' extra
    obtain ⟨l₂, h₂⟩ := exists_refill hnow l extra
    obtain ⟨t, hwithin, ht, hbucket⟩ := refill_bucket h hrefill
    obtain ⟨t₁, hwithin₁, ht₁, hbucket₁⟩ := refill_bucket hwithin h₁
    obtain ⟨t₂, hwithin₂, ht₂, hbucket₂⟩ := refill_bucket h h₂
    obtain rfl : t₁ = t₂ := by omega
    have hlast : (l.bucket h).last ≤ t := by
      show l.lastRefillTime.toNat ≤ t
      omega
    have heq : l₁.bucket hwithin₁ = l₂.bucket hwithin₂ := by
      rw [hbucket₁, hbucket₂, hbucket]
      exact TokenBucket.give_give hlast (by omega) _
    rw [h₁, h₂, eq_of_bucket_eq heq]

/-- Only a clock that does not fit fails a refill, and it fails every later one. -/
private theorem refill_eq_error_of_le {err : Failure E} {env' : Env}
    (hnonneg : 0 ≤ env.unixTimestamp) (hle : env.unixTimestamp ≤ env'.unixTimestamp)
    (h : l.refill env 0#64 = .error err) : l'.refill env' extra = .error err := by
  have hfails : ∀ {env : Env} {l : RateLimiter} {extra : U64}, 0 ≤ env.unixTimestamp →
      (l.refill env extra = .error err ↔ 2 ^ 64 ≤ env.unixTimestamp ∧ .panic = err) := by
    intro env l extra hnonneg
    have hnone : (if 0 ≤ env.unixTimestamp then Word.ofNat? 64 env.unixTimestamp.toNat
        else none) = none ↔ 2 ^ 64 ≤ env.unixTimestamp := by
      rw [if_pos hnonneg, Word.ofNat?, ite_eq_right_iff]
      simp only [reduceCtorEq, imp_false, not_lt]
      omega
    simp only [refill, Except.bind_eq_error, currentTime, Except.ofOption_eq_error, hnone,
      Except.pure_ne_error, and_false, exists_false, or_false]
  obtain ⟨hlarge, herr⟩ := (hfails hnonneg).mp h
  exact (hfails (hnonneg.trans hle)).mpr ⟨hlarge.trans hle, herr⟩

/-- The last call works on what the others leave. -/
theorem poll_concat (e : E) (calls : List (Env × Touch)) (env : Env) (call : Touch) :
    l.poll e (calls ++ [(env, call)]) = l.poll e calls >>= fun l' => l'.touch e env call := by
  induction calls generalizing l with
  | nil =>
    rw [List.nil_append, poll, poll, pure_bind]
    exact bind_pure _
  | cons c calls ih =>
    rw [List.cons_append, poll, poll, bind_assoc]
    simp only [ih]

/-- **Polling.** Any number of calls in the order of time do not change what a refill at the end
leaves. -/
theorem poll_bind_refill (e : E) (h : l.WithinCapacity) (calls : List (Env × Touch)) (env : Env)
    (hsorted : ((l.lastRefillTime.toNat : ℤ) ::
      (calls.map (·.1.unixTimestamp) ++ [env.unixTimestamp])).Pairwise (· ≤ ·)) (extra : U64) :
    (l.poll e calls >>= fun l' => l'.refill env extra) = l.refill env extra := by
  induction calls generalizing l with
  | nil => exact pure_bind l _
  | cons c calls ih =>
    obtain ⟨env₁, call⟩ := c
    obtain ⟨hfrom, hrest⟩ := List.pairwise_cons.mp hsorted
    obtain ⟨hbefore, -⟩ := List.pairwise_cons.mp hrest
    have hfirst : (l.lastRefillTime.toNat : ℤ) ≤ env₁.unixTimestamp := hfrom _ (by simp)
    have hle : env₁.unixTimestamp ≤ env.unixTimestamp := hbefore _ (by simp)
    rw [poll, touch_eq, bind_assoc]
    cases hrefill : l.refill (E := E) env₁ 0#64 with
    | error err =>
      rw [Except.error_bind, refill_eq_error_of_le (by omega) hle hrefill]
    | ok l₁ =>
      have huptodate := UpToDate.of_refill hfirst hrefill
      obtain ⟨-, hwithin, -, -⟩ := refill_bucket h hrefill
      rw [Except.ok_bind, ih hwithin (huptodate.time_eq ▸ hrest),
        refill_of_refill h hfirst hle hrefill]

/-- **Polling changes nothing.** Take a limiter with no more tokens than its capacity and calls
that refill with nothing or consume nothing, none before the last refill and each not before the
one before. The calls leave what the last of them alone would leave: the tokens that the time
brought, up to the capacity. Consuming at the end succeeds or fails as without the calls, and a
new rate counts from the time it was set. -/
theorem polling_changes_nothing (e : E) (h : l.WithinCapacity) (calls : List (Env × Touch))
    (env : Env) (hsorted : ((l.lastRefillTime.toNat : ℤ) ::
      (calls.map (·.1.unixTimestamp) ++ [env.unixTimestamp])).Pairwise (· ≤ ·)) :
    (∀ call, l.poll e (calls ++ [(env, call)]) = l.touch e env call) ∧
    (∀ call l', l.touch e env call = .ok l' → UpToDate l l' env.unixTimestamp) ∧
    (env.unixTimestamp < 2 ^ 64 → ∀ call, ∃ l', l.touch e env call = .ok l') ∧
    (∀ amount, (l.poll e calls >>= fun l' => l'.tryConsume e env amount) =
      l.tryConsume e env amount) ∧
    ∀ rate l₁, (l.poll e calls >>= fun l' => l'.setRate env rate) = .ok l₁ →
      (∃ l₀, UpToDate l l₀ env.unixTimestamp ∧ l₁ = { l₀ with refillPerSecond := rate }) ∧
      ∀ env' call l₂, env.unixTimestamp ≤ env'.unixTimestamp →
        l₁.touch e env' call = .ok l₂ → UpToDate l₁ l₂ env'.unixTimestamp := by
  have hfrom : (l.lastRefillTime.toNat : ℤ) ≤ env.unixTimestamp :=
    (List.pairwise_cons.mp hsorted).1 _ (by simp)
  have hpoll := poll_bind_refill e h calls env hsorted 0#64
  refine ⟨fun call => ?_, fun call l' hl' => ?_, fun hfits call => ?_, fun amount => ?_, ?_⟩
  · simp only [poll_concat, touch_eq, hpoll]
  · rw [touch_eq] at hl'
    exact .of_refill hfrom hl'
  · obtain ⟨now, -, hnow⟩ := Word.exists_ofNat? (w := 64) (n := env.unixTimestamp.toNat) (by omega)
    have hclock : currentTime (E := E) env = .ok now := currentTime_eq_ok.mpr (by omega)
    rw [touch_eq]
    exact exists_refill hclock l 0#64
  · simp only [tryConsume, ← bind_assoc, hpoll]
  · intro rate l₁ hrate
    simp only [setRate, ← bind_assoc, hpoll] at hrate
    obtain ⟨l₀, hrefill, hl₁⟩ := Except.bind_eq_ok.mp hrate
    obtain rfl := Except.pure_eq_ok.mp hl₁
    have huptodate := UpToDate.of_refill hfrom hrefill
    refine ⟨⟨l₀, huptodate, rfl⟩, fun env' call l₂ hle hl₂ => ?_⟩
    rw [touch_eq] at hl₂
    exact .of_refill (huptodate.time_eq.trans_le hle) hl₂

/-- Polled after ten and after twenty seconds, a limiter holds after thirty what it holds
without. -/
theorem polling_changes_nothing_thirty :
    let clock (n : ℤ) : Env := { sampleEnv with unixTimestamp := n }
    let l : RateLimiter := ⟨100#64, 10#64, 2#64, 0#64⟩
    l.poll () ([(clock 10, .refill), (clock 20, .tryConsume)] ++ [(clock 30, .refill)]) =
        l.touch () (clock 30) .refill ∧
      l.touch () (clock 30) .refill = .ok ⟨100#64, 70#64, 2#64, 30#64⟩ := by
  intro clock l
  have hwithin : l.WithinCapacity := (by decide : 10 ≤ 100)
  obtain ⟨hpoll, -⟩ := polling_changes_nothing () hwithin
    [(clock 10, .refill), (clock 20, .tryConsume)] (clock 30) (by decide +kernel)
  exact ⟨hpoll .refill, by decide +kernel⟩

end RateLimiter

end Solana
