import SolanaProxy.Solana.Endpoint

/-!
# Peer configuration

The per-peer account of both programs, with its enforced options and its two rate limiters.
The two programs differ in nothing but the errors they raise, which are parameters here.

A `RateLimiter` is a token bucket: `refill` adds what the elapsed time and the caller
bring, up to the capacity, and `tryConsume` takes tokens out or fails.
-/

namespace Solana

/-- A token bucket. -/
structure RateLimiter where
  capacity : U64
  tokens : U64
  refillPerSecond : U64
  lastRefillTime : U64
deriving DecidableEq

/-- `Clock::get()?.unix_timestamp.try_into().unwrap()`: the clock as an unsigned number, a
panic when it is negative. -/
def currentTime {E : Type} (env : Env) : Result E U64 :=
  Except.ofOption .panic
    (if 0 ≤ env.unixTimestamp then Word.ofNat? 64 env.unixTimestamp.toNat else none)

namespace RateLimiter

variable {E : Type}

/-- The limiter `RateLimiter::default()`. -/
def zero : RateLimiter := ⟨0#64, 0#64, 0#64, 0#64⟩

/-- Add the tokens of the time elapsed since the last refill and `extraTokens` to the
bucket, up to its capacity. -/
def refill (env : Env) (l : RateLimiter) (extraTokens : U64) : Result E RateLimiter := do
  let currentTime ← currentTime env
  let newTokens :=
    if l.lastRefillTime < currentTime then
      Word.saturatingAdd extraTokens
        (Word.saturatingMul (currentTime - l.lastRefillTime) l.refillPerSecond)
    else extraTokens
  return { l with
    tokens := Word.min l.capacity (Word.saturatingAdd l.tokens newTokens)
    lastRefillTime := currentTime }

/-- Change the rate, after a refill at the old one. -/
def setRate (env : Env) (l : RateLimiter) (refillPerSecond : U64) : Result E RateLimiter := do
  let l ← l.refill env 0#64
  return { l with refillPerSecond := refillPerSecond }

/-- Change the capacity and fill the bucket. -/
def setCapacity (env : Env) (l : RateLimiter) (capacity : U64) : Result E RateLimiter := do
  let currentTime ← currentTime env
  return { l with capacity := capacity, tokens := capacity, lastRefillTime := currentTime }

/-- Take `amount` tokens out of the refilled bucket, or fail. -/
def tryConsume (rateLimitExceeded : E) (env : Env) (l : RateLimiter) (amount : U64) :
    Result E RateLimiter := do
  let l ← l.refill env 0#64
  let newTokens ← Except.ofOption (.program rateLimitExceeded)
    (Word.checkedSub l.tokens amount)
  return { l with tokens := newTokens }

end RateLimiter

/-- The options the configuration adds to every message, plain and with a compose part. -/
structure EnforcedOptions where
  send : Bytes
  sendAndCall : Bytes
deriving DecidableEq

namespace EnforcedOptions

/-- The enforced options for a message with or without a compose part. -/
def getEnforcedOptions (o : EnforcedOptions) (composedMsg : Option Bytes) : Bytes :=
  if composedMsg.isNone then o.send else o.sendAndCall

/-- The enforced options together with the caller's. -/
def combineOptions {E : Type} (P : Platform) (o : EnforcedOptions) (composeMsg : Option Bytes)
    (extraOptions : Bytes) : Result E Bytes :=
  Except.ofOption .cpi (P.combineOptions (o.getEnforcedOptions composeMsg) extraOptions)

theorem combineOptions_ne_program {E : Type} {P : Platform} {o : EnforcedOptions}
    {composeMsg : Option Bytes} {extraOptions : Bytes} {e : E} :
    o.combineOptions P composeMsg extraOptions ≠ .error (.program e) := by
  simp only [combineOptions, ne_eq, Except.ofOption_eq_error, reduceCtorEq, and_false,
    not_false_eq_true]

end EnforcedOptions

/-- The configuration of one remote peer. -/
structure PeerConfig where
  peerAddress : ByteArr 32
  enforcedOptions : EnforcedOptions
  outboundRateLimiter : Option RateLimiter
  inboundRateLimiter : Option RateLimiter
  feeBps : Option U16
  bump : U8
deriving DecidableEq

namespace PeerConfig

/-- The content of a new peer account. -/
def zero : PeerConfig := ⟨zero32, ⟨[], []⟩, none, none, none, 0⟩

/-- `PeerConfig::INIT_SPACE`, with options of at most 512 and 1024 bytes. -/
def initSpace : ℕ := 32 + (4 + 512) + (4 + 1024) + (1 + 32) + (1 + 32) + (1 + 2) + 1

/-- The size of the serialized content. -/
def serializedLen (p : PeerConfig) : ℕ :=
  32 + (4 + p.enforcedOptions.send.length) + (4 + p.enforcedOptions.sendAndCall.length) +
    p.outboundRateLimiter.elim 1 (fun _ => 1 + 32) +
    p.inboundRateLimiter.elim 1 (fun _ => 1 + 32) + p.feeBps.elim 1 (fun _ => 1 + 2) + 1

end PeerConfig

/-! ### Setting a peer configuration -/

/-- The settings of a rate limiter; what is `none` stays as it is. -/
structure RateLimitParams where
  refillPerSecond : Option U64
  capacity : Option U64
deriving DecidableEq

/-- One setting of a peer configuration. -/
inductive PeerConfigParam where
  | peerAddress (peerAddress : ByteArr 32)
  | feeBps (feeBps : Option U16)
  | enforcedOptions (send sendAndCall : Bytes)
  | outboundRateLimit (params : Option RateLimitParams)
  | inboundRateLimit (params : Option RateLimitParams)
deriving DecidableEq

/-- The parameters of `set_peer_config`. -/
structure SetPeerConfigParams where
  remoteEid : U32
  config : PeerConfigParam
deriving DecidableEq

/-- `MAX_FEE_BASIS_POINTS`. -/
def maxFeeBasisPoints : U16 := 10000#16

section SetPeerConfig

variable {E : Type}

/-- `update_rate_limiter`: remove the limiter, or set its capacity and then its rate,
starting from an empty limiter if there is none. -/
def updateRateLimiter (env : Env) (rateLimiter : Option RateLimiter) :
    Option RateLimitParams → Result E (Option RateLimiter)
  | none => return none
  | some param => do
    let limiter := rateLimiter.getD RateLimiter.zero
    let limiter ← match param.capacity with
      | some capacity => limiter.setCapacity env capacity
      | none => pure limiter
    let limiter ← match param.refillPerSecond with
      | some refillRate => limiter.setRate env refillRate
      | none => pure limiter
    return some limiter

/-- `assert_type_3`. -/
def assertType3 (P : Platform) (options : Bytes) : Result E Unit :=
  Except.require (P.assertType3 options = true) .cpi

/-- The body of `set_peer_config` on the account's content. -/
def PeerConfig.set (P : Platform) (env : Env) (invalidFee : E) (p : PeerConfig) :
    PeerConfigParam → Result E PeerConfig
  | .peerAddress peerAddress => return { p with peerAddress := peerAddress }
  | .feeBps feeBps => do
    Except.require (∀ bps ∈ feeBps, bps < maxFeeBasisPoints) (.program invalidFee)
    return { p with feeBps := feeBps }
  | .enforcedOptions send sendAndCall => do
    assertType3 P send
    assertType3 P sendAndCall
    return { p with enforcedOptions := ⟨send, sendAndCall⟩ }
  | .outboundRateLimit params => do
    let limiter ← updateRateLimiter env p.outboundRateLimiter params
    return { p with outboundRateLimiter := limiter }
  | .inboundRateLimit params => do
    let limiter ← updateRateLimiter env p.inboundRateLimiter params
    return { p with inboundRateLimiter := limiter }

/-- A setting writes one field of the peer. -/
theorem PeerConfig.set_cases {P : Platform} {env : Env} {invalidFee : E} {p p' : PeerConfig}
    {param : PeerConfigParam} (h : p.set P env invalidFee param = .ok p') :
    (∃ address, param = .peerAddress address ∧ p' = { p with peerAddress := address }) ∨
    (∃ feeBps, param = .feeBps feeBps ∧ (∀ bps ∈ feeBps, bps < maxFeeBasisPoints) ∧
      p' = { p with feeBps := feeBps }) ∨
    (∃ send sendAndCall, param = .enforcedOptions send sendAndCall ∧
      p' = { p with enforcedOptions := ⟨send, sendAndCall⟩ }) ∨
    (∃ limit limiter, param = .outboundRateLimit limit ∧
      updateRateLimiter (E := E) env p.outboundRateLimiter limit = .ok limiter ∧
      p' = { p with outboundRateLimiter := limiter }) ∨
    ∃ limit limiter, param = .inboundRateLimit limit ∧
      updateRateLimiter (E := E) env p.inboundRateLimiter limit = .ok limiter ∧
      p' = { p with inboundRateLimiter := limiter } := by
  cases param with
  | peerAddress address =>
    obtain rfl := Except.pure_eq_ok.mp h
    exact .inl ⟨address, rfl, rfl⟩
  | feeBps feeBps =>
    simp only [set, Except.bind_eq_ok, Except.require_eq_ok, Except.pure_eq_ok] at h
    obtain ⟨-, hfee, rfl⟩ := h
    exact .inr (.inl ⟨feeBps, rfl, hfee, rfl⟩)
  | enforcedOptions send sendAndCall =>
    simp only [set, Except.bind_eq_ok, Except.pure_eq_ok] at h
    obtain ⟨-, -, -, -, rfl⟩ := h
    exact .inr (.inr (.inl ⟨send, sendAndCall, rfl, rfl⟩))
  | outboundRateLimit limit =>
    simp only [set, Except.bind_eq_ok, Except.pure_eq_ok] at h
    obtain ⟨limiter, hupdate, rfl⟩ := h
    exact .inr (.inr (.inr (.inl ⟨limit, limiter, rfl, hupdate, rfl⟩)))
  | inboundRateLimit limit =>
    simp only [set, Except.bind_eq_ok, Except.pure_eq_ok] at h
    obtain ⟨limiter, hupdate, rfl⟩ := h
    exact .inr (.inr (.inr (.inr ⟨limit, limiter, rfl, hupdate, rfl⟩)))

end SetPeerConfig

end Solana
