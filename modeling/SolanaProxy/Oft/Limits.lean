import SolanaProxy.Oft.Changes
import SolanaProxy.Solana.RateLimit

/-!
# Rate limits of the OFT

Every transfer goes through both limiters of its peer: it consumes one and refills the other. So
a limiter sees a run as a flow of its token bucket, in which what goes one way is taken and what
comes the other way is given. One instruction is such a flow (`PeerChange.flow`), and flows add up
over a stretch of a run (`flow_run`), which bounds what can go out by what the bucket holds, what
time brings, and what came in (`rate_limits_bound`).
-/

namespace Oft

open Solana

/-- The two directions of a transfer, each with a limiter of its own. -/
inductive Direction where
  | outbound
  | inbound

/-- The limiter of a peer in a direction. -/
def limiter (p : PeerConfig) : Direction → Option RateLimiter
  | .outbound => p.outboundRateLimiter
  | .inbound => p.inboundRateLimiter

/-- The input sets the limiter of the peer at `k`. -/
def Input.SetsLimiter (k : Pubkey) (d : Direction) : Input → Prop
  | .call _ (.setPeerConfig ctx params) =>
    ctx.peer.pubkey = k ∧ ∃ limit, params.config =
      match d with
      | .outbound => .outboundRateLimit limit
      | .inbound => .inboundRateLimit limit
  | _ => False

/-- What an entry of a history sends through the peer at `k`. -/
def sentThrough (k : Pubkey) : Input × List OFTEffect → ℕ
  | (.call _ (.send ctx _), es) => if ctx.peer.pubkey = k then sentLd es else 0
  | _ => 0

/-- What an entry of a history releases through the peer at `k`. -/
def receivedThrough (k : Pubkey) : Input × List OFTEffect → ℕ
  | (.call _ (.lzReceive ctx _), es) => if ctx.peer.pubkey = k then releasedLd es else 0
  | _ => 0

/-- What an entry takes out of the limiter of a direction. -/
def Direction.taken (k : Pubkey) (e : Input × List OFTEffect) : Direction → ℕ
  | .outbound => sentThrough k e
  | .inbound => receivedThrough k e

/-- What an entry puts back into the limiter of a direction: the traffic of the other one. -/
def Direction.given (k : Pubkey) (e : Input × List OFTEffect) : Direction → ℕ
  | .outbound => receivedThrough k e
  | .inbound => sentThrough k e

/-- The clock readings of the calls of a run. -/
def clocks (is : List Input) : List ℤ :=
  is.filterMap fun
    | .call env _ => some env.unixTimestamp
    | .outside .. => none

/-- Every limiter is within its capacity. -/
def Limited (w : OFTWorld) : Prop :=
  ∀ k p, w.load peerKind k = some p → ∀ d, ∀ l ∈ limiter p d, l.WithinCapacity

/-! ### One instruction -/

section Change

variable {P : Platform} {env : Env} {w : OFTWorld} {es : List OFTEffect} {k : Pubkey}
  {i : Instruction} {d : Direction}

/-- A transfer elsewhere takes nothing and gives nothing. -/
theorem through_eq_zero (env : Env) (es : List OFTEffect) (h : ¬i.ThroughPeer k) :
    sentThrough k (.call env i, es) = 0 ∧ receivedThrough k (.call env i, es) = 0 := by
  cases i with
  | send ctx params => exact ⟨if_neg h, rfl⟩
  | lzReceive ctx params => exact ⟨rfl, if_neg h⟩
  | _ => exact ⟨rfl, rfl⟩

/-- A setting of anything else keeps a limiter. -/
theorem limiter_of_set {p p' : PeerConfig} {param : PeerConfigParam}
    (h : p.set P env OFTError.invalidFee param = .ok p')
    (hout : d = .outbound → ∀ limit, param ≠ .outboundRateLimit limit)
    (hin : d = .inbound → ∀ limit, param ≠ .inboundRateLimit limit) :
    limiter p' d = limiter p d := by
  obtain ⟨_, -, rfl⟩ | ⟨_, -, -, rfl⟩ | ⟨_, _, -, rfl⟩ | ⟨limit, l, rfl, -, rfl⟩ |
    ⟨limit, l, rfl, -, rfl⟩ := PeerConfig.set_cases h
  · rfl
  · rfl
  · rfl
  · cases d with
    | outbound => exact (hout rfl limit rfl).elim
    | inbound => rfl
  · cases d with
    | outbound => rfl
    | inbound => exact (hin rfl limit rfl).elim

/-- **One instruction** is a flow of each limiter it does not set. -/
theorem PeerChange.flow {p : PeerConfig} {o : Option PeerConfig} {l : RateLimiter}
    (hchange : PeerChange P env w es k i (some p) o) (hl : limiter p d = some l)
    (hwithin : l.WithinCapacity) (hset : ¬(Input.call env i).SetsLimiter k d) :
    ∃ p' l', ∃ hwithin' : l'.WithinCapacity, o = some p' ∧ limiter p' d = some l' ∧
      TokenBucket.Flow (l.bucket hwithin) env.unixTimestamp.toNat (l'.bucket hwithin')
        env.unixTimestamp.toNat (d.taken k (.call env i, es)) (d.given k (.call env i, es)) := by
  cases hchange with
  | same hother =>
    obtain ⟨hsent, hreceived⟩ := through_eq_zero env es hother
    refine ⟨p, l, hwithin, rfl, hl, ?_⟩
    cases d <;> simp only [Direction.taken, Direction.given, hsent, hreceived] <;>
      exact .wait le_rfl
  | @set ctx params store _ p' bump hkey hstore hfind happly =>
    have hkeep : limiter p' d = limiter p d := by
      refine limiter_of_set happly ?_ ?_
      · rintro rfl limit hlimit
        exact hset ⟨hkey, limit, hlimit⟩
      · rintro rfl limit hlimit
        exact hset ⟨hkey, limit, hlimit⟩
    refine ⟨{ p' with bump := bump }, l, hwithin, rfl, ?_, ?_⟩
    · cases d <;> exact hkeep.trans hl
    · cases d <;> exact .wait le_rfl
  | @sent ctx params _ p' amount hkey hconsume hamount =>
    obtain ⟨outbound, hout, inbound, hin, rfl⟩ := consumeOutbound_eq_ok.mp hconsume
    -- what is sent is taken from the outbound limiter and given back to the inbound one
    have hsent : sentThrough k (.call env (.send ctx params), es) = amount.toNat :=
      (if_pos hkey).trans hamount
    cases d with
    | outbound =>
      obtain ⟨l', hl', rfl⟩ := exists_of_updateLimiter hl hout
      obtain ⟨hwithin', hflow⟩ := RateLimiter.flow_of_tryConsume hwithin hl'
      refine ⟨_, l', hwithin', rfl, rfl, ?_⟩
      rw [Direction.taken, Direction.given, hsent]
      exact hflow
    | inbound =>
      obtain ⟨l', hl', rfl⟩ := exists_of_updateLimiter hl hin
      obtain ⟨hwithin', hflow⟩ := RateLimiter.flow_of_refill hwithin hl'
      refine ⟨_, l', hwithin', rfl, rfl, ?_⟩
      rw [Direction.taken, Direction.given, hsent]
      exact hflow
  | @received ctx params _ p' amount hkey hconsume hamount =>
    obtain ⟨inbound, hin, outbound, hout, rfl⟩ := consumeInbound_eq_ok.mp hconsume
    have hreceived : receivedThrough k (.call env (.lzReceive ctx params), es) = amount.toNat :=
      (if_pos hkey).trans hamount
    cases d with
    | outbound =>
      obtain ⟨l', hl', rfl⟩ := exists_of_updateLimiter hl hout
      obtain ⟨hwithin', hflow⟩ := RateLimiter.flow_of_refill hwithin hl'
      refine ⟨_, l', hwithin', rfl, rfl, ?_⟩
      rw [Direction.taken, Direction.given, hreceived]
      exact hflow
    | inbound =>
      obtain ⟨l', hl', rfl⟩ := exists_of_updateLimiter hl hin
      obtain ⟨hwithin', hflow⟩ := RateLimiter.flow_of_tryConsume hwithin hl'
      refine ⟨_, l', hwithin', rfl, rfl, ?_⟩
      rw [Direction.taken, Direction.given, hreceived]
      exact hflow

/-- An operation that keeps a limiter within its capacity does so if there is one. -/
private theorem within_of_updateLimiter {f : RateLimiter → Result OFTError RateLimiter}
    {o o' : Option RateLimiter}
    (hf : ∀ {l l'}, l.WithinCapacity → f l = .ok l' → l'.WithinCapacity)
    (ho : ∀ l ∈ o, l.WithinCapacity) (h : updateLimiter f o = .ok o') :
    ∀ l ∈ o', l.WithinCapacity := by
  cases o with
  | none =>
    obtain rfl := Except.pure_eq_ok.mp h
    exact ho
  | some l =>
    obtain ⟨l', hl', rfl⟩ := exists_of_updateLimiter rfl h
    intro l₁ hl₁
    obtain rfl := Option.some.inj hl₁
    exact hf (ho l rfl) hl'

/-- A setting leaves the limiters within their capacities. -/
private theorem within_of_set {p p' : PeerConfig} {param : PeerConfigParam}
    (hp : ∀ d, ∀ l ∈ limiter p d, l.WithinCapacity)
    (h : p.set P env OFTError.invalidFee param = .ok p') (d : Direction) :
    ∀ l ∈ limiter p' d, l.WithinCapacity := by
  obtain ⟨_, -, rfl⟩ | ⟨_, -, -, rfl⟩ | ⟨_, _, -, rfl⟩ | ⟨limit, l, -, hupdate, rfl⟩ |
    ⟨limit, l, -, hupdate, rfl⟩ := PeerConfig.set_cases h
  · exact hp d
  · exact hp d
  · exact hp d
  · cases d with
    | outbound => exact .update (hp .outbound) hupdate
    | inbound => exact hp .inbound
  · cases d with
    | outbound => exact hp .outbound
    | inbound => exact .update (hp .inbound) hupdate

/-- Every change leaves the limiters of a peer within their capacities. -/
theorem PeerChange.withinCapacity {o : Option PeerConfig} {p' : PeerConfig}
    (hchange : PeerChange P env w es k i o (some p'))
    (hwithin : ∀ p, o = some p → ∀ d, ∀ l ∈ limiter p d, l.WithinCapacity) (d : Direction) :
    ∀ l ∈ limiter p' d, l.WithinCapacity := by
  have hconsume : ∀ {amount : U64} {l l' : RateLimiter}, l.WithinCapacity →
      l.tryConsume OFTError.rateLimitExceeded env amount = .ok l' → l'.WithinCapacity :=
    fun h hl => (RateLimiter.flow_of_tryConsume h hl).1
  have hrefill : ∀ {amount : U64} {l l' : RateLimiter}, l.WithinCapacity →
      l.refill (E := OFTError) env amount = .ok l' → l'.WithinCapacity :=
    fun h hl => (RateLimiter.flow_of_refill h hl).1
  cases hchange with
  | same hother => exact hwithin p' rfl d
  | @set ctx params store _ p bump hkey hstore hfind happly =>
    have hstart : ∀ d, ∀ l ∈ limiter (o.getD PeerConfig.zero) d, l.WithinCapacity := by
      cases o with
      | none => intro d l hl; cases d <;> cases hl
      | some p₀ => exact hwithin p₀ rfl
    have hset : ∀ l ∈ limiter p d, l.WithinCapacity := within_of_set hstart happly d
    cases d <;> exact hset
  | @sent ctx params p _ amount hkey happly hamount =>
    obtain ⟨outbound, hout, inbound, hin, rfl⟩ := consumeOutbound_eq_ok.mp happly
    cases d with
    | outbound => exact within_of_updateLimiter hconsume (hwithin p rfl .outbound) hout
    | inbound => exact within_of_updateLimiter hrefill (hwithin p rfl .inbound) hin
  | @received ctx params p _ amount hkey happly hamount =>
    obtain ⟨inbound, hin, outbound, hout, rfl⟩ := consumeInbound_eq_ok.mp happly
    cases d with
    | outbound => exact within_of_updateLimiter hrefill (hwithin p rfl .outbound) hout
    | inbound => exact within_of_updateLimiter hconsume (hwithin p rfl .inbound) hin

end Change

/-! ### Runs -/

section Runs

variable {P : Platform} {s : OFTState P} {k : Pubkey} {d : Direction}

/-- Every limiter stays within its capacity. -/
theorem limited_run (hs : Limited s.world) (is : List Input) : Limited (worldAfter s is) := by
  refine Machine.run_invariant (P := fun s : OFTState P => Limited s.world) ?_ hs is
  intro s i s' es hlimited hstep k p' hp'
  cases i with
  | call env i =>
    obtain ⟨-, hexec⟩ := Instruction.invoke_eq_ok.mp (step_call_eq_ok.mp hstep)
    have hchange := i.peerChange hexec k
    rw [hp'] at hchange
    exact hchange.withinCapacity (hlimited k)
  | outside lamports tokens mints deposits =>
    obtain ⟨rfl, -⟩ := Prod.mk.inj (Except.ok.inj hstep)
    exact hlimited k p' hp'

/-- **A stretch of a run** is a flow of a limiter that nothing in it sets. -/
theorem flow_run {p : PeerConfig} {l : RateLimiter} (hpeer : s.world.load peerKind k = some p)
    (hl : limiter p d = some l) (hwithin : l.WithinCapacity) {is : List Input} {t t' : ℤ}
    (hset : ∀ e ∈ Machine.history (step P) s is, ¬e.1.SetsLimiter k d)
    (hclock : (t :: clocks is ++ [t']).Pairwise (· ≤ ·)) :
    ∃ b, TokenBucket.Flow (l.bucket hwithin) t.toNat b t'.toNat
      (((Machine.history (step P) s is).map fun e => d.taken k e).sum)
      (((Machine.history (step P) s is).map fun e => d.given k e).sum) := by
  induction is generalizing s t p l with
  | nil =>
    have htime : t ≤ t' := by simpa [clocks] using hclock
    exact ⟨_, .wait (Int.toNat_le_toNat htime)⟩
  | cons i is ih =>
    cases i with
    | outside lamports tokens mints deposits =>
      -- nothing is touched, and the entry counts for nothing
      obtain ⟨s', hstep, hdata⟩ : ∃ s', step P s (.outside lamports tokens mints deposits) =
          .ok (s', []) ∧ s'.world.data = s.world.data := ⟨_, rfl, rfl⟩
      rw [Machine.history_cons_of_ok hstep] at hset ⊢
      have hpeer' : s'.world.load peerKind k = some p := by
        rw [World.load_of_data_eq hdata, hpeer]
      obtain ⟨b, hflow⟩ := ih hpeer' hl hwithin (fun e he => hset e (.tail _ he)) hclock
      have hzero : d.taken k (.outside lamports tokens mints deposits, []) = 0 ∧
          d.given k (.outside lamports tokens mints deposits, []) = 0 := by
        cases d <;> exact ⟨rfl, rfl⟩
      refine ⟨b, ?_⟩
      rw [List.map_cons, List.map_cons, List.sum_cons, List.sum_cons, hzero.1, hzero.2,
        Nat.zero_add, Nat.zero_add]
      exact hflow
    | call env i =>
      have htime : t ≤ env.unixTimestamp := List.rel_of_pairwise_cons hclock List.mem_cons_self
      cases hstep : step P s (.call env i) with
      | error e =>
        -- a call that fails is not in the history
        rw [Machine.history_cons_of_error hstep] at hset ⊢
        exact ih hpeer hl hwithin hset
          (hclock.sublist (.cons_cons t (List.sublist_cons_self ..)))
      | ok r =>
        obtain ⟨s', es⟩ := r
        rw [Machine.history_cons_of_ok hstep] at hset ⊢
        obtain ⟨-, hexec⟩ := Instruction.invoke_eq_ok.mp (step_call_eq_ok.mp hstep)
        have hchange := i.peerChange hexec k
        rw [hpeer] at hchange
        obtain ⟨p', l', hwithin', hpeer', hl', hone⟩ :=
          hchange.flow hl hwithin (hset _ List.mem_cons_self)
        obtain ⟨b, hrest⟩ := ih hpeer' hl' hwithin' (fun e he => hset e (.tail _ he))
          (List.pairwise_cons.mp hclock).2
        -- the time since the last reading, the call itself, and the rest of the stretch
        have hwait : TokenBucket.Flow (l.bucket hwithin) t.toNat (l.bucket hwithin)
            env.unixTimestamp.toNat 0 0 := .wait (Int.toNat_le_toNat htime)
        have hflow := (hwait.trans hone).trans hrest
        rw [Nat.zero_add, Nat.zero_add] at hflow
        exact ⟨b, by rwa [List.map_cons, List.map_cons, List.sum_cons, List.sum_cons]⟩

/-- Before the program was ever called there is no limiter. -/
theorem OFTState.Fresh.limited (hs : s.Fresh) : Limited s.world := by
  intro k p hp
  rw [World.load, hs k] at hp
  cases hp

/-- A limiter nothing sets bounds the net flow through its peer, as integers. -/
private theorem net_flow_le (hs : Limited s.world) {p : PeerConfig} {l : RateLimiter}
    (hpeer : s.world.load peerKind k = some p) (hl : limiter p d = some l) {is : List Input}
    (hset : ∀ e ∈ Machine.history (step P) s is, ¬e.1.SetsLimiter k d) {t t' : ℤ}
    (hclock : (t :: clocks is ++ [t']).Pairwise (· ≤ ·)) :
    (((Machine.history (step P) s is).map fun e => d.taken k e).sum : ℤ) ≤
      l.capacity.toNat + l.refillPerSecond.toNat * (t' - t) +
        ((Machine.history (step P) s is).map fun e => d.given k e).sum := by
  have hwithin : l.WithinCapacity := hs k p hpeer d l hl
  obtain ⟨b, hflow⟩ := flow_run hpeer hl hwithin hset hclock
  have htime : t ≤ t' := List.rel_of_pairwise_cons hclock (by simp)
  have helapsed : (t'.toNat : ℤ) - t.toNat ≤ t' - t := by omega
  have hle : t.toNat ≤ t'.toNat := Int.toNat_le_toNat htime
  -- what time brings, over the integers
  have hbrought : ((l.refillPerSecond.toNat * (t'.toNat - t.toNat) : ℕ) : ℤ) ≤
      l.refillPerSecond.toNat * (t' - t) := by
    rw [Nat.cast_mul, Nat.cast_sub hle]
    exact Int.mul_le_mul_of_nonneg_left helapsed (Int.natCast_nonneg _)
  have htaken := Int.ofNat_le.mpr hflow.taken_le
  simp only [RateLimiter.bucket, Nat.cast_add] at htaken
  omega

/-- **Rate limits** bound the net flow. In every reachable state, and for every stretch of the run
from there in which the clock does not go backwards:

* if nothing sets the outbound limiter of a peer, then what is sent through the peer is at most
  the capacity, what the rate brings in the time of the stretch, and what is received;
* if nothing sets the inbound limiter, the same with the roles exchanged.

And every limiter of every peer has at most as many tokens as its capacity. -/
theorem rate_limits_bound (hs : s.Fresh) (js is : List Input) {t₀ t₁ : ℤ}
    (hclock : (t₀ :: clocks is ++ [t₁]).Pairwise (· ≤ ·)) {p : PeerConfig}
    (hpeer : (worldAfter s js).data k = some (.peerConfig p)) :
    let stretch := Machine.history (step P) (Machine.run (step P) s js) is
    (∀ l, p.outboundRateLimiter = some l → (∀ e ∈ stretch, ¬e.1.SetsLimiter k .outbound) →
      ((stretch.map (sentThrough k)).sum : ℤ) ≤
        l.capacity.toNat + l.refillPerSecond.toNat * (t₁ - t₀) +
          (stretch.map (receivedThrough k)).sum) ∧
    (∀ l, p.inboundRateLimiter = some l → (∀ e ∈ stretch, ¬e.1.SetsLimiter k .inbound) →
      ((stretch.map (receivedThrough k)).sum : ℤ) ≤
        l.capacity.toNat + l.refillPerSecond.toNat * (t₁ - t₀) +
          (stretch.map (sentThrough k)).sum) ∧
    (∀ l, p.outboundRateLimiter = some l ∨ p.inboundRateLimiter = some l →
      l.tokens.toNat ≤ l.capacity.toNat) := by
  have hlimited : Limited (worldAfter s js) := limited_run hs.limited js
  have hload : (worldAfter s js).load peerKind k = some p := World.load_eq_some.mpr hpeer
  refine ⟨fun l hl hset => ?_, fun l hl hset => ?_, ?_⟩
  · have hout : limiter p .outbound = some l := hl
    exact net_flow_le hlimited hload hout hset hclock
  · have hin : limiter p .inbound = some l := hl
    exact net_flow_le hlimited hload hin hset hclock
  · rintro l (hl | hl)
    · exact hlimited k p hload .outbound l hl
    · exact hlimited k p hload .inbound l hl

end Runs

/-- The sample deployment with an outbound limiter of one tenth of a token, and five units a
second. -/
def sampleLimitedSetup : List Input :=
  sampleSetup ++
    [.call sampleEnv (.setPeerConfig ⟨sampleSigner sampleAdmin, sampleWritable (sampleKey 5),
      ⟨sampleKey 1, false, false⟩, ⟨zero32, false, false⟩⟩
      ⟨sampleEid, .outboundRateLimit (some ⟨some 5#64, some 1000000000#64⟩)⟩)]

/-- Within ten seconds the sample user sends at most the capacity and fifty units. -/
theorem rate_limits_bound_sample :
    (((Machine.history (step samplePlatform)
        (Machine.run (step samplePlatform) sampleFresh sampleLimitedSetup)
        [.call sampleEnv (.send sampleSend sampleSendParams)]).map
          (sentThrough (sampleKey 5))).sum : ℤ) ≤
      1000000000 + 5 * (1700000010 - 1700000000) +
        ((Machine.history (step samplePlatform)
          (Machine.run (step samplePlatform) sampleFresh sampleLimitedSetup)
          [.call sampleEnv (.send sampleSend sampleSendParams)]).map
            (receivedThrough (sampleKey 5))).sum := by
  have hlimiter : ((worldAfter sampleFresh sampleLimitedSetup).load peerKind (sampleKey 5)).bind
      PeerConfig.outboundRateLimiter =
        some ⟨1000000000#64, 1000000000#64, 5#64, 1700000000#64⟩ := by decide +kernel
  obtain ⟨p, hload, hl⟩ := Option.bind_eq_some_iff.mp hlimiter
  have hset : ∀ e ∈ Machine.history (step samplePlatform)
      (Machine.run (step samplePlatform) sampleFresh sampleLimitedSetup)
      [.call sampleEnv (.send sampleSend sampleSendParams)],
      ¬e.1.SetsLimiter (sampleKey 5) .outbound := by
    intro e he
    rw [List.mem_singleton.mp (Machine.mem_of_mem_history he)]
    exact not_false
  have hclock : ((1700000000 : ℤ) :: clocks [.call sampleEnv (.send sampleSend sampleSendParams)] ++
      [1700000010]).Pairwise (· ≤ ·) := by decide
  obtain ⟨hout, -, -⟩ := rate_limits_bound (s := sampleFresh) (fun _ => rfl) sampleLimitedSetup
    [.call sampleEnv (.send sampleSend sampleSendParams)] hclock (World.load_eq_some.mp hload)
  exact hout _ hl hset

end Oft
