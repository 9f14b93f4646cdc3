import SolanaProxy.Proxy.Delivery
import SolanaProxy.Solana.RateLimit

/-!
# The inbound rate limit of the proxy

The proxy has the rate limiters of the OFT in its peer configurations and the instruction that
sets them, but `lz_receive` never reads one. A delivery that goes through goes through under any
other limiter (`LzReceive.Trace.withLimiter`), and a limiter stays as it was set whatever is
delivered (`inbound_unchanged`).

So no limit holds where anything can be delivered at all (`inbound_limit_never`): messages that
differ in their nonces only are delivered one after the other, the tokens being paid back in
between (`lap`), until more than the limit has gone out at one and the same time.
-/

namespace Proxy

open Solana Machine

/-- The inbound limiter of the peer at `k`. -/
def inboundLimiter (w : ProxyWorld) (k : Pubkey) : Option RateLimiter :=
  (w.load peerKind k).bind PeerConfig.inboundRateLimiter

/-- The input sets the inbound limiter of the peer at `k`. -/
def Input.SetsInbound (k : Pubkey) : Input → Prop
  | .call _ (.setPeerConfig ctx params) =>
    ctx.peerConfig.pubkey = k ∧ ∃ limit, params.config = .inboundRateLimit limit
  | _ => False

/-- The clock reading of a call. -/
def clock? : Input → Option ℤ
  | .call env _ => some env.unixTimestamp
  | .outside .. => none

/-- The clock readings of the calls of a run. -/
def clocks (is : List Input) : List ℤ := is.filterMap clock?

/-- The USDC that an entry of a history releases through the peer at `k`. What an account pays to
itself is not released. -/
def releasedThrough (k : Pubkey) : Input × List ProxyEffect → ℕ
  | (.call _ (.lzReceive ctx _), es) =>
    if ctx.peerConfig.pubkey = k then
      ((es.filterMap Effect.transferred?).map fun transfer =>
        if transfer.2.1 = transfer.1 then 0 else transfer.2.2).sum
    else 0
  | _ => 0

/-- A stretch of a run, from the time `t` to the time `t'`, in which the inbound limiter of the
peer at `k` is not set: the clock does not go backwards, and no message is cleared twice. -/
structure Stretch {P : Platform} (s : ProxyState P) (k : Pubkey) (t t' : ℤ) (is : List Input) :
    Prop where
  time_le : t ≤ t'
  clock : (clocks is).Pairwise (· ≤ ·)
  times : ∀ c ∈ clocks is, t ≤ c ∧ c ≤ t'
  unset : ∀ e ∈ history (step P) s is, ¬e.1.SetsInbound k
  once : ((history (step P) s is).flatMap fun e => (cleared e.2).map ClearParams.slot).Nodup

/-- The limit `l` of the peer at `k` bounds what is released through the peer: in a stretch from
the state, at most the capacity and what the rate brings. -/
def InboundBounded {P : Platform} (s : ProxyState P) (k : Pubkey) (l : RateLimiter) : Prop :=
  ∀ is t t', Stretch s k t t' is →
    (((history (step P) s is).map (releasedThrough k)).sum : ℤ) ≤
      l.capacity.toNat + l.refillPerSecond.toNat * (t' - t)

/-- The limit `l` of the peer at `k` is enforced from a state on: it bounds what is released, and
a delivery that asks for more than the limiter then has does not go through. -/
structure InboundEnforced {P : Platform} (s : ProxyState P) (k : Pubkey) (l : RateLimiter) :
    Prop where
  bounded : InboundBounded s k l
  refused : ∀ is t t' env (ctx : LzReceive) params amount l', Stretch s k t t' is →
    t' ≤ env.unixTimestamp → ctx.peerConfig.pubkey = k →
    usdcAmount? params.message = some amount →
    inboundLimiter (run (step P) s is).world k = some l' →
    l'.tryConsume .rateLimitExceeded env amount = .error (.program ProxyError.rateLimitExceeded) →
    ∀ r, step P (run (step P) s is) (.call env (.lzReceive ctx params)) ≠ .ok r

/-! ### The limiter is not read -/

section Step

variable {P : Platform} {s s' : ProxyState P} {i : Input} {es : List ProxyEffect} {k : Pubkey}

/-- **The inbound limiter** of a peer stays as it is unless it is set. -/
theorem inbound_unchanged {p : PeerConfig} (hpeer : s.world.data k = some (.peerConfig p))
    (hset : ¬i.SetsInbound k) (h : step P s i = .ok (s', es)) :
    ∃ p', s'.world.data k = some (.peerConfig p') ∧
      p'.inboundRateLimiter = p.inboundRateLimiter := by
  cases i with
  | outside lamports tokens mints =>
    obtain ⟨rfl, -⟩ := Prod.mk.inj (Except.ok.inj h)
    exact ⟨p, hpeer, rfl⟩
  | call env i =>
    have hchange := i.accountChange (step_call_eq_ok.mp h) k
    rw [hpeer] at hchange
    generalize s'.world.data k = o at hchange
    cases hchange with
    | same => exact ⟨p, rfl, rfl⟩
    | submitted _ _ _ hold => rcases hold with hold | ⟨d, hold⟩ <;> cases hold
    | backwardFee _ _ hold => rcases hold with hold | ⟨d, hold⟩ <;> cases hold
    | accountList _ _ hold => rcases hold with hold | ⟨d, hold⟩ <;> cases hold
    | @peer ctx params config _ p₀ p₁ bump hkey hadmin hold happly =>
      rcases hold with ⟨hnone, -⟩ | hsome
      · cases hnone
      · obtain rfl := ProxyAccount.peerConfig.inj (Option.some.inj hsome)
        refine ⟨_, rfl, ?_⟩
        -- the other settings write other fields
        obtain ⟨_, -, rfl⟩ | ⟨_, -, -, rfl⟩ | ⟨_, _, -, rfl⟩ | ⟨_, _, -, -, rfl⟩ |
          ⟨limit, _, hparam, -, -⟩ := PeerConfig.set_cases happly
        · rfl
        · rfl
        · rfl
        · rfl
        · exact (hset ⟨hkey, limit, hparam⟩).elim

/-- **No delivery** fails for the limit. -/
theorem LzReceive.apply_ne_rateLimitExceeded {env : Env} {w : ProxyWorld} {ctx : LzReceive}
    {params : LzReceiveParams} :
    ctx.apply P env w params ≠ .error (.program .rateLimitExceeded) := by
  intro h
  have haccounts : tryAccounts P w ctx params ≠ .error (.program .rateLimitExceeded) := by
    intro h
    simp only [tryAccounts, signer, writable, Solana.program, loadConfig, loadPeer,
      loadPda_ne_program, loadMint_ne_program, loadAssociated_ne_program,
      initAssociatedIfNeeded_ne_program, findPda_ne_program, Except.bind_eq_error,
      Except.require_eq_error, Except.ofOption_eq_error, Except.pure_ne_error,
      Failure.program.injEq, reduceCtorEq, and_false, or_self, exists_false] at h
  simp only [apply, haccounts, endpointCall, Except.bind_eq_error, Except.require_eq_error,
    Except.ofOption_eq_error, Except.pure_ne_error, Failure.program.injEq, reduceCtorEq,
    and_false, or_self, exists_false] at h

end Step

section Limiter

variable {P : Platform} {env : Env} {w w' : ProxyWorld} {es : List ProxyEffect} {k : Pubkey}
  {ctx : LzReceive} {params : LzReceiveParams}

/-- **What is released** is what the token account of the proxy loses. -/
theorem LzReceive.balance_released (h : ctx.apply P env w params = .ok (w', es)) :
    w'.balance ctx.proxyTokenAccount.pubkey +
        releasedThrough ctx.peerConfig.pubkey (.call env (.lzReceive ctx params), es) =
      w.balance ctx.proxyTokenAccount.pubkey := by
  obtain ⟨tr⟩ := nonempty_trace h
  have htransferred := congrArg (List.filterMap Effect.transferred?) tr.effects_eq
  have hbalance := tr.balance_proxy
  rw [releasedThrough, if_pos rfl, htransferred]
  simp only [Effect.transferred?, List.filterMap_cons, List.filterMap_nil, List.map_cons,
    List.map_nil, List.sum_singleton]
  split at hbalance
  case isTrue hself =>
    rw [if_pos hself]
    omega
  case isFalse hother =>
    rw [if_neg hother]
    exact hbalance

/-- A delivery whose steps are all possible goes through. -/
theorem LzReceive.Trace.apply_eq (tr : Trace P env w ctx params w' es) :
    ctx.apply P env w params = .ok (w', es) := by
  simp only [apply, Except.bind_eq_ok, Except.require_eq_ok, Except.ofOption_eq_ok,
    Except.pure_eq_ok, Prod.mk.injEq]
  exact ⟨(tr.loaded, tr.config), tryAccounts_eq_ok.mpr tr.accounts, (), tr.unpaused, (),
    tr.clear_accounts, tr.cleared, tr.clear_ok, tr.message, tr.decode_eq, (), tr.payload_type, (),
    tr.token_type, tr.amountBytes, tr.amount_eq, w', tr.transfer_eq, rfl, tr.effects_eq.symm⟩

/-- The world with another limiter of the peer at `k`. -/
def withLimiter (w : ProxyWorld) (k : Pubkey) (p : PeerConfig) (o : Option RateLimiter) :
    ProxyWorld :=
  w.store peerKind k { p with inboundRateLimiter := o }

/-- **A delivery** goes through under any limiter of any peer. -/
theorem LzReceive.Trace.withLimiter (tr : Trace P env w ctx params w' es) {p : PeerConfig}
    (hk : w.data k = some (.peerConfig p)) (o : Option RateLimiter) :
    ∃ w'', Nonempty (Trace P env (withLimiter w k p o) ctx params w'' es) := by
  have hconfig : loadConfig P (Proxy.withLimiter w k p o) ctx.proxyConfig = .ok tr.config := by
    obtain ⟨hdata, hseeds⟩ := loadConfig_eq_ok.mp tr.accounts.config_loaded
    have hne : ctx.proxyConfig.pubkey ≠ k := by
      intro heq
      rw [heq, hk] at hdata
      cases hdata
    exact loadConfig_eq_ok.mpr ⟨(Function.update_of_ne hne _ _).trans hdata, hseeds⟩
  have hpeer : ∃ peer, loadPeer P (Proxy.withLimiter w k p o) ctx.proxyConfig.pubkey params.srcEid
      ctx.peerConfig = .ok peer ∧ peer.peerAddress = params.sender := by
    obtain ⟨peer, hload, hsender⟩ := tr.accounts.peer_loaded
    obtain ⟨hdata, hseeds⟩ := loadPeer_eq_ok.mp hload
    by_cases heq : ctx.peerConfig.pubkey = k
    · rw [heq, hk, Option.some.injEq, ProxyAccount.peerConfig.injEq] at hdata
      subst hdata
      refine ⟨{ p with inboundRateLimiter := o }, loadPeer_eq_ok.mpr ⟨?_, hseeds⟩, hsender⟩
      rw [heq]
      exact Function.update_self ..
    · exact ⟨peer, loadPeer_eq_ok.mpr ⟨(Function.update_of_ne heq _ _).trans hdata, hseeds⟩,
        hsender⟩
  let data := (Proxy.withLimiter w k p o).data
  exact ⟨w'.withData data, ⟨{
    config := tr.config
    loaded := tr.loaded.withData data
    cleared := tr.cleared.withData data
    message := tr.message
    amountBytes := tr.amountBytes
    accounts := { tr.accounts with
      config_loaded := hconfig
      peer_loaded := hpeer
      receiver_created := initAssociatedIfNeeded_withData tr.accounts.receiver_created data }
    unpaused := tr.unpaused
    clear_accounts := tr.clear_accounts
    clear_ok := endpointCall_withData tr.clear_ok data
    decode_eq := tr.decode_eq
    payload_type := tr.payload_type
    token_type := tr.token_type
    amount_eq := tr.amount_eq
    transfer_eq := World.transferTokens_withData tr.transfer_eq data
    effects_eq := tr.effects_eq }⟩⟩

/-- **Setting a limit** gives the peer a limiter as asked for and leaves everything else as it
was. -/
theorem SetPeerConfig.of_apply_inboundRateLimit {env₀ : Env} {set : SetPeerConfig} {eid : U32}
    {limit : RateLimitParams} {p : PeerConfig} (hw : w.data set.peerConfig.pubkey =
      some (.peerConfig p))
    (h : set.apply P env₀ w ⟨eid, .inboundRateLimit (some limit)⟩ = .ok (w', es)) :
    ∃ l bump, (∀ c ∈ limit.capacity, l.capacity = c) ∧
      (∀ r ∈ limit.refillPerSecond, l.refillPerSecond = r) ∧
      P.findProgramAddress (peerSeeds set.proxyConfig.pubkey eid) =
        some (set.peerConfig.pubkey, bump) ∧
      w' = withLimiter w set.peerConfig.pubkey { p with bump := bump } (some l) := by
  simp only [apply, PeerConfig.set, Except.bind_eq_ok, Except.pure_eq_ok, Prod.mk.injEq] at h
  obtain ⟨-, -, -, -, ⟨w₁, p', bump⟩, hinit, -, -, _, ⟨o, hupdate, rfl⟩, -, -, rfl, -⟩ := h
  obtain ⟨hfind, -, ⟨hnone, -⟩ | ⟨hdata, rfl⟩⟩ := initIfNeeded_eq_ok.mp hinit
  · rw [hw] at hnone
    cases hnone
  · obtain rfl := ProxyAccount.peerConfig.inj (Option.some.inj (hw.symm.trans hdata))
    obtain ⟨l, rfl, hcapacity, hrate⟩ := RateLimiter.of_updateRateLimiter hupdate
    exact ⟨l, bump, hcapacity, hrate, hfind, rfl⟩

end Limiter

/-! ### Laps -/

/-- The endpoint that answers to the message of every nonce as to the message of one. -/
def Env.anyNonce (env : Env) (nonce : U64) : Env where
  endpoint :=
    { env.endpoint with
      call := fun program sender accounts call lamports =>
        match call with
        | .clear message =>
          env.endpoint.call program sender accounts (.clear { message with nonce := nonce })
            lamports
        | call => env.endpoint.call program sender accounts call lamports }
  unixTimestamp := env.unixTimestamp
  epoch := env.epoch
  multisigSigner := env.multisigSigner

/-- The same message with a later nonce. -/
def renumber (params : LzReceiveParams) (n : ℕ) : LzReceiveParams :=
  { params with nonce := params.nonce + BitVec.ofNat 64 n }

section Laps

variable {P : Platform} {s s' : ProxyState P} {env : Env} {ctx : LzReceive}
  {params : LzReceiveParams} {es : List ProxyEffect}

/-- The message with a later nonce is delivered, and everything that moved is given back. -/
def lap (s : ProxyState P) (env : Env) (ctx : LzReceive) (params : LzReceiveParams) (n : ℕ) :
    List Input :=
  [.call (Env.anyNonce env params.nonce) (.lzReceive ctx (renumber params n)),
    .outside s.world.lamports s.world.tokens s.world.mints]

/-- The two steps of a lap. -/
private theorem lap_steps (hdeliver : ctx.apply P env s.world params = .ok (s'.world, es)) (n : ℕ) :
    ∃ s₁ es₁, step P s (.call (Env.anyNonce env params.nonce)
        (.lzReceive ctx (renumber params n))) = .ok (s₁, es₁) ∧
      step P s₁ (.outside s.world.lamports s.world.tokens s.world.mints) = .ok (s, []) ∧
      cleared es₁ = [ctx.clearParams (renumber params n)] ∧
      s'.world.balance ctx.proxyTokenAccount.pubkey +
          releasedThrough ctx.peerConfig.pubkey (.call (Env.anyNonce env params.nonce)
            (.lzReceive ctx (renumber params n)), es₁) =
        s.world.balance ctx.proxyTokenAccount.pubkey := by
  obtain ⟨tr⟩ := LzReceive.nonempty_trace hdeliver
  -- nothing but the endpoint sees the nonce
  let tr' : LzReceive.Trace P (Env.anyNonce env params.nonce) s.world ctx (renumber params n)
    s'.world _ := { tr with accounts := { tr.accounts with }, effects_eq := rfl }
  obtain ⟨⟨s₁, es₁⟩, hstep⟩ : ∃ r, step P s (.call (Env.anyNonce env params.nonce)
      (.lzReceive ctx (renumber params n))) = .ok r := exists_step_call_iff.mpr ⟨_, tr'.apply_eq⟩
  have hexec : ctx.apply P (Env.anyNonce env params.nonce) s.world (renumber params n) =
      .ok (s₁.world, es₁) := step_call_eq_ok.mp hstep
  have hworld : s₁.world = s'.world := by
    rw [tr'.apply_eq] at hexec
    exact (Prod.mk.inj (Except.ok.inj hexec)).1.symm
  refine ⟨s₁, es₁, hstep, ?_, ?_, ?_⟩
  · have hdata : s₁.world.data = s.world.data := (LzReceive.data_of_apply hexec).1
    obtain ⟨⟨data, lamports, tokens, mints⟩, hplaced⟩ := s
    obtain ⟨⟨data₁, lamports₁, tokens₁, mints₁⟩, hplaced₁⟩ := s₁
    obtain rfl : data₁ = data := hdata
    rfl
  · rw [cleared, Instruction.called_of_execute (step_call_eq_ok.mp hstep)]
    rfl
  · rw [← hworld]
    exact LzReceive.balance_released hexec

/-- **A lap** leads back to where it started, and it clears its message for one payment. -/
private theorem lap_spec (hdeliver : ctx.apply P env s.world params = .ok (s'.world, es)) (n : ℕ) :
    run (step P) s (lap s env ctx params n) = s ∧
      ((history (step P) s (lap s env ctx params n)).map
          (releasedThrough ctx.peerConfig.pubkey)).sum =
        s.world.balance ctx.proxyTokenAccount.pubkey -
          s'.world.balance ctx.proxyTokenAccount.pubkey ∧
      ((history (step P) s (lap s env ctx params n)).flatMap fun e =>
        (cleared e.2).map ClearParams.slot) = [(ctx.clearParams (renumber params n)).slot] := by
  obtain ⟨s₁, es₁, hstep, hback, hcleared, hreleased⟩ := lap_steps hdeliver n
  refine ⟨?_, ?_, ?_⟩
  · rw [lap, run_cons, next_of_ok hstep, run_cons, next_of_ok hback, run_nil]
  all_goals rw [lap, history_cons_of_ok hstep, history_cons_of_ok hback, history_nil]
  · rw [List.map_cons, List.map_singleton, List.sum_cons, List.sum_singleton, ← hreleased,
      Nat.add_sub_cancel_left]
    rfl
  · rw [List.flatMap_cons, List.flatMap_singleton, hcleared]
    rfl

/-- Many laps. -/
def laps (s : ProxyState P) (env : Env) (ctx : LzReceive) (params : LzReceiveParams) (n : ℕ) :
    List Input :=
  (List.range n).flatMap (lap s env ctx params)

/-- Each of many laps happens as it would alone. -/
private theorem history_laps (hdeliver : ctx.apply P env s.world params = .ok (s'.world, es))
    (n : ℕ) :
    history (step P) s (laps s env ctx params n) =
      (List.range n).flatMap fun i => history (step P) s (lap s env ctx params i) :=
  (run_history_flatMap fun i _ => (lap_spec hdeliver i).1).2

/-- Many laps release a multiple of what the delivery takes. -/
private theorem released_laps (hdeliver : ctx.apply P env s.world params = .ok (s'.world, es))
    (n : ℕ) :
    ((history (step P) s (laps s env ctx params n)).map
        (releasedThrough ctx.peerConfig.pubkey)).sum =
      n * (s.world.balance ctx.proxyTokenAccount.pubkey -
        s'.world.balance ctx.proxyTokenAccount.pubkey) := by
  rw [history_laps hdeliver, List.map_flatMap, List.flatMap_def, List.sum_flatten,
    List.map_map, Function.comp_def, List.map_congr_left fun i _ => (lap_spec hdeliver i).2.1,
    List.map_const', List.length_range, List.sum_replicate, smul_eq_mul]

/-- Up to the number of nonces, laps are a stretch at one time. -/
private theorem stretch_laps (hdeliver : ctx.apply P env s.world params = .ok (s'.world, es))
    {n : ℕ} (hn : n ≤ 2 ^ 64) :
    Stretch s ctx.peerConfig.pubkey env.unixTimestamp env.unixTimestamp
      (laps s env ctx params n) := by
  have hinputs : ∀ i ∈ laps s env ctx params n, ¬i.SetsInbound ctx.peerConfig.pubkey ∧
      ∀ c ∈ clock? i, c = env.unixTimestamp := by
    intro i hi
    obtain ⟨m, -, hi⟩ := List.mem_flatMap.mp hi
    rcases List.mem_pair.mp hi with rfl | rfl
    · exact ⟨not_false, fun c hc => (Option.some.inj hc).symm⟩
    · exact ⟨not_false, fun c hc => (Option.not_mem_none _ hc).elim⟩
  have htime : ∀ c ∈ clocks (laps s env ctx params n), c = env.unixTimestamp := by
    intro c hc
    obtain ⟨i, hi, hc⟩ := List.mem_filterMap.mp hc
    exact (hinputs i hi).2 c hc
  refine ⟨le_rfl, ?_, ?_, fun e he => (hinputs _ (mem_of_mem_history he)).1, ?_⟩
  · exact List.pairwise_of_forall_mem_list fun c hc c' hc' => ((htime c hc).trans
      (htime c' hc').symm).le
  · exact fun c hc => ⟨(htime c hc).ge, (htime c hc).le⟩
  · rw [history_laps hdeliver, List.flatMap_assoc,
      List.flatMap_congr fun i _ => (lap_spec hdeliver i).2.2, ← List.map_eq_flatMap]
    refine List.nodup_range.map_on fun i hi j hj hslot => ?_
    have hnonce : params.nonce + BitVec.ofNat 64 i = params.nonce + BitVec.ofNat 64 j :=
      congrArg PayloadSlot.nonce hslot
    rw [BitVec.add_right_inj, ← BitVec.toNat_inj, BitVec.toNat_ofNat, BitVec.toNat_ofNat,
      Nat.mod_eq_of_lt ((List.mem_range.mp hi).trans_le hn),
      Nat.mod_eq_of_lt ((List.mem_range.mp hj).trans_le hn)] at hnonce
    exact hnonce

/-- **Laps exceed** every limit. -/
private theorem not_bounded_of_delivery
    (hdeliver : ctx.apply P env s.world params = .ok (s'.world, es))
    (hpays : s'.world.balance ctx.proxyTokenAccount.pubkey <
      s.world.balance ctx.proxyTokenAccount.pubkey) (l : RateLimiter) :
    ¬InboundBounded s ctx.peerConfig.pubkey l := by
  intro h
  have hcount : l.capacity.toNat + 1 ≤ 2 ^ 64 := l.capacity.isLt
  have hbound := h _ _ _ (stretch_laps hdeliver hcount)
  rw [released_laps hdeliver, sub_self, mul_zero, add_zero, Int.ofNat_le] at hbound
  have hmul := Nat.le_mul_of_pos_right (l.capacity.toNat + 1) (Nat.sub_pos_of_lt hpays)
  omega

end Laps

/-! ### Runs -/

section Runs

variable {P : Platform} {s s' : ProxyState P} {k : Pubkey} {is : List Input} {env : Env}
  {ctx : LzReceive} {params : LzReceiveParams} {es : List ProxyEffect}

/-- The inbound limiter of a peer stays as it is in a run that does not set it. -/
theorem inbound_unchanged_run {p : PeerConfig} (hpeer : s.world.data k = some (.peerConfig p))
    (hset : ∀ e ∈ history (step P) s is, ¬e.1.SetsInbound k) :
    ∃ p', (run (step P) s is).world.data k = some (.peerConfig p') ∧
      p'.inboundRateLimiter = p.inboundRateLimiter := by
  induction is generalizing s p with
  | nil => exact ⟨p, hpeer, rfl⟩
  | cons i is ih =>
    cases h : step P s i with
    | error e =>
      rw [history_cons_of_error h] at hset
      rw [run_cons, next_of_error h]
      exact ih hpeer hset
    | ok r =>
      rw [history_cons_of_ok h] at hset
      rw [run_cons, next_of_ok h]
      obtain ⟨p', hp', hkeep⟩ := inbound_unchanged hpeer (hset _ List.mem_cons_self) h
      obtain ⟨p'', hp'', hkeep'⟩ := ih hp' fun e he => hset e (.tail _ he)
      exact ⟨p'', hp'', hkeep'.trans hkeep⟩

/-- A delivery that goes through goes through after a limit was set for its peer. -/
private theorem deliver_of_setPeerConfig (hP : P.DeriveInjective)
    (hdeliver : ctx.apply P env s.world params = .ok (s'.world, es)) {env₀ : Env}
    {set : SetPeerConfig} {eid : U32} {limit : RateLimitParams} {s₁ : ProxyState P}
    {es₁ : List ProxyEffect} (hkey : set.peerConfig.pubkey = ctx.peerConfig.pubkey)
    (hset : set.apply P env₀ s.world ⟨eid, .inboundRateLimit (some limit)⟩ =
      .ok (s₁.world, es₁)) :
    ∃ l w, inboundLimiter s₁.world ctx.peerConfig.pubkey = some l ∧
      (∀ c ∈ limit.capacity, l.capacity = c) ∧
      (∀ r ∈ limit.refillPerSecond, l.refillPerSecond = r) ∧
      ctx.apply P env s₁.world params = .ok (w, es) := by
  obtain ⟨tr⟩ := LzReceive.nonempty_trace hdeliver
  obtain ⟨p, hload, -⟩ := tr.accounts.peer_loaded
  obtain ⟨hdata, hseeds⟩ := loadPeer_eq_ok.mp hload
  obtain ⟨l, bump, hcapacity, hrate, hfind, hworld⟩ :=
    SetPeerConfig.of_apply_inboundRateLimit (hkey ▸ hdata) hset
  -- the peer keeps its bump, since its address has one
  have hderive := hP (Platform.createProgramAddress_of_find hfind) (hkey ▸ hseeds)
  obtain rfl : bump = p.bump := by
    obtain ⟨-, hbump⟩ := List.append_inj' hderive.1 rfl
    exact List.singleton_inj.mp hbump
  rw [hkey] at hworld
  obtain ⟨w, ⟨tr'⟩⟩ := tr.withLimiter hdata (some l)
  refine ⟨l, w, ?_, hcapacity, hrate, ?_⟩
  · rw [inboundLimiter, hworld, withLimiter, World.load, World.data_store, Function.update_self]
    rfl
  · rw [hworld]
    exact tr'.apply_eq

/-- **No inbound limit holds.** Take any state in which some delivery through a peer goes through
and takes something from the token account of the proxy. Then:

* the limit of the peer is exceeded by some stretch from there, at one time and without a message
  being cleared twice;
* so is every limit that `set_peer_config` can set in its place, and the delivery pays under it what
  it pays without it, however small the limit is;
* the limiter stays as it is until it is set: nothing consumes from it;
* no delivery ever fails for its limit;
* what is released in these sums is what the token account of the proxy loses. -/
theorem inbound_limit_never (hP : P.DeriveInjective)
    (hdeliver : step P s (.call env (.lzReceive ctx params)) = .ok (s', es))
    (hpays : s'.world.balance ctx.proxyTokenAccount.pubkey <
      s.world.balance ctx.proxyTokenAccount.pubkey) :
    (∀ l, inboundLimiter s.world ctx.peerConfig.pubkey = some l →
      ¬InboundBounded s ctx.peerConfig.pubkey l) ∧
    (∀ env₀ (set : SetPeerConfig) eid limit s₁ es₁,
      set.peerConfig.pubkey = ctx.peerConfig.pubkey →
      step P s (.call env₀ (.setPeerConfig set ⟨eid, .inboundRateLimit (some limit)⟩)) =
        .ok (s₁, es₁) →
      ∃ l s₂, inboundLimiter s₁.world ctx.peerConfig.pubkey = some l ∧
        (∀ c ∈ limit.capacity, l.capacity = c) ∧
        (∀ r ∈ limit.refillPerSecond, l.refillPerSecond = r) ∧
        step P s₁ (.call env (.lzReceive ctx params)) = .ok (s₂, es) ∧
        ¬InboundBounded s₁ ctx.peerConfig.pubkey l) ∧
    (∀ is, (∀ e ∈ history (step P) s is, ¬e.1.SetsInbound ctx.peerConfig.pubkey) →
      inboundLimiter (run (step P) s is).world ctx.peerConfig.pubkey =
        inboundLimiter s.world ctx.peerConfig.pubkey) ∧
    (∀ env w (ctx : LzReceive) params,
      ctx.apply P env w params ≠ .error (.program .rateLimitExceeded)) ∧
    ∀ env w (ctx : LzReceive) params w' es, ctx.apply P env w params = .ok (w', es) →
      w'.balance ctx.proxyTokenAccount.pubkey +
          releasedThrough ctx.peerConfig.pubkey (.call env (.lzReceive ctx params), es) =
        w.balance ctx.proxyTokenAccount.pubkey := by
  have happly : ctx.apply P env s.world params = .ok (s'.world, es) := step_call_eq_ok.mp hdeliver
  refine ⟨fun l _ => not_bounded_of_delivery happly hpays l, ?_, fun is hunset => ?_,
    fun env w ctx params => LzReceive.apply_ne_rateLimitExceeded,
    fun env w ctx params w' es h => LzReceive.balance_released h⟩
  · intro env₀ set eid limit s₁ es₁ hkey hset
    obtain ⟨l, w, hl, hcapacity, hrate, hagain⟩ :=
      deliver_of_setPeerConfig hP happly hkey (step_call_eq_ok.mp hset)
    obtain ⟨⟨s₂, es₂⟩, hstep⟩ : ∃ r, step P s₁ (.call env (.lzReceive ctx params)) = .ok r :=
      exists_step_call_iff.mpr ⟨_, hagain⟩
    have hexec : ctx.apply P env s₁.world params = .ok (s₂.world, es₂) := step_call_eq_ok.mp hstep
    obtain rfl : es₂ = es := by
      rw [hagain] at hexec
      exact (Prod.mk.inj (Except.ok.inj hexec)).2.symm
    -- the same effects take the same from the proxy
    have hreleased := LzReceive.balance_released happly
    have hreleased' := LzReceive.balance_released hexec
    exact ⟨l, s₂, hl, hcapacity, hrate, hstep, not_bounded_of_delivery hexec (by omega) l⟩
  · obtain ⟨tr⟩ := LzReceive.nonempty_trace happly
    obtain ⟨p, hload, -⟩ := tr.accounts.peer_loaded
    obtain ⟨hdata, -⟩ := loadPeer_eq_ok.mp hload
    obtain ⟨p', hdata', hkeep⟩ := inbound_unchanged_run hdata hunset
    rw [inboundLimiter, inboundLimiter, World.load, World.load, hdata, hdata']
    exact hkeep

end Runs

/-! ### A limited peer -/

/-- The sample admin limits the ledger to some capacity and rate. -/
def sampleSetLimit (capacity rate : U64) : Input :=
  .call sampleEnv (.setPeerConfig ⟨sampleSigner sampleAdmin, sampleWritable (sampleKey 5),
    ⟨sampleKey 1, false, false⟩, ⟨zero32, false, false⟩⟩
    ⟨sampleEid, .inboundRateLimit (some ⟨some rate, some capacity⟩)⟩)

/-- The delivery of five units. -/
def sampleDeliver : Input :=
  .call sampleEnv (.lzReceive (sampleLzReceive (sampleKey 5))
    (sampleDelivery sampleEid (sampleKey 40)))

/-- Not even the largest limit holds. -/
theorem inbound_limit_never_largest :
    ∃ s es l, step samplePlatform sampleFunded (sampleSetLimit (.allOnes 64) (.allOnes 64)) =
        .ok (s, es) ∧
      inboundLimiter s.world (sampleKey 5) = some l ∧ l.capacity = .allOnes 64 ∧
      l.refillPerSecond = .allOnes 64 ∧ ¬InboundBounded s (sampleKey 5) l := by
  have hdelivered : (step samplePlatform sampleFunded sampleDeliver).map
      (fun r => r.1.world.balance (sampleKey 9)) = .ok 995 := by
    decide +kernel
  obtain ⟨⟨s', es'⟩, hdeliver, hbalance⟩ := Except.map_eq_ok.mp hdelivered
  obtain ⟨⟨s, es⟩, hset⟩ := Except.exists_of_isOk (x := step samplePlatform sampleFunded
    (sampleSetLimit (.allOnes 64) (.allOnes 64))) (by decide +kernel)
  have hpays : s'.world.balance (sampleKey 9) < sampleFunded.world.balance (sampleKey 9) := by
    have hfunded : sampleFunded.world.balance (sampleKey 9) = 1000 := by decide +kernel
    rw [hfunded, hbalance]
    decide
  obtain ⟨-, hnever, -⟩ := inbound_limit_never samplePlatform_injective hdeliver hpays
  obtain ⟨l, -, hl, hcapacity, hrate, -, hexceeded⟩ := hnever _ _ _ _ _ _ rfl hset
  exact ⟨s, es, l, hset, hl, hcapacity _ rfl, hrate _ rfl, hexceeded⟩

/-- The funded deployment with a limit of four units. -/
def sampleLimited : ProxyState samplePlatform :=
  run (step samplePlatform) sampleFunded [sampleSetLimit 4#64 1#64]

/-- It lets five through, which the receiver then has, and still has its four tokens. -/
theorem inbound_limit_exceeded :
    inboundLimiter sampleLimited.world (sampleKey 5) = some ⟨4#64, 4#64, 1#64, 1700000000#64⟩ ∧
      inboundLimiter (run (step samplePlatform) sampleLimited [sampleDeliver]).world (sampleKey 5) =
        some ⟨4#64, 4#64, 1#64, 1700000000#64⟩ ∧
      (run (step samplePlatform) sampleLimited [sampleDeliver]).world.balance (sampleKey 10) = 5 ∧
      ((history (step samplePlatform) sampleLimited [sampleDeliver]).map
        (releasedThrough (sampleKey 5))).sum = 5 ∧
      ¬InboundEnforced sampleLimited (sampleKey 5) ⟨4#64, 4#64, 1#64, 1700000000#64⟩ := by
  have hreleased : ((history (step samplePlatform) sampleLimited [sampleDeliver]).map
      (releasedThrough (sampleKey 5))).sum = 5 := by
    decide +kernel
  refine ⟨by decide +kernel, by decide +kernel, by decide +kernel, hreleased, fun h => ?_⟩
  have hstretch : Stretch sampleLimited (sampleKey 5) 1700000000 1700000000 [sampleDeliver] := by
    refine ⟨le_rfl, by decide, by decide, fun e he => ?_, by decide +kernel⟩
    rw [List.mem_singleton.mp (mem_of_mem_history he)]
    exact not_false
  have hbound := h.bounded _ _ _ hstretch
  rw [hreleased] at hbound
  exact absurd hbound (by decide)

end Proxy
