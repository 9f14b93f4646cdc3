import SolanaProxy.Proxy.Quote

/-!
# Whether a quoted fee is enough

A quote adds the backward fee to the endpoint's price, and a send takes it off again after
checking that it is *less* than the native fee. The two fit unless the endpoint's price is zero:
then the quoted fee is the backward fee itself, and the send refuses it. The exact conditions are
`quoted_fee_suffices_iff`; they differ for a claim, which charges the backward fee before it
checks, so that a user who cannot pay it sees the payment fail first.
-/

namespace Proxy

open Solana

section Insufficient

variable {P : Platform} {env : Env} {w : ProxyWorld} {msgFee : MessagingFee}

/-- The payment fails with no error of the proxy. -/
theorem chargeBackwardFee_ne_program {user proxyConfig : Pubkey} {fee : U64} {e : ProxyError} :
    chargeBackwardFee w user proxyConfig fee ≠ .error (.program e) := by
  intro h
  rw [chargeBackwardFee] at h
  split at h
  · simp only [systemTransfer, Except.bind_eq_error, Except.ofOption_eq_error,
      Except.pure_ne_error, reduceCtorEq, and_false, or_self, exists_false] at h
  · cases h

/-- The user can pay the backward fee exactly when there are as many lamports. -/
theorem exists_chargeBackwardFee_iff {user proxyConfig : Pubkey} {fee : U64} :
    (∃ r, chargeBackwardFee w user proxyConfig fee = .ok r) ↔ fee.toNat ≤ w.lamports user := by
  constructor
  · rintro ⟨⟨w', es⟩, h⟩
    rcases chargeBackwardFee_eq_ok.mp h with ⟨-, hpay, -⟩ | ⟨hzero, -, -⟩
    · exact (World.transferLamports_eq_some.mp hpay).1
    · have hfee : fee.toNat = 0 := Nat.eq_zero_of_not_pos hzero
      rw [hfee]
      exact Nat.zero_le _
  · intro hle
    by_cases hpos : 0#64 < fee
    · exact ⟨_, chargeBackwardFee_eq_ok.mpr
        (Or.inl ⟨hpos, World.transferLamports_eq_some.mpr ⟨hle, rfl⟩, rfl⟩)⟩
    · exact ⟨_, chargeBackwardFee_eq_ok.mpr (Or.inr ⟨hpos, rfl, rfl⟩)⟩

/-- **Refused requests.** A request is refused for its fee exactly when it passes the checks
before, and its backward fee is not less than the native fee. -/
theorem SendRequest.apply_eq_insufficient {ctx : SendRequest} {params : RequestParams} :
    ctx.apply P env w params msgFee = .error (.program .insufficientMessagingFee) ↔
      ctx.user.isSigner = true ∧ ctx.user.isWritable = true ∧ ctx.proxyConfig.isWritable = true ∧
      ∃ config peer fees, loadConfig P w ctx.proxyConfig = .ok config ∧
        loadPeer P w ctx.proxyConfig.pubkey config.orderlyEid ctx.peerConfig = .ok peer ∧
        loadBackwardFee P w ctx.backwardFee = .ok fees ∧ config.paused = false ∧
        msgFee.nativeFee ≤ requiredFee fees (PayloadType.fromU8 params.payloadType) := by
  have happly : ctx.apply P env w params msgFee = .error (.program .insufficientMessagingFee) ↔
      ctx.prepare P w params msgFee = .error (.program .insufficientMessagingFee) := by
    simp only [apply, Except.bind_eq_error, endpointSend_ne_program, chargeBackwardFee_ne_program,
      Except.pure_ne_error, and_false, or_self, exists_false, or_false]
  rw [happly]
  simp only [prepare, signer, writable, Except.bind_eq_error, Except.require_eq_error,
    Except.require_eq_ok, Except.pure_ne_error, loadConfig, loadPeer, loadBackwardFee,
    loadPda_ne_program, Failure.program.injEq, reduceCtorEq, and_false, and_true, false_or,
    or_false, exists_false, BitVec.not_lt]
  constructor
  · rintro ⟨-, hsigner, -, hmut, config, hconfig, -, hcmut, peer, hpeer, fees, hfees, -, hpaused,
      hle⟩
    exact ⟨hsigner, hmut, hcmut, config, peer, fees, hconfig, hpeer, hfees, hpaused, hle⟩
  · rintro ⟨hsigner, hmut, hcmut, config, peer, fees, hconfig, hpeer, hfees, hpaused, hle⟩
    exact ⟨(), hsigner, (), hmut, config, hconfig, (), hcmut, peer, hpeer, fees, hfees, (),
      hpaused, hle⟩

/-- **Refused claims.** A claim is refused for its fee exactly when it passes the checks before,
the user has paid the backward fee, and it is not less than the native fee. -/
theorem SendClaim.apply_eq_insufficient {ctx : SendClaim} :
    ctx.apply P env w msgFee = .error (.program .insufficientMessagingFee) ↔
      ctx.user.isSigner = true ∧ ctx.user.isWritable = true ∧ ctx.claimData.isWritable = true ∧
      ctx.proxyConfig.isWritable = true ∧ ctx.systemProgram.pubkey = P.systemProgram ∧
      ∃ claim config peer fees, loadClaimData P w ctx.user.pubkey ctx.claimData = .ok claim ∧
        loadConfig P w ctx.proxyConfig = .ok config ∧
        loadPeer P w ctx.proxyConfig.pubkey config.orderlyEid ctx.peerConfig = .ok peer ∧
        loadBackwardFee P w ctx.backwardFee = .ok fees ∧ config.paused = false ∧
        fees.orderBackwardFee.toNat ≤ w.lamports ctx.user.pubkey ∧
        msgFee.nativeFee ≤ fees.orderBackwardFee := by
  have happly : ctx.apply P env w msgFee = .error (.program .insufficientMessagingFee) ↔
      ctx.prepare P w msgFee = .error (.program .insufficientMessagingFee) := by
    simp only [apply, Except.bind_eq_error, endpointSend_ne_program, Except.pure_ne_error,
      and_false, or_self, exists_false, or_false]
  have hclaimType : PayloadType.claimRewardSolana.checkClaimPayloadType = true := rfl
  rw [happly]
  simp only [prepare, signer, writable, program, Except.bind_eq_error, Except.require_eq_error,
    Except.require_eq_ok, Except.pure_ne_error, loadConfig, loadPeer, loadBackwardFee,
    loadClaimData, loadPda_ne_program, chargeBackwardFee_ne_program, Failure.program.injEq,
    reduceCtorEq, and_false, and_true, false_or, or_false, exists_false, hclaimType,
    not_true, BitVec.not_lt]
  constructor
  · rintro ⟨-, hsigner, -, hmut, claim, hclaim, -, hdmut, config, hconfig, -, hcmut, peer, hpeer,
      fees, hfees, -, hsystem, -, hpaused, -, -, r, hcharge, hle⟩
    exact ⟨hsigner, hmut, hdmut, hcmut, hsystem, claim, config, peer, fees, hclaim, hconfig, hpeer,
      hfees, hpaused, exists_chargeBackwardFee_iff.mp ⟨r, hcharge⟩, hle⟩
  · rintro ⟨hsigner, hmut, hdmut, hcmut, hsystem, claim, config, peer, fees, hclaim, hconfig,
      hpeer, hfees, hpaused, hpay, hle⟩
    obtain ⟨r, hcharge⟩ := exists_chargeBackwardFee_iff.mpr hpay
    exact ⟨(), hsigner, (), hmut, claim, hclaim, (), hdmut, config, hconfig, (), hcmut, peer,
      hpeer, fees, hfees, (), hsystem, (), hpaused, (), trivial, r, hcharge, hle⟩

end Insufficient

/-! ### Quoted fees -/

section Quoted

variable {P : Platform} {w : ProxyWorld}

/-- A request is not refused for its native fee, and taking the backward fee off it does not
underflow. -/
structure SendRequest.FeeSuffices (P : Platform) (w : ProxyWorld) (ctx : SendRequest)
    (params : RequestParams) (msgFee : MessagingFee) : Prop where
  not_refused : ∀ env,
    ctx.apply P env w params msgFee ≠ .error (.program .insufficientMessagingFee)
  covers : ∀ fees, loadBackwardFee P w ctx.backwardFee = .ok fees →
    requiredFee fees (PayloadType.fromU8 params.payloadType) ≤ msgFee.nativeFee

/-- The same for a claim, whose backward fee is the one of orders. -/
structure SendClaim.FeeSuffices (P : Platform) (w : ProxyWorld) (ctx : SendClaim)
    (msgFee : MessagingFee) : Prop where
  not_refused : ∀ env, ctx.apply P env w msgFee ≠ .error (.program .insufficientMessagingFee)
  covers : ∀ fees, loadBackwardFee P w ctx.backwardFee = .ok fees →
    fees.orderBackwardFee ≤ msgFee.nativeFee

/-- The native fee of a quote covers the backward fee, and is no more exactly when the endpoint
asks for nothing. -/
private theorem le_of_quoted {nativeFee q fee : U64} (h : nativeFee.toNat = q.toNat + fee.toNat) :
    fee ≤ nativeFee ∧ (nativeFee ≤ fee ↔ q = 0#64) := by
  have hzero : q = 0#64 ↔ q.toNat = 0 := by
    rw [← BitVec.toNat_inj]
    rfl
  rw [hzero, BitVec.le_def, BitVec.le_def]
  omega

/-- A request with a quoted fee is refused exactly when the endpoint asks for nothing. -/
private theorem request_suffices_iff (env : Env) (hw : WellPlaced P w)
    {quote : QuoteRequest} {params : RequestParams} {config : ProxyConfig} {fees : BackwardFee}
    {quoted : QuoteParams}
    {F q : MessagingFee} (hquote : quote.prepare P w params = .ok (config, fees, quoted))
    (hF : F.nativeFee.toNat =
      q.nativeFee.toNat + (QuoteRequest.requiredFee fees params.payloadType).toNat) :
    (∀ (send : SendRequest) (msgFee : MessagingFee), send.user.pubkey = quote.user.pubkey →
      msgFee.nativeFee = F.nativeFee → send.FeeSuffices P w params msgFee) ↔
      q.nativeFee ≠ 0#64 := by
  obtain ⟨hsigner, hconfig, hpaused, -, hfees, peer, hpeer, -⟩ :=
    QuoteRequest.prepare_eq_ok.mp hquote
  rw [← requiredFee_eq] at hF
  obtain ⟨hcovers, hrefused⟩ := le_of_quoted hF
  constructor
  · intro h hzero
    -- the accounts of the quote, passed to be written
    have hsuffices := h ⟨⟨quote.user.pubkey, true, true⟩, ⟨quote.proxyConfig.pubkey, false, true⟩,
      quote.peerConfig, quote.backwardFee, []⟩ F rfl rfl
    refine hsuffices.not_refused env (SendRequest.apply_eq_insufficient.mpr ?_)
    exact ⟨rfl, rfl, rfl, config, peer, fees, hconfig, hpeer, hfees, hpaused, hrefused.mpr hzero⟩
  · intro hq send msgFee huser hfee
    refine ⟨fun env happly => ?_, fun fees' hfees' => ?_⟩
    · obtain ⟨-, -, -, config', peer', fees', -, -, hfees', -, hle⟩ :=
        SendRequest.apply_eq_insufficient.mp happly
      obtain rfl := loadBackwardFee_unique hw hfees hfees'
      exact hq (hrefused.mp (hfee ▸ hle))
    · obtain rfl := loadBackwardFee_unique hw hfees hfees'
      exact hfee ▸ hcovers

/-- A claim with a quoted fee is refused exactly when the endpoint asks for nothing and the user
can pay the backward fee. -/
private theorem claim_suffices_iff (env : Env) (hw : WellPlaced P w) {quote : QuoteClaim}
    {config : ProxyConfig} {fees : BackwardFee} {quoted : QuoteParams} {F q : MessagingFee}
    (hquote : quote.prepare P w = .ok (config, fees, quoted))
    (hF : F.nativeFee.toNat = q.nativeFee.toNat + fees.orderBackwardFee.toNat) :
    (∀ (send : SendClaim) (msgFee : MessagingFee), send.user.pubkey = quote.user.pubkey →
      msgFee.nativeFee = F.nativeFee → send.FeeSuffices P w msgFee) ↔
      q.nativeFee ≠ 0#64 ∨ w.lamports quote.user.pubkey < fees.orderBackwardFee.toNat := by
  obtain ⟨hconfig, hpaused, hfees, claim, peer, hclaim, hpeer, -⟩ :=
    QuoteClaim.of_prepare_eq_ok hquote
  obtain ⟨hcovers, hrefused⟩ := le_of_quoted hF
  constructor
  · intro h
    by_contra hnot
    obtain ⟨hq, hpay⟩ := not_or.mp hnot
    -- the user's own claim, and the accounts of the quote, passed to be written
    have hsuffices := h ⟨⟨quote.user.pubkey, true, true⟩, ⟨quote.claimData.pubkey, false, true⟩,
      ⟨quote.proxyConfig.pubkey, false, true⟩, quote.peerConfig, quote.backwardFee,
      ⟨P.systemProgram, false, false⟩, []⟩ F rfl rfl
    refine hsuffices.not_refused env (SendClaim.apply_eq_insufficient.mpr ?_)
    exact ⟨rfl, rfl, rfl, rfl, rfl, claim, config, peer, fees, hclaim, hconfig, hpeer, hfees,
      hpaused, Nat.le_of_not_lt hpay, hrefused.mpr (not_not.mp hq)⟩
  · intro hcond send msgFee huser hfee
    refine ⟨fun env happly => ?_, fun fees' hfees' => ?_⟩
    · obtain ⟨-, -, -, -, -, claim', config', peer', fees', -, -, -, hfees', -, hpay, hle⟩ :=
        SendClaim.apply_eq_insufficient.mp happly
      obtain rfl := loadBackwardFee_unique hw hfees hfees'
      rcases hcond with hq | hlt
      · exact hq (hrefused.mp (hfee ▸ hle))
      -- the payment comes before the comparison
      · rw [huser] at hpay
        omega
    · obtain rfl := loadBackwardFee_unique hw hfees hfees'
      exact hfee ▸ hcovers

/-- **When a quoted fee is enough.** In every state of the proxy, a request that the user sends
with the native fee of a quote is not refused for its fee, whatever the accounts of the request
and the answers of the endpoint, exactly when the endpoint's price was not zero. The same holds
for a claim, except that a user who cannot pay the backward fee of an order fails at that payment
first. Taking the backward fee off a quoted fee never underflows. -/
theorem quoted_fee_suffices_iff (s : ProxyState P) :
    (∀ (env : Env) (quote : QuoteRequest) (params : RequestParams) (es : List ProxyEffect)
        (F : MessagingFee), quote.apply P env s.world params = .ok (es, F) →
      ∃ program quoted q, es = [.endpointQuote program quote.remainingAccounts quoted] ∧
        env.endpoint.quote program quote.remainingAccounts quoted = some q ∧
        ((∀ (send : SendRequest) (msgFee : MessagingFee), send.user.pubkey = quote.user.pubkey →
          msgFee.nativeFee = F.nativeFee → send.FeeSuffices P s.world params msgFee) ↔
          q.nativeFee ≠ 0#64)) ∧
    (∀ (env : Env) (quote : QuoteClaim) (es : List ProxyEffect) (F : MessagingFee),
      quote.apply P env s.world = .ok (es, F) →
      ∃ program quoted q fees, es = [.endpointQuote program quote.remainingAccounts quoted] ∧
        env.endpoint.quote program quote.remainingAccounts quoted = some q ∧
        loadBackwardFee P s.world quote.backwardFee = .ok fees ∧
        ((∀ (send : SendClaim) (msgFee : MessagingFee), send.user.pubkey = quote.user.pubkey →
          msgFee.nativeFee = F.nativeFee → send.FeeSuffices P s.world msgFee) ↔
          q.nativeFee ≠ 0#64 ∨
            s.world.lamports quote.user.pubkey < fees.orderBackwardFee.toNat)) := by
  constructor
  · intro env quote params es F h
    obtain ⟨config, fees, quoted, q, hquote, hq, hF, rfl⟩ := QuoteRequest.of_apply_eq_ok h
    exact ⟨config.endpointProgram, quoted, q, rfl, hq, request_suffices_iff env s.placed hquote hF⟩
  · intro env quote es F h
    obtain ⟨config, fees, quoted, q, hquote, hq, hF, rfl⟩ := QuoteClaim.of_apply_eq_ok h
    obtain ⟨-, -, hfees, -⟩ := QuoteClaim.of_prepare_eq_ok hquote
    exact ⟨config.endpointProgram, quoted, q, fees, rfl, hq, hfees,
      claim_suffices_iff env s.placed hquote hF⟩

end Quoted

/-- With a price of 1000 and a backward fee of 500, a request and the pending claim of the sample
user are quoted 1500, and that is enough for both. -/
theorem quoted_fee_suffices_iff_sample :
    (∃ es F, sampleQuoteRequest.apply samplePlatform sampleEnv sampleClaimed.world sampleRequest =
        .ok (es, F) ∧ F.nativeFee = 1500#64 ∧
      ∀ (send : SendRequest) (msgFee : MessagingFee), send.user.pubkey = sampleUser →
        msgFee.nativeFee = F.nativeFee →
          send.FeeSuffices samplePlatform sampleClaimed.world sampleRequest msgFee) ∧
    ∃ es F, sampleQuoteClaim.apply samplePlatform sampleEnv sampleClaimed.world = .ok (es, F) ∧
      F.nativeFee = 1500#64 ∧
      ∀ (send : SendClaim) (msgFee : MessagingFee), send.user.pubkey = sampleUser →
        msgFee.nativeFee = F.nativeFee →
          send.FeeSuffices samplePlatform sampleClaimed.world msgFee := by
  obtain ⟨hrequest, hclaim⟩ := quoted_fee_suffices_iff sampleClaimed
  -- the sample endpoint's price, whatever is asked
  have hprice : ∀ {program accounts quoted q},
      sampleEnv.endpoint.quote program accounts quoted = some q → q.nativeFee ≠ 0#64 := by
    intro program accounts quoted q hq
    obtain rfl := Option.some.inj hq
    decide
  constructor
  · have hfee : (sampleQuoteRequest.apply samplePlatform sampleEnv sampleClaimed.world
        sampleRequest).map (fun r => r.2.nativeFee) = .ok 1500#64 := by
      decide +kernel
    obtain ⟨⟨es, F⟩, hquote, hF⟩ := Except.map_eq_ok.mp hfee
    obtain ⟨_, _, q, -, hq, hiff⟩ := hrequest _ _ _ _ _ hquote
    exact ⟨es, F, hquote, hF, hiff.mpr (hprice hq)⟩
  · have hfee : (sampleQuoteClaim.apply samplePlatform sampleEnv sampleClaimed.world).map
        (fun r => r.2.nativeFee) = .ok 1500#64 := by
      decide +kernel
    obtain ⟨⟨es, F⟩, hquote, hF⟩ := Except.map_eq_ok.mp hfee
    obtain ⟨_, _, q, _, -, hq, -, hiff⟩ := hclaim _ _ _ _ hquote
    exact ⟨es, F, hquote, hF, hiff.mpr (Or.inl (hprice hq))⟩

/-- The outside of an instruction when the endpoint prices and sends every message for nothing. -/
def sampleFreeEnv : Env :=
  { sampleEnv with
    endpoint :=
      { sampleEndpoint with
        quote := fun _ _ _ => some ⟨0#64, 0#64⟩
        send := fun _ _ _ _ lamports => some (⟨zero32, 1#64, ⟨0#64, 0#64⟩⟩, lamports) } }

/-- When the endpoint asks for nothing, the sample user is quoted the backward fee of an order and
refused with it. -/
theorem quoted_fee_refused :
    (sampleQuoteRequest.apply samplePlatform sampleFreeEnv sampleDeployed.world
      sampleRequest).map Prod.snd = .ok ⟨500#64, 0#64⟩ ∧
    (sampleSendRequest.apply samplePlatform sampleFreeEnv sampleDeployed.world sampleRequest
      ⟨500#64, 0#64⟩).map (fun _ => ()) = .error (.program .insufficientMessagingFee) := by
  decide +kernel

end Proxy
