import SolanaProxy.Proxy.State

/-!
# Requests

`send_request` and `quote_request`. Each is split where the source calls the endpoint:
`prepare` is the account constraints and the checks, up to the parameters of that call, and
`apply` is the whole instruction. `SendRequest.prepare_eq_ok` and its siblings say what
success means.
-/

namespace Proxy

open Solana

/-! ### Accounts shared by the user's instructions -/

section Load

variable (P : Platform) (w : ProxyWorld)

/-- `seeds = [PROXY_CONFIG_SEED], bump = proxy_config.bump`. -/
def loadConfig (proxyConfig : AccountInfo) : Result ProxyError ProxyConfig :=
  loadPda P ProxyConfig.kind ProxyConfig.bump w proxyConfigSeeds proxyConfig

/-- `seeds = [PEER_SEED, proxy_config.key(), eid], bump = peer_config.bump`. -/
def loadPeer (proxyConfig : Pubkey) (eid : U32) (peerConfig : AccountInfo) :
    Result ProxyError PeerConfig :=
  loadPda P peerKind PeerConfig.bump w (peerSeeds proxyConfig eid) peerConfig

/-- `seeds = [BACKWARD_FEE_SEED], bump = backward_fee.bump`. -/
def loadBackwardFee (backwardFee : AccountInfo) : Result ProxyError BackwardFee :=
  loadPda P BackwardFee.kind BackwardFee.bump w backwardFeeSeeds backwardFee

/-- `seeds = [CLAIM_DATA_SEED, user.key()], bump = claim_data.bump`. -/
def loadClaimData (user : Pubkey) (claimData : AccountInfo) : Result ProxyError ClaimData :=
  loadPda P ClaimData.kind ClaimData.bump w (claimDataSeeds user) claimData

variable {P w} {a : AccountInfo} {config user : Pubkey} {eid : U32}

theorem loadConfig_eq_ok {c : ProxyConfig} :
    loadConfig P w a = .ok c ↔ w.data a.pubkey = some (.proxyConfig c) ∧
      P.createProgramAddress (proxyConfigSeeds ++ [c.bump]) = some a.pubkey :=
  loadPda_eq_ok

theorem loadPeer_eq_ok {p : PeerConfig} :
    loadPeer P w config eid a = .ok p ↔ w.data a.pubkey = some (.peerConfig p) ∧
      P.createProgramAddress (peerSeeds config eid ++ [p.bump]) = some a.pubkey :=
  loadPda_eq_ok

theorem loadBackwardFee_eq_ok {f : BackwardFee} :
    loadBackwardFee P w a = .ok f ↔ w.data a.pubkey = some (.backwardFee f) ∧
      P.createProgramAddress (backwardFeeSeeds ++ [f.bump]) = some a.pubkey :=
  loadPda_eq_ok

theorem loadClaimData_eq_ok {d : ClaimData} :
    loadClaimData P w user a = .ok d ↔ w.data a.pubkey = some (.claimData d) ∧
      P.createProgramAddress (claimDataSeeds user ++ [d.bump]) = some a.pubkey :=
  loadPda_eq_ok

end Load

/-- The user pays the backward fee to the configuration account, unless it is zero. -/
def chargeBackwardFee (w : ProxyWorld) (user proxyConfig : Pubkey) (backwardFee : U64) :
    Result ProxyError (ProxyWorld × List ProxyEffect) :=
  if 0#64 < backwardFee then do
    let w ← systemTransfer w user proxyConfig backwardFee
    return (w, [.transferLamports user proxyConfig backwardFee])
  else return (w, [])

theorem chargeBackwardFee_eq_ok {w w' : ProxyWorld} {user proxyConfig : Pubkey} {fee : U64}
    {es : List ProxyEffect} :
    chargeBackwardFee w user proxyConfig fee = .ok (w', es) ↔
      (0#64 < fee ∧ w.transferLamports user proxyConfig fee.toNat = some w' ∧
        es = [.transferLamports user proxyConfig fee]) ∨
      (¬0#64 < fee ∧ w' = w ∧ es = []) := by
  rw [chargeBackwardFee]
  by_cases hfee : 0#64 < fee
  · simp only [hfee, if_true, Except.bind_eq_ok, systemTransfer_eq_ok, Except.pure_eq_ok,
      Prod.mk.injEq, true_and, not_true, false_and, or_false]
    constructor
    · rintro ⟨w₁, hpay, rfl, rfl⟩
      exact ⟨hpay, rfl⟩
    · rintro ⟨hpay, rfl⟩
      exact ⟨w', hpay, rfl, rfl⟩
  · simp only [hfee, if_false, Except.pure_eq_ok, Prod.mk.injEq, false_and, false_or,
      not_false_eq_true, true_and]
    exact and_congr eq_comm eq_comm

/-- The fee is all that is charged, and nothing but lamports moves. -/
theorem of_chargeBackwardFee {w w' : ProxyWorld} {user proxyConfig : Pubkey} {fee : U64}
    {es : List ProxyEffect} (h : chargeBackwardFee w user proxyConfig fee = .ok (w', es)) :
    w'.data = w.data ∧ (es.map (Effect.lamportsPaid user proxyConfig)).sum = fee.toNat ∧
      es.filterMap Effect.sent? = [] := by
  rcases chargeBackwardFee_eq_ok.mp h with ⟨-, hpay, rfl⟩ | ⟨hzero, rfl, rfl⟩
  · refine ⟨(World.data_of_transferLamports hpay).1, ?_, rfl⟩
    simp [Effect.lamportsPaid]
  · refine ⟨rfl, ?_, rfl⟩
    have hfee : fee.toNat = 0 := by
      rw [BitVec.lt_def] at hzero
      simpa using hzero
    rw [hfee]
    rfl

/-- The user pays the fee to the configuration account, and no other lamports move. -/
theorem moved_of_chargeBackwardFee {w w' : ProxyWorld} {user proxyConfig : Pubkey} {fee : U64}
    {es : List ProxyEffect} (h : chargeBackwardFee w user proxyConfig fee = .ok (w', es)) :
    World.LamportsMoved user proxyConfig fee.toNat w.lamports w'.lamports := by
  rcases chargeBackwardFee_eq_ok.mp h with ⟨-, hpay, -⟩ | ⟨hzero, rfl, -⟩
  · exact World.moved_of_transferLamports hpay
  · have hfee : fee.toNat = 0 := Nat.eq_zero_of_not_pos hzero
    rw [hfee]
    exact .zero _ _ _

theorem tokens_of_chargeBackwardFee {w w' : ProxyWorld} {user proxyConfig : Pubkey} {fee : U64}
    {es : List ProxyEffect} (h : chargeBackwardFee w user proxyConfig fee = .ok (w', es)) :
    w'.tokens = w.tokens := by
  rcases chargeBackwardFee_eq_ok.mp h with ⟨-, hpay, -⟩ | ⟨-, rfl, -⟩
  · exact (World.data_of_transferLamports hpay).2.1
  · rfl

/-! ### Sending a request -/

/-- The accounts of `send_request`. -/
structure SendRequest where
  user : AccountInfo
  proxyConfig : AccountInfo
  peerConfig : AccountInfo
  backwardFee : AccountInfo
  remainingAccounts : List AccountInfo

namespace SendRequest

/-- The backward fee of a payload type, compared as an enumeration. -/
def requiredFee (f : BackwardFee) (payloadType : PayloadType) : U64 :=
  if payloadType = .withdrawOrder ∨ payloadType = .claimVestingRequest ∨
      payloadType = .unstakeOrderNow then
    f.orderBackwardFee
  else if payloadType = .claimUsdcRevenue then f.usdcBackwardFee
  else 0#64

/-- The instruction up to its call of the endpoint: the configuration, the backward fee and
the parameters of the call. -/
def prepare (P : Platform) (w : ProxyWorld) (ctx : SendRequest) (params : RequestParams)
    (msgFee : MessagingFee) : Result ProxyError (ProxyConfig × U64 × SendParams) := do
  signer ctx.user
  writable ctx.user
  let config ← loadConfig P w ctx.proxyConfig
  writable ctx.proxyConfig
  let peer ← loadPeer P w ctx.proxyConfig.pubkey config.orderlyEid ctx.peerConfig
  let fees ← loadBackwardFee P w ctx.backwardFee
  Except.require (config.paused = false) (.program .proxyPaused)
  let payloadType := PayloadType.fromU8 params.payloadType
  let backwardFee := requiredFee fees payloadType
  Except.require (backwardFee < msgFee.nativeFee) (.program .insufficientMessagingFee)
  Except.require (payloadType.checkRequestPayloadType = true) (.program .invalidPayloadType)
  let options := peer.enforcedOptions.getEnforcedOptions none
  let message : SolanaVaultOCCMessage :=
    { token := payloadType.getTokenType.toU8
      sender := ctx.user.pubkey
      payloadType := payloadType.toU8
      payload := params.payload }
  return (config, backwardFee,
    { dstEid := config.orderlyEid
      receiver := peer.peerAddress
      message := message.encode
      options := options
      nativeFee := msgFee.nativeFee - backwardFee
      lzTokenFee := 0#64 })

/-- The instruction: the message goes to the endpoint, then the backward fee is charged. -/
def apply (P : Platform) (env : Env) (w : ProxyWorld) (ctx : SendRequest)
    (params : RequestParams) (msgFee : MessagingFee) :
    Result ProxyError (ProxyWorld × List ProxyEffect × MessagingReceipt) := do
  let (config, backwardFee, sendParams) ← prepare P w ctx params msgFee
  let (w, receipt) ← endpointSend env w config.endpointProgram ctx.proxyConfig.pubkey
    ctx.remainingAccounts sendParams
  let (w, charged) ← chargeBackwardFee w ctx.user.pubkey ctx.proxyConfig.pubkey backwardFee
  return (w, .endpointSend config.endpointProgram ctx.proxyConfig.pubkey ctx.remainingAccounts
    sendParams :: charged ++ [.event (.requestSent receipt.guid params)], receipt)

end SendRequest

/-! ### Quoting a request -/

/-- The accounts of `quote_request`. -/
structure QuoteRequest where
  user : AccountInfo
  proxyConfig : AccountInfo
  peerConfig : AccountInfo
  backwardFee : AccountInfo
  remainingAccounts : List AccountInfo

namespace QuoteRequest

/-- The backward fee of a payload type, compared as a byte. -/
def requiredFee (f : BackwardFee) (payloadType : U8) : U64 :=
  if payloadType = PayloadType.withdrawOrder.toU8 ∨
      payloadType = PayloadType.claimVestingRequest.toU8 ∨
      payloadType = PayloadType.unstakeOrderNow.toU8 then
    f.orderBackwardFee
  else if payloadType = PayloadType.claimUsdcRevenue.toU8 then f.usdcBackwardFee
  else 0#64

/-- The instruction up to its call of the endpoint. -/
def prepare (P : Platform) (w : ProxyWorld) (ctx : QuoteRequest) (params : RequestParams) :
    Result ProxyError (ProxyConfig × BackwardFee × QuoteParams) := do
  signer ctx.user
  let config ← loadConfig P w ctx.proxyConfig
  let peer ← loadPeer P w ctx.proxyConfig.pubkey config.orderlyEid ctx.peerConfig
  let fees ← loadBackwardFee P w ctx.backwardFee
  Except.require (config.paused = false) (.program .proxyPaused)
  let payloadType := PayloadType.fromU8 params.payloadType
  Except.require (payloadType.checkRequestPayloadType = true) (.program .invalidPayloadType)
  let options := peer.enforcedOptions.getEnforcedOptions none
  let message : SolanaVaultOCCMessage :=
    { token := TokenType.placeholder.toU8
      sender := ctx.user.pubkey
      payloadType := params.payloadType
      payload := params.payload }
  return (config, fees,
    { sender := ctx.proxyConfig.pubkey
      dstEid := config.orderlyEid
      receiver := peer.peerAddress
      message := message.encode
      payInLzToken := false
      options := options })

/-- The instruction: the endpoint's quote with the backward fee on top, a panic when the sum
overflows. -/
def apply (P : Platform) (env : Env) (w : ProxyWorld) (ctx : QuoteRequest)
    (params : RequestParams) : Result ProxyError (List ProxyEffect × MessagingFee) := do
  let (config, fees, quoteParams) ← prepare P w ctx params
  let messagingFee ← endpointQuote env config.endpointProgram ctx.remainingAccounts quoteParams
  let backwardFee := requiredFee fees params.payloadType
  let nativeFee ← Except.ofOption .panic (Word.checkedAdd messagingFee.nativeFee backwardFee)
  return ([.endpointQuote config.endpointProgram ctx.remainingAccounts quoteParams],
    { nativeFee := nativeFee, lzTokenFee := messagingFee.lzTokenFee })

end QuoteRequest

/-! ### What success means -/

section Success

variable {P : Platform} {env : Env} {w w' : ProxyWorld} {params : RequestParams}
  {msgFee : MessagingFee} {es : List ProxyEffect}

/-- What a request that reaches the endpoint has passed, and what it hands over. -/
structure SendRequest.Prepared (P : Platform) (w : ProxyWorld) (ctx : SendRequest)
    (params : RequestParams) (msgFee : MessagingFee) (config : ProxyConfig) (fee : U64)
    (sent : SendParams) (peer : PeerConfig) (fees : BackwardFee) : Prop where
  user_signed : ctx.user.isSigner = true
  user_writable : ctx.user.isWritable = true
  config_writable : ctx.proxyConfig.isWritable = true
  config_loaded : loadConfig P w ctx.proxyConfig = .ok config
  unpaused : config.paused = false
  payload_type : (PayloadType.fromU8 params.payloadType).checkRequestPayloadType = true
  fee_lt : fee < msgFee.nativeFee
  peer_loaded : loadPeer P w ctx.proxyConfig.pubkey config.orderlyEid ctx.peerConfig = .ok peer
  fees_loaded : loadBackwardFee P w ctx.backwardFee = .ok fees
  fee_eq : fee = requiredFee fees (PayloadType.fromU8 params.payloadType)
  sent_eq : sent =
    { dstEid := config.orderlyEid
      receiver := peer.peerAddress
      message := SolanaVaultOCCMessage.encode
        ⟨TokenType.placeholder.toU8, ctx.user.pubkey, params.payloadType, params.payload⟩
      options := peer.enforcedOptions.getEnforcedOptions none
      nativeFee := msgFee.nativeFee - fee
      lzTokenFee := 0#64 }

/-- **Prepared requests.** -/
theorem SendRequest.prepare_eq_ok {ctx : SendRequest} {config : ProxyConfig} {fee : U64}
    {sent : SendParams} :
    prepare P w ctx params msgFee = .ok (config, fee, sent) ↔
      ∃ peer fees, Prepared P w ctx params msgFee config fee sent peer fees := by
  simp only [prepare, signer, writable, Except.bind_eq_ok, Except.require_eq_ok,
    Except.pure_eq_ok, Prod.mk.injEq]
  constructor
  · rintro ⟨-, hsigner, -, hmut, c, hconfig, -, hcmut, peer, hpeer, fees, hfees, -, hpaused, -,
      hfee, -, htype, rfl, rfl, rfl⟩
    refine ⟨peer, fees, hsigner, hmut, hcmut, hconfig, hpaused, htype, hfee, hpeer, hfees, rfl, ?_⟩
    rw [PayloadType.toU8_fromU8_of_request htype]
    rfl
  · rintro ⟨peer, fees, hsigner, hmut, hcmut, hconfig, hpaused, htype, hfee, hpeer, hfees, rfl,
      rfl⟩
    refine ⟨(), hsigner, (), hmut, config, hconfig, (), hcmut, peer, hpeer, fees, hfees, (),
      hpaused, (), hfee, (), htype, rfl, rfl, ?_⟩
    rw [PayloadType.toU8_fromU8_of_request htype]
    rfl

/-- **A sent request** hands one message to the endpoint, and then the user pays the backward
fee. -/
theorem SendRequest.of_apply_eq_ok {ctx : SendRequest} {receipt : MessagingReceipt}
    (h : apply P env w ctx params msgFee = .ok (w', es, receipt)) :
    ∃ config fee sent, prepare P w ctx params msgFee = .ok (config, fee, sent) ∧
      w'.data = w.data ∧ es.filterMap Effect.sent? = [sent] ∧
      (es.map (Effect.lamportsPaid ctx.user.pubkey ctx.proxyConfig.pubkey)).sum = fee.toNat ∧
      ∃ answered, env.endpoint.send config.endpointProgram ctx.proxyConfig.pubkey
          ctx.remainingAccounts sent w.lamports = some (receipt, answered) ∧
        World.LamportsMoved ctx.user.pubkey ctx.proxyConfig.pubkey fee.toNat answered
          w'.lamports := by
  simp only [apply, Except.bind_eq_ok, Except.pure_eq_ok, Prod.mk.injEq] at h
  obtain ⟨⟨config, fee, sent⟩, hprep, ⟨w₁, receipt'⟩, hsend, ⟨w₂, charged⟩, hcharge, rfl, rfl,
    rfl⟩ := h
  obtain ⟨answered, hanswer, rfl⟩ := endpointSend_eq_ok.mp hsend
  obtain ⟨hdata, hpaid, hnone⟩ := of_chargeBackwardFee hcharge
  refine ⟨config, fee, sent, hprep, hdata, ?_, ?_, answered, hanswer,
    moved_of_chargeBackwardFee hcharge⟩
  · simp [Effect.sent?, hnone]
  · simp [Effect.lamportsPaid, hpaid]

/-- **Prepared quotes.** What a quote that reaches the endpoint has passed, and what it asks
the endpoint to price. -/
theorem QuoteRequest.prepare_eq_ok {ctx : QuoteRequest} {config : ProxyConfig}
    {fees : BackwardFee} {quoted : QuoteParams} :
    prepare P w ctx params = .ok (config, fees, quoted) ↔
    ctx.user.isSigner = true ∧ loadConfig P w ctx.proxyConfig = .ok config ∧
    config.paused = false ∧
    (PayloadType.fromU8 params.payloadType).checkRequestPayloadType = true ∧
    loadBackwardFee P w ctx.backwardFee = .ok fees ∧ ∃ peer,
      loadPeer P w ctx.proxyConfig.pubkey config.orderlyEid ctx.peerConfig = .ok peer ∧
      quoted =
        { sender := ctx.proxyConfig.pubkey
          dstEid := config.orderlyEid
          receiver := peer.peerAddress
          message := SolanaVaultOCCMessage.encode
            ⟨TokenType.placeholder.toU8, ctx.user.pubkey, params.payloadType, params.payload⟩
          payInLzToken := false
          options := peer.enforcedOptions.getEnforcedOptions none } := by
  simp only [prepare, signer, Except.bind_eq_ok, Except.require_eq_ok, Except.pure_eq_ok,
    Prod.mk.injEq]
  constructor
  · rintro ⟨-, hsigner, c, hconfig, peer, hpeer, f, hfees, -, hpaused, -, htype, rfl, rfl, rfl⟩
    exact ⟨hsigner, hconfig, hpaused, htype, hfees, peer, hpeer, rfl⟩
  · rintro ⟨hsigner, hconfig, hpaused, htype, hfees, peer, hpeer, rfl⟩
    exact ⟨(), hsigner, config, hconfig, peer, hpeer, fees, hfees, (), hpaused, (), htype, rfl,
      rfl, rfl⟩

theorem QuoteRequest.of_apply_eq_ok {ctx : QuoteRequest} {fee : MessagingFee}
    (h : apply P env w ctx params = .ok (es, fee)) :
    ∃ config fees quoted q, prepare P w ctx params = .ok (config, fees, quoted) ∧
      env.endpoint.quote config.endpointProgram ctx.remainingAccounts quoted = some q ∧
      fee.nativeFee.toNat =
        q.nativeFee.toNat + (requiredFee fees params.payloadType).toNat ∧
      es = [.endpointQuote config.endpointProgram ctx.remainingAccounts quoted] := by
  simp only [apply, Except.bind_eq_ok, endpointQuote_eq_ok, Except.ofOption_eq_ok,
    Word.checkedAdd_eq_some, Except.pure_eq_ok, Prod.mk.injEq] at h
  obtain ⟨⟨config, fees, quoted⟩, hprep, q, hquote, n, hn, rfl, rfl⟩ := h
  exact ⟨config, fees, quoted, q, hprep, hquote, hn, rfl⟩

end Success

/-- The two ways of choosing the backward fee agree on every byte. -/
theorem requiredFee_eq (f : BackwardFee) (payloadType : U8) :
    SendRequest.requiredFee f (PayloadType.fromU8 payloadType) =
      QuoteRequest.requiredFee f payloadType := by
  have hiff : ∀ t : PayloadType, t ≠ .placeholder →
      (PayloadType.fromU8 payloadType = t ↔ payloadType = t.toU8) :=
    fun t ht => PayloadType.fromU8_eq_iff ht
  simp only [SendRequest.requiredFee, QuoteRequest.requiredFee, hiff .withdrawOrder (by decide),
    hiff .claimVestingRequest (by decide), hiff .unstakeOrderNow (by decide),
    hiff .claimUsdcRevenue (by decide)]

end Proxy
