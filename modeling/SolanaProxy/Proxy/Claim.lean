import SolanaProxy.Proxy.MerkleProof
import SolanaProxy.Proxy.Request

/-!
# Claims

`submit_proof`, `send_claim` and `quote_claim`. A submitted claim is kept in the user's
claim account until it is sent; sending it closes the account.
-/

namespace Proxy

open Solana

/-! ### Submitting a proof -/

/-- The accounts of `submit_proof`. -/
structure SubmitProof where
  user : AccountInfo
  proxyConfig : AccountInfo
  claimData : AccountInfo
  systemProgram : AccountInfo

/-- The parameters of `submit_proof`. -/
structure SubmitProofParams where
  distributionId : U32
  cumulativeAmount : ByteArr 32
  merkleProof : List (ByteArr 32)
deriving DecidableEq

/-- The root a user's parameters lead to. -/
def SubmitProofParams.root (P : Platform) (params : SubmitProofParams) (user : Pubkey) :
    ByteArr 32 :=
  processProof P.keccak params.merkleProof
    (calculateLeaf P.keccak (solanaToEvmAddress P.keccak user) params.cumulativeAmount)

/-- The claim data written for a user's parameters. -/
def SubmitProofParams.claimData (P : Platform) (params : SubmitProofParams) (user : Pubkey)
    (bump : U8) : ClaimData where
  bump := bump
  distributionId := toBytes32 (n := 4) params.distributionId.toBeArr
  amount := params.cumulativeAmount
  root := params.root P user
  user := user

namespace SubmitProof

/-- The claim data is written over whatever claim was pending. -/
def apply (P : Platform) (w : ProxyWorld) (ctx : SubmitProof) (params : SubmitProofParams) :
    Result ProxyError (ProxyWorld × List ProxyEffect) := do
  signer ctx.user
  writable ctx.user
  let config ← loadConfig P w ctx.proxyConfig
  let (w, _, bump) ← initIfNeeded P ClaimData.kind ClaimData.zero w
    (claimDataSeeds ctx.user.pubkey) ctx.user ctx.claimData (8 + ClaimData.initSpace)
  program ctx.systemProgram P.systemProgram
  Except.require (config.paused = false) (.program .proxyPaused)
  let claimData := params.claimData P ctx.user.pubkey bump
  return (w.store ClaimData.kind ctx.claimData.pubkey claimData,
    [.event (.claimProofSubmitted ctx.user.pubkey params.distributionId claimData.amount
      claimData.root)])

/-- **A submitted proof** overwrites the claim of the user who signed, and no other account. -/
theorem of_apply_eq_ok {P : Platform} {w w' : ProxyWorld} {ctx : SubmitProof}
    {params : SubmitProofParams} {es : List ProxyEffect}
    (h : apply P w ctx params = .ok (w', es)) :
    ctx.user.isSigner = true ∧ ∃ config bump, loadConfig P w ctx.proxyConfig = .ok config ∧
      config.paused = false ∧
      P.findProgramAddress (claimDataSeeds ctx.user.pubkey) =
        some (ctx.claimData.pubkey, bump) ∧
      (w.data ctx.claimData.pubkey = none ∨
        ∃ d, w.data ctx.claimData.pubkey = some (.claimData d)) ∧
      w'.data = Function.update w.data ctx.claimData.pubkey
        (some (.claimData (params.claimData P ctx.user.pubkey bump))) ∧
      es = [.event (.claimProofSubmitted ctx.user.pubkey params.distributionId
        params.cumulativeAmount (params.root P ctx.user.pubkey))] := by
  simp only [apply, signer, writable, program, Except.bind_eq_ok, Except.require_eq_ok,
    Except.pure_eq_ok, Prod.mk.injEq] at h
  obtain ⟨-, hsigner, -, -, config, hconfig, ⟨w₁, d, bump⟩, hinit, -, -, -, hpaused, rfl, rfl⟩ := h
  obtain ⟨hfind, hold, hdata⟩ := data_of_initIfNeeded hinit
  refine ⟨hsigner, config, bump, hconfig, hpaused, hfind, ?_, ?_, rfl⟩
  · exact hold.imp And.left fun hload => ⟨d, hload⟩
  · rw [World.data_store, hdata]
    rfl

/-- Whether a proof can be submitted does not depend on the parameters. -/
theorem exists_apply_of_apply {P : Platform} {w w' : ProxyWorld} {ctx : SubmitProof}
    {params params' : SubmitProofParams} {es : List ProxyEffect}
    (h : apply P w ctx params = .ok (w', es)) :
    ∃ w'' es', apply P w ctx params' = .ok (w'', es') := by
  simp only [apply, Except.bind_eq_ok, Except.pure_eq_ok] at h ⊢
  obtain ⟨_, hsigner, _, hwritable, config, hconfig, r, hinit, _, hprogram, _, hpaused, -⟩ := h
  exact ⟨_, _, _, hsigner, _, hwritable, config, hconfig, r, hinit, _, hprogram, _, hpaused, rfl⟩

/-- The user pays for a submitted proof. -/
theorem paidBy_of_apply {P : Platform} {w w' : ProxyWorld} {ctx : SubmitProof}
    {params : SubmitProofParams} {es : List ProxyEffect}
    (h : apply P w ctx params = .ok (w', es)) : w.PaidBy ctx.user.pubkey w' := by
  simp only [apply, Except.bind_eq_ok, Except.pure_eq_ok, Prod.mk.injEq] at h
  obtain ⟨-, -, -, -, config, -, ⟨w₁, d, bump⟩, hinit, -, -, -, -, rfl, -⟩ := h
  exact (World.PaidBy.of_initIfNeeded hinit).store _ _ _

end SubmitProof

/-! ### Sending a claim -/

/-- The accounts of `send_claim`. -/
structure SendClaim where
  user : AccountInfo
  claimData : AccountInfo
  proxyConfig : AccountInfo
  peerConfig : AccountInfo
  backwardFee : AccountInfo
  systemProgram : AccountInfo
  remainingAccounts : List AccountInfo

namespace SendClaim

/-- The instruction up to its call of the endpoint: the world after the backward fee was
charged with what was charged, the configuration, the claim and the parameters of the call. -/
def prepare (P : Platform) (w : ProxyWorld) (ctx : SendClaim) (msgFee : MessagingFee) :
    Result ProxyError
      (ProxyWorld × List ProxyEffect × ProxyConfig × ClaimData × U64 × SendParams) := do
  signer ctx.user
  writable ctx.user
  let claimData ← loadClaimData P w ctx.user.pubkey ctx.claimData
  writable ctx.claimData
  let config ← loadConfig P w ctx.proxyConfig
  writable ctx.proxyConfig
  let peer ← loadPeer P w ctx.proxyConfig.pubkey config.orderlyEid ctx.peerConfig
  let fees ← loadBackwardFee P w ctx.backwardFee
  program ctx.systemProgram P.systemProgram
  Except.require (config.paused = false) (.program .proxyPaused)
  let payloadType := PayloadType.claimRewardSolana
  Except.require (payloadType.checkClaimPayloadType = true) (.program .invalidPayloadType)
  let options := peer.enforcedOptions.getEnforcedOptions none
  let message : SolanaVaultOCCMessage :=
    { token := payloadType.getTokenType.toU8
      sender := ctx.user.pubkey
      payloadType := payloadType.toU8
      payload := claimData.encodeClaimPayload }
  let backwardFee := fees.orderBackwardFee
  let (w, charged) ← chargeBackwardFee w ctx.user.pubkey ctx.proxyConfig.pubkey backwardFee
  Except.require (backwardFee < msgFee.nativeFee) (.program .insufficientMessagingFee)
  return (w, charged, config, claimData, backwardFee,
    { dstEid := config.orderlyEid
      receiver := peer.peerAddress
      message := message.encode
      options := options
      nativeFee := msgFee.nativeFee - backwardFee
      lzTokenFee := 0#64 })

/-- The instruction: the backward fee is charged, the message goes to the endpoint, and the
claim account is closed to the user. -/
def apply (P : Platform) (env : Env) (w : ProxyWorld) (ctx : SendClaim)
    (msgFee : MessagingFee) :
    Result ProxyError (ProxyWorld × List ProxyEffect × MessagingReceipt) := do
  let (w, charged, config, claimData, _, sendParams) ← prepare P w ctx msgFee
  let (w, receipt) ← endpointSend env w config.endpointProgram ctx.proxyConfig.pubkey
    ctx.remainingAccounts sendParams
  return (w.close ctx.claimData.pubkey ctx.user.pubkey,
    charged ++ [.endpointSend config.endpointProgram ctx.proxyConfig.pubkey
      ctx.remainingAccounts sendParams,
      .event (.claimRequestSent receipt.guid ctx.user.pubkey claimData.distributionId
        claimData.amount claimData.root)], receipt)

end SendClaim

/-! ### Quoting a claim -/

/-- The accounts of `quote_claim`. -/
structure QuoteClaim where
  user : AccountInfo
  claimData : AccountInfo
  proxyConfig : AccountInfo
  peerConfig : AccountInfo
  backwardFee : AccountInfo
  remainingAccounts : List AccountInfo

namespace QuoteClaim

/-- The instruction up to its call of the endpoint. -/
def prepare (P : Platform) (w : ProxyWorld) (ctx : QuoteClaim) :
    Result ProxyError (ProxyConfig × BackwardFee × QuoteParams) := do
  signer ctx.user
  let claimData ← loadClaimData P w ctx.user.pubkey ctx.claimData
  let config ← loadConfig P w ctx.proxyConfig
  let peer ← loadPeer P w ctx.proxyConfig.pubkey config.orderlyEid ctx.peerConfig
  let fees ← loadBackwardFee P w ctx.backwardFee
  Except.require (config.paused = false) (.program .proxyPaused)
  let payloadType := PayloadType.claimRewardSolana
  Except.require (payloadType.checkClaimPayloadType = true) (.program .invalidPayloadType)
  let options := peer.enforcedOptions.getEnforcedOptions none
  let message : SolanaVaultOCCMessage :=
    { token := payloadType.getTokenType.toU8
      sender := ctx.user.pubkey
      payloadType := payloadType.toU8
      payload := claimData.encodeClaimPayload }
  return (config, fees,
    { sender := ctx.proxyConfig.pubkey
      dstEid := config.orderlyEid
      receiver := peer.peerAddress
      message := message.encode
      payInLzToken := false
      options := options })

/-- The instruction: the endpoint's quote with the order fee on top, a panic when the sum
overflows. -/
def apply (P : Platform) (env : Env) (w : ProxyWorld) (ctx : QuoteClaim) :
    Result ProxyError (List ProxyEffect × MessagingFee) := do
  let (config, fees, quoteParams) ← prepare P w ctx
  let messagingFee ← endpointQuote env config.endpointProgram ctx.remainingAccounts quoteParams
  let nativeFee ← Except.ofOption .panic
    (Word.checkedAdd messagingFee.nativeFee fees.orderBackwardFee)
  return ([.endpointQuote config.endpointProgram ctx.remainingAccounts quoteParams],
    { nativeFee := nativeFee, lzTokenFee := messagingFee.lzTokenFee })

end QuoteClaim

/-! ### What success means -/

section Success

variable {P : Platform} {env : Env} {w w' : ProxyWorld} {msgFee : MessagingFee}
  {es : List ProxyEffect}

/-- The message that carries a claim. -/
def ClaimData.message (d : ClaimData) (user : Pubkey) : SolanaVaultOCCMessage :=
  ⟨TokenType.placeholder.toU8, user, PayloadType.claimRewardSolana.toU8, d.encodeClaimPayload⟩

/-- What a claim that reaches the endpoint has passed, and what it hands over. -/
structure SendClaim.Prepared (P : Platform) (w : ProxyWorld) (ctx : SendClaim)
    (msgFee : MessagingFee) (w' : ProxyWorld) (es : List ProxyEffect) (config : ProxyConfig)
    (claim : ClaimData) (fee : U64) (sent : SendParams) (peer : PeerConfig) (fees : BackwardFee) :
    Prop where
  user_signed : ctx.user.isSigner = true
  claim_loaded : loadClaimData P w ctx.user.pubkey ctx.claimData = .ok claim
  config_loaded : loadConfig P w ctx.proxyConfig = .ok config
  unpaused : config.paused = false
  charged : chargeBackwardFee w ctx.user.pubkey ctx.proxyConfig.pubkey fee = .ok (w', es)
  fee_lt : fee < msgFee.nativeFee
  peer_loaded : loadPeer P w ctx.proxyConfig.pubkey config.orderlyEid ctx.peerConfig = .ok peer
  fees_loaded : loadBackwardFee P w ctx.backwardFee = .ok fees
  fee_eq : fee = fees.orderBackwardFee
  sent_eq : sent =
    { dstEid := config.orderlyEid
      receiver := peer.peerAddress
      message := (claim.message ctx.user.pubkey).encode
      options := peer.enforcedOptions.getEnforcedOptions none
      nativeFee := msgFee.nativeFee - fee
      lzTokenFee := 0#64 }

/-- **Prepared claims.** -/
theorem SendClaim.of_prepare_eq_ok {ctx : SendClaim} {config : ProxyConfig} {claim : ClaimData}
    {fee : U64} {sent : SendParams}
    (h : prepare P w ctx msgFee = .ok (w', es, config, claim, fee, sent)) :
    ∃ peer fees, Prepared P w ctx msgFee w' es config claim fee sent peer fees := by
  simp only [prepare, signer, writable, program, Except.bind_eq_ok, Except.require_eq_ok,
    Except.pure_eq_ok, Prod.mk.injEq] at h
  obtain ⟨-, hsigner, -, -, d, hclaim, -, -, c, hconfig, -, -, peer, hpeer, fees, hfees, -, -, -,
    hpaused, -, -, ⟨w₁, charged⟩, hcharge, -, hfee, rfl, rfl, rfl, rfl, rfl, rfl⟩ := h
  exact ⟨peer, fees, hsigner, hclaim, hconfig, hpaused, hcharge, hfee, hpeer, hfees, rfl, rfl⟩

/-- **A sent claim** charges the backward fee, hands one message to the endpoint and closes
the user's claim account. -/
theorem SendClaim.of_apply_eq_ok {ctx : SendClaim} {receipt : MessagingReceipt}
    (h : apply P env w ctx msgFee = .ok (w', es, receipt)) :
    ∃ w₁ charged config claim fee sent,
      prepare P w ctx msgFee = .ok (w₁, charged, config, claim, fee, sent) ∧
      w'.data = Function.update w.data ctx.claimData.pubkey none ∧
      es.filterMap Effect.sent? = [sent] ∧
      (es.map (Effect.lamportsPaid ctx.user.pubkey ctx.proxyConfig.pubkey)).sum = fee.toNat ∧
      World.LamportsMoved ctx.user.pubkey ctx.proxyConfig.pubkey fee.toNat w.lamports
        w₁.lamports ∧
      ∃ answered, env.endpoint.send config.endpointProgram ctx.proxyConfig.pubkey
          ctx.remainingAccounts sent w₁.lamports = some (receipt, answered) ∧
        World.LamportsMoved ctx.claimData.pubkey ctx.user.pubkey (answered ctx.claimData.pubkey)
          answered w'.lamports := by
  simp only [apply, Except.bind_eq_ok, Except.pure_eq_ok, Prod.mk.injEq] at h
  obtain ⟨⟨w₁, charged, config, claim, fee, sent⟩, hprep, ⟨w₂, receipt'⟩, hsend, rfl, rfl,
    rfl⟩ := h
  obtain ⟨peer, fees, hprepared⟩ := of_prepare_eq_ok hprep
  obtain ⟨hdata, hpaid, hnone⟩ := of_chargeBackwardFee hprepared.charged
  obtain ⟨answered, hanswer, rfl⟩ := endpointSend_eq_ok.mp hsend
  have hclosed :=
    World.moved_close { w₁ with lamports := answered } ctx.claimData.pubkey ctx.user.pubkey
  refine ⟨w₁, charged, config, claim, fee, sent, hprep, ?_, ?_, ?_,
    moved_of_chargeBackwardFee hprepared.charged, answered, hanswer, hclosed⟩
  · rw [World.close, hdata]
  · simp [Effect.sent?, hnone]
  · simp [Effect.lamportsPaid, hpaid]

/-- **Prepared quotes.** What a quote of a claim that reaches the endpoint has passed, and
what it asks the endpoint to price. -/
theorem QuoteClaim.of_prepare_eq_ok {ctx : QuoteClaim} {config : ProxyConfig}
    {fees : BackwardFee} {quoted : QuoteParams}
    (h : prepare P w ctx = .ok (config, fees, quoted)) :
    loadConfig P w ctx.proxyConfig = .ok config ∧ config.paused = false ∧
    loadBackwardFee P w ctx.backwardFee = .ok fees ∧ ∃ claim peer,
      loadClaimData P w ctx.user.pubkey ctx.claimData = .ok claim ∧
      loadPeer P w ctx.proxyConfig.pubkey config.orderlyEid ctx.peerConfig = .ok peer ∧
      quoted =
        { sender := ctx.proxyConfig.pubkey
          dstEid := config.orderlyEid
          receiver := peer.peerAddress
          message := (claim.message ctx.user.pubkey).encode
          payInLzToken := false
          options := peer.enforcedOptions.getEnforcedOptions none } := by
  simp only [prepare, signer, Except.bind_eq_ok, Except.require_eq_ok, Except.pure_eq_ok,
    Prod.mk.injEq] at h
  obtain ⟨-, -, claim, hclaim, c, hconfig, peer, hpeer, f, hfees, -, hpaused, -, -, rfl, rfl,
    rfl⟩ := h
  exact ⟨hconfig, hpaused, hfees, claim, peer, hclaim, hpeer, rfl⟩

theorem QuoteClaim.of_apply_eq_ok {ctx : QuoteClaim} {fee : MessagingFee}
    (h : apply P env w ctx = .ok (es, fee)) :
    ∃ config fees quoted q, prepare P w ctx = .ok (config, fees, quoted) ∧
      env.endpoint.quote config.endpointProgram ctx.remainingAccounts quoted = some q ∧
      fee.nativeFee.toNat = q.nativeFee.toNat + fees.orderBackwardFee.toNat ∧
      es = [.endpointQuote config.endpointProgram ctx.remainingAccounts quoted] := by
  simp only [apply, Except.bind_eq_ok, endpointQuote_eq_ok, Except.ofOption_eq_ok,
    Word.checkedAdd_eq_some, Except.pure_eq_ok, Prod.mk.injEq] at h
  obtain ⟨⟨config, fees, quoted⟩, hprep, q, hquote, n, hn, rfl, rfl⟩ := h
  exact ⟨config, fees, quoted, q, hprep, hquote, hn, rfl⟩

end Success

end Proxy
