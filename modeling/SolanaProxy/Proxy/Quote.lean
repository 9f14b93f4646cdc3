import SolanaProxy.Proxy.Run

/-!
# What is quoted is what is sent

The quoting and the sending instructions build their message and their fee separately.
`quote_matches_send` says that they agree: when a user sends with the native fee of a quote
made in the same state, the endpoint is handed the destination, receiver, message and options
it priced and exactly its own price, and the rest of the fee goes from the user to the
configuration account. Which accounts the two calls name does not matter, since the addresses of a
`ProxyState` determine them (`WellPlaced`).
-/

namespace Proxy

open Solana

/-- What is sent is what was quoted, at the quoted price. -/
structure SendParams.Matches (sent : SendParams) (quoted : QuoteParams) (q : MessagingFee) :
    Prop where
  dstEid : sent.dstEid = quoted.dstEid
  receiver : sent.receiver = quoted.receiver
  message : sent.message = quoted.message
  options : sent.options = quoted.options
  nativeFee : sent.nativeFee = q.nativeFee

section Unique

variable {P : Platform} {w : ProxyWorld} {a a' : AccountInfo}

/-- Two loads of the configuration load one account. -/
theorem loadConfig_unique (hw : WellPlaced P w) {c c' : ProxyConfig}
    (h : loadConfig P w a = .ok c) (h' : loadConfig P w a' = .ok c') :
    a.pubkey = a'.pubkey ∧ c = c' :=
  hw.config_unique (loadConfig_eq_ok.mp h).1 (loadConfig_eq_ok.mp h').1

/-- Two loads of the backward fees load one account. -/
theorem loadBackwardFee_unique (hw : WellPlaced P w) {f f' : BackwardFee}
    (h : loadBackwardFee P w a = .ok f) (h' : loadBackwardFee P w a' = .ok f') : f = f' :=
  hw.backwardFee_unique (loadBackwardFee_eq_ok.mp h).1 (loadBackwardFee_eq_ok.mp h').1

/-- Two loads of the peer for one endpoint id load one account. -/
theorem loadPeer_unique (hP : P.DeriveInjective) (hw : WellPlaced P w) {config : Pubkey}
    (hconfig : configAddress? P = some config) {eid : U32} {p p' : PeerConfig}
    (h : loadPeer P w config eid a = .ok p) (h' : loadPeer P w config eid a' = .ok p') :
    p = p' := by
  obtain ⟨hdata, hseeds⟩ := loadPeer_eq_ok.mp h
  obtain ⟨hdata', hseeds'⟩ := loadPeer_eq_ok.mp h'
  have hfind := hw.peerConfig_eq hP hdata hconfig hseeds
  rw [hw.peerConfig_eq hP hdata' hconfig hseeds', Option.some.injEq, Prod.mk.injEq] at hfind
  rw [hfind.1, hdata, Option.some.injEq, ProxyAccount.peerConfig.injEq] at hdata'
  exact hdata'

/-- Two loads of the claim of one user load one account. -/
theorem loadClaimData_unique (hP : P.DeriveInjective) (hw : WellPlaced P w) {user : Pubkey}
    {d d' : ClaimData} (h : loadClaimData P w user a = .ok d)
    (h' : loadClaimData P w user a' = .ok d') : d = d' := by
  obtain ⟨hdata, hseeds⟩ := loadClaimData_eq_ok.mp h
  obtain ⟨hdata', hseeds'⟩ := loadClaimData_eq_ok.mp h'
  obtain ⟨-, hfind⟩ := hw.claimData_eq hP hdata hseeds
  obtain ⟨-, hfind'⟩ := hw.claimData_eq hP hdata' hseeds'
  rw [hfind', Option.some.injEq, Prod.mk.injEq] at hfind
  rw [hfind.1, hdata, Option.some.injEq, ProxyAccount.claimData.injEq] at hdata'
  exact hdata'

end Unique

section Quote

variable {P : Platform} {w : ProxyWorld}

/-- What remains of a quoted fee after the backward fee is the endpoint's price. -/
private theorem sub_backwardFee {nativeFee q fee : U64}
    (h : nativeFee.toNat = q.toNat + fee.toNat) :
    nativeFee - fee = q ∧ fee.toNat = nativeFee.toNat - q.toNat := by
  refine ⟨BitVec.eq_of_toNat_eq ?_, by omega⟩
  rw [BitVec.toNat_sub_of_le (by rw [BitVec.le_def]; omega)]
  omega

/-- A request prepared with a quoted fee matches the quote and goes to the same endpoint. -/
private theorem request_matches (hP : P.DeriveInjective) (hw : WellPlaced P w)
    {quote : QuoteRequest} {send : SendRequest} {params : RequestParams}
    {msgFee q : MessagingFee} {config config' : ProxyConfig} {fees : BackwardFee}
    {quoted : QuoteParams} {fee : U64} {sent : SendParams}
    (huser : send.user.pubkey = quote.user.pubkey)
    (hquote : quote.prepare P w params = .ok (config, fees, quoted))
    (hfee : msgFee.nativeFee.toNat =
      q.nativeFee.toNat + (QuoteRequest.requiredFee fees params.payloadType).toNat)
    (hsend : send.prepare P w params msgFee = .ok (config', fee, sent)) :
    SendParams.Matches sent quoted q ∧ config'.endpointProgram = config.endpointProgram ∧
      fee.toNat = msgFee.nativeFee.toNat - q.nativeFee.toNat := by
  obtain ⟨-, hconfig, -, -, hfees, peer, hpeer, rfl⟩ := QuoteRequest.prepare_eq_ok.mp hquote
  obtain ⟨peer', fees', hprepared⟩ := SendRequest.prepare_eq_ok.mp hsend
  -- the accounts named may differ, what is stored in them does not
  obtain ⟨hkey, rfl⟩ := loadConfig_unique hw hconfig hprepared.config_loaded
  obtain rfl := loadBackwardFee_unique hw hfees hprepared.fees_loaded
  have haddr : configAddress? P = some send.proxyConfig.pubkey :=
    hw.configAddress_eq (loadConfig_eq_ok.mp hprepared.config_loaded).1
  rw [hkey] at hpeer
  obtain rfl := loadPeer_unique hP hw haddr hpeer hprepared.peer_loaded
  rw [← requiredFee_eq, ← hprepared.fee_eq] at hfee
  obtain ⟨hsub, hpaid⟩ := sub_backwardFee hfee
  refine ⟨?_, rfl, hpaid⟩
  rw [hprepared.sent_eq]
  exact ⟨rfl, rfl, by rw [huser], rfl, hsub⟩

/-- A claim prepared with a quoted fee matches the quote and goes to the same endpoint. -/
private theorem claim_matches (hP : P.DeriveInjective) (hw : WellPlaced P w) {w₁ : ProxyWorld}
    {quote : QuoteClaim} {send : SendClaim} {msgFee q : MessagingFee}
    {config config' : ProxyConfig} {fees : BackwardFee} {quoted : QuoteParams}
    {claim : ClaimData} {charged : List ProxyEffect} {fee : U64} {sent : SendParams}
    (huser : send.user.pubkey = quote.user.pubkey)
    (hquote : quote.prepare P w = .ok (config, fees, quoted))
    (hfee : msgFee.nativeFee.toNat = q.nativeFee.toNat + fees.orderBackwardFee.toNat)
    (hsend : send.prepare P w msgFee = .ok (w₁, charged, config', claim, fee, sent)) :
    SendParams.Matches sent quoted q ∧ config'.endpointProgram = config.endpointProgram ∧
      fee.toNat = msgFee.nativeFee.toNat - q.nativeFee.toNat := by
  obtain ⟨hconfig, -, hfees, claim', peer, hclaim, hpeer, rfl⟩ :=
    QuoteClaim.of_prepare_eq_ok hquote
  obtain ⟨peer', fees', hprepared⟩ := SendClaim.of_prepare_eq_ok hsend
  obtain ⟨hkey, rfl⟩ := loadConfig_unique hw hconfig hprepared.config_loaded
  obtain rfl := loadBackwardFee_unique hw hfees hprepared.fees_loaded
  have haddr : configAddress? P = some send.proxyConfig.pubkey :=
    hw.configAddress_eq (loadConfig_eq_ok.mp hprepared.config_loaded).1
  rw [hkey] at hpeer
  obtain rfl := loadPeer_unique hP hw haddr hpeer hprepared.peer_loaded
  have hclaim' := hprepared.claim_loaded
  rw [huser] at hclaim'
  obtain rfl := loadClaimData_unique hP hw hclaim hclaim'
  rw [← hprepared.fee_eq] at hfee
  obtain ⟨hsub, hpaid⟩ := sub_backwardFee hfee
  refine ⟨?_, rfl, hpaid⟩
  rw [hprepared.sent_eq]
  exact ⟨rfl, rfl, by rw [huser], rfl, hsub⟩

/-- With the fee check passed, a request can be prepared exactly when it can be quoted. -/
private theorem prepare_iff {user proxyConfig peerConfig backwardFee : AccountInfo}
    {rest rest' : List AccountInfo} {params : RequestParams} {msgFee : MessagingFee}
    (huser : user.isWritable = true) (hconfig : proxyConfig.isWritable = true)
    (hfee : ∀ fees, loadBackwardFee P w backwardFee = .ok fees →
      SendRequest.requiredFee fees (PayloadType.fromU8 params.payloadType) < msgFee.nativeFee) :
    (∃ r, SendRequest.prepare P w ⟨user, proxyConfig, peerConfig, backwardFee, rest⟩ params
        msgFee = .ok r) ↔
      ∃ r, QuoteRequest.prepare P w ⟨user, proxyConfig, peerConfig, backwardFee, rest'⟩ params =
        .ok r := by
  constructor
  · rintro ⟨⟨config, fee, sent⟩, h⟩
    obtain ⟨peer, fees, hprepared⟩ := SendRequest.prepare_eq_ok.mp h
    exact ⟨_, QuoteRequest.prepare_eq_ok.mpr ⟨hprepared.user_signed, hprepared.config_loaded,
      hprepared.unpaused, hprepared.payload_type, hprepared.fees_loaded, peer,
      hprepared.peer_loaded, rfl⟩⟩
  · rintro ⟨⟨config, fees, quoted⟩, h⟩
    obtain ⟨hsigner, hload, hpaused, htype, hfees, peer, hpeer, -⟩ :=
      QuoteRequest.prepare_eq_ok.mp h
    exact ⟨_, SendRequest.prepare_eq_ok.mpr ⟨peer, fees, hsigner, huser, hconfig, hload, hpaused,
      htype, hfee fees hfees, hpeer, hfees, rfl, rfl⟩⟩

/-- **What is quoted is what is sent.** In every state of the proxy:

* a request of a user that passes its checks with the native fee `F` of a quote hands the
  endpoint what the quote had it price, at the price `q` it named; once it succeeds, the lamports
  are those that the endpoint answered with, of which exactly `F - q` went from the user to the
  configuration account;
* the pending claim of a user goes the same way, except that the user pays before the endpoint is
  called, and that the lamports of the closed claim account go to the user in the end;
* a payload type passes the check of `send_request` exactly when it passes the check of
  `quote_request`. -/
theorem quote_matches_send (hP : P.DeriveInjective) (s : ProxyState P) :
    (∀ (env : Env) (quote : QuoteRequest) (params : RequestParams) (es : List ProxyEffect)
        (F : MessagingFee), quote.apply P env s.world params = .ok (es, F) →
      ∃ program quoted q, es = [.endpointQuote program quote.remainingAccounts quoted] ∧
        env.endpoint.quote program quote.remainingAccounts quoted = some q ∧
        q.nativeFee ≤ F.nativeFee ∧ ∀ (send : SendRequest) (msgFee : MessagingFee),
          send.user.pubkey = quote.user.pubkey → msgFee.nativeFee = F.nativeFee →
          (∀ config fee sent, send.prepare P s.world params msgFee = .ok (config, fee, sent) →
            SendParams.Matches sent quoted q) ∧
          ∀ env' w' es' receipt,
            send.apply P env' s.world params msgFee = .ok (w', es', receipt) →
            ∃ (sent : SendParams) (answered : Pubkey → ℕ),
              es'.filterMap Effect.sent? = [sent] ∧
              SendParams.Matches sent quoted q ∧
              env'.endpoint.send program send.proxyConfig.pubkey send.remainingAccounts sent
                s.world.lamports = some (receipt, answered) ∧
              World.LamportsMoved send.user.pubkey send.proxyConfig.pubkey
                (F.nativeFee.toNat - q.nativeFee.toNat) answered w'.lamports ∧
              (es'.map (Effect.lamportsPaid send.user.pubkey send.proxyConfig.pubkey)).sum =
                F.nativeFee.toNat - q.nativeFee.toNat) ∧
    (∀ (env : Env) (quote : QuoteClaim) (es : List ProxyEffect) (F : MessagingFee),
      quote.apply P env s.world = .ok (es, F) →
      ∃ program quoted q, es = [.endpointQuote program quote.remainingAccounts quoted] ∧
        env.endpoint.quote program quote.remainingAccounts quoted = some q ∧
        q.nativeFee ≤ F.nativeFee ∧ ∀ (send : SendClaim) (msgFee : MessagingFee),
          send.user.pubkey = quote.user.pubkey → msgFee.nativeFee = F.nativeFee →
          (∀ w₁ charged config claim fee sent,
            send.prepare P s.world msgFee = .ok (w₁, charged, config, claim, fee, sent) →
            SendParams.Matches sent quoted q) ∧
          ∀ env' w' es' receipt, send.apply P env' s.world msgFee = .ok (w', es', receipt) →
            ∃ (sent : SendParams) (charged answered : Pubkey → ℕ),
              es'.filterMap Effect.sent? = [sent] ∧
              SendParams.Matches sent quoted q ∧
              World.LamportsMoved send.user.pubkey send.proxyConfig.pubkey
                (F.nativeFee.toNat - q.nativeFee.toNat) s.world.lamports charged ∧
              env'.endpoint.send program send.proxyConfig.pubkey send.remainingAccounts sent
                charged = some (receipt, answered) ∧
              World.LamportsMoved send.claimData.pubkey send.user.pubkey
                (answered send.claimData.pubkey) answered w'.lamports ∧
              (es'.map (Effect.lamportsPaid send.user.pubkey send.proxyConfig.pubkey)).sum =
                F.nativeFee.toNat - q.nativeFee.toNat) ∧
    (∀ (user proxyConfig peerConfig backwardFee : AccountInfo) (rest rest' : List AccountInfo)
        (params : RequestParams) (msgFee : MessagingFee),
      user.isWritable = true → proxyConfig.isWritable = true →
      (∀ fees, loadBackwardFee P s.world backwardFee = .ok fees →
        SendRequest.requiredFee fees (PayloadType.fromU8 params.payloadType) <
          msgFee.nativeFee) →
      ((∃ r, SendRequest.prepare P s.world ⟨user, proxyConfig, peerConfig, backwardFee, rest⟩
          params msgFee = .ok r) ↔
        ∃ r, QuoteRequest.prepare P s.world
          ⟨user, proxyConfig, peerConfig, backwardFee, rest'⟩ params = .ok r)) := by
  refine ⟨?_, ?_, fun _ _ _ _ _ _ _ _ huser hconfig hfee => prepare_iff huser hconfig hfee⟩
  · intro env quote params es F h
    obtain ⟨config, fees, quoted, q, hquote, hq, hF, rfl⟩ := QuoteRequest.of_apply_eq_ok h
    have hle : q.nativeFee ≤ F.nativeFee := BitVec.le_def.mpr (hF ▸ Nat.le_add_right _ _)
    refine ⟨config.endpointProgram, quoted, q, rfl, hq, hle, fun send msgFee huser hmsg => ?_⟩
    rw [← hmsg] at hF ⊢
    constructor
    · intro config' fee sent hsend
      exact (request_matches hP s.placed huser hquote hF hsend).1
    · intro env' w' es' receipt hsend
      obtain ⟨config', fee, sent, hprep, -, hsent, hpaid, answered, hanswer, hmoved⟩ :=
        SendRequest.of_apply_eq_ok hsend
      obtain ⟨hmatch, hprogram, hfee⟩ := request_matches hP s.placed huser hquote hF hprep
      rw [hprogram] at hanswer
      rw [hfee] at hpaid hmoved
      exact ⟨sent, answered, hsent, hmatch, hanswer, hmoved, hpaid⟩
  · intro env quote es F h
    obtain ⟨config, fees, quoted, q, hquote, hq, hF, rfl⟩ := QuoteClaim.of_apply_eq_ok h
    have hle : q.nativeFee ≤ F.nativeFee := BitVec.le_def.mpr (hF ▸ Nat.le_add_right _ _)
    refine ⟨config.endpointProgram, quoted, q, rfl, hq, hle, fun send msgFee huser hmsg => ?_⟩
    rw [← hmsg] at hF ⊢
    constructor
    · intro w₁ charged config' claim fee sent hsend
      exact (claim_matches hP s.placed huser hquote hF hsend).1
    · intro env' w' es' receipt hsend
      obtain ⟨w₁, charged, config', claim, fee, sent, hprep, -, hsent, hpaid, hcharged, answered,
        hanswer, hclosed⟩ := SendClaim.of_apply_eq_ok hsend
      obtain ⟨hmatch, hprogram, hfee⟩ := claim_matches hP s.placed huser hquote hF hprep
      rw [hprogram] at hanswer
      rw [hfee] at hpaid hcharged
      exact ⟨sent, w₁.lamports, answered, hsent, hmatch, hcharged, hanswer, hclosed, hpaid⟩

end Quote

/-! ### A quote and its request -/

/-- The accounts of a quoted request. -/
def sampleQuoteRequest : QuoteRequest :=
  ⟨sampleSigner sampleUser, ⟨sampleKey 1, false, false⟩, ⟨sampleKey 5, false, false⟩,
    ⟨sampleKey 4, false, false⟩, []⟩

/-- The accounts of a quoted claim. -/
def sampleQuoteClaim : QuoteClaim :=
  ⟨sampleSigner sampleUser, ⟨sampleKey 6, false, false⟩, ⟨sampleKey 1, false, false⟩,
    ⟨sampleKey 5, false, false⟩, ⟨sampleKey 4, false, false⟩, []⟩

/-- The sample user is quoted 1000 lamports for the endpoint and 500 for the way back, sends with
the sum, and pays the 500 to the configuration account. With a claim it is the same, and the
lamports of the claim account come back. -/
theorem quote_matches_send_sample :
    (∃ es w' es' receipt sent quoted,
      sampleQuoteRequest.apply samplePlatform sampleEnv sampleDeployed.world sampleRequest =
        .ok (es, ⟨1500#64, 0#64⟩) ∧
      sampleSendRequest.apply samplePlatform sampleEnv sampleDeployed.world sampleRequest
        ⟨1500#64, 0#64⟩ = .ok (w', es', receipt) ∧
      es'.filterMap Effect.sent? = [sent] ∧ SendParams.Matches sent quoted ⟨1000#64, 0#64⟩ ∧
      World.LamportsMoved sampleUser (sampleKey 1) 500 sampleDeployed.world.lamports
        w'.lamports) ∧
    ∃ es w' es' receipt sent quoted charged,
      sampleQuoteClaim.apply samplePlatform sampleEnv sampleClaimed.world =
        .ok (es, ⟨1500#64, 0#64⟩) ∧
      sampleSendClaim.apply samplePlatform sampleEnv sampleClaimed.world ⟨1500#64, 0#64⟩ =
        .ok (w', es', receipt) ∧
      es'.filterMap Effect.sent? = [sent] ∧ SendParams.Matches sent quoted ⟨1000#64, 0#64⟩ ∧
      World.LamportsMoved sampleUser (sampleKey 1) 500 sampleClaimed.world.lamports charged ∧
      World.LamportsMoved (sampleKey 6) sampleUser (charged (sampleKey 6)) charged
        w'.lamports := by
  constructor
  · have hprice : (sampleQuoteRequest.apply samplePlatform sampleEnv sampleDeployed.world
        sampleRequest).map Prod.snd = .ok ⟨1500#64, 0#64⟩ := by
      decide +kernel
    obtain ⟨⟨es, F⟩, hquote, hF⟩ := Except.map_eq_ok.mp hprice
    obtain rfl : F = ⟨1500#64, 0#64⟩ := hF
    obtain ⟨⟨w', es', receipt⟩, hsend⟩ := Except.exists_of_isOk (x := sampleSendRequest.apply
      samplePlatform sampleEnv sampleDeployed.world sampleRequest ⟨1500#64, 0#64⟩)
      (by decide +kernel)
    obtain ⟨hrequest, -, -⟩ := quote_matches_send samplePlatform_injective sampleDeployed
    obtain ⟨program, quoted, q, -, hq, -, hmatch⟩ := hrequest sampleEnv sampleQuoteRequest
      sampleRequest es _ hquote
    obtain rfl := Option.some.inj hq
    obtain ⟨-, hall⟩ := hmatch sampleSendRequest ⟨1500#64, 0#64⟩ rfl rfl
    obtain ⟨sent, answered, hsent, hmatches, hanswer, hmoved, -⟩ :=
      hall sampleEnv w' es' receipt hsend
    -- the sample endpoint answers with the lamports it was handed
    obtain ⟨-, hanswer⟩ := Option.ite_none_right_eq_some.mp hanswer
    obtain ⟨-, rfl⟩ := Prod.mk.inj (Option.some.inj hanswer)
    exact ⟨es, w', es', receipt, sent, quoted, hquote, hsend, hsent, hmatches, hmoved⟩
  · have hprice : (sampleQuoteClaim.apply samplePlatform sampleEnv
        sampleClaimed.world).map Prod.snd = .ok ⟨1500#64, 0#64⟩ := by
      decide +kernel
    obtain ⟨⟨es, F⟩, hquote, hF⟩ := Except.map_eq_ok.mp hprice
    obtain rfl : F = ⟨1500#64, 0#64⟩ := hF
    obtain ⟨⟨w', es', receipt⟩, hsend⟩ := Except.exists_of_isOk (x := sampleSendClaim.apply
      samplePlatform sampleEnv sampleClaimed.world ⟨1500#64, 0#64⟩) (by decide +kernel)
    obtain ⟨-, hclaim, -⟩ := quote_matches_send samplePlatform_injective sampleClaimed
    obtain ⟨program, quoted, q, -, hq, -, hmatch⟩ := hclaim sampleEnv sampleQuoteClaim es _ hquote
    obtain rfl := Option.some.inj hq
    obtain ⟨-, hall⟩ := hmatch sampleSendClaim ⟨1500#64, 0#64⟩ rfl rfl
    obtain ⟨sent, charged, answered, hsent, hmatches, hcharged, hanswer, hclosed, -⟩ :=
      hall sampleEnv w' es' receipt hsend
    obtain ⟨-, hanswer⟩ := Option.ite_none_right_eq_some.mp hanswer
    obtain ⟨-, rfl⟩ := Prod.mk.inj (Option.some.inj hanswer)
    exact ⟨es, w', es', receipt, sent, quoted, charged, hquote, hsend, hsent, hmatches, hcharged,
      hclosed⟩

end Proxy
