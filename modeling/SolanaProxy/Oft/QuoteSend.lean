import SolanaProxy.Oft.Amounts
import SolanaProxy.Solana.RateLimit

/-!
# Quoting a send

`quote_send` has the endpoint price a message, and `send` hands one over. Both start with the same
checks and the same amounts, and the messages have the same recipient, the same length and the
same payload to compose; the sender of what is composed, which a quote does not know, is zero. But
a quote encodes the amount received as it is, in local decimals, where `send` converts it to
shared decimals first. `quote_prices_send_iff` says when that makes no difference: for a store
whose decimals are the shared ones, and for amounts of which nothing is received.
-/

namespace Oft

open Solana

/-- The accounts of `quote_send`. -/
structure QuoteSend where
  oftStore : AccountInfo
  peer : AccountInfo
  tokenMint : AccountInfo
  remainingAccounts : List AccountInfo

/-- The parameters of `quote_send`. -/
structure QuoteSendParams where
  dstEid : U32
  toAddress : ByteArr 32
  amountLd : U64
  minAmountLd : U64
  options : Bytes
  composeMsg : Option Bytes
  payInLzToken : Bool
deriving DecidableEq

/-- The parameters of a send that pays these fees, and is quoted with the parameters given. -/
def QuoteSendParams.send (params : QuoteSendParams) (nativeFee lzTokenFee : U64) : SendParams where
  dstEid := params.dstEid
  toAddress := params.toAddress
  amountLd := params.amountLd
  minAmountLd := params.minAmountLd
  options := params.options
  composeMsg := params.composeMsg
  nativeFee := nativeFee
  lzTokenFee := lzTokenFee

namespace QuoteSend

/-- The account constraints: the store, the peer and the mint. -/
def tryAccounts (P : Platform) (w : OFTWorld) (ctx : QuoteSend) (params : QuoteSendParams) :
    Result OFTError (OFTStore × PeerConfig × Mint) := do
  let store ← loadStore P w ctx.oftStore
  let peer ← loadPda P peerKind PeerConfig.bump w (peerSeeds ctx.oftStore.pubkey params.dstEid)
    ctx.peer
  let mint ← Except.ofOption (.anchor .accountNotInitialized) (w.mints ctx.tokenMint.pubkey)
  Except.require (mint.program = P.tokenProgram ∨ mint.program = P.token2022Program)
    (.anchor .accountOwnedByWrongProgram)
  Except.require (ctx.tokenMint.pubkey = store.tokenMint) (.anchor .constraintAddress)
  return (store, peer, mint)

/-- The message to price. Its amount field is given the amount in local decimals. -/
def quoteParams (ctx : QuoteSend) (params : QuoteSendParams) (peer : PeerConfig)
    (amountReceivedLd : U64) (options : Bytes) : QuoteParams where
  sender := ctx.oftStore.pubkey
  dstEid := params.dstEid
  receiver := peer.peerAddress
  message := MsgCodec.encode params.toAddress amountReceivedLd zero32 params.composeMsg
  payInLzToken := params.payInLzToken
  options := options

/-- The instruction up to its call of the endpoint. -/
def prepare (P : Platform) (env : Env) (w : OFTWorld) (ctx : QuoteSend)
    (params : QuoteSendParams) : Result OFTError (OFTStore × QuoteParams) := do
  let (store, peer, mint) ← tryAccounts P w ctx params
  Except.require (store.paused = false) (.program .paused)
  let (_, amountReceivedLd, _) ←
    computeFeeAndAdjustAmount env params.amountLd store mint peer.feeBps
  Except.require (params.minAmountLd ≤ amountReceivedLd) (.program .slippageExceeded)
  let options ← peer.enforcedOptions.combineOptions P params.composeMsg params.options
  return (store, ctx.quoteParams params peer amountReceivedLd options)

/-- The instruction: the endpoint prices the message. -/
def apply (P : Platform) (env : Env) (w : OFTWorld) (ctx : QuoteSend)
    (params : QuoteSendParams) : Result OFTError (List OFTEffect × MessagingFee) := do
  let (store, quoted) ← prepare P env w ctx params
  let fee ← endpointQuote env store.endpointProgram ctx.remainingAccounts quoted
  return ([.endpointQuote store.endpointProgram ctx.remainingAccounts quoted], fee)

end QuoteSend

/-- The part of `send` before its call of the endpoint. -/
def Send.prepare (P : Platform) (env : Env) (w : OFTWorld) (ctx : Send) (params : SendParams) :
    Result OFTError
      (OFTWorld × List OFTEffect × OFTStore × PeerConfig × OFTReceipt × Solana.SendParams) := do
  let (store, peer, mint) ← tryAccounts P w ctx params
  Except.require (store.paused = false) (.program .paused)
  let (amountSentLd, amountReceivedLd, oftFeeLd) ←
    computeFeeAndAdjustAmount env params.amountLd store mint peer.feeBps
  Except.require (params.minAmountLd ≤ amountReceivedLd) (.program .slippageExceeded)
  let peer ← consumeOutbound env peer amountReceivedLd
  let (w, store, es) ←
    takeTokens env w ctx store mint amountSentLd amountReceivedLd oftFeeLd
  let sender ← Except.ofOption .panic ctx.remainingAccounts[1]?
  Except.require (ctx.oftStore.pubkey = sender.pubkey) (.program .invalidSender)
  let amountSd ← store.ld2sd amountReceivedLd
  let options ← peer.enforcedOptions.combineOptions P params.composeMsg params.options
  return (w, es, store, peer, ⟨amountSentLd, amountReceivedLd⟩,
    ctx.sendParams params peer amountSd options)

/-- What `send` does with what it has prepared. -/
theorem Send.apply_eq_bind (P : Platform) (env : Env) (w : OFTWorld) (ctx : Send)
    (params : SendParams) :
    ctx.apply P env w params = (do
      let (w, es, store, peer, amounts, sent) ← ctx.prepare P env w params
      let (w, receipt) ← endpointSend env w store.endpointProgram ctx.oftStore.pubkey
        ctx.remainingAccounts sent
      emitCpi P ctx.program
      let w := w.store peerKind ctx.peer.pubkey peer
      let w := w.store OFTStore.kind ctx.oftStore.pubkey store
      return (w,
        es ++ [.endpointSend store.endpointProgram ctx.oftStore.pubkey ctx.remainingAccounts sent,
          .event (.oftSent receipt.guid params.dstEid ctx.tokenSource.pubkey amounts.amountSentLd
            amounts.amountReceivedLd)],
        receipt, amounts)) := by
  simp only [apply, prepare, bind_assoc, pure_bind]

/-! ### Messages -/

/-- Equal byte for byte but for the 32 bytes that say who composed. -/
def SameButSender (m m' : Bytes) : Prop :=
  m.length = m'.length ∧ m.take MsgCodec.composeMsgOffset = m'.take MsgCodec.composeMsgOffset ∧
    m.drop (MsgCodec.composeMsgOffset + 32) = m'.drop (MsgCodec.composeMsgOffset + 32)

instance {m m' : Bytes} : Decidable (SameButSender m m') :=
  inferInstanceAs (Decidable (_ ∧ _ ∧ _))

section Messages

variable {to' : ByteArr 32} {a a' : U64} {sender sender' : Pubkey} {composed : Option Bytes}

theorem length_encode_eq :
    (MsgCodec.encode to' a sender composed).length =
      (MsgCodec.encode to' a' sender' composed).length := by
  cases composed <;> simp [MsgCodec.encode]

/-- Behind the sender comes what is composed. -/
theorem drop_encode_eq :
    (MsgCodec.encode to' a sender composed).drop (MsgCodec.composeMsgOffset + 32) =
      composed.getD [] := by
  cases composed with
  | none =>
    refine List.drop_eq_nil_of_le ?_
    simp [MsgCodec.encode, MsgCodec.composeMsgOffset]
  | some msg =>
    have hhead : (to'.toList ++ (MsgCodec.u64ToBytes32 a).toList ++ sender.toList).length =
        MsgCodec.composeMsgOffset + 32 := by
      simp [MsgCodec.composeMsgOffset]
    rw [MsgCodec.encode, ← hhead, List.drop_left, Option.getD_some]

/-- **One field.** Messages to one recipient with one payload are the same but for the sender
exactly when they have the same amount. -/
theorem sameButSender_encode_iff :
    SameButSender (MsgCodec.encode to' a sender composed)
      (MsgCodec.encode to' a' sender' composed) ↔ a = a' := by
  have hhead : ∀ (b : U64) (k : Pubkey), (MsgCodec.encode to' b k composed).take
      MsgCodec.composeMsgOffset = to'.toList ++ (MsgCodec.u64ToBytes32 b).toList := by
    intro b k
    rw [MsgCodec.encode_eq_append]
    exact List.take_left' (by simp [MsgCodec.composeMsgOffset])
  constructor
  · rintro ⟨-, htake, -⟩
    rw [hhead, hhead, List.append_cancel_left_eq] at htake
    -- the field holds a multiple of the amount
    have hvalue := congrArg BigEndian.decode htake
    rw [MsgCodec.decode_u64ToBytes32, MsgCodec.decode_u64ToBytes32] at hvalue
    exact BitVec.eq_of_toNat_eq (Nat.eq_of_mul_eq_mul_right (by decide) hvalue)
  · rintro rfl
    exact ⟨length_encode_eq, by rw [hhead, hhead], by rw [drop_encode_eq, drop_encode_eq]⟩

end Messages

/-! ### What is prepared -/

section Prepare

variable {P : Platform} {env : Env} {w : OFTWorld} {store : OFTStore} {peer peer' : PeerConfig}
  {mint : Mint} {sent received fee : U64}

/-- **A prepared quote** encodes the amount in local decimals. -/
theorem QuoteSend.of_prepare_eq_ok {ctx : QuoteSend} {params : QuoteSendParams}
    {store' : OFTStore} {quoted : QuoteParams}
    (haccounts : ctx.tryAccounts P w params = .ok (store, peer, mint))
    (hcompute : computeFeeAndAdjustAmount env params.amountLd store mint peer.feeBps =
      .ok (sent, received, fee))
    (h : ctx.prepare P env w params = .ok (store', quoted)) :
    ∃ options, peer.enforcedOptions.combineOptions (E := OFTError) P params.composeMsg
        params.options = .ok options ∧
      quoted = ctx.quoteParams params peer received options := by
  simp only [prepare, haccounts, hcompute, Except.ok_bind, Except.bind_eq_ok, Except.pure_eq_ok,
    Prod.mk.injEq] at h
  obtain ⟨-, -, -, -, options, hoptions, -, rfl⟩ := h
  exact ⟨options, hoptions, rfl⟩

/-- **A prepared send** encodes the amount in shared decimals. -/
theorem Send.of_prepare_eq_ok {ctx : Send} {params : SendParams} {w' : OFTWorld}
    {es : List OFTEffect} {store' : OFTStore} {amounts : OFTReceipt} {message : Solana.SendParams}
    (haccounts : ctx.tryAccounts P w params = .ok (store, peer, mint))
    (hcompute : computeFeeAndAdjustAmount env params.amountLd store mint peer.feeBps =
      .ok (sent, received, fee))
    (h : ctx.prepare P env w params = .ok (w', es, store', peer', amounts, message)) :
    ∃ amountSd options, amountSd.toNat = received.toNat / store.ld2sdRate.toNat ∧
      peer.enforcedOptions.combineOptions (E := OFTError) P params.composeMsg params.options =
        .ok options ∧
      message = ctx.sendParams params peer amountSd options := by
  simp only [prepare, haccounts, hcompute, Except.ok_bind, Except.bind_eq_ok, Except.pure_eq_ok,
    Prod.mk.injEq] at h
  obtain ⟨-, -, -, -, peer₁, hpeer, ⟨w₁, store₁, es₁⟩, htokens, -, -, -, -, amountSd, hsd, options,
    hoptions, -, -, -, -, -, rfl⟩ := h
  obtain ⟨-, -, haddress, henforced⟩ := frame_of_consumeOutbound hpeer
  obtain ⟨-, ⟨-, hrate, -⟩, -⟩ := frame_of_takeTokens htokens
  obtain ⟨-, hvalue⟩ := OFTStore.ld2sd_eq_ok.mp hsd
  rw [hrate] at hvalue
  rw [henforced] at hoptions
  refine ⟨amountSd, options, hvalue, hoptions, ?_⟩
  rw [sendParams, sendParams, haddress]

/-- **The slippage bound of a quote.** -/
theorem QuoteSend.apply_eq_slippageExceeded_iff {ctx : QuoteSend} {params : QuoteSendParams}
    (haccounts : ctx.tryAccounts P w params = .ok (store, peer, mint))
    (hpaused : store.paused = false)
    (hcompute : computeFeeAndAdjustAmount env params.amountLd store mint peer.feeBps =
      .ok (sent, received, fee)) :
    ctx.apply P env w params = .error (.program .slippageExceeded) ↔
      ¬params.minAmountLd ≤ received := by
  simp only [apply, prepare, haccounts, hcompute, Except.ok_bind, Except.require_of_true hpaused,
    Except.bind_eq_error, Except.require_eq_error, EnforcedOptions.combineOptions_ne_program,
    endpointQuote_ne_program, Except.pure_ne_error, and_true, and_false, exists_false, or_false]

/-- An operation on a limiter fails as it does, if there is one. -/
private theorem updateLimiter_ne_error {f : RateLimiter → Result OFTError RateLimiter}
    {e : Failure OFTError} (hf : ∀ l, f l ≠ .error e) (o : Option RateLimiter) :
    updateLimiter f o ≠ .error e := by
  cases o with
  | none => exact Except.pure_ne_error
  | some l =>
    simp only [updateLimiter, ne_eq, Except.bind_eq_error, hf, Except.pure_ne_error, and_false,
      exists_false, or_self, not_false_eq_true]

/-- The rate limits fail with an error of their own. -/
private theorem consumeOutbound_ne_slippageExceeded :
    consumeOutbound env peer received ≠ .error (.program .slippageExceeded) := by
  have hconsume : ∀ l : RateLimiter, l.tryConsume .rateLimitExceeded env received ≠
      .error (.program OFTError.slippageExceeded) := fun l =>
    RateLimiter.tryConsume_ne_program (by decide)
  simp only [consumeOutbound, ne_eq, Except.bind_eq_error, updateLimiter_ne_error hconsume,
    updateLimiter_ne_error fun _ => RateLimiter.refill_ne_program, Except.pure_ne_error, and_false,
    exists_false, or_self, not_false_eq_true]

/-- Taking tokens fails in the token program or by a panic. -/
private theorem takeTokens_ne_program {ctx : Send} {e : OFTError} :
    ctx.takeTokens env w store mint sent received fee ≠ .error (.program e) := by
  rw [Send.takeTokens]
  split
  · simp only [ne_eq, Except.bind_eq_error, Except.ofOption_eq_error, transferChecked_ne_program,
      Except.pure_ne_error, reduceCtorEq, and_false, exists_false, or_self, not_false_eq_true]
  · split <;>
      simp only [ne_eq, Except.bind_eq_error, Except.ofOption_eq_error, burn_ne_program,
        transferChecked_ne_program, Except.pure_ne_error, reduceCtorEq, and_false, exists_false,
        or_self, not_false_eq_true]

/-- **The slippage bound of a send.** -/
theorem Send.apply_eq_slippageExceeded_iff {ctx : Send} {params : SendParams}
    (haccounts : ctx.tryAccounts P w params = .ok (store, peer, mint))
    (hpaused : store.paused = false)
    (hcompute : computeFeeAndAdjustAmount env params.amountLd store mint peer.feeBps =
      .ok (sent, received, fee)) :
    ctx.apply P env w params = .error (.program .slippageExceeded) ↔
      ¬params.minAmountLd ≤ received := by
  simp only [apply, haccounts, hcompute, Except.ok_bind, Except.require_of_true hpaused,
    Except.bind_eq_error, Except.require_eq_error, Except.ofOption_eq_error,
    consumeOutbound_ne_slippageExceeded, takeTokens_ne_program, OFTStore.ld2sd,
    EnforcedOptions.combineOptions_ne_program, endpointSend_ne_program, emitCpi,
    Except.pure_ne_error, Failure.program.injEq, reduceCtorEq, and_true, and_false, exists_false,
    or_false]

end Prepare

/-! ### What is priced and what is sent -/

/-- What is priced and what is handed over agree in everything but the sender of what is
composed. -/
structure Prices (quoted : QuoteParams) (message : Solana.SendParams) : Prop where
  dstEid : quoted.dstEid = message.dstEid
  receiver : quoted.receiver = message.receiver
  options : quoted.options = message.options
  message : SameButSender quoted.message message.message

/-- The amount received is the same in shared decimals when there is nothing to scale. -/
private theorem received_eq_iff {env : Env} {m : Mint} {s : OFTStore} {feeBps : Option U16}
    {a sent received fee amountSd : U64} (hpos : 0 < s.ld2sdRate.toNat)
    (hbps : feeBps.getD s.defaultFeeBps < maxFeeBasisPoints)
    (hcompute : computeFeeAndAdjustAmount env a s m feeBps = .ok (sent, received, fee))
    (hsd : amountSd.toNat = received.toNat / s.ld2sdRate.toNat) :
    received = amountSd ↔ s.ld2sdRate.toNat = 1 ∨
      (s.cappedFee env m).post a.toNat < s.ld2sdRate.toNat := by
  obtain ⟨-, hreceived⟩ := toNat_of_computeFeeAndAdjustAmount hbps hcompute
  -- the fee leaves something of every whole unit
  have hkept : FlooredFee.kept (feeBps.getD s.defaultFeeBps).toNat oneInBasisPoints
      (s.sharedUnits env m a) = 0 ↔
      (s.cappedFee env m).post a.toNat < s.ld2sdRate.toNat := by
    rw [← Nat.div_eq_zero_iff_lt hpos]
    refine ⟨fun h => Nat.eq_zero_of_not_pos fun hunits => ?_, fun h => ?_⟩
    · have hlt : (feeBps.getD s.defaultFeeBps).toNat < oneInBasisPoints := hbps
      exact (FlooredFee.kept_pos hlt hunits).ne' h
    · rw [OFTStore.sharedUnits, h, FlooredFee.kept, Nat.zero_sub]
  rw [← BitVec.toNat_inj, hsd, hreceived, Nat.mul_div_cancel _ hpos, ← hkept,
    mul_right_eq_self₀]

/-- **What a quote prices.** Take a quote and a send in one state that find the same store, peer
and mint, the store not being paused, and that have the same parameters. The slippage bound stops
both or neither. What the quote has priced and what the send hands over have the same destination,
receiver and options, and messages of one length to one recipient with one payload. The messages
are the same but for the sender exactly when the store has nothing to scale, its rate being one,
or when less than one shared unit of the amount arrives. -/
theorem quote_prices_send_iff {P : Platform} {s : OFTState P} {env : Env} {quote : QuoteSend}
    {send : Send} {params : QuoteSendParams} {nativeFee lzTokenFee : U64} {store : OFTStore}
    {peer : PeerConfig} {mint : Mint}
    (hquote : quote.tryAccounts P s.world params = .ok (store, peer, mint))
    (hsend : send.tryAccounts P s.world (params.send nativeFee lzTokenFee) =
      .ok (store, peer, mint))
    (hpaused : store.paused = false) :
    (quote.apply P env s.world params = .error (.program .slippageExceeded) ↔
      send.apply P env s.world (params.send nativeFee lzTokenFee) =
        .error (.program .slippageExceeded)) ∧
    ∀ store₁ quoted w' es store₂ peer₂ amounts message,
      quote.prepare P env s.world params = .ok (store₁, quoted) →
      send.prepare P env s.world (params.send nativeFee lzTokenFee) =
        .ok (w', es, store₂, peer₂, amounts, message) →
      (quoted.dstEid = message.dstEid ∧ quoted.receiver = message.receiver ∧
        quoted.options = message.options ∧
        quoted.message.length = message.message.length ∧
        MsgCodec.sendTo quoted.message = MsgCodec.sendTo message.message ∧
        quoted.message.drop (MsgCodec.composeMsgOffset + 32) =
          message.message.drop (MsgCodec.composeMsgOffset + 32)) ∧
      (Prices quoted message ↔ store.ld2sdRate.toNat = 1 ∨
        (store.cappedFee env mint).post params.amountLd.toNat < store.ld2sdRate.toNat) := by
  have haccounts := Send.tryAccounts_eq_ok.mp hsend
  have horder : store.InOrder := s.wellFormed.storeInOrder haccounts.store_data
  have hfee : PeerInOrder peer := s.wellFormed.peerInOrder haccounts.peer_data
  obtain ⟨sent, received, fee, hcompute, -⟩ :=
    exists_adjusted horder hfee env mint params.amountLd
  refine ⟨?_, fun store₁ quoted w' es store₂ peer₂ amounts message hquoted hmessage => ?_⟩
  · rw [QuoteSend.apply_eq_slippageExceeded_iff hquote hpaused hcompute,
      Send.apply_eq_slippageExceeded_iff hsend hpaused hcompute]
    rfl
  · obtain ⟨options, hoptions, rfl⟩ := QuoteSend.of_prepare_eq_ok hquote hcompute hquoted
    obtain ⟨amountSd, options', hsd, hoptions', rfl⟩ :=
      Send.of_prepare_eq_ok hsend hcompute hmessage
    obtain rfl : options = options' := Except.ok.inj (hoptions.symm.trans hoptions')
    have hto : MsgCodec.sendTo (quote.quoteParams params peer received options).message =
        MsgCodec.sendTo (send.sendParams (params.send nativeFee lzTokenFee) peer amountSd
          options).message :=
      (MsgCodec.sendTo_encode ..).trans (MsgCodec.sendTo_encode ..).symm
    refine ⟨⟨rfl, rfl, rfl, length_encode_eq, hto, drop_encode_eq.trans drop_encode_eq.symm⟩, ?_⟩
    rw [← received_eq_iff horder.ld2sdRate_pos (horder.getD_lt hfee) hcompute hsd]
    constructor
    · rintro ⟨-, -, -, hsame⟩
      exact sameButSender_encode_iff.mp hsame
    · intro heq
      exact ⟨rfl, rfl, rfl, sameButSender_encode_iff.mpr heq⟩

/-! ### Quotes of the sample deployment -/

/-- The accounts of a quote. -/
def sampleQuoteSend : QuoteSend :=
  ⟨sampleWritable (sampleKey 1), sampleWritable (sampleKey 5), sampleWritable sampleMint, []⟩

/-- A quote for an amount to a remote account, with a byte to compose. -/
def sampleQuoteSendParams (amountLd : U64) : QuoteSendParams :=
  ⟨sampleEid, sampleKey 50, amountLd, 0#64, [0, 3], some [7], false⟩

/-- A send of one tenth of a token is priced with 990030000 in the amount field where 99003 is
sent, both times `10 ^ 8`. -/
theorem quoted_amount_unscaled :
    ∃ store₁ quoted w' es store₂ peer₂ amounts message,
      sampleQuoteSend.prepare samplePlatform sampleEnv sampleLocked.world
        (sampleQuoteSendParams 1000000000#64) = .ok (store₁, quoted) ∧
      sampleSend.prepare samplePlatform sampleEnv sampleLocked.world
        ((sampleQuoteSendParams 1000000000#64).send 1000#64 0#64) =
          .ok (w', es, store₂, peer₂, amounts, message) ∧
      MsgCodec.amountField quoted.message = some (990030000 * 10 ^ 8) ∧
      MsgCodec.amountField message.message = some (99003 * 10 ^ 8) ∧
      ¬Prices quoted message := by
  have hboth : (do
      let (_, quoted) ← sampleQuoteSend.prepare samplePlatform sampleEnv sampleLocked.world
        (sampleQuoteSendParams 1000000000#64)
      let (_, _, _, _, _, message) ← sampleSend.prepare samplePlatform sampleEnv
        sampleLocked.world ((sampleQuoteSendParams 1000000000#64).send 1000#64 0#64)
      return (MsgCodec.amountField quoted.message, MsgCodec.amountField message.message,
        decide (SameButSender quoted.message message.message)) : Result OFTError _) =
      .ok (some (990030000 * 10 ^ 8), some (99003 * 10 ^ 8), false) := by
    decide +kernel
  simp only [Except.bind_eq_ok, Except.pure_eq_ok, Prod.mk.injEq] at hboth
  obtain ⟨⟨store₁, quoted⟩, hquoted, ⟨w', es, store₂, peer₂, amounts, message⟩, hmessage, hfield,
    hfield', hdiffer⟩ := hboth
  exact ⟨store₁, quoted, w', es, store₂, peer₂, amounts, message, hquoted, hmessage, hfield,
    hfield', fun h => of_decide_eq_false hdiffer h.message⟩

/-- The deployment with as many shared decimals as the mint has, so that nothing is scaled. -/
def sampleUnscaled : OFTState samplePlatform :=
  Machine.run (step samplePlatform) sampleFresh
    (.call sampleEnv (.initOFT sampleInit { sampleInitParams with sharedDecimals := 10 }) ::
      sampleSetup.tail)

/-- With a rate of one, a send of one tenth of a token is priced as it is sent, with what arrives of
it in the amount field. -/
theorem quote_prices_send_iff_unscaled :
    ∃ store₁ quoted w' es store₂ peer₂ amounts message,
      sampleQuoteSend.prepare samplePlatform sampleEnv sampleUnscaled.world
        (sampleQuoteSendParams 1000000000#64) = .ok (store₁, quoted) ∧
      sampleSend.prepare samplePlatform sampleEnv sampleUnscaled.world
        ((sampleQuoteSendParams 1000000000#64).send 1000#64 0#64) =
          .ok (w', es, store₂, peer₂, amounts, message) ∧
      MsgCodec.amountField message.message = some (990025000 * 10 ^ 8) ∧
      Prices quoted message := by
  have haccounts : (do
      let quoted ← sampleQuoteSend.tryAccounts samplePlatform sampleUnscaled.world
        (sampleQuoteSendParams 1000000000#64)
      let sent ← sampleSend.tryAccounts samplePlatform sampleUnscaled.world
        ((sampleQuoteSendParams 1000000000#64).send 1000#64 0#64)
      return (decide (quoted = sent ∧ sent.1.paused = false ∧ sent.1.ld2sdRate.toNat = 1)) :
        Result OFTError _) = .ok true := by
    decide +kernel
  simp only [Except.bind_eq_ok, Except.pure_eq_ok] at haccounts
  obtain ⟨⟨store, peer, mint⟩, hquote, sent, hsend, hdecide⟩ := haccounts
  obtain ⟨rfl, hpaused, hrate⟩ := of_decide_eq_true hdecide
  have hboth : (do
      let (_, quoted) ← sampleQuoteSend.prepare samplePlatform sampleEnv sampleUnscaled.world
        (sampleQuoteSendParams 1000000000#64)
      let (_, _, _, _, _, message) ← sampleSend.prepare samplePlatform sampleEnv
        sampleUnscaled.world ((sampleQuoteSendParams 1000000000#64).send 1000#64 0#64)
      return MsgCodec.amountField message.message : Result OFTError _) =
      .ok (some (990025000 * 10 ^ 8)) := by
    decide +kernel
  simp only [Except.bind_eq_ok, Except.pure_eq_ok] at hboth
  obtain ⟨⟨store₁, quoted⟩, hquoted, ⟨w', es, store₂, peer₂, amounts, message⟩, hmessage, hfield⟩ :=
    hboth
  obtain ⟨-, hpresented⟩ := quote_prices_send_iff hquote hsend hpaused
  obtain ⟨-, hiff⟩ := hpresented _ _ _ _ _ _ _ _ hquoted hmessage
  exact ⟨_, _, _, _, _, _, _, _, hquoted, hmessage, hfield, hiff.mpr (Or.inl hrate)⟩

end Oft
