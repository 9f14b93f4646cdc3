import SolanaProxy.Ledger.Quote
import SolanaProxy.Proxy.Run

/-!
# USDC from the ledger to Solana

The ledger contract writes the amount of a message as a 256-bit word; the proxy reads the
last eight bytes of it. The other fields arrive as they were sent, and the amount does exactly
when it fits in 64 bits: `usdc_paid_exactly_iff`. A larger amount is not rejected but paid
modulo `2 ^ 64`.
-/

namespace Crossing

open Solana Proxy Ledger Machine PayloadTypeChecker SolanaProxyMsgCodec

/-- A delivery pays the given amount, over the natural numbers: it is the amount of the one
token transfer and, between different accounts, of the change of both balances. -/
structure Pays (w w' : ProxyWorld) (es : List ProxyEffect) (src dst : Pubkey) (amount : ℕ) :
    Prop where
  transferred : es.filterMap Effect.transferred? = [(src, dst, amount)]
  balances : src ≠ dst →
    w'.balance src + amount = w.balance src ∧ w'.balance dst = w.balance dst + amount

/-- The proxy reads an encoded word as its value modulo `2 ^ 64`. -/
theorem toNat_getUsdcAmount_abiEncode {x : U256} {amountBytes : ByteArr 32}
    (h : Bytes.array? 32 (abiEncodeUint256 x) 0 = some amountBytes) :
    (SolanaLedgerOCCMessage.getUsdcAmount amountBytes).toNat = x.toNat % 2 ^ 64 := by
  obtain ⟨p, rest, hsplit, hp⟩ := Bytes.array?_eq_some.mp h
  have hword : abiEncodeUint256 x = amountBytes.toList := by
    have hnil : p = [] := List.length_eq_zero_iff.mp hp
    have hlen := congrArg List.length hsplit
    rw [hnil, List.nil_append, List.length_append, List.Vector.toList_length, abiEncodeUint256,
      BitVec.length_toBeBytes] at hlen
    have hrest : rest = [] := List.length_eq_zero_iff.mp (by omega)
    rw [hsplit, hnil, hrest, List.nil_append, List.append_nil]
  rw [SolanaLedgerOCCMessage.toNat_getUsdcAmount, ← hword, abiEncodeUint256,
    BitVec.decode_toBeBytes (by decide)]

section Delivery

variable {X : ExecutorOptions} {e : Ledger.Env} {s : LedgerOApp} {message : OCCLedgerMessage}
  {solanaEid : U32} {bytes options : Bytes}

/-- What the ledger sends is read with the receiver, the token, the type and the word of the
amount it was sent with. -/
theorem decode_of_prepareSend
    (h : s.prepareSend X e message = .ok (solanaEid, bytes, options)) :
    SolanaLedgerOCCMessage.decode bytes = some ⟨.usdc, message.receiver,
      .claimUsdcRevenueBackward, abiEncodeUint256 message.tokenAmount⟩ := by
  have haccepted := LedgerOApp.prepareSend_eq_ok.mp h
  have htype := checkLedgerPayloadType_iff.mp haccepted.payload_type
  rw [haccepted.bytes_eq, encodeSolanaLedgerMessage_eq_bytes, SolanaLedgerOCCMessage.decode_bytes]
  simp only [LedgerOApp.solanaLedgerMessage, SolanaLedgerMessage.frame, htype,
    haccepted.token_eq]
  rfl

/-- A decoded message has its receiver where the account constraint looks for it. -/
theorem getReceiver_of_decode {m : SolanaLedgerOCCMessage}
    (h : SolanaLedgerOCCMessage.decode bytes = some m) :
    SolanaLedgerOCCMessage.getReceiver bytes = some m.receiver := by
  obtain ⟨f, rfl, rfl⟩ := SolanaLedgerOCCMessage.decode_eq_some.mp h
  exact SolanaLedgerOCCMessage.getReceiver_bytes f

/-- **A delivered message of the ledger** pays its amount modulo `2 ^ 64` to the associated
token account of its receiver. -/
theorem pays_of_apply (h : s.prepareSend X e message = .ok (solanaEid, bytes, options))
    {P : Platform} {env : Solana.Env} {w w' : ProxyWorld} {ctx : LzReceive}
    {params : LzReceiveParams} {es : List ProxyEffect} (hbytes : params.message = bytes)
    (happly : ctx.apply P env w params = .ok (w', es)) :
    ctx.receiver.pubkey = message.receiver ∧
      P.associatedTokenAddress message.receiver ctx.tokenMint.pubkey ctx.tokenProgram.pubkey =
        some ctx.receiverTokenAccount.pubkey ∧
      Pays w w' es ctx.proxyTokenAccount.pubkey ctx.receiverTokenAccount.pubkey
        (message.tokenAmount.toNat % 2 ^ 64) := by
  have hdecode := decode_of_prepareSend h
  obtain ⟨tr⟩ := LzReceive.nonempty_trace happly
  -- the proxy reads the last eight bytes of the word
  have hvalue : (SolanaLedgerOCCMessage.getUsdcAmount tr.amountBytes).toNat =
      message.tokenAmount.toNat % 2 ^ 64 := by
    have hm := tr.decode_eq
    rw [hbytes, hdecode, Option.some.injEq] at hm
    have hamount := tr.amount_eq
    rw [← hm] at hamount
    exact toNat_getUsdcAmount_abiEncode hamount
  have hreceiver : ctx.receiver.pubkey = message.receiver := by
    have hread := tr.accounts.receiver_eq
    rw [hbytes, getReceiver_of_decode hdecode, Option.some.injEq] at hread
    exact hread.symm
  obtain ⟨-, hassociated, -⟩ := initAssociatedIfNeeded_eq_ok.mp tr.accounts.receiver_created
  rw [hreceiver] at hassociated
  refine ⟨hreceiver, hassociated, ?_, fun hne => ?_⟩
  · rw [tr.effects_eq]
    simp only [Effect.transferred?, List.filterMap_cons, List.filterMap_nil, hvalue]
  · have htransfer := tr.transfer_eq
    rw [hvalue] at htransfer
    obtain ⟨hsrc, hdst⟩ := World.balance_of_transferTokens hne htransfer
    rw [tr.balance_cleared] at hsrc hdst
    exact ⟨hsrc, hdst⟩

end Delivery

/-- **USDC fidelity.** Take a message that the ledger sends and a delivery of its bytes that
succeeds. It decodes to what was sent and pays exactly the amount of the message to the
associated token account of its receiver precisely when the amount fits in 64 bits. -/
theorem usdc_paid_exactly_iff {X : ExecutorOptions} {e : Ledger.Env} {s : LedgerOApp}
    {message : OCCLedgerMessage} {solanaEid : U32} {bytes options : Bytes}
    (h : s.prepareSend X e message = .ok (solanaEid, bytes, options))
    {P : Platform} {env : Solana.Env} {w w' : ProxyWorld} {ctx : LzReceive}
    {params : LzReceiveParams} {es : List ProxyEffect} (hbytes : params.message = bytes)
    (happly : ctx.apply P env w params = .ok (w', es)) :
    (SolanaLedgerOCCMessage.decode params.message = some ⟨.usdc, message.receiver,
        .claimUsdcRevenueBackward, abiEncodeUint256 message.tokenAmount⟩ ∧
      ctx.receiver.pubkey = message.receiver ∧
      P.associatedTokenAddress message.receiver ctx.tokenMint.pubkey ctx.tokenProgram.pubkey =
        some ctx.receiverTokenAccount.pubkey ∧
      Pays w w' es ctx.proxyTokenAccount.pubkey ctx.receiverTokenAccount.pubkey
        message.tokenAmount.toNat) ↔
      message.tokenAmount.toNat < 2 ^ 64 := by
  obtain ⟨hreceiver, hassociated, hpays⟩ := pays_of_apply h hbytes happly
  constructor
  · rintro ⟨-, -, -, hexact⟩
    have htransfers := hpays.transferred.symm.trans hexact.transferred
    have hamount : message.tokenAmount.toNat % 2 ^ 64 = message.tokenAmount.toNat := by
      simpa using htransfers
    omega
  · intro hfits
    rw [Nat.mod_eq_of_lt hfits] at hpays
    refine ⟨?_, hreceiver, hassociated, hpays⟩
    rw [hbytes]
    exact decode_of_prepareSend h

/-! ### An amount of more than 64 bits -/

/-- A payment of USDC to the sample receiver. -/
def sampleUsdcMessage (amount : U256) : OCCLedgerMessage :=
  { sampleOCCLedgerMessage with receiver := sampleReceiver, tokenAmount := amount }

/-- The delivery of the bytes the ledger encodes for an amount. -/
def sampleUsdcParams (amount : U256) : LzReceiveParams where
  srcEid := sampleEid
  sender := sampleKey 40
  nonce := 1#64
  guid := sampleKey 60
  message := encodeSolanaLedgerMessage (LedgerOApp.solanaLedgerMessage (sampleUsdcMessage amount))
  extraData := []

/-- A message of `2 ^ 64 + 5` units is sent, and delivered for 5. -/
theorem usdc_paid_modulo :
    (sampleLedger.prepareSend sampleExecutorOptions (sampleLedgerEnv (sampleAddress 4))
      (sampleUsdcMessage 18446744073709551621#256)).isOk = true ∧
    ((sampleLzReceive (sampleKey 5)).apply samplePlatform sampleEnv sampleFunded.world
        (sampleUsdcParams 18446744073709551621#256)).map
      (fun r => (r.2.filterMap Effect.transferred?, r.1.balance (sampleKey 10))) =
        .ok ([(sampleKey 9, sampleKey 10, 5)], 5) := by
  decide +kernel

/-- A message of 5 units pays 5. -/
theorem usdc_paid_exactly_iff_five :
    ∃ w' es, (sampleLzReceive (sampleKey 5)).apply samplePlatform sampleEnv sampleFunded.world
        (sampleUsdcParams 5#256) = .ok (w', es) ∧
      Pays sampleFunded.world w' es (sampleKey 9) (sampleKey 10) 5 := by
  obtain ⟨⟨w', es⟩, happly⟩ := Except.exists_of_isOk (x := (sampleLzReceive (sampleKey 5)).apply
    samplePlatform sampleEnv sampleFunded.world (sampleUsdcParams 5#256)) (by decide +kernel)
  obtain ⟨⟨solanaEid, bytes, options⟩, hsend⟩ := Except.exists_of_isOk
    (x := sampleLedger.prepareSend sampleExecutorOptions (sampleLedgerEnv (sampleAddress 4))
      (sampleUsdcMessage 5#256)) (by decide +kernel)
  have hbytes : (sampleUsdcParams 5#256).message = bytes :=
    (LedgerOApp.prepareSend_eq_ok.mp hsend).bytes_eq.symm
  obtain ⟨-, -, -, hpays⟩ := (usdc_paid_exactly_iff hsend hbytes happly).mpr (by decide)
  exact ⟨w', es, happly, hpays⟩

end Crossing
