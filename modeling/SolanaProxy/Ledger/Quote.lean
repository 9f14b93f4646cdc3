import SolanaProxy.Ledger.OApp

/-!
# Quoting and sending on the ledger

`ledgerOappSend` and `ledgerOappSendQuote` build the same destination and the same message,
and options from the same storage; but sending replaces a gas of zero by a default, and
quoting does not. `sendQuote_agrees_iff` says that this is the whole difference: for a message
that can be sent, quote and send agree exactly when gas is configured for its payload type.
-/

namespace Ledger

open Machine PayloadTypeChecker SolanaProxyMsgCodec

namespace LedgerOApp

section Prepare

variable {X : ExecutorOptions} {e : Env} {s : LedgerOApp} {message : OCCLedgerMessage}
  {solanaEid : U32} {bytes options : Bytes}

/-- The options a message is sent with. -/
def sendOptions (s : LedgerOApp) (payloadType : U8) : LzOptions :=
  if (s.payloadType2LzOptions payloadType).gas = 0#128 then
    { s.payloadType2LzOptions payloadType with gas := 500000#128 }
  else s.payloadType2LzOptions payloadType

theorem gas_sendOptions_ne_zero (payloadType : U8) : (s.sendOptions payloadType).gas ≠ 0#128 := by
  rw [sendOptions]
  split
  case isTrue => exact (by decide : 500000#128 ≠ 0#128)
  case isFalse h => exact h

theorem sendOptions_of_ne_zero {payloadType : U8}
    (h : (s.payloadType2LzOptions payloadType).gas ≠ 0#128) :
    s.sendOptions payloadType = s.payloadType2LzOptions payloadType :=
  if_neg h

/-- A message that is accepted: the caller, the configuration of the manager, the checks on the
message, and what is priced and sent. -/
structure Accepted (X : ExecutorOptions) (e : Env) (s : LedgerOApp) (message : OCCLedgerMessage)
    (solanaEid : U32) (bytes options : Bytes) : Prop where
  caller : e.msgSender = s.occManagerAddr
  eid_ne_zero : (s.manager e).solanaEid ≠ 0#32
  chain_ne_zero : (s.manager e).eid2ChainId (s.manager e).solanaEid ≠ 0#256
  payload_type : checkLedgerPayloadType message.payloadType = true
  dst_chain : message.dstChainId = (s.manager e).eid2ChainId (s.manager e).solanaEid
  token_eq : message.token = .usdc
  eid_eq : solanaEid = (s.manager e).solanaEid
  bytes_eq : bytes = encodeSolanaLedgerMessage (solanaLedgerMessage message)
  options_ok : OptionsBuilder.addExecutorLzReceiveOption X OptionsBuilder.newOptions
    (s.sendOptions message.payloadType).gas (s.sendOptions message.payloadType).value =
      .ok options

/-- **Accepted messages.** -/
theorem prepareSend_eq_ok :
    s.prepareSend X e message = .ok (solanaEid, bytes, options) ↔
      Accepted X e s message solanaEid bytes options := by
  simp only [prepareSend, onlyOCCManager, Except.bind_eq_ok, Except.require_eq_ok,
    Except.pure_eq_ok, Prod.mk.injEq]
  constructor
  · rintro ⟨-, hcaller, -, heid, -, hchain, -, htype, -, hdst, -, htoken, built, hbuilt, rfl, rfl,
      rfl⟩
    exact ⟨hcaller, heid, hchain, htype, hdst, htoken, rfl, rfl, hbuilt⟩
  · rintro ⟨hcaller, heid, hchain, htype, hdst, htoken, rfl, rfl, hbuilt⟩
    exact ⟨(), hcaller, (), heid, (), hchain, (), htype, (), hdst, (), htoken, options, hbuilt,
      rfl, rfl, rfl⟩

/-- What is quoted for a message. -/
theorem prepareQuote_eq_ok :
    s.prepareQuote X e message = .ok (solanaEid, bytes, options) ↔
      solanaEid = (s.manager e).solanaEid ∧
      bytes = encodeSolanaLedgerMessage (solanaLedgerMessage message) ∧
      OptionsBuilder.addExecutorLzReceiveOption X OptionsBuilder.newOptions
        (s.payloadType2LzOptions message.payloadType).gas
        (s.payloadType2LzOptions message.payloadType).value = .ok options := by
  simp only [prepareQuote, Except.bind_eq_ok, Except.pure_eq_ok, Prod.mk.injEq]
  constructor
  · rintro ⟨built, hbuilt, rfl, rfl, rfl⟩
    exact ⟨rfl, rfl, hbuilt⟩
  · rintro ⟨rfl, rfl, hbuilt⟩
    exact ⟨options, hbuilt, rfl, rfl, rfl⟩

/-- An accepted message is priced as it is sent exactly when gas is configured for its type. -/
theorem prepareQuote_eq_ok_iff (hX : X.Injective)
    (h : s.prepareSend X e message = .ok (solanaEid, bytes, options)) :
    s.prepareQuote X e message = .ok (solanaEid, bytes, options) ↔
      (s.payloadType2LzOptions message.payloadType).gas ≠ 0#128 := by
  have haccepted := prepareSend_eq_ok.mp h
  have hbuilt := haccepted.options_ok
  rw [prepareQuote_eq_ok]
  constructor
  · rintro ⟨-, -, hquoted⟩
    obtain ⟨hgas, -⟩ := OptionsBuilder.addExecutorLzReceiveOption_inj hX hquoted hbuilt
    rw [hgas]
    exact gas_sendOptions_ne_zero message.payloadType
  · intro hgas
    rw [sendOptions_of_ne_zero hgas] at hbuilt
    exact ⟨haccepted.eid_eq, haccepted.bytes_eq, hbuilt⟩

/-- The balance of the contract and the value of the call are not looked at when the endpoint
is paid what came with the call. -/
private theorem lzSend_ne_insufficientNativeFee :
    s.lzSend e solanaEid bytes options e.msgValue e.msgSender ≠ .error insufficientNativeFee := by
  have hpay : s.payNative e e.msgValue = .ok e.msgValue := by
    have hle : ¬(e.msgValue < e.msgValue ∧ s.balance < e.msgValue) := by
      rintro ⟨hlt, -⟩
      exact absurd hlt (BitVec.lt_irrefl _)
    rw [payNative, Except.require_of_true hle]
    rfl
  intro h
  rw [lzSend, hpay, Except.ok_bind] at h
  by_cases hpeer : s.peers solanaEid = zeroBytes32
  · rw [getPeerOrRevert, Except.require_of_false (not_not.mpr hpeer)] at h
    exact nomatch h
  · rw [getPeerOrRevert, Except.require_of_true hpeer] at h
    generalize hsend : (e.endpoint s.endpoint).send e.msgValue
      ⟨solanaEid, s.peers solanaEid, bytes, options, false⟩ e.msgSender = o at h
    cases o with
    | none =>
      simp only [Except.ok_bind, pure_bind, hsend] at h
      exact nomatch h
    | some receipt =>
      simp only [Except.ok_bind, pure_bind, hsend] at h
      exact nomatch h

/-- A message that is priced as it is sent does not fail for its fee when that price is paid. -/
theorem ledgerOappSend_ne_insufficientNativeFee {endpoint : Address → Endpoint}
    {fee : MessagingFee} (h : s.prepareSend X e message = .ok (solanaEid, bytes, options))
    (hquote : s.prepareQuote X e message = .ok (solanaEid, bytes, options))
    (hfee : s.ledgerOappSendQuote X { e with endpoint := endpoint } message = .ok fee) :
    s.ledgerOappSend X { e with endpoint := endpoint, msgValue := fee.nativeFee } message ≠
      .error insufficientNativeFee := by
  have hprice : s.quote { e with endpoint := endpoint } solanaEid bytes options false =
      .ok fee := by
    have hsame : s.prepareQuote X { e with endpoint := endpoint } message =
        .ok (solanaEid, bytes, options) := hquote
    rwa [ledgerOappSendQuote, hsame, Except.ok_bind] at hfee
  have hsame : s.prepareSend X { e with endpoint := endpoint, msgValue := fee.nativeFee }
      message = .ok (solanaEid, bytes, options) := h
  have hprice' : s.quote { e with endpoint := endpoint, msgValue := fee.nativeFee } solanaEid
      bytes options false = .ok fee := hprice
  have hle : fee.nativeFee ≤ fee.nativeFee := BitVec.le_refl _
  rw [ledgerOappSend, hsame, Except.ok_bind]
  simp only [hprice', Except.ok_bind, Except.require_of_true hle]
  exact lzSend_ne_insufficientNativeFee

end Prepare

/-- **Quote and send agree** on a message that can be sent exactly when gas is configured for
its payload type: then the endpoint is asked to price what it is given to send, and under no
fees of an endpoint does a call that pays the quoted fee fail for an insufficient one. -/
theorem sendQuote_agrees_iff {X : ExecutorOptions} (hX : X.Injective) (e : Env) (s : LedgerOApp)
    (message : OCCLedgerMessage) {triple : U32 × Bytes × Bytes}
    (h : s.prepareSend X e message = .ok triple) :
    (s.prepareQuote X e message = .ok triple ∧
      ∀ (endpoint : Address → Endpoint) (fee : MessagingFee),
        s.ledgerOappSendQuote X { e with endpoint := endpoint } message = .ok fee →
        s.ledgerOappSend X { e with endpoint := endpoint, msgValue := fee.nativeFee } message ≠
          .error insufficientNativeFee) ↔
      (s.payloadType2LzOptions message.payloadType).gas ≠ 0#128 := by
  obtain ⟨solanaEid, bytes, options⟩ := triple
  constructor
  · rintro ⟨hquote, -⟩
    exact (prepareQuote_eq_ok_iff hX h).mp hquote
  · intro hgas
    have hquote := (prepareQuote_eq_ok_iff hX h).mpr hgas
    exact ⟨hquote, fun endpoint fee => ledgerOappSend_ne_insufficientNativeFee h hquote⟩

end LedgerOApp

/-! ### A ledger without options

A contract with a manager and a peer, before and after options are configured, and an endpoint
that charges one wei for each unit of gas. -/

/-- An address made of one byte. -/
def sampleAddress (b : Byte) : Address := List.Vector.replicate 20 b

/-- The executor options of the protocol package: the gas, and the value unless it is zero. -/
def sampleExecutorOptions : ExecutorOptions where
  workerId := 1
  optionTypeLzReceive := 1
  encodeLzReceiveOption gas value :=
    if value = 0#128 then gas.toBeBytes else gas.toBeBytes ++ value.toBeBytes

theorem sampleExecutorOptions_injective : sampleExecutorOptions.Injective := by
  intro gas value gas' value' h
  have hlen : ∀ x y : U128, x.toBeBytes.length = y.toBeBytes.length := fun x y => by
    rw [BitVec.length_toBeBytes, BitVec.length_toBeBytes]
  have hinj : ∀ {x y : U128}, x.toBeBytes = y.toBeBytes → x = y :=
    BitVec.toBeBytes_injective (by decide)
  simp only [sampleExecutorOptions] at h
  split at h <;> split at h
  case isTrue.isTrue hv hv' => exact ⟨hinj h, hv.trans hv'.symm⟩
  case isFalse.isFalse =>
    obtain ⟨hgas, hvalue⟩ := List.append_inj h (hlen gas gas')
    exact ⟨hinj hgas, hinj hvalue⟩
  all_goals
    have hcount := congrArg List.length h
    simp only [List.length_append, BitVec.length_toBeBytes] at hcount
    omega

/-- An endpoint whose price is the gas of the options. -/
def sampleGasEndpoint : Endpoint where
  quote params _ := some ⟨BitVec.fromBeBytes 256 ((params.options.drop 6).take 16), 0#256⟩
  send _ _ _ := some ⟨zeroBytes32, 1#64, ⟨0#256, 0#256⟩⟩
  setDelegate _ := true

/-- A manager that knows Solana only. -/
def sampleManager : OCCManager where
  solanaEid := 30168#32
  eid2ChainId eid := if eid = 30168#32 then 900#256 else 0#256
  ledgerOappReceive _ := true

/-- A call without value. -/
def sampleLedgerEnv (msgSender : Address) : Env where
  self := sampleAddress 1
  msgSender := msgSender
  msgValue := 0#256
  endpoint _ := sampleGasEndpoint
  occManager _ := sampleManager
  takesTransfer _ _ := true

/-- The owner names the manager and the proxy. -/
def sampleLedgerSetup : List (Env × LedgerOApp.Call) :=
  [(sampleLedgerEnv (sampleAddress 3), .setOCCManagerAddr (sampleAddress 4)),
    (sampleLedgerEnv (sampleAddress 3), .setPeer 30168#32 (List.Vector.replicate 32 1))]

/-- The contract after its set-up. -/
def sampleLedger : LedgerOApp :=
  run (LedgerOApp.step sampleExecutorOptions)
    (LedgerOApp.initialized (sampleAddress 2) (sampleAddress 3)) sampleLedgerSetup

/-- The contract with gas configured for USDC messages. -/
def sampleLedgerWithOptions : LedgerOApp :=
  run (LedgerOApp.step sampleExecutorOptions) sampleLedger
    [(sampleLedgerEnv (sampleAddress 3), .setOptions 14 200000#128 0#128)]

/-- A payment of 100 USDC. -/
def sampleOCCLedgerMessage : OCCLedgerMessage where
  dstChainId := 900#256
  token := .usdc
  tokenAmount := 100000000#256
  receiver := List.Vector.replicate 32 9
  payloadType := 14
  payload := []

/-- Without options a message that can be sent is quoted for no gas at all, and a call that
pays the quoted fee fails. -/
theorem sendQuote_without_options :
    (sampleLedger.prepareSend sampleExecutorOptions (sampleLedgerEnv (sampleAddress 4))
      sampleOCCLedgerMessage).isOk = true ∧
    sampleLedger.prepareQuote sampleExecutorOptions (sampleLedgerEnv (sampleAddress 4))
        sampleOCCLedgerMessage ≠
      sampleLedger.prepareSend sampleExecutorOptions (sampleLedgerEnv (sampleAddress 4))
        sampleOCCLedgerMessage ∧
    sampleLedger.ledgerOappSendQuote sampleExecutorOptions (sampleLedgerEnv (sampleAddress 4))
        sampleOCCLedgerMessage = .ok ⟨0#256, 0#256⟩ ∧
    (sampleLedger.ledgerOappSend sampleExecutorOptions
        { sampleLedgerEnv (sampleAddress 4) with msgValue := 0#256 }
        sampleOCCLedgerMessage).map Prod.snd = .error LedgerOApp.insufficientNativeFee := by
  decide +kernel

/-- With options a call that pays the quoted fee does not fail for it. -/
theorem sendQuote_agrees_iff_with_options :
    sampleLedgerWithOptions.ledgerOappSendQuote sampleExecutorOptions
        (sampleLedgerEnv (sampleAddress 4)) sampleOCCLedgerMessage =
      .ok ⟨200000#256, 0#256⟩ ∧
    sampleLedgerWithOptions.ledgerOappSend sampleExecutorOptions
        { sampleLedgerEnv (sampleAddress 4) with
          endpoint := fun _ => sampleGasEndpoint, msgValue := 200000#256 }
        sampleOCCLedgerMessage ≠ .error LedgerOApp.insufficientNativeFee := by
  have hfee : sampleLedgerWithOptions.ledgerOappSendQuote sampleExecutorOptions
      (sampleLedgerEnv (sampleAddress 4)) sampleOCCLedgerMessage =
        .ok ⟨200000#256, 0#256⟩ := by
    decide +kernel
  obtain ⟨triple, hsend⟩ := Except.exists_of_isOk
    (x := sampleLedgerWithOptions.prepareSend sampleExecutorOptions
      (sampleLedgerEnv (sampleAddress 4)) sampleOCCLedgerMessage) (by decide +kernel)
  obtain ⟨-, hsufficient⟩ := (LedgerOApp.sendQuote_agrees_iff sampleExecutorOptions_injective
    (sampleLedgerEnv (sampleAddress 4)) sampleLedgerWithOptions sampleOCCLedgerMessage hsend).mpr
    (by decide +kernel)
  exact ⟨hfee, hsufficient (fun _ => sampleGasEndpoint) ⟨200000#256, 0#256⟩ hfee⟩

end Ledger
