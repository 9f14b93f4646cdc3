import SolanaProxy.General.Machine
import SolanaProxy.Ledger.Codec
import Mathlib.Logic.Function.Basic

/-!
# The ledger contract

`LedgerOApp` with the parts of its base contracts it goes through. The contracts it calls,
the endpoint and the OCC manager, are functions of their addresses in an `Env`; the packed
options of the executor come from a library that is a parameter, `ExecutorOptions`.

`ledgerOappSend` and `ledgerOappSendQuote` are split where they first call the endpoint:
`prepareSend` and `prepareQuote` compute the destination, the message and the options.
`step` plays one call, and a run is a run of this machine; a call that reverts changes
nothing.
-/

namespace Ledger

open PayloadTypeChecker SolanaProxyMsgCodec

/-- `address(0)`. -/
def zeroAddress : Address := List.Vector.replicate 20 0

/-- `bytes32(0)`. -/
def zeroBytes32 : Bytes32 := List.Vector.replicate 32 0

/-! ### Calls to other contracts -/

/-- What the endpoint asks for a message, in the native coin and in its own token. -/
structure MessagingFee where
  nativeFee : U256
  lzTokenFee : U256
deriving DecidableEq

/-- What the endpoint is handed to price or to send. -/
structure MessagingParams where
  dstEid : U32
  receiver : Bytes32
  message : Bytes
  options : Bytes
  payInLzToken : Bool
deriving DecidableEq

/-- What the endpoint answers for a message it has sent. -/
structure MessagingReceipt where
  guid : Bytes32
  nonce : U64
  fee : MessagingFee
deriving DecidableEq

/-- Where a delivered message comes from. -/
structure Origin where
  srcEid : U32
  sender : Bytes32
  nonce : U64
deriving DecidableEq

/-- The answers of an endpoint: its quote for a message of a sender, its receipt for a message
sent with a value and a refund address, and whether it takes a delegate. -/
structure Endpoint where
  quote : MessagingParams → Address → Option MessagingFee
  send : U256 → MessagingParams → Address → Option MessagingReceipt
  setDelegate : Address → Bool

/-- The answers of an OCC manager. -/
structure OCCManager where
  solanaEid : U32
  eid2ChainId : U32 → U256
  ledgerOappReceive : OCCVaultMessage → Bool

/-- The outside of one call: who makes it and with what value, the contracts by address, and
whether an address takes a plain transfer. -/
structure Env where
  self : Address
  msgSender : Address
  msgValue : U256
  endpoint : Address → Endpoint
  occManager : Address → OCCManager
  takesTransfer : Address → U256 → Bool

/-- What a call does outside the contract. -/
inductive Effect where
  | quote (params : MessagingParams)
  | send (value : U256) (params : MessagingParams) (refundAddress : Address)
  | setDelegate (delegate : Address)
  | ledgerOappReceive (manager : Address) (message : OCCVaultMessage)
  | transfer (dst : Address) (amount : U256)
deriving DecidableEq

/-! ### Options -/

/-- The library `ExecutorOptions` of the protocol package. -/
structure ExecutorOptions where
  workerId : U8
  optionTypeLzReceive : U8
  encodeLzReceiveOption : U128 → U128 → Bytes

/-- Different gas or value, different option. -/
def ExecutorOptions.Injective (X : ExecutorOptions) : Prop :=
  ∀ ⦃gas value gas' value'⦄,
    X.encodeLzReceiveOption gas value = X.encodeLzReceiveOption gas' value' →
    gas = gas' ∧ value = value'

namespace OptionsBuilder

/-- `TYPE_3`. -/
def type3 : U16 := 3#16

/-- `onlyType3`. -/
def onlyType3 (options : Bytes) : Except Revert Unit := do
  let bytes ← Except.ofOption (.reason "toUint16_outOfBounds") (Bytes.slice? options 0 2)
  let optionType := BitVec.fromBeBytes 16 bytes
  Except.require (optionType = type3) (.invalidOptionType optionType)

/-- Options of type 3 with nothing added yet. -/
def newOptions : Bytes := type3.toBeBytes

/-- `SafeCast.toUint16`. -/
def toUint16 (value : ℕ) : Except Revert U16 :=
  Except.ofOption (.safeCastOverflowedUintDowncast 16 value) (Word.ofNat? 16 value)

/-- Appends an option of the executor: worker, size, type and the option itself. -/
def addExecutorOption (X : ExecutorOptions) (options : Bytes) (optionType : U8)
    (option : Bytes) : Except Revert Bytes := do
  onlyType3 options
  let length ← toUint16 option.length
  let size ← Except.ofOption arithmeticError (Word.checkedAdd length 1#16)
  return options ++ [X.workerId] ++ size.toBeBytes ++ [optionType] ++ option

/-- Appends the gas and the value `lzReceive` is to be called with. -/
def addExecutorLzReceiveOption (X : ExecutorOptions) (options : Bytes) (gas value : U128) :
    Except Revert Bytes := do
  onlyType3 options
  let option := X.encodeLzReceiveOption gas value
  addExecutorOption X options X.optionTypeLzReceive option

/-- The built options end in the encoded option, at a fixed offset. -/
theorem addExecutorLzReceiveOption_eq_ok {X : ExecutorOptions} {options built : Bytes}
    {gas value : U128} (h : addExecutorLzReceiveOption X options gas value = .ok built) :
    built.drop (options.length + 4) = X.encodeLzReceiveOption gas value := by
  simp only [addExecutorLzReceiveOption, addExecutorOption, Except.bind_eq_ok,
    Except.pure_eq_ok] at h
  obtain ⟨-, -, -, -, -, -, size, -, rfl⟩ := h
  have hlen : (options ++ [X.workerId] ++ size.toBeBytes ++ [X.optionTypeLzReceive]).length =
      options.length + 4 := by
    simp only [List.length_append, List.length_singleton, BitVec.length_toBeBytes]
  rw [← hlen, List.drop_left]

/-- Equal options encode equal gas and value. -/
theorem addExecutorLzReceiveOption_inj {X : ExecutorOptions} (hX : X.Injective)
    {options built : Bytes} {gas value gas' value' : U128}
    (h : addExecutorLzReceiveOption X options gas value = .ok built)
    (h' : addExecutorLzReceiveOption X options gas' value' = .ok built) :
    gas = gas' ∧ value = value' := by
  have henc := addExecutorLzReceiveOption_eq_ok h
  rw [addExecutorLzReceiveOption_eq_ok h'] at henc
  obtain ⟨rfl, rfl⟩ := hX henc
  exact ⟨rfl, rfl⟩

end OptionsBuilder

/-! ### The contract -/

/-- The storage of the contract, and its balance, a call's own value included. -/
structure LedgerOApp where
  endpoint : Address
  peers : U32 → Bytes32
  owner : Address
  paused : Bool
  occManagerAddr : Address
  payloadType2LzOptions : U8 → LzOptions
  balance : U256

namespace LedgerOApp

/-- The storage of a contract that was just initialized: no peers and no options. -/
def initialized (endpoint delegate : Address) : LedgerOApp where
  endpoint := endpoint
  peers _ := zeroBytes32
  owner := delegate
  paused := false
  occManagerAddr := zeroAddress
  payloadType2LzOptions _ := ⟨0#128, 0#128⟩
  balance := 0#256

section Calls

variable (X : ExecutorOptions) (e : Env) (s : LedgerOApp)

/-! #### Guards -/

/-- The caller is the owner. -/
def onlyOwner : Except Revert Unit :=
  Except.require (e.msgSender = s.owner) (.ownableUnauthorizedAccount e.msgSender)

/-- The caller is the OCC manager. -/
def onlyOCCManager : Except Revert Unit :=
  Except.require (e.msgSender = s.occManagerAddr)
    (.reason "OnlyLedgerOCCManager can call this function")

/-- The contract is not paused. -/
def whenNotPaused : Except Revert Unit := Except.require (s.paused = false) .enforcedPause

/-- `_getPeerOrRevert`: the peer of an endpoint id, which must be set. -/
def getPeerOrRevert (eid : U32) : Except Revert Bytes32 := do
  let peer := s.peers eid
  Except.require (peer ≠ zeroBytes32) (.noPeer eid)
  return peer

/-- The manager the contract is configured with. -/
def manager : OCCManager := e.occManager s.occManagerAddr

/-! #### Owner functions -/

/-- The owner replaces the OCC manager. -/
def setOCCManagerAddr (occManagerAddr : Address) : Except Revert (LedgerOApp × List Effect) := do
  s.onlyOwner e
  return ({ s with occManagerAddr := occManagerAddr }, [])

/-- The owner sets the gas and the value for one type of message to Solana. -/
def setOptions (payloadType : U8) (gas value : U128) :
    Except Revert (LedgerOApp × List Effect) := do
  s.onlyOwner e
  Except.require (checkLedgerPayloadType payloadType = true)
    (.reason "LedgerOApp: invalid ledger payload type")
  return ({ s with
    payloadType2LzOptions :=
      Function.update s.payloadType2LzOptions payloadType ⟨gas, value⟩ }, [])

/-- The owner withdraws the whole balance. -/
def withdrawTo (dst : Address) : Except Revert (LedgerOApp × List Effect) := do
  s.onlyOwner e
  Except.require (e.takesTransfer dst s.balance = true) .call
  return ({ s with balance := 0#256 }, [.transfer dst s.balance])

/-- The owner sets the peer of an endpoint id. -/
def setPeer (eid : U32) (peer : Bytes32) : Except Revert (LedgerOApp × List Effect) := do
  s.onlyOwner e
  return ({ s with peers := Function.update s.peers eid peer }, [])

/-- The owner names a delegate to the endpoint. -/
def setDelegate (delegate : Address) : Except Revert (LedgerOApp × List Effect) := do
  s.onlyOwner e
  Except.require ((e.endpoint s.endpoint).setDelegate delegate = true) .call
  return (s, [.setDelegate delegate])

/-- The owner pauses a contract that is not paused. -/
def pause : Except Revert (LedgerOApp × List Effect) := do
  s.onlyOwner e
  s.whenNotPaused
  return ({ s with paused := true }, [])

/-- The owner unpauses a paused contract. -/
def unpause : Except Revert (LedgerOApp × List Effect) := do
  s.onlyOwner e
  Except.require (s.paused = true) .expectedPause
  return ({ s with paused := false }, [])

/-! #### Receiving -/

/-- `_lzReceive`: decode a message of Solana, check it and hand it to the OCC manager. -/
def lzReceiveInternal (origin : Origin) (message : Bytes) :
    Except Revert (LedgerOApp × List Effect) := do
  s.whenNotPaused
  let solanaEid := (s.manager e).solanaEid
  let solanaChainId := (s.manager e).eid2ChainId solanaEid
  if origin.srcEid = solanaEid then
    let solanaVaultMessage ← decodeSolanaVaultMessage message
    Except.require (checkVaultPayloadType solanaVaultMessage.payloadType = true)
      (.reason "LedgerOApp: invalid vault payload type")
    Except.require (solanaChainId ≠ 0#256) (.reason "LedgerOApp: Solana chain id not set")
    let occVaultMessage : OCCVaultMessage :=
      { chainedEventId := 0#256
        srcChainId := solanaChainId
        token := solanaVaultMessage.token
        tokenAmount := 0#256
        sender := solanaVaultMessage.sender
        payloadType := solanaVaultMessage.payloadType
        payload := solanaVaultMessage.payload }
    Except.require ((s.manager e).ledgerOappReceive occVaultMessage = true) .call
    return (s, [.ledgerOappReceive s.occManagerAddr occVaultMessage])
  else
    .error (.reason "LedgerOApp: only Solana chain supported")

/-- `lzReceive`: only the endpoint delivers, and only what a peer sent. -/
def lzReceive (origin : Origin) (message : Bytes) : Except Revert (LedgerOApp × List Effect) := do
  Except.require (s.endpoint = e.msgSender) (.onlyEndpoint e.msgSender)
  let peer ← s.getPeerOrRevert origin.srcEid
  Except.require (peer = origin.sender) (.onlyPeer origin.srcEid origin.sender)
  s.lzReceiveInternal e origin message

/-! #### Sending -/

/-- `_quote`. -/
def quote (dstEid : U32) (message options : Bytes) (payInLzToken : Bool) :
    Except Revert MessagingFee := do
  let peer ← s.getPeerOrRevert dstEid
  Except.ofOption .call
    ((e.endpoint s.endpoint).quote ⟨dstEid, peer, message, options, payInLzToken⟩ e.self)

/-- `_payNative`. -/
def payNative (nativeFee : U256) : Except Revert U256 := do
  Except.require (¬(e.msgValue < nativeFee ∧ s.balance < nativeFee)) (.notEnoughNative e.msgValue)
  return nativeFee

/-- `_lzSend` without a fee in the token of the endpoint. -/
def lzSend (dstEid : U32) (message options : Bytes) (nativeFee : U256) (refundAddress : Address) :
    Except Revert (LedgerOApp × List Effect) := do
  let messageValue ← s.payNative e nativeFee
  let peer ← s.getPeerOrRevert dstEid
  let params : MessagingParams := ⟨dstEid, peer, message, options, false⟩
  let _ ← Except.ofOption .call
    ((e.endpoint s.endpoint).send messageValue params refundAddress)
  return ({ s with balance := s.balance - messageValue },
    [.send messageValue params refundAddress])

/-- The message both functions build. -/
def solanaLedgerMessage (message : OCCLedgerMessage) : SolanaLedgerMessage where
  token := message.token
  receiver := message.receiver
  payloadType := message.payloadType
  payload := abiEncodeUint256 message.tokenAmount

/-- `ledgerOappSend` up to its first call of the endpoint: the destination, the message and
the options, with the default gas where none is configured. -/
def prepareSend (message : OCCLedgerMessage) : Except Revert (U32 × Bytes × Bytes) := do
  s.onlyOCCManager e
  let solanaEid := (s.manager e).solanaEid
  Except.require (solanaEid ≠ 0#32)
    (.reason "LedgerOApp: Solana eid not set on LedgerOCCManager")
  let solanaChainId := (s.manager e).eid2ChainId solanaEid
  Except.require (solanaChainId ≠ 0#256)
    (.reason "LedgerOApp: Solana chain id not set on LedgerOCCManager")
  Except.require (checkLedgerPayloadType message.payloadType = true)
    (.reason "LedgerOApp: invalid ledger payload type")
  Except.require (message.dstChainId = solanaChainId) (.reason "LedgerOApp: only send to solana")
  Except.require (message.token = .usdc) (.reason "LedgerOApp: Only USDC is supported")
  let bytes := encodeSolanaLedgerMessage (solanaLedgerMessage message)
  let typeOptions := s.payloadType2LzOptions message.payloadType
  let typeOptions :=
    if typeOptions.gas = 0#128 then { typeOptions with gas := 500000#128 } else typeOptions
  let options ← OptionsBuilder.addExecutorLzReceiveOption X OptionsBuilder.newOptions
    typeOptions.gas typeOptions.value
  return (solanaEid, bytes, options)

/-- The value sent along does not cover the fee. -/
def insufficientNativeFee : Revert := .reason "LedgerOApp: insufficient native fee"

/-- A message is priced and sent; the value must cover the price. -/
def ledgerOappSend (message : OCCLedgerMessage) : Except Revert (LedgerOApp × List Effect) := do
  let (solanaEid, bytes, options) ← s.prepareSend X e message
  let msgFee ← s.quote e solanaEid bytes options false
  Except.require (msgFee.nativeFee ≤ e.msgValue) insufficientNativeFee
  s.lzSend e solanaEid bytes options e.msgValue e.msgSender

/-- `ledgerOappSendQuote` up to its call of the endpoint. -/
def prepareQuote (message : OCCLedgerMessage) : Except Revert (U32 × Bytes × Bytes) := do
  let solanaEid := (s.manager e).solanaEid
  let bytes := encodeSolanaLedgerMessage (solanaLedgerMessage message)
  let typeOptions := s.payloadType2LzOptions message.payloadType
  let options ← OptionsBuilder.addExecutorLzReceiveOption X OptionsBuilder.newOptions
    typeOptions.gas typeOptions.value
  return (solanaEid, bytes, options)

/-- The price of a message. -/
def ledgerOappSendQuote (message : OCCLedgerMessage) : Except Revert MessagingFee := do
  let (solanaEid, bytes, options) ← s.prepareQuote X e message
  s.quote e solanaEid bytes options false

end Calls

section Receive

variable {e : Env} {s s' : LedgerOApp} {origin : Origin} {message : Bytes} {es : List Effect}

/-- What the OCC manager is handed for a message of Solana. -/
def occVaultMessage (s : LedgerOApp) (e : Env) (m : SolanaVaultMessage) : OCCVaultMessage where
  chainedEventId := 0#256
  srcChainId := (s.manager e).eid2ChainId (s.manager e).solanaEid
  token := m.token
  tokenAmount := 0#256
  sender := m.sender
  payloadType := m.payloadType
  payload := m.payload

/-- **A received message** decodes, has a supported type, and is all that is handed to the OCC
manager; the contract stays as it is. -/
theorem lzReceiveInternal_eq_ok :
    s.lzReceiveInternal e origin message = .ok (s', es) ↔
      s.paused = false ∧ origin.srcEid = (s.manager e).solanaEid ∧
      (s.manager e).eid2ChainId (s.manager e).solanaEid ≠ 0#256 ∧
      ∃ m, decodeSolanaVaultMessage message = .ok m ∧
        checkVaultPayloadType m.payloadType = true ∧
        (s.manager e).ledgerOappReceive (s.occVaultMessage e m) = true ∧
        s' = s ∧ es = [.ledgerOappReceive s.occManagerAddr (s.occVaultMessage e m)] := by
  by_cases heid : origin.srcEid = (s.manager e).solanaEid
  · simp only [lzReceiveInternal, whenNotPaused, heid, if_true, Except.bind_eq_ok,
      Except.require_eq_ok, Except.pure_eq_ok, Prod.mk.injEq]
    constructor
    · rintro ⟨-, hpaused, m, hdecode, -, htype, -, hchain, -, htakes, rfl, rfl⟩
      exact ⟨hpaused, trivial, hchain, m, hdecode, htype, htakes, rfl, rfl⟩
    · rintro ⟨hpaused, -, hchain, m, hdecode, htype, htakes, rfl, rfl⟩
      exact ⟨(), hpaused, m, hdecode, (), htype, (), hchain, (), htakes, rfl, rfl⟩
  · simp only [lzReceiveInternal, heid, if_false, Except.bind_eq_ok, false_and, and_false,
      reduceCtorEq, exists_false]

end Receive

/-! ### Runs -/

/-- A call of the contract. -/
inductive Call where
  | setOCCManagerAddr (occManagerAddr : Address)
  | setOptions (payloadType : U8) (gas value : U128)
  | withdrawTo (dst : Address)
  | setPeer (eid : U32) (peer : Bytes32)
  | setDelegate (delegate : Address)
  | pause
  | unpause
  | lzReceive (origin : Origin) (message : Bytes)
  | ledgerOappSend (message : OCCLedgerMessage)

/-- Functions that are not payable revert on value. -/
def nonPayable (e : Env) : Except Revert Unit := Except.require (e.msgValue = 0#256) .empty

/-- The contract with the value of a payable call on its balance. -/
def receiveValue (e : Env) (s : LedgerOApp) : LedgerOApp :=
  { s with balance := s.balance + e.msgValue }

/-- One call in an environment. -/
def step (X : ExecutorOptions) (s : LedgerOApp) :
    Env × Call → Except Revert (LedgerOApp × List Effect)
  | (e, .lzReceive origin message) => (s.receiveValue e).lzReceive e origin message
  | (e, .ledgerOappSend message) => (s.receiveValue e).ledgerOappSend X e message
  | (e, .setOCCManagerAddr occManagerAddr) => do
    nonPayable e
    s.setOCCManagerAddr e occManagerAddr
  | (e, .setOptions payloadType gas value) => do
    nonPayable e
    s.setOptions e payloadType gas value
  | (e, .withdrawTo dst) => do
    nonPayable e
    s.withdrawTo e dst
  | (e, .setPeer eid peer) => do
    nonPayable e
    s.setPeer e eid peer
  | (e, .setDelegate delegate) => do
    nonPayable e
    s.setDelegate e delegate
  | (e, .pause) => do
    nonPayable e
    s.pause e
  | (e, .unpause) => do
    nonPayable e
    s.unpause e

end LedgerOApp

end Ledger
