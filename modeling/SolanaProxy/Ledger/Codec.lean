import SolanaProxy.Crossing.Frame
import SolanaProxy.General.Fallible
import SolanaProxy.General.Word

/-!
# The ledger's message codec

The types of the ledger contract and its library `SolanaProxyMsgCodec`. A message of the
vault side is read from calldata slices, whose bounds are checked, and its token byte is
converted to an enumeration, which reverts outside of it. `decodeSolanaVaultMessage_eq_ok`
says which byte strings decode, and to what: those that are the packing of their own fields.
-/

namespace Ledger

/-- `bytes32`. -/
abbrev Bytes32 := ByteArr 32

/-- `address`. -/
abbrev Address := ByteArr 20

/-- What a call can revert with: a reason, a panic code, no data at all, whatever a called
contract reverted with, or one of the custom errors. -/
inductive Revert where
  | reason (message : String)
  | panic (code : ℕ)
  | empty
  | call
  | ownableUnauthorizedAccount (account : Address)
  | enforcedPause
  | expectedPause
  | onlyEndpoint (addr : Address)
  | noPeer (eid : U32)
  | onlyPeer (eid : U32) (sender : Bytes32)
  | notEnoughNative (msgValue : U256)
  | lzTokenUnavailable
  | invalidOptionType (optionType : U16)
  | safeCastOverflowedUintDowncast (bits value : ℕ)
deriving DecidableEq

/-- The panic of an arithmetic overflow. -/
def arithmeticError : Revert := .panic 0x11

/-- The panic of a conversion to an enumeration. -/
def enumConversionError : Revert := .panic 0x21

/-! ### Types -/

/-- The token types that can be transferred. -/
inductive LedgerToken where
  | order
  | esorder
  | usdc
  | placeholder
deriving DecidableEq

namespace LedgerToken

/-- `uint8(token)`. -/
def toUint8 : LedgerToken → U8
  | order => 0
  | esorder => 1
  | usdc => 2
  | placeholder => 3

/-- `LedgerToken(value)`. -/
def ofUint8 (value : U8) : Except Revert LedgerToken :=
  match value with
  | 0 => .ok order
  | 1 => .ok esorder
  | 2 => .ok usdc
  | 3 => .ok placeholder
  | _ => .error enumConversionError

/-- A byte converts to a token exactly when it is the byte of that token. -/
theorem ofUint8_eq_ok {b : U8} {t : LedgerToken} : ofUint8 b = .ok t ↔ b = t.toUint8 := by
  constructor
  · intro h
    unfold ofUint8 at h
    split at h
    case h_5 => cases h
    all_goals
      obtain rfl := Except.ok.inj h
      rfl
  · rintro rfl
    cases t <;> rfl

/-- The bytes of the tokens are 0 to 3. -/
theorem exists_toUint8_iff {b : U8} : (∃ t : LedgerToken, b = t.toUint8) ↔ b ≤ 3 := by
  constructor
  · rintro ⟨t, rfl⟩
    cases t <;> decide
  · intro h
    have hb : b = 0 ∨ b = 1 ∨ b = 2 ∨ b = 3 := by
      rw [UInt8.le_iff_toNat_le] at h
      simp only [← UInt8.toNat_inj]
      have h3 : UInt8.toNat 3 = 3 := rfl
      have h2 : UInt8.toNat 2 = 2 := rfl
      have h1 : UInt8.toNat 1 = 1 := rfl
      have h0 : UInt8.toNat 0 = 0 := rfl
      omega
    obtain rfl | rfl | rfl | rfl := hb
    · exact ⟨order, rfl⟩
    · exact ⟨esorder, rfl⟩
    · exact ⟨usdc, rfl⟩
    · exact ⟨placeholder, rfl⟩

end LedgerToken

/-- The data type of the payload. -/
inductive PayloadDataType where
  | claimReward
  | stake
  | createOrderUnstakeRequest
  | cancelOrderUnstakeRequest
  | withdrawOrder
  | esOrderUnstakeAndVest
  | cancelVestingRequest
  | cancelAllVestingRequests
  | claimVestingRequest
  | redeemValor
  | claimUsdcRevenue
  | claimRewardBackward
  | withdrawOrderBackward
  | claimVestingRequestBackward
  | claimUsdcRevenueBackward
  | unstakeOrderNow
  | claimRewardSolana
deriving DecidableEq

/-- `uint8(payloadDataType)`. -/
def PayloadDataType.toUint8 : PayloadDataType → U8
  | claimReward => 0
  | stake => 1
  | createOrderUnstakeRequest => 2
  | cancelOrderUnstakeRequest => 3
  | withdrawOrder => 4
  | esOrderUnstakeAndVest => 5
  | cancelVestingRequest => 6
  | cancelAllVestingRequests => 7
  | claimVestingRequest => 8
  | redeemValor => 9
  | claimUsdcRevenue => 10
  | claimRewardBackward => 11
  | withdrawOrderBackward => 12
  | claimVestingRequestBackward => 13
  | claimUsdcRevenueBackward => 14
  | unstakeOrderNow => 15
  | claimRewardSolana => 16

namespace PayloadTypeChecker

/-- The types a message of the vault side may have. -/
def checkVaultPayloadType (payloadType : U8) : Bool :=
  payloadType == PayloadDataType.createOrderUnstakeRequest.toUint8 ||
    payloadType == PayloadDataType.cancelOrderUnstakeRequest.toUint8 ||
    payloadType == PayloadDataType.withdrawOrder.toUint8 ||
    payloadType == PayloadDataType.esOrderUnstakeAndVest.toUint8 ||
    payloadType == PayloadDataType.cancelVestingRequest.toUint8 ||
    payloadType == PayloadDataType.cancelAllVestingRequests.toUint8 ||
    payloadType == PayloadDataType.claimVestingRequest.toUint8 ||
    payloadType == PayloadDataType.redeemValor.toUint8 ||
    payloadType == PayloadDataType.claimUsdcRevenue.toUint8 ||
    payloadType == PayloadDataType.unstakeOrderNow.toUint8 ||
    payloadType == PayloadDataType.claimRewardSolana.toUint8

/-- The types a message of the ledger side may have. -/
def checkLedgerPayloadType (payloadType : U8) : Bool :=
  payloadType == PayloadDataType.claimUsdcRevenueBackward.toUint8

theorem checkLedgerPayloadType_iff {payloadType : U8} :
    checkLedgerPayloadType payloadType = true ↔
      payloadType = PayloadDataType.claimUsdcRevenueBackward.toUint8 :=
  beq_iff_eq

end PayloadTypeChecker

/-- The gas and the value a message is executed with. -/
structure LzOptions where
  gas : U128
  value : U128
deriving DecidableEq

/-- The message handed to the OCC manager. -/
structure OCCVaultMessage where
  chainedEventId : U256
  srcChainId : U256
  token : LedgerToken
  tokenAmount : U256
  sender : Bytes32
  payloadType : U8
  payload : Bytes
deriving DecidableEq

/-- The message the OCC manager asks to send. -/
structure OCCLedgerMessage where
  dstChainId : U256
  token : LedgerToken
  tokenAmount : U256
  receiver : Bytes32
  payloadType : U8
  payload : Bytes
deriving DecidableEq

/-- A message from the proxy, decoded. -/
structure SolanaVaultMessage where
  token : LedgerToken
  sender : Bytes32
  payloadType : U8
  payload : Bytes
deriving DecidableEq

/-- A message to the proxy. -/
structure SolanaLedgerMessage where
  token : LedgerToken
  receiver : Bytes32
  payloadType : U8
  payload : Bytes
deriving DecidableEq

/-! ### The codec -/

namespace SolanaProxyMsgCodec

/-- Where the token byte ends. -/
def tokenTypeOffset : ℕ := 1

/-- Where the sender ends. -/
def senderOffset : ℕ := tokenTypeOffset + 32

/-- Where the type byte ends. -/
def payloadTypeOffset : ℕ := senderOffset + 1

/-- Where the payload starts. -/
def payloadOffset : ℕ := payloadTypeOffset

/-- `uint8(bytes1(_message[0:TOKEN_TYPE_OFF_SET]))`: the left byte of the slice. -/
def tokenType (message : Bytes) : Except Revert U8 := do
  let bytes1 ← Except.ofOption .empty (Bytes.slice? message 0 tokenTypeOffset)
  return bytes1.headD 0

/-- `bytes32(_message[TOKEN_TYPE_OFF_SET:SENDER_OFFSET])`. -/
def sender (message : Bytes) : Except Revert Bytes32 :=
  Except.ofOption .empty (Bytes.array? 32 message tokenTypeOffset)

/-- `uint8(bytes1(_message[SENDER_OFFSET:PAYLOAD_OFFSET]))`. -/
def payloadType (message : Bytes) : Except Revert U8 := do
  let bytes1 ← Except.ofOption .empty (Bytes.slice? message senderOffset payloadOffset)
  return bytes1.headD 0

/-- `_message[PAYLOAD_OFFSET:]`. -/
def payload (message : Bytes) : Except Revert Bytes :=
  Except.ofOption .empty (Bytes.suffix? message payloadOffset)

/-- A message is read field by field; the first field that cannot be read reverts. -/
def decodeSolanaVaultMessage (message : Bytes) : Except Revert SolanaVaultMessage := do
  let tokenType ← tokenType message
  let token ← LedgerToken.ofUint8 tokenType
  let sender ← sender message
  let payloadType ← payloadType message
  let payload ← payload message
  return ⟨token, sender, payloadType, payload⟩

/-- `abi.encodePacked` of the fields. -/
def encodeSolanaLedgerMessage (message : SolanaLedgerMessage) : Bytes :=
  [message.token.toUint8] ++ message.receiver.toList ++ [message.payloadType] ++ message.payload

end SolanaProxyMsgCodec

/-- `abi.encode` of one word. -/
def abiEncodeUint256 (x : U256) : Bytes := x.toBeBytes

/-! ### What the codec computes -/

open SolanaProxyMsgCodec

/-- The fields of a message of the vault side, as they are packed. -/
def SolanaVaultMessage.frame (m : SolanaVaultMessage) : Frame :=
  ⟨m.token.toUint8, m.sender, m.payloadType, m.payload⟩

/-- The fields of a message to the proxy, as they are packed. -/
def SolanaLedgerMessage.frame (m : SolanaLedgerMessage) : Frame :=
  ⟨m.token.toUint8, m.receiver, m.payloadType, m.payload⟩

/-- **The encoding is the frame format.** -/
theorem encodeSolanaLedgerMessage_eq_bytes (m : SolanaLedgerMessage) :
    encodeSolanaLedgerMessage m = m.frame.bytes := by
  simp only [encodeSolanaLedgerMessage, SolanaLedgerMessage.frame, Frame.bytes,
    List.append_assoc, List.cons_append, List.nil_append]

section Fields

variable (f : Frame)

theorem tokenType_bytes : tokenType f.bytes = .ok f.token := by
  have hslice : Bytes.slice? f.bytes 0 tokenTypeOffset = some [f.token] :=
    Bytes.slice?_eq_some.mpr ⟨by decide, by rw [Frame.length_bytes, tokenTypeOffset]; omega, rfl⟩
  rw [tokenType, hslice]
  rfl

theorem sender_bytes : sender f.bytes = .ok f.address := by
  rw [sender, tokenTypeOffset, f.address_bytes, Except.ofOption_some]

theorem payloadType_bytes : payloadType f.bytes = .ok f.payloadType := by
  have hlen : f.address.toList.length = 32 := f.address.toList_length
  have hdrop : f.bytes.drop senderOffset = f.payloadType :: f.payload := by
    rw [Frame.bytes, senderOffset, tokenTypeOffset, List.drop_succ_cons, List.drop_append, hlen,
      List.drop_of_length_le (by omega)]
    rfl
  have hslice : Bytes.slice? f.bytes senderOffset payloadOffset = some [f.payloadType] := by
    refine Bytes.slice?_eq_some.mpr ⟨by decide, ?_, ?_⟩
    · rw [Frame.length_bytes, payloadOffset, payloadTypeOffset, senderOffset, tokenTypeOffset]
      omega
    · rw [hdrop]
      rfl
  rw [payloadType, hslice]
  rfl

theorem payload_bytes : payload f.bytes = .ok f.payload := by
  have hsuffix : Bytes.suffix? f.bytes payloadOffset = some f.payload := f.payload_bytes
  rw [payload, hsuffix, Except.ofOption_some]

/-- The bytes of a frame decode as far as the token byte is one of a token. -/
theorem decodeSolanaVaultMessage_bytes :
    decodeSolanaVaultMessage f.bytes = (LedgerToken.ofUint8 f.token).map fun token =>
      ⟨token, f.address, f.payloadType, f.payload⟩ := by
  simp only [decodeSolanaVaultMessage, tokenType_bytes, sender_bytes, payloadType_bytes,
    payload_bytes, Except.ok_bind]
  cases LedgerToken.ofUint8 f.token <;> rfl

end Fields

/-- **Decoding.** A byte string decodes to a message exactly when it is the packing of the
message's fields. -/
theorem decodeSolanaVaultMessage_eq_ok {bytes : Bytes} {m : SolanaVaultMessage} :
    decodeSolanaVaultMessage bytes = .ok m ↔ bytes = m.frame.bytes := by
  constructor
  · intro h
    have hlen : 34 ≤ bytes.length := by
      simp only [decodeSolanaVaultMessage, payload, Except.bind_eq_ok, Except.ofOption_eq_ok] at h
      obtain ⟨-, -, -, -, -, -, -, -, p, hp, -⟩ := h
      exact (Bytes.suffix?_eq_some.mp hp).1
    obtain ⟨f, rfl⟩ := Frame.exists_of_length hlen
    rw [decodeSolanaVaultMessage_bytes, Except.map_eq_ok] at h
    obtain ⟨token, htoken, rfl⟩ := h
    rw [SolanaVaultMessage.frame, ← LedgerToken.ofUint8_eq_ok.mp htoken]
  · rintro rfl
    have htoken : LedgerToken.ofUint8 m.frame.token = .ok m.token :=
      LedgerToken.ofUint8_eq_ok.mpr rfl
    rw [decodeSolanaVaultMessage_bytes, htoken]
    rfl

/-- A byte string decodes exactly when it has the fixed fields and a token byte. -/
theorem exists_decodeSolanaVaultMessage_iff {bytes : Bytes} :
    (∃ m, decodeSolanaVaultMessage bytes = .ok m) ↔
      34 ≤ bytes.length ∧ ∃ b, bytes[0]? = some b ∧ b ≤ 3 := by
  simp only [decodeSolanaVaultMessage_eq_ok]
  constructor
  · rintro ⟨m, rfl⟩
    refine ⟨?_, m.token.toUint8, rfl, LedgerToken.exists_toUint8_iff.mp ⟨m.token, rfl⟩⟩
    rw [Frame.length_bytes]
    omega
  · rintro ⟨hlen, b, hb, hle⟩
    obtain ⟨f, rfl⟩ := Frame.exists_of_length hlen
    obtain rfl : f.token = b := Option.some.inj hb
    obtain ⟨t, ht⟩ := LedgerToken.exists_toUint8_iff.mpr hle
    refine ⟨⟨t, f.address, f.payloadType, f.payload⟩, ?_⟩
    rw [SolanaVaultMessage.frame, ← ht]

end Ledger
