import SolanaProxy.Crossing.Frame
import SolanaProxy.Solana.Account

/-!
# The proxy's message codec

The message types of `msg_codec.rs`. A message to the ledger is written by
`SolanaVaultOCCMessage.encode`; a message from the ledger is read by offsets in
`SolanaLedgerOCCMessage.decode`, which fails where the source would panic on a short slice.
Both are the frame format: `encode_eq_bytes` and `decode_eq_some`.
-/

namespace Proxy

open Solana

/-- The token a message is about. -/
inductive TokenType where
  | order
  | esorder
  | usdc
  | placeholder
deriving DecidableEq

namespace TokenType

/-- `as u8`. -/
def toU8 : TokenType → U8
  | order => 0
  | esorder => 1
  | usdc => 2
  | placeholder => 3

/-- The tokens a message from the ledger may be about. -/
def checkLedgerTokenType : TokenType → Bool
  | usdc => true
  | _ => false

/-- The token of a token byte. -/
def ofU8 (value : U8) : TokenType :=
  match value with
  | 0 => order
  | 1 => esorder
  | 2 => usdc
  | _ => placeholder

end TokenType

/-- The type of a payload. -/
inductive PayloadType where
  | claimReward
  | stake
  | createOrderUnstakeRequest
  | cancelOrderUnstakeRequest
  | withdrawOrder
  | esOrderUnstakeAndVest
  | cancelVestingRequest
  | cancelAllVestingRequests
  | claimVestingRequest
  | redeemValor
  | claimUsdcRevenue
  | claimRewardBackward
  | withdrawOrderBackward
  | claimVestingRequestBackward
  | claimUsdcRevenueBackward
  | unstakeOrderNow
  | claimRewardSolana
  | placeholder
deriving DecidableEq

namespace PayloadType

/-- `as u8`. -/
def toU8 : PayloadType → U8
  | claimReward => 0
  | stake => 1
  | createOrderUnstakeRequest => 2
  | cancelOrderUnstakeRequest => 3
  | withdrawOrder => 4
  | esOrderUnstakeAndVest => 5
  | cancelVestingRequest => 6
  | cancelAllVestingRequests => 7
  | claimVestingRequest => 8
  | redeemValor => 9
  | claimUsdcRevenue => 10
  | claimRewardBackward => 11
  | withdrawOrderBackward => 12
  | claimVestingRequestBackward => 13
  | claimUsdcRevenueBackward => 14
  | unstakeOrderNow => 15
  | claimRewardSolana => 16
  | placeholder => 17

/-- The type of a type byte. -/
def fromU8 (value : U8) : PayloadType :=
  match value with
  | 0 => claimReward
  | 1 => stake
  | 2 => createOrderUnstakeRequest
  | 3 => cancelOrderUnstakeRequest
  | 4 => withdrawOrder
  | 5 => esOrderUnstakeAndVest
  | 6 => cancelVestingRequest
  | 7 => cancelAllVestingRequests
  | 8 => claimVestingRequest
  | 9 => redeemValor
  | 10 => claimUsdcRevenue
  | 11 => claimRewardBackward
  | 12 => withdrawOrderBackward
  | 13 => claimVestingRequestBackward
  | 14 => claimUsdcRevenueBackward
  | 15 => unstakeOrderNow
  | 16 => claimRewardSolana
  | _ => placeholder

/-- Every message of the proxy to the ledger carries the placeholder token. -/
def getTokenType : PayloadType → TokenType
  | _ => .placeholder

/-- The types a claim is sent with. -/
def checkClaimPayloadType : PayloadType → Bool
  | claimRewardSolana => true
  | _ => false

/-- The types a request may have. -/
def checkRequestPayloadType : PayloadType → Bool
  | createOrderUnstakeRequest => true
  | cancelOrderUnstakeRequest => true
  | withdrawOrder => true
  | esOrderUnstakeAndVest => true
  | cancelVestingRequest => true
  | cancelAllVestingRequests => false
  | claimVestingRequest => true
  | redeemValor => true
  | claimUsdcRevenue => true
  | unstakeOrderNow => true
  | _ => false

/-- The types a message from the ledger may have. -/
def checkLedgerPayloadType : PayloadType → Bool
  | claimUsdcRevenueBackward => true
  | _ => false

/-- The byte of a type reads back as the type. -/
@[simp]
theorem fromU8_toU8 (t : PayloadType) : fromU8 t.toU8 = t := by cases t <;> rfl

/-- A byte that reads as a type other than the placeholder is the byte of that type. -/
theorem toU8_fromU8 {b : U8} (h : fromU8 b ≠ placeholder) : (fromU8 b).toU8 = b := by
  generalize hb : fromU8 b = t at h ⊢
  unfold fromU8 at hb
  split at hb <;> subst hb <;> first | rfl | exact absurd rfl h

/-- Request types are read from their own bytes only. -/
theorem toU8_fromU8_of_request {b : U8} (h : (fromU8 b).checkRequestPayloadType = true) :
    (fromU8 b).toU8 = b := by
  refine toU8_fromU8 fun hb => ?_
  rw [hb] at h
  cases h

/-- Reading a byte as a given type pins the byte. -/
theorem fromU8_eq_iff {b : U8} {t : PayloadType} (ht : t ≠ placeholder) :
    fromU8 b = t ↔ b = t.toU8 := by
  constructor
  · rintro rfl
    exact (toU8_fromU8 ht).symm
  · rintro rfl
    exact fromU8_toU8 t

end PayloadType

/-! ### Messages to the ledger -/

/-- A message of the proxy to the ledger. -/
structure SolanaVaultOCCMessage where
  token : U8
  sender : Pubkey
  payloadType : U8
  payload : Bytes
deriving DecidableEq

namespace SolanaVaultOCCMessage

/-- The fields one after the other. -/
def encode (m : SolanaVaultOCCMessage) : Bytes :=
  [m.token] ++ m.sender.toList ++ [m.payloadType] ++ m.payload

/-- The message as a frame. -/
def frame (m : SolanaVaultOCCMessage) : Frame := ⟨m.token, m.sender, m.payloadType, m.payload⟩

/-- **The encoding is the frame format.** -/
theorem encode_eq_bytes (m : SolanaVaultOCCMessage) : m.encode = m.frame.bytes := by
  simp only [encode, frame, Frame.bytes, List.append_assoc, List.cons_append, List.nil_append]

theorem encode_injective : Function.Injective encode := by
  intro m m' h
  rw [encode_eq_bytes, encode_eq_bytes] at h
  have hframe : m.frame = m'.frame := Frame.bytes_injective h
  cases m
  cases m'
  injection hframe with h₁ h₂ h₃ h₄
  subst h₁ h₂ h₃ h₄
  rfl

end SolanaVaultOCCMessage

/-! ### Messages from the ledger -/

/-- A message of the ledger to the proxy. -/
structure SolanaLedgerOCCMessage where
  token : TokenType
  receiver : Pubkey
  payloadType : PayloadType
  payload : Bytes
deriving DecidableEq

namespace SolanaLedgerOCCMessage

/-- `TOKEN_TYPE_OFFSET`: where the token byte ends. -/
def tokenTypeOffset : ℕ := 1

/-- `RECEIVER_OFFSET`: where the receiver ends. -/
def receiverOffset : ℕ := tokenTypeOffset + 32

/-- `PAYLOAD_TYPE_OFFSET`: where the type byte ends. -/
def payloadTypeOffset : ℕ := receiverOffset + 1

/-- The token byte `message[0..TOKEN_TYPE_OFFSET]`. -/
def getTokenType (message : Bytes) : Option TokenType := do
  let tokenType ← message[0]?
  return TokenType.ofU8 tokenType

/-- The bytes `message[TOKEN_TYPE_OFFSET..RECEIVER_OFFSET]`. -/
def getReceiver (message : Bytes) : Option Pubkey := Bytes.array? 32 message tokenTypeOffset

/-- The type byte `message[RECEIVER_OFFSET..PAYLOAD_TYPE_OFFSET]`. -/
def getPayloadType (message : Bytes) : Option PayloadType := do
  let payloadType ← message[receiverOffset]?
  return PayloadType.fromU8 payloadType

/-- The bytes `message[PAYLOAD_TYPE_OFFSET..]`. -/
def getPayload (message : Bytes) : Option Bytes := Bytes.suffix? message payloadTypeOffset

/-- The last eight bytes of the amount, `amount_bytes[32 - 8..32]`. -/
def getUsdcAmount (amountBytes : ByteArr 32) : U64 :=
  BitVec.fromBeBytes 64 (amountBytes.toList.drop (32 - 8))

/-- The fields, where the message reaches up to the payload. -/
def decode (message : Bytes) : Option SolanaLedgerOCCMessage := do
  let tokenType ← getTokenType message
  let receiver ← getReceiver message
  let payloadType ← getPayloadType message
  let payload ← getPayload message
  return ⟨tokenType, receiver, payloadType, payload⟩

/-- The message a frame reads as. -/
def ofFrame (f : Frame) : SolanaLedgerOCCMessage :=
  ⟨TokenType.ofU8 f.token, f.address, PayloadType.fromU8 f.payloadType, f.payload⟩

theorem decode_eq_map (message : Bytes) : decode message = (Frame.parse message).map ofFrame := by
  simp only [decode, getTokenType, getReceiver, getPayloadType, getPayload, Frame.parse,
    tokenTypeOffset, receiverOffset, payloadTypeOffset, Option.bind_eq_bind, Option.map_bind,
    Option.bind_assoc, Option.pure_def, Option.bind_some, Function.comp_def]
  rfl

/-- **Decoding.** A byte string decodes exactly when it is the bytes of a frame, to what the
frame reads as. -/
theorem decode_eq_some {message : Bytes} {m : SolanaLedgerOCCMessage} :
    decode message = some m ↔ ∃ f : Frame, message = f.bytes ∧ ofFrame f = m := by
  rw [decode_eq_map, Option.map_eq_some_iff]
  exact exists_congr fun f => and_congr_left fun _ => Frame.parse_eq_some

theorem decode_bytes (f : Frame) : decode f.bytes = some (ofFrame f) :=
  decode_eq_some.mpr ⟨f, rfl, rfl⟩

theorem getReceiver_bytes (f : Frame) : getReceiver f.bytes = some f.address := f.address_bytes

/-- The amount read is the last eight bytes of the whole number. -/
theorem toNat_getUsdcAmount (amountBytes : ByteArr 32) :
    (getUsdcAmount amountBytes).toNat = BigEndian.decode amountBytes.toList % 2 ^ 64 := by
  have hlen : amountBytes.toList.length = 32 := amountBytes.toList_length
  have hsplit : BigEndian.decode amountBytes.toList =
      BigEndian.decode (amountBytes.toList.take (32 - 8)) * 256 ^ 8 +
        BigEndian.decode (amountBytes.toList.drop (32 - 8)) := by
    have happ : amountBytes.toList =
        amountBytes.toList.take (32 - 8) ++ amountBytes.toList.drop (32 - 8) :=
      (List.take_append_drop _ _).symm
    conv_lhs => rw [happ]
    rw [BigEndian.decode_append, List.length_drop, hlen]
  rw [getUsdcAmount, BitVec.toNat_fromBeBytes, hsplit]
  omega

end SolanaLedgerOCCMessage

end Proxy
