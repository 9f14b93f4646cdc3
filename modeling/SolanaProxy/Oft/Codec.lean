import SolanaProxy.Solana.Account

/-!
# The OFT message codec

A message of the OFT is a recipient, an amount and an optional part to compose. The amount is
a 256-bit field that holds `10 ^ 8` for each shared unit. Reading it keeps the low half of the
field, divides, and keeps the low 64 bits of the quotient: `toNat_bytes32ToU64` says so over the
natural numbers, and `amountField_encode` what is written.

The part to compose is handed on in an envelope of its own, `ComposeMsgCodec`. Neither codec
writes a length: what is composed is the rest of the string, and whether anything is composed is
told by the length of the message alone. `codec_round_trip` reads both back.
-/

namespace Oft

open Solana

namespace MsgCodec

/-- Where the receiver starts. -/
def sendToOffset : ℕ := 0

/-- Where the amount starts. -/
def sendAmountSdOffset : ℕ := 32

/-- Where the part to compose starts: its sender, then the payload. -/
def composeMsgOffset : ℕ := 64

/-- The decimals of the field beyond those of the amount, `18 - 10`. -/
def dustDecimals : ℕ := 8

/-- `10u64.pow(DUST_DECIMALS) as u128`. -/
def dustRate : U128 := BitVec.ofNat 128 (10 ^ dustDecimals)

/-- The product stays below `2 ^ 128`; see `toNat_mul_dustRate`. -/
def u64ToBytes32 (value : U64) : ByteArr 32 :=
  ⟨List.replicate 16 0 ++ (value.setWidth 128 * dustRate).toBeBytes, by
    rw [List.length_append, List.length_replicate, BitVec.length_toBeBytes]⟩

/-- The high half of the field, and its low half without the dust, as 64 bits. -/
def bytes32ToU64 (value : ByteArr 32) : U128 × U64 :=
  let zeroPadding := BitVec.fromBeBytes 128 (value.toList.take 16)
  let valueU128 := BitVec.fromBeBytes 128 (value.toList.drop 16)
  let valueWithoutDust := valueU128 / dustRate
  (zeroPadding, valueWithoutDust.setWidth 64)

/-- Receiver and amount, then what is to be composed and by whom, if anything. -/
def encode (sendTo : ByteArr 32) (amountSd : U64) (sender : Pubkey) (composeMsg : Option Bytes) :
    Bytes :=
  match composeMsg with
  | some msg => sendTo.toList ++ (u64ToBytes32 amountSd).toList ++ sender.toList ++ msg
  | none => sendTo.toList ++ (u64ToBytes32 amountSd).toList

/-- The receiver. -/
def sendTo (message : Bytes) : Option (ByteArr 32) := Bytes.array? 32 message sendToOffset

/-- The amount in shared decimals. -/
def amountSd (message : Bytes) : Option U64 := do
  let amountSdBytes ← Bytes.array? 32 message sendAmountSdOffset
  let (_, amountSd) := bytes32ToU64 amountSdBytes
  return amountSd

/-- The part to compose, if the message is longer than receiver and amount. -/
def composeMsg (message : Bytes) : Option Bytes :=
  if composeMsgOffset < message.length then some (message.drop composeMsgOffset) else none

/-- The amount field as a number. -/
def amountField (message : Bytes) : Option ℕ :=
  (Bytes.array? 32 message sendAmountSdOffset).map fun b => BigEndian.decode b.toList

/-! ### What the codec computes -/

theorem toNat_dustRate : dustRate.toNat = 10 ^ 8 := rfl

/-- The scaled amount is exact. -/
theorem toNat_mul_dustRate (value : U64) :
    (value.setWidth 128 * dustRate).toNat = value.toNat * 10 ^ 8 := by
  have hlt : value.toNat < 2 ^ 64 := value.isLt
  have hwidth : (value.setWidth 128).toNat = value.toNat := by
    rw [BitVec.toNat_setWidth, Nat.mod_eq_of_lt (by omega)]
  rw [BitVec.toNat_mul, hwidth, toNat_dustRate, Nat.mod_eq_of_lt (by omega)]

/-- **What is written** is the amount times `10 ^ 8`. -/
theorem decode_u64ToBytes32 (value : U64) :
    BigEndian.decode (u64ToBytes32 value).toList = value.toNat * 10 ^ 8 := by
  rw [u64ToBytes32, List.Vector.toList_mk, BigEndian.decode_append,
    BigEndian.decode_replicate_zero, zero_mul, zero_add, BitVec.decode_toBeBytes (by decide),
    toNat_mul_dustRate]

/-- **What is read** is the quotient of the low half, in 64 bits. -/
theorem toNat_bytes32ToU64 (value : ByteArr 32) :
    (bytes32ToU64 value).2.toNat =
      BigEndian.decode value.toList % 2 ^ 128 / 10 ^ 8 % 2 ^ 64 := by
  have hlen : value.toList.length = 32 := value.toList_length
  have hsplit : BigEndian.decode value.toList =
      BigEndian.decode (value.toList.take 16) * 256 ^ 16 +
        BigEndian.decode (value.toList.drop 16) := by
    have happ : value.toList = value.toList.take 16 ++ value.toList.drop 16 :=
      (List.take_append_drop _ _).symm
    conv_lhs => rw [happ]
    rw [BigEndian.decode_append, List.length_drop, hlen]
  have hlow : BigEndian.decode value.toList % 2 ^ 128 =
      BigEndian.decode (value.toList.drop 16) % 2 ^ 128 := by
    rw [hsplit]
    omega
  rw [hlow]
  simp only [bytes32ToU64, BitVec.toNat_setWidth, BitVec.toNat_udiv, BitVec.toNat_fromBeBytes,
    toNat_dustRate]

/-- **Amounts read.** A message has an amount exactly when it has the field, and the amount is
read from the low half of the field. -/
theorem amountSd_eq_some {message : Bytes} {a : U64} (h : amountSd message = some a) :
    ∃ field, amountField message = some field ∧ a.toNat = field % 2 ^ 128 / 10 ^ 8 % 2 ^ 64 := by
  simp only [amountSd, Option.bind_eq_bind, Option.bind_eq_some_iff, Option.pure_def,
    Option.some.injEq] at h
  obtain ⟨b, hb, rfl⟩ := h
  refine ⟨BigEndian.decode b.toList, ?_, toNat_bytes32ToU64 b⟩
  rw [amountField, hb, Option.map_some]

theorem exists_amountSd {message : Bytes} {field : ℕ} (h : amountField message = some field) :
    ∃ a, amountSd message = some a := by
  obtain ⟨b, hb, -⟩ := Option.map_eq_some_iff.mp h
  refine ⟨(bytes32ToU64 b).2, ?_⟩
  rw [amountSd, hb]
  rfl

/-- The field of a message of 64 bytes or more. -/
theorem exists_amountField {message : Bytes} (h : 64 ≤ message.length) :
    ∃ field, amountField message = some field := by
  have hlen : ((message.drop 32).take 32).length = 32 := by
    rw [List.length_take, List.length_drop]
    omega
  have harray : ∃ b, Bytes.array? 32 message sendAmountSdOffset = some b := by
    refine ⟨⟨(message.drop 32).take 32, hlen⟩,
      Bytes.array?_eq_some.mpr ⟨message.take 32, message.drop 64, ?_, ?_⟩⟩
    · have hdrop : message.drop 64 = (message.drop 32).drop 32 := by rw [List.drop_drop]
      rw [List.Vector.toList_mk, hdrop, List.append_assoc, List.take_append_drop,
        List.take_append_drop]
    · rw [List.length_take, sendAmountSdOffset]
      omega
  obtain ⟨b, hb⟩ := harray
  exact ⟨BigEndian.decode b.toList, by rw [amountField, hb, Option.map_some]⟩

/-- The parts of an encoded message; only its length tells whether something is composed. -/
theorem encode_eq_append (to' : ByteArr 32) (a : U64) (sender : Pubkey)
    (composed : Option Bytes) :
    encode to' a sender composed =
      to'.toList ++ (u64ToBytes32 a).toList ++ (composed.map (sender.toList ++ ·)).getD [] := by
  cases composed with
  | none => exact (List.append_nil _).symm
  | some msg =>
    rw [Option.map_some, Option.getD_some, ← List.append_assoc]
    rfl

/-- **The field of an encoded message** holds the amount times `10 ^ 8`. -/
theorem amountField_encode (to' : ByteArr 32) (a : U64) (sender : Pubkey)
    (composed : Option Bytes) :
    amountField (encode to' a sender composed) = some (a.toNat * 10 ^ 8) := by
  have harray : Bytes.array? 32 (encode to' a sender composed) sendAmountSdOffset =
      some (u64ToBytes32 a) :=
    Bytes.array?_eq_some.mpr ⟨to'.toList, _, encode_eq_append .., to'.toList_length⟩
  rw [amountField, harray, Option.map_some, decode_u64ToBytes32]

/-- **Round trip.** The amount read from an encoded message is the one written. -/
theorem amountSd_encode (to' : ByteArr 32) (a : U64) (sender : Pubkey) (composed : Option Bytes) :
    amountSd (encode to' a sender composed) = some a := by
  have hfield := amountField_encode to' a sender composed
  obtain ⟨a', ha'⟩ := exists_amountSd hfield
  obtain ⟨field, hfield', hvalue⟩ := amountSd_eq_some ha'
  have hlt : a.toNat < 2 ^ 64 := a.isLt
  have hfits : a.toNat * 10 ^ 8 < 2 ^ 128 := by omega
  have hsame : field = a.toNat * 10 ^ 8 := Option.some.inj (hfield'.symm.trans hfield)
  have heq : a' = a := by
    rw [← BitVec.toNat_inj, hvalue, hsame, Nat.mod_eq_of_lt hfits,
      Nat.mul_div_cancel _ (by decide), Nat.mod_eq_of_lt hlt]
  rw [ha', heq]

/-- The recipient read from an encoded message is the one written. -/
theorem sendTo_encode (to' : ByteArr 32) (a : U64) (sender : Pubkey) (composed : Option Bytes) :
    sendTo (encode to' a sender composed) = some to' := by
  have hsplit := encode_eq_append to' a sender composed
  rw [List.append_assoc] at hsplit
  exact Bytes.array?_eq_some.mpr ⟨[], _, hsplit, rfl⟩

/-- The part to compose is read exactly when one was written, with its sender in front. -/
theorem composeMsg_encode (to' : ByteArr 32) (a : U64) (sender : Pubkey)
    (composed : Option Bytes) :
    composeMsg (encode to' a sender composed) = composed.map (sender.toList ++ ·) := by
  have hhead : (to'.toList ++ (u64ToBytes32 a).toList).length = composeMsgOffset := by
    rw [List.length_append, to'.toList_length, (u64ToBytes32 a).toList_length]
    rfl
  rw [composeMsg, encode_eq_append, List.length_append, hhead]
  cases composed with
  | none => exact if_neg (Nat.lt_irrefl _)
  | some msg =>
    -- the sender alone makes the message longer than its head
    have hlen : (sender.toList ++ msg).length = 32 + msg.length := by
      rw [List.length_append, sender.toList_length]
    rw [Option.map_some, Option.getD_some, if_pos (by omega), ← hhead, List.drop_left]

/-- **Injectivity.** A message determines the recipient, the amount and, if something is
composed, its sender and what it is. -/
theorem encode_inj {to' to'' : ByteArr 32} {a a' : U64} {sender sender' : Pubkey}
    {composed composed' : Option Bytes} :
    encode to' a sender composed = encode to'' a' sender' composed' ↔
      to' = to'' ∧ a = a' ∧ composed.map (sender, ·) = composed'.map (sender', ·) := by
  constructor
  · intro h
    have hto := congrArg sendTo h
    have hamount := congrArg amountSd h
    have hcomposed := congrArg composeMsg h
    rw [sendTo_encode, sendTo_encode, Option.some.injEq] at hto
    rw [amountSd_encode, amountSd_encode, Option.some.injEq] at hamount
    rw [composeMsg_encode, composeMsg_encode] at hcomposed
    refine ⟨hto, hamount, ?_⟩
    cases composed <;> cases composed'
    case none.none => rfl
    case some.some msg msg' =>
      -- both senders have 32 bytes
      obtain ⟨hsender, hmsg⟩ := List.append_inj (Option.some.inj hcomposed) (by simp)
      rw [List.Vector.toList_injective hsender, hmsg]
    all_goals cases hcomposed
  · rintro ⟨rfl, rfl, h⟩
    cases composed <;> cases composed'
    case none.none => rfl
    case some.some msg msg' =>
      obtain ⟨rfl, rfl⟩ := Prod.mk.inj (Option.some.inj h)
      rfl
    all_goals cases h

end MsgCodec

namespace ComposeMsgCodec

/-- Where the nonce starts. -/
def nonceOffset : ℕ := 0

/-- Where the source endpoint id starts. -/
def srcEidOffset : ℕ := 8

/-- Where the amount starts. -/
def amountLdOffset : ℕ := 12

/-- Where the sender of the composed message starts. -/
def composeFromOffset : ℕ := 20

/-- Where the composed message starts. -/
def composeMsgOffset : ℕ := 52

/-- The part handed on for composing: nonce, source, amount, then who composed and what. -/
def encode (nonce : U64) (srcEid : U32) (amountLd : U64) (composeMsg : Bytes) : Bytes :=
  nonce.toBeBytes ++ srcEid.toBeBytes ++ amountLd.toBeBytes ++ composeMsg

/-- The nonce of the message the part came with. -/
def nonce (message : Bytes) : Option U64 :=
  (Bytes.slice? message nonceOffset srcEidOffset).map (BitVec.fromBeBytes 64)

/-- The endpoint id it came from. -/
def srcEid (message : Bytes) : Option U32 :=
  (Bytes.slice? message srcEidOffset amountLdOffset).map (BitVec.fromBeBytes 32)

/-- The amount that arrived, in local decimals. -/
def amountLd (message : Bytes) : Option U64 :=
  (Bytes.slice? message amountLdOffset composeFromOffset).map (BitVec.fromBeBytes 64)

/-- Who asked for the composing. -/
def composeFrom (message : Bytes) : Option (ByteArr 32) :=
  (Bytes.slice? message composeFromOffset composeMsgOffset).bind (Bytes.toArr? 32)

/-- What is composed; nothing if the bytes end before it. -/
def composeMsg (message : Bytes) : Bytes :=
  if composeMsgOffset < message.length then message.drop composeMsgOffset else []

section RoundTrip

variable (n : U64) (eid : U32) (a : U64) (sender : Pubkey) (body : Bytes)

theorem nonce_encode : nonce (encode n eid a body) = some n := by
  have hsplit : encode n eid a body =
      [] ++ n.toBeBytes ++ (eid.toBeBytes ++ a.toBeBytes ++ body) := by
    simp only [encode, List.nil_append, List.append_assoc]
  exact Bytes.map_fromBeBytes_slice? (by decide) hsplit rfl rfl

theorem srcEid_encode : srcEid (encode n eid a body) = some eid := by
  have hsplit : encode n eid a body =
      n.toBeBytes ++ eid.toBeBytes ++ (a.toBeBytes ++ body) := by
    simp only [encode, List.append_assoc]
  exact Bytes.map_fromBeBytes_slice? (by decide) hsplit n.length_toBeBytes rfl

theorem amountLd_encode : amountLd (encode n eid a body) = some a :=
  Bytes.map_fromBeBytes_slice? (p := n.toBeBytes ++ eid.toBeBytes) (by decide) rfl
    (by simp [amountLdOffset]) rfl

/-- Behind the envelope's own 20 bytes come the 32 of the sender. -/
theorem composeFrom_encode :
    composeFrom (encode n eid a (sender.toList ++ body)) = some sender := by
  have hsplit : encode n eid a (sender.toList ++ body) =
      (n.toBeBytes ++ eid.toBeBytes ++ a.toBeBytes) ++ sender.toList ++ body := by
    simp only [encode, List.append_assoc]
  have harray : Bytes.array? 32 (encode n eid a (sender.toList ++ body)) composeFromOffset =
      some sender :=
    Bytes.array?_eq_some.mpr ⟨_, body, hsplit, by simp [composeFromOffset]⟩
  exact harray

/-- An empty payload reads as nothing left, which is the empty payload. -/
theorem composeMsg_encode : composeMsg (encode n eid a (sender.toList ++ body)) = body := by
  have hsplit : encode n eid a (sender.toList ++ body) =
      (n.toBeBytes ++ eid.toBeBytes ++ a.toBeBytes ++ sender.toList) ++ body := by
    simp only [encode, List.append_assoc]
  have hhead : (n.toBeBytes ++ eid.toBeBytes ++ a.toBeBytes ++ sender.toList).length =
      composeMsgOffset := by
    simp [composeMsgOffset]
  rw [composeMsg, hsplit, List.length_append, hhead]
  split
  case isTrue => rw [← hhead, List.drop_left]
  case isFalse hle => exact (List.eq_nil_of_length_eq_zero (by omega)).symm

end RoundTrip

end ComposeMsgCodec

/-- **Round trips.** A message reads back as what was written: the recipient, the amount and,
exactly when something is composed, its sender followed by it; and no two messages that differ
in one of these are equal. What is composed can be wrapped with any nonce, source and amount and
read back, down to its sender and to its payload. -/
theorem codec_round_trip (to' : ByteArr 32) (a : U64) (sender : Pubkey)
    (payload : Option Bytes) :
    let message := MsgCodec.encode to' a sender payload
    MsgCodec.sendTo message = some to' ∧ MsgCodec.amountSd message = some a ∧
    MsgCodec.composeMsg message = payload.map (sender.toList ++ ·) ∧
    (∀ to'' a' sender' payload', MsgCodec.encode to'' a' sender' payload' = message ↔
      to'' = to' ∧ a' = a ∧ payload'.map (sender', ·) = payload.map (sender, ·)) ∧
    ∀ nonce srcEid amountLd,
      (MsgCodec.composeMsg message).map (fun composed =>
        let envelope := ComposeMsgCodec.encode nonce srcEid amountLd composed
        (ComposeMsgCodec.nonce envelope, ComposeMsgCodec.srcEid envelope,
          ComposeMsgCodec.amountLd envelope, ComposeMsgCodec.composeFrom envelope,
          ComposeMsgCodec.composeMsg envelope)) =
      payload.map fun p => (some nonce, some srcEid, some amountLd, some sender, p) := by
  intro message
  have hcomposed : MsgCodec.composeMsg message = payload.map (sender.toList ++ ·) :=
    MsgCodec.composeMsg_encode to' a sender payload
  refine ⟨MsgCodec.sendTo_encode .., MsgCodec.amountSd_encode .., hcomposed,
    fun _ _ _ _ => MsgCodec.encode_inj, fun nonce srcEid amountLd => ?_⟩
  rw [hcomposed, Option.map_map]
  refine Option.map_congr fun p _ => ?_
  simp only [Function.comp, ComposeMsgCodec.nonce_encode, ComposeMsgCodec.srcEid_encode,
    ComposeMsgCodec.amountLd_encode, ComposeMsgCodec.composeFrom_encode,
    ComposeMsgCodec.composeMsg_encode]

end Oft
