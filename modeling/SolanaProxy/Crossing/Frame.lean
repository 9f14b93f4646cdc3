import SolanaProxy.General.Bytes

/-!
# The message frame

The one wire format both directions use between the on-chain proxy and the ledger contract:
a token byte, a 32-byte address, a payload-type byte and the payload, with no length and no
separator. `Frame.parse` reads a byte string by these offsets and `parse_eq_some` says that
it succeeds exactly on the bytes of a frame, so parsing and writing are inverse to each
other and the format is unambiguous (`bytes_injective`).
-/

/-- The fields of a message. -/
structure Frame where
  token : Byte
  address : ByteArr 32
  payloadType : Byte
  payload : Bytes
deriving DecidableEq

namespace Frame

/-- The bytes of a message. -/
def bytes (f : Frame) : Bytes := f.token :: (f.address.toList ++ f.payloadType :: f.payload)

/-- The fields at their offsets, if the message is long enough. -/
def parse (m : Bytes) : Option Frame := do
  let token ← m[0]?
  let address ← Bytes.array? 32 m 1
  let payloadType ← m[33]?
  let payload ← Bytes.suffix? m 34
  return ⟨token, address, payloadType, payload⟩

theorem length_bytes (f : Frame) : f.bytes.length = 34 + f.payload.length := by
  simp only [bytes, List.length_cons, List.length_append, List.Vector.toList_length]
  omega

section Fields

variable (f : Frame)

theorem token_bytes : f.bytes[0]? = some f.token := rfl

theorem address_bytes : Bytes.array? 32 f.bytes 1 = some f.address :=
  Bytes.array?_append [f.token] f.address (f.payloadType :: f.payload)

theorem payloadType_bytes : f.bytes[33]? = some f.payloadType := by
  have hlen : f.address.toList.length = 32 := f.address.toList_length
  rw [bytes, List.getElem?_cons_succ, List.getElem?_append_right hlen.le, hlen]
  rfl

theorem payload_bytes : Bytes.suffix? f.bytes 34 = some f.payload := by
  have hlen : f.address.toList.length = 32 := f.address.toList_length
  refine Bytes.suffix?_eq_some.mpr ⟨?_, ?_⟩
  · rw [length_bytes]
    omega
  · rw [bytes, List.drop_succ_cons, List.drop_append, hlen, List.drop_of_length_le (by omega)]
    rfl

end Fields

/-- **Round trip.** The bytes of a frame parse back to the frame. -/
theorem parse_bytes (f : Frame) : parse f.bytes = some f := by
  simp only [parse, token_bytes, address_bytes, payloadType_bytes, payload_bytes,
    Option.bind_eq_bind, Option.bind_some]
  rfl

/-- A string of at least 34 bytes is the bytes of a frame. -/
theorem exists_of_length {m : Bytes} (h : 34 ≤ m.length) : ∃ f : Frame, m = f.bytes := by
  obtain ⟨token, rest, rfl⟩ : ∃ t r, m = t :: r := by
    cases m with
    | nil => simp at h
    | cons t r => exact ⟨t, r, rfl⟩
  rw [List.length_cons] at h
  have hlen : (rest.take 32).length = 32 := List.length_take_of_le (by omega)
  obtain ⟨payloadType, payload, htail⟩ : ∃ y p, rest.drop 32 = y :: p := by
    refine List.exists_cons_of_length_pos ?_
    rw [List.length_drop]
    omega
  refine ⟨⟨token, ⟨rest.take 32, hlen⟩, payloadType, payload⟩, ?_⟩
  rw [bytes, ← htail, List.Vector.toList_mk, List.take_append_drop]

/-- **Unambiguous format.** A byte string parses to a frame exactly when it is its bytes. -/
theorem parse_eq_some {m : Bytes} {f : Frame} : parse m = some f ↔ m = f.bytes := by
  constructor
  · intro h
    have hlen : 34 ≤ m.length := by
      simp only [parse, Option.bind_eq_bind, Option.bind_eq_some_iff] at h
      obtain ⟨_, _, _, _, _, _, _, hsuffix, _⟩ := h
      exact (Bytes.suffix?_eq_some.mp hsuffix).1
    obtain ⟨g, rfl⟩ := exists_of_length hlen
    rw [parse_bytes, Option.some.injEq] at h
    rw [h]
  · rintro rfl
    exact parse_bytes f

theorem parse_eq_none {m : Bytes} : parse m = none ↔ m.length < 34 := by
  constructor
  · intro h
    by_contra hlen
    obtain ⟨f, rfl⟩ := exists_of_length (Nat.le_of_not_lt hlen)
    rw [parse_bytes] at h
    cases h
  · intro hlen
    cases h : parse m with
    | none => rfl
    | some f =>
      have hf : m.length = 34 + f.payload.length := by
        rw [parse_eq_some.mp h, length_bytes]
      omega

theorem bytes_injective : Function.Injective bytes := by
  intro f g h
  have hg : parse f.bytes = some g := by rw [h, parse_bytes]
  rw [parse_bytes] at hg
  exact Option.some.inj hg

end Frame
