import Mathlib.Data.List.Induction
import Mathlib.Data.Vector.Basic
import Mathlib.Tactic.Ring

/-!
# Byte strings and big-endian numbers

Byte strings are lists of bytes and fixed-size byte arrays are length-indexed vectors.
`BigEndian.encode w n` writes the low `w` bytes of `n`, most significant first, and
`BigEndian.decode` reads a byte string of any length back as a natural number. The laws
are the round trip (`decode_encode`, as `n % 256 ^ w`), the concatenation law `decode_append`,
and that leading zero bytes count for nothing (`decode_replicate_zero`).

Slicing is partial: `Bytes.slice?` returns `none` exactly where indexing past the end of
the string would abort, and `Bytes.array?` reads a fixed-size array at an offset.
-/

/-- A byte. -/
abbrev Byte := UInt8

/-- A byte string of any length. -/
abbrev Bytes := List Byte

/-- A byte array of fixed length `n`. -/
abbrev ByteArr (n : ℕ) := List.Vector Byte n

namespace BigEndian

/-- The `w` big-endian bytes of `n`; everything above `256 ^ w` is dropped. -/
def encode : ℕ → ℕ → Bytes
  | 0, _ => []
  | w + 1, n => encode w (n / 256) ++ [UInt8.ofNat n]

/-- The number with the given big-endian bytes. -/
def decode (l : Bytes) : ℕ := l.foldl (fun acc b => acc * 256 + b.toNat) 0

@[simp] theorem encode_zero (n : ℕ) : encode 0 n = [] := rfl

@[simp] theorem decode_nil : decode [] = 0 := rfl

@[simp]
theorem length_encode (w n : ℕ) : (encode w n).length = w := by
  induction w generalizing n with
  | zero => rfl
  | succ w ih => simp [encode, ih]

/-- One more least significant byte. -/
theorem decode_concat (l : Bytes) (b : Byte) : decode (l ++ [b]) = decode l * 256 + b.toNat := by
  simp [decode, List.foldl_append]

/-- **Concatenation.** The left part is shifted by the bytes of the right part. -/
theorem decode_append (l r : Bytes) :
    decode (l ++ r) = decode l * 256 ^ r.length + decode r := by
  induction r using List.reverseRecOn with
  | nil => simp
  | append_singleton r b ih =>
    rw [← List.append_assoc, decode_concat, decode_concat, ih, List.length_append,
      List.length_singleton, pow_succ]
    ring

@[simp]
theorem decode_replicate_zero (n : ℕ) : decode (List.replicate n 0) = 0 := by
  induction n with
  | zero => rfl
  | succ n ih => rw [List.replicate_succ', decode_concat, ih]; rfl

/-- Writing and reading keeps the representable low bytes. -/
theorem decode_encode (w n : ℕ) : decode (encode w n) = n % 256 ^ w := by
  induction w generalizing n with
  | zero => simp [Nat.mod_one]
  | succ w ih =>
    have hb : (UInt8.ofNat n).toNat = n % 256 := UInt8.toNat_ofNat'
    have hmod : n % 256 ^ (w + 1) = n % 256 + 256 * (n / 256 % 256 ^ w) := by
      rw [pow_succ', Nat.mod_mul]
    rw [encode, decode_concat, ih, hb, hmod]
    omega

theorem decode_encode_of_lt {w n : ℕ} (h : n < 256 ^ w) : decode (encode w n) = n := by
  rw [decode_encode, Nat.mod_eq_of_lt h]

end BigEndian

namespace BitVec

variable {w : ℕ}

/-- The big-endian bytes of a machine integer. -/
def toBeBytes (x : BitVec w) : Bytes := BigEndian.encode (w / 8) x.toNat

/-- The machine integer with the given big-endian bytes. -/
def fromBeBytes (w : ℕ) (l : Bytes) : BitVec w := BitVec.ofNat w (BigEndian.decode l)

@[simp]
theorem length_toBeBytes (x : BitVec w) : x.toBeBytes.length = w / 8 :=
  BigEndian.length_encode _ _

/-- The big-endian bytes of a machine integer as an array. -/
def toBeArr (x : BitVec w) : ByteArr (w / 8) := ⟨x.toBeBytes, x.length_toBeBytes⟩

/-- Widths that are a whole number of bytes lose nothing on the way through bytes. -/
theorem decode_toBeBytes (hw : 8 * (w / 8) = w) (x : BitVec w) :
    BigEndian.decode x.toBeBytes = x.toNat := by
  refine BigEndian.decode_encode_of_lt ?_
  have hpow : (256 : ℕ) ^ (w / 8) = 2 ^ w := by
    rw [show (256 : ℕ) = 2 ^ 8 by norm_num, ← pow_mul, hw]
  rw [hpow]
  exact x.isLt

theorem fromBeBytes_toBeBytes (hw : 8 * (w / 8) = w) (x : BitVec w) :
    fromBeBytes w x.toBeBytes = x := by
  rw [fromBeBytes, decode_toBeBytes hw, BitVec.ofNat_toNat, BitVec.setWidth_eq]

theorem toBeBytes_injective (hw : 8 * (w / 8) = w) {x y : BitVec w}
    (h : x.toBeBytes = y.toBeBytes) : x = y := by
  rw [← fromBeBytes_toBeBytes hw x, ← fromBeBytes_toBeBytes hw y, h]

/-- Reading bytes keeps the value up to the width of the target. -/
theorem toNat_fromBeBytes (l : Bytes) :
    (fromBeBytes w l).toNat = BigEndian.decode l % 2 ^ w :=
  BitVec.toNat_ofNat _ _

end BitVec

namespace Bytes

/-- The slice `l[i..j]`, or `none` where the bounds are out of range. -/
def slice? (l : Bytes) (i j : ℕ) : Option Bytes :=
  if i ≤ j ∧ j ≤ l.length then some ((l.drop i).take (j - i)) else none

/-- The suffix `l[i..]`, or `none` where the bound is out of range. -/
def suffix? (l : Bytes) (i : ℕ) : Option Bytes :=
  if i ≤ l.length then some (l.drop i) else none

/-- A byte string read as an array of fixed length. -/
def toArr? (n : ℕ) (l : Bytes) : Option (ByteArr n) :=
  if h : l.length = n then some ⟨l, h⟩ else none

/-- The array of `n` bytes at offset `i`. -/
def array? (n : ℕ) (l : Bytes) (i : ℕ) : Option (ByteArr n) :=
  (slice? l i (i + n)).bind (toArr? n)

theorem slice?_eq_some {l s : Bytes} {i j : ℕ} :
    slice? l i j = some s ↔ i ≤ j ∧ j ≤ l.length ∧ (l.drop i).take (j - i) = s := by
  simp only [slice?, Option.ite_none_right_eq_some, Option.some.injEq, and_assoc]

/-- The slice between a known prefix and the rest. -/
theorem slice?_of_append {l p x s : Bytes} {i j : ℕ} (h : l = p ++ x ++ s) (hi : p.length = i)
    (hj : i + x.length = j) : slice? l i j = some x := by
  subst h hi hj
  refine slice?_eq_some.mpr ⟨Nat.le_add_right _ _, ?_, ?_⟩
  · simp only [List.length_append]
    omega
  · rw [Nat.add_sub_cancel_left, List.append_assoc, List.drop_left, List.take_left]

theorem suffix?_eq_some {l s : Bytes} {i : ℕ} :
    suffix? l i = some s ↔ i ≤ l.length ∧ l.drop i = s := by
  simp only [suffix?, Option.ite_none_right_eq_some, Option.some.injEq]

@[simp]
theorem toArr?_toList {n : ℕ} (a : ByteArr n) : toArr? n a.toList = some a := by
  simp only [toArr?, List.Vector.toList_length, dite_true]
  rfl

theorem toArr?_eq_some {n : ℕ} {l : Bytes} {a : ByteArr n} :
    toArr? n l = some a ↔ l = a.toList := by
  constructor
  · intro h
    rw [toArr?] at h
    split at h
    · rw [← Option.some.inj h]
      rfl
    · cases h
  · rintro rfl
    exact toArr?_toList a

/-- **Reading a field.** An array is read at an offset exactly when the string splits
there into a prefix, the array and a rest. -/
theorem array?_eq_some {n i : ℕ} {l : Bytes} {a : ByteArr n} :
    array? n l i = some a ↔ ∃ p s, l = p ++ a.toList ++ s ∧ p.length = i := by
  simp only [array?, Option.bind_eq_some_iff, slice?_eq_some, toArr?_eq_some,
    Nat.add_sub_cancel_left]
  constructor
  · rintro ⟨_, ⟨-, hle, rfl⟩, hs⟩
    refine ⟨l.take i, (l.drop i).drop n, ?_, List.length_take_of_le (by omega)⟩
    rw [← hs, List.append_assoc, List.take_append_drop, List.take_append_drop]
  · rintro ⟨p, s, rfl, rfl⟩
    refine ⟨a.toList, ⟨by omega, ?_, ?_⟩, rfl⟩
    · simp only [List.length_append, List.Vector.toList_length]
      omega
    · rw [List.append_assoc, List.drop_left, List.take_left' a.toList_length]

/-- A field read at the end of a known prefix. -/
theorem array?_append {n : ℕ} (p : Bytes) (a : ByteArr n) (s : Bytes) :
    array? n (p ++ a.toList ++ s) p.length = some a :=
  array?_eq_some.mpr ⟨p, s, rfl, rfl⟩

/-- A number read where it was written. -/
theorem map_fromBeBytes_slice? {w i j : ℕ} {l p s : Bytes} {x : BitVec w} (hw : 8 * (w / 8) = w)
    (h : l = p ++ x.toBeBytes ++ s) (hi : p.length = i) (hj : i + w / 8 = j) :
    (slice? l i j).map (BitVec.fromBeBytes w) = some x := by
  have hlen : i + x.toBeBytes.length = j := by rw [BitVec.length_toBeBytes, hj]
  rw [slice?_of_append h hi hlen, Option.map_some, BitVec.fromBeBytes_toBeBytes hw]

end Bytes
