import Mathlib.Data.Nat.Digits.Lemmas
import Mathlib.Tactic.Common

/-! # Fixed-width little-endian numbers

`encode w n` is the `w`-byte little-endian image of `n` and `decode` reads any byte list back as a
number, through Mathlib's `Nat.ofDigits` in base `256`. Besides the two inversion laws the file has
what a reader of incomplete input needs: a prefix of an encoding encodes the low-order part of the
number, and zero bytes appended to a number do not change it. -/

namespace LittleEndian

/-- The number with the given little-endian bytes. -/
def decode (bytes : List UInt8) : ℕ := Nat.ofDigits 256 (bytes.map UInt8.toNat)

/-- The `w` low-order bytes of `n`, least significant first. -/
def encode : ℕ → ℕ → List UInt8
  | 0, _ => []
  | w + 1, n => UInt8.ofNat n :: encode w (n / 256)

@[simp] theorem decode_nil : decode [] = 0 := rfl

@[simp] theorem decode_cons (byte : UInt8) (bytes : List UInt8) :
    decode (byte :: bytes) = byte.toNat + 256 * decode bytes := rfl

@[simp] theorem encode_zero (n : ℕ) : encode 0 n = [] := rfl

theorem encode_succ (w n : ℕ) : encode (w + 1) n = UInt8.ofNat n :: encode w (n / 256) := rfl

@[simp] theorem length_encode (w n : ℕ) : (encode w n).length = w := by
  induction w generalizing n with
  | zero => rfl
  | succ w ih => rw [encode_succ, List.length_cons, ih]

/-- Decoding a concatenation weighs the tail by the width of the head. -/
theorem decode_append (front back : List UInt8) :
    decode (front ++ back) = decode front + 256 ^ front.length * decode back := by
  rw [decode, List.map_append, Nat.ofDigits_append, List.length_map]
  rfl

@[simp] theorem decode_replicate_zero (k : ℕ) : decode (List.replicate k 0) = 0 := by
  rw [decode, List.map_replicate]
  exact Nat.ofDigits_replicate_zero

/-- High-order zero bytes do not change a number. -/
@[simp] theorem decode_append_replicate_zero (bytes : List UInt8) (k : ℕ) :
    decode (bytes ++ List.replicate k 0) = decode bytes := by
  rw [decode_append, decode_replicate_zero, mul_zero, add_zero]

/-- A number read from `bytes` is below `256` to the number of bytes. -/
theorem decode_lt (bytes : List UInt8) : decode bytes < 256 ^ bytes.length := by
  have hdigit : ∀ x ∈ bytes.map UInt8.toNat, x < 256 := by
    intro x hx
    obtain ⟨byte, -, rfl⟩ := List.mem_map.mp hx
    exact byte.toNat_lt
  simpa [decode] using Nat.ofDigits_lt_base_pow_length (by norm_num) hdigit

/-- Decoding an encoding keeps the number modulo `256 ^ w`. -/
theorem decode_encode (w n : ℕ) : decode (encode w n) = n % 256 ^ w := by
  induction w generalizing n with
  | zero => rw [encode_zero, decode_nil, pow_zero, Nat.mod_one]
  | succ w ih =>
    -- the low byte, and the quotient at one byte less
    rw [encode_succ, decode_cons, ih, UInt8.toNat_ofNat', show (2 : ℕ) ^ 8 = 256 from rfl, pow_succ',
      Nat.mod_mul]

/-- A number that fits in `w` bytes survives the round trip. -/
theorem decode_encode_of_lt {w n : ℕ} (h : n < 256 ^ w) : decode (encode w n) = n := by
  rw [decode_encode, Nat.mod_eq_of_lt h]

/-- Encoding a decoded number at its own width gives the bytes back. -/
theorem encode_decode (bytes : List UInt8) : encode bytes.length (decode bytes) = bytes := by
  induction bytes with
  | nil => rfl
  | cons byte bytes ih =>
    have hbyte : byte.toNat < 256 := byte.toNat_lt
    -- division with remainder takes the low byte off again
    have hhead : UInt8.ofNat (byte.toNat + 256 * decode bytes) = byte := by
      rw [← UInt8.toNat_inj, UInt8.toNat_ofNat']
      omega
    have htail : (byte.toNat + 256 * decode bytes) / 256 = decode bytes := by omega
    rw [List.length_cons, encode_succ, decode_cons, hhead, htail, ih]

/-- A prefix of an encoding is the encoding at the smaller width. -/
theorem take_encode {j w : ℕ} (n : ℕ) (h : j ≤ w) : (encode w n).take j = encode j n := by
  induction j generalizing w n with
  | zero => simp
  | succ j ih =>
    obtain ⟨w, rfl⟩ : ∃ v, w = v + 1 := ⟨w - 1, by omega⟩
    rw [encode_succ, encode_succ, List.take_succ_cons, ih _ (by omega)]

/-- What a reader that got only `j` bytes of an encoding sees: the number modulo `256 ^ j`. -/
theorem decode_take_encode {j w : ℕ} (n : ℕ) (h : j ≤ w) :
    decode ((encode w n).take j) = n % 256 ^ j := by
  rw [take_encode n h, decode_encode]

example : encode 8 258 = [2, 1, 0, 0, 0, 0, 0, 0] := by decide

end LittleEndian
