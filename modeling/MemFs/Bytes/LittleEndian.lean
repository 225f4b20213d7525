/-!
# Numbers as little-endian bytes

A number of a fixed width is written with its least significant byte first. Writing and reading
are inverse to each other on numbers that fit the width.
-/

namespace MemFs.LittleEndian

/-- The `width` least significant bytes of a number, the least significant one first. -/
def encode : (width value : Nat) → List UInt8
  | 0, _ => []
  | width + 1, value => UInt8.ofNat (value % 256) :: encode width (value / 256)

def decode : List UInt8 → Nat
  | [] => 0
  | byte :: rest => byte.toNat + 256 * decode rest

/-- How many numbers have a width. -/
def capacity : (width : Nat) → Nat
  | 0 => 1
  | width + 1 => 256 * capacity width

@[simp]
theorem length_encode (width value : Nat) : (encode width value).length = width := by
  induction width generalizing value with
  | zero => rfl
  | succ width inductionHypothesis => simp [encode, inductionHypothesis]

theorem decode_encode_mod (width value : Nat) :
    decode (encode width value) = value % capacity width := by
  induction width generalizing value with
  | zero => simp [encode, decode, capacity, Nat.mod_one]
  | succ width inductionHypothesis =>
      have leastByte : (UInt8.ofNat (value % 256)).toNat = value % 256 := by simp
      rw [encode, decode, inductionHypothesis, leastByte, capacity, Nat.mod_mul]

theorem decode_encode {width value : Nat} (fits : value < capacity width) :
    decode (encode width value) = value := by
  rw [decode_encode_mod, Nat.mod_eq_of_lt fits]

theorem decode_lt (bytes : List UInt8) : decode bytes < capacity bytes.length := by
  induction bytes with
  | nil => exact Nat.one_pos
  | cons byte rest inductionHypothesis =>
      have small := byte.toNat_lt
      simp only [decode, List.length_cons, capacity]
      omega

@[simp]
theorem encode_decode (bytes : List UInt8) :
    encode bytes.length (decode bytes) = bytes := by
  induction bytes with
  | nil => rfl
  | cons byte rest inductionHypothesis =>
      have small := byte.toNat_lt
      have remainder : (byte.toNat + 256 * decode rest) % 256 = byte.toNat := by omega
      have quotient : (byte.toNat + 256 * decode rest) / 256 = decode rest := by omega
      simp [encode, decode, remainder, quotient, inductionHypothesis]

end MemFs.LittleEndian
