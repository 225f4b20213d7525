/-!
# Texts as UTF-8 bytes

`encode` gives the bytes of a text and `decode` reads them back. A byte sequence that is not UTF-8
is refused with the place and the length of its first fault, as `faultOf` finds it.
-/

namespace MemFs.Utf8

def encode (text : String) : List UInt8 :=
  text.toByteArray.data.toList

/-- Where a byte sequence stops being UTF-8. -/
structure Fault where
  /-- The number of bytes before the fault; they are valid UTF-8. -/
  validUpTo : Nat
  /-- The number of bytes that cannot start or continue a character, or `none` if the bytes end
  inside a character that more bytes could complete. -/
  badLength : Option Nat
deriving DecidableEq, Repr

/-- What is still expected of a character whose first byte was read. -/
structure Expectation where
  /-- The index of the first byte of the character. -/
  start : Nat
  /-- The number of bytes still to come, after the next one. -/
  further : Nat
  lowest : UInt8
  highest : UInt8
deriving DecidableEq, Repr

/-- What a first byte of at least 0x80 leads to, if it can start a character. The narrower ranges
exclude overlong forms, surrogates and values above the last code point. -/
def expectation? (start : Nat) (lead : UInt8) : Option Expectation :=
  if lead < 0xC2 then none
  else if lead ≤ 0xDF then some ⟨start, 0, 0x80, 0xBF⟩
  else if lead = 0xE0 then some ⟨start, 1, 0xA0, 0xBF⟩
  else if lead = 0xED then some ⟨start, 1, 0x80, 0x9F⟩
  else if lead ≤ 0xEF then some ⟨start, 1, 0x80, 0xBF⟩
  else if lead = 0xF0 then some ⟨start, 2, 0x90, 0xBF⟩
  else if lead ≤ 0xF3 then some ⟨start, 2, 0x80, 0xBF⟩
  else if lead = 0xF4 then some ⟨start, 2, 0x80, 0x8F⟩
  else none

/-- Scans on from `index`, inside a character if one is expected. Bytes without a fault are
reported as ending inside a character that starts at their end. -/
def scan : List UInt8 → Nat → Option Expectation → Fault
  | [], index, none => ⟨index, none⟩
  | [], _, some expected => ⟨expected.start, none⟩
  | byte :: rest, index, none =>
      if byte < 0x80 then scan rest (index + 1) none
      else
        match expectation? index byte with
        | none => ⟨index, some 1⟩
        | some expected => scan rest (index + 1) (some expected)
  | byte :: rest, index, some expected =>
      if expected.lowest ≤ byte ∧ byte ≤ expected.highest then
        match expected.further with
        | 0 => scan rest (index + 1) none
        | further + 1 => scan rest (index + 1) (some ⟨expected.start, further, 0x80, 0xBF⟩)
      else ⟨expected.start, some (index - expected.start)⟩

def faultOf (bytes : List UInt8) : Fault :=
  scan bytes 0 none

/-- The text with these bytes, or the first fault of the bytes. -/
def decode (bytes : List UInt8) : Except Fault String :=
  match String.fromUTF8? ⟨bytes.toArray⟩ with
  | some text => .ok text
  | none => .error (faultOf bytes)

def Fault.message (fault : Fault) : String :=
  match fault.badLength with
  | some length =>
      s!"invalid utf-8 sequence of {length} bytes from index {fault.validUpTo}"
  | none => s!"incomplete utf-8 byte sequence from index {fault.validUpTo}"

/-! ## Reading back what was written -/

@[simp]
theorem length_encode (text : String) :
    (encode text).length = text.utf8ByteSize := by
  simp only [encode, Array.length_toList]
  rfl

@[simp]
theorem decode_encode (text : String) : decode (encode text) = .ok text := by
  have valid : text.toByteArray.IsValidUTF8 := text.isValidUTF8
  simp [decode, encode, String.fromUTF8?, valid, String.fromUTF8]

theorem encode_of_decode {bytes : List UInt8} {text : String}
    (success : decode bytes = .ok text) : encode text = bytes := by
  unfold decode String.fromUTF8? at success
  split at success
  · rename_i found
    split at found
    · simp only [Option.some.injEq, Except.ok.injEq] at found success
      subst success
      subst found
      simp [encode, String.fromUTF8]
    · simp at found
  · simp at success

/-- Reading accepts exactly the bytes that writing gives. -/
theorem decode_eq_ok_iff {bytes : List UInt8} {text : String} :
    decode bytes = .ok text ↔ bytes = encode text :=
  ⟨fun success => (encode_of_decode success).symm, fun same => same ▸ decode_encode text⟩

end MemFs.Utf8
