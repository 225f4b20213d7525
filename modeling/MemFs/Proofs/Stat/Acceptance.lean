import MemFs.Proofs.Stat.RoundTrip
import Mathlib.Data.Nat.Bitwise

/-!
# What reading a record accepts

A reader that gives a value has taken the bytes of that value from the front. So reading a record
accepts what writing gives, with one freedom: of the byte for the kind, only the top bit counts.
The size that a record declares is compared with the size of what was read, so that a record that
is accepted is never too long to be written.
-/

namespace MemFs

/-! ## Kinds and their bytes -/

/-- The highest bit of a byte. -/
def topBit (byte : UInt8) : Bool :=
  byte.toNat.testBit 7

theorem topBit_iff (byte : UInt8) : byte &&& 0x80 ≠ 0 ↔ topBit byte = true := by
  have mask : (0x80 : UInt8).toNat = 2 ^ 7 := rfl
  have zero : (0 : UInt8).toNat = 0 := rfl
  rw [ne_eq, ← UInt8.toNat_inj, UInt8.toNat_and, mask, zero, Nat.and_two_pow, topBit]
  cases byte.toNat.testBit 7 <;> simp

theorem Kind.ofByte_eq (byte : UInt8) :
    Kind.ofByte byte = if topBit byte then .directory else .file := by
  simp only [Kind.ofByte, bne_iff_ne, topBit_iff]

theorem Kind.byte_ofByte (byte : UInt8) :
    (Kind.ofByte byte).byte = if topBit byte then 0x80 else 0x00 := by
  rw [Kind.ofByte_eq]
  cases topBit byte <;> rfl

/-- The byte of a kind has the top bit of every byte that stands for the kind. -/
theorem Kind.ofByte_eq_iff {byte : UInt8} {kind : Kind} :
    Kind.ofByte byte = kind ↔ topBit kind.byte = topBit byte := by
  have top : topBit kind.byte = decide (kind = .directory) := by
    cases kind <;> rfl
  rw [Kind.ofByte_eq, top]
  cases kind <;> cases topBit byte <;> simp

/-- A reason why bytes are not read as a record. -/
def RecordError.IsOfReading : RecordError → Prop
  | .transfer fault => fault = .endOfInput
  | .invalidText _ | .sizeMismatch _ _ => True
  | .stringTooLong _ | .recordTooLong _ => False

/-! ## Readers one after the other -/

namespace Reader

variable {α β : Type} {bytes rest : List UInt8}

theorem exists_of_bind {reader : Reader α} {next : α → Reader β} {result : β}
    (accepted : (reader >>= next) bytes = .ok (result, rest)) :
    ∃ value middle, reader bytes = .ok (value, middle) ∧
      next value middle = .ok (result, rest) := by
  change (reader bytes >>= fun (found, left) => next found left) = _ at accepted
  cases here : reader bytes with
  | error error =>
      rw [here] at accepted
      cases accepted
  | ok pair =>
      rw [here] at accepted
      exact ⟨pair.1, pair.2, rfl, accepted⟩

/-- Whenever the reader fails, it is for a reason of reading. -/
def FailsReading (reader : Reader α) : Prop :=
  ∀ bytes error, reader bytes = .error error → error.IsOfReading

namespace FailsReading

theorem pure (value : α) : FailsReading (Pure.pure value : Reader α) := by
  intro bytes error failed
  cases failed

theorem bind {reader : Reader α} {next : α → Reader β} (first : FailsReading reader)
    (second : ∀ value, FailsReading (next value)) : FailsReading (reader >>= next) := by
  intro bytes error failed
  change (reader bytes >>= fun (found, left) => next found left) = _ at failed
  cases here : reader bytes with
  | error fault =>
      rw [here] at failed
      cases failed
      exact first bytes _ here
  | ok pair =>
      rw [here] at failed
      exact second pair.1 pair.2 error failed

theorem take (count : Nat) : FailsReading (Reader.take count) := by
  intro bytes error failed
  unfold Reader.take at failed
  dsimp only at failed
  split at failed
  · cases failed
  · cases failed
    rfl

theorem number (width : Nat) : FailsReading (Reader.number width) :=
  (take width).bind fun _ => pure _

theorem text : FailsReading Reader.text := by
  refine (number 2).bind fun length => (take length).bind fun content => ?_
  cases Utf8.decode content with
  | ok value => exact pure value
  | error fault =>
      intro bytes error failed
      cases failed
      trivial

theorem qid : FailsReading Reader.qid :=
  (number 1).bind fun _ => (number 4).bind fun _ => (number 8).bind fun _ => pure _

theorem stat : FailsReading Reader.stat := by
  refine (number 2).bind fun declared => (number 2).bind fun _ => (number 4).bind fun _ =>
    qid.bind fun _ => (number 4).bind fun _ => (number 4).bind fun _ => (number 4).bind fun _ =>
      (number 8).bind fun _ => text.bind fun _ => text.bind fun _ => text.bind fun _ =>
        text.bind fun _ => ?_
  dsimp only
  split
  · exact pure _
  · intro bytes error failed
    cases failed
    trivial

end FailsReading

/-! ## What was taken from the front -/

theorem eq_of_take {count : Nat} {front : List UInt8}
    (accepted : take count bytes = .ok (front, rest)) :
    front.length = count ∧ bytes = front ++ rest := by
  unfold take at accepted
  dsimp only at accepted
  split at accepted
  · rename_i whole
    cases accepted
    exact ⟨whole, (List.take_append_drop count bytes).symm⟩
  · cases accepted

theorem eq_of_number {width value : Nat} (accepted : number width bytes = .ok (value, rest)) :
    value < LittleEndian.capacity width ∧ bytes = LittleEndian.encode width value ++ rest := by
  obtain ⟨front, middle, taken, given⟩ := exists_of_bind accepted
  obtain ⟨length, split⟩ := eq_of_take taken
  cases given
  subst length
  rw [LittleEndian.encode_decode]
  exact ⟨LittleEndian.decode_lt front, split⟩

theorem eq_of_text {value : String} (accepted : text bytes = .ok (value, rest)) :
    bytes = (Field.text value).bytes ++ rest := by
  obtain ⟨length, behindLength, numberRead, accepted⟩ := exists_of_bind accepted
  obtain ⟨content, behindContent, taken, given⟩ := exists_of_bind accepted
  obtain ⟨-, split⟩ := eq_of_number numberRead
  obtain ⟨isLength, contentSplit⟩ := eq_of_take taken
  cases decoded : Utf8.decode content with
  | error fault =>
      rw [decoded] at given
      cases given
  | ok found =>
      rw [decoded] at given
      cases given
      have same := Utf8.decode_eq_ok_iff.mp decoded
      have size : value.utf8ByteSize = length := by
        rw [← isLength, same, Utf8.length_encode]
      rw [split, contentSplit, Field.bytes, size, same, List.append_assoc]

theorem exists_of_qid {value : Qid} (accepted : qid bytes = .ok (value, rest)) :
    ∃ kind, Kind.ofByte kind = value.kind ∧ bytes = value.bytesOfKind kind ++ rest := by
  obtain ⟨kind, _, kindRead, accepted⟩ := exists_of_bind accepted
  obtain ⟨version, _, versionRead, accepted⟩ := exists_of_bind accepted
  obtain ⟨path, _, pathRead, given⟩ := exists_of_bind accepted
  cases given
  obtain ⟨kindSmall, kindSplit⟩ := eq_of_number kindRead
  obtain ⟨versionSmall, versionSplit⟩ := eq_of_number versionRead
  obtain ⟨pathSmall, pathSplit⟩ := eq_of_number pathRead
  have single : LittleEndian.encode 1 kind = [UInt8.ofNat kind] := by
    have least : kind % 256 = kind := Nat.mod_eq_of_lt kindSmall
    simp [LittleEndian.encode, least]
  refine ⟨.ofNat kind, rfl, ?_⟩
  rw [kindSplit, versionSplit, pathSplit, single, Qid.bytesOfKind,
    UInt32.toNat_ofNat_of_lt' versionSmall, UInt64.toNat_ofNat_of_lt' pathSmall]
  simp only [List.cons_append, List.nil_append, List.append_assoc]

/-- A record that is accepted is short enough, and its bytes were at the front, but for the byte of
its kind. -/
theorem exists_of_stat {value : Stat} (accepted : stat bytes = .ok (value, rest)) :
    value.bodyLength ≤ greatestShort ∧
      ∃ kind, Kind.ofByte kind = value.qid.kind ∧ bytes = value.bytesOfKind kind ++ rest := by
  obtain ⟨declared, _, declaredRead, accepted⟩ := exists_of_bind accepted
  obtain ⟨serverType, _, typeRead, accepted⟩ := exists_of_bind accepted
  obtain ⟨serverDevice, _, deviceRead, accepted⟩ := exists_of_bind accepted
  obtain ⟨qid, _, qidRead, accepted⟩ := exists_of_bind accepted
  obtain ⟨mode, _, modeRead, accepted⟩ := exists_of_bind accepted
  obtain ⟨accessTime, _, accessRead, accepted⟩ := exists_of_bind accepted
  obtain ⟨modifyTime, _, modifyRead, accepted⟩ := exists_of_bind accepted
  obtain ⟨length, _, lengthRead, accepted⟩ := exists_of_bind accepted
  obtain ⟨name, _, nameRead, accepted⟩ := exists_of_bind accepted
  obtain ⟨owner, _, ownerRead, accepted⟩ := exists_of_bind accepted
  obtain ⟨group, _, groupRead, accepted⟩ := exists_of_bind accepted
  obtain ⟨lastModifier, _, modifierRead, accepted⟩ := exists_of_bind accepted
  dsimp only at accepted
  split at accepted
  · rename_i same
    cases accepted
    obtain ⟨declaredSmall, declaredSplit⟩ := eq_of_number declaredRead
    obtain ⟨typeSmall, typeSplit⟩ := eq_of_number typeRead
    obtain ⟨deviceSmall, deviceSplit⟩ := eq_of_number deviceRead
    obtain ⟨kind, isKind, qidSplit⟩ := exists_of_qid qidRead
    obtain ⟨modeSmall, modeSplit⟩ := eq_of_number modeRead
    obtain ⟨accessSmall, accessSplit⟩ := eq_of_number accessRead
    obtain ⟨modifySmall, modifySplit⟩ := eq_of_number modifyRead
    obtain ⟨lengthSmall, lengthSplit⟩ := eq_of_number lengthRead
    refine ⟨same ▸ Nat.le_of_lt_succ declaredSmall, kind, isKind, ?_⟩
    rw [Stat.bytesOfKind, same, declaredSplit, typeSplit, deviceSplit, qidSplit, modeSplit,
      accessSplit, modifySplit, lengthSplit, eq_of_text nameRead, eq_of_text ownerRead,
      eq_of_text groupRead, eq_of_text modifierRead]
    simp only [UInt16.toNat_ofNat_of_lt' typeSmall, UInt32.toNat_ofNat_of_lt' deviceSmall,
      UInt32.toNat_ofNat_of_lt' modeSmall, UInt32.toNat_ofNat_of_lt' accessSmall,
      UInt32.toNat_ofNat_of_lt' modifySmall, UInt64.toNat_ofNat_of_lt' lengthSmall,
      List.append_assoc]
  · cases accepted

end Reader

/-! ## Records -/

namespace Stat

/-- At the front of the bytes stands this record as it is written, but that the byte of the kind may
be another one with the same top bit. -/
def AtFront (stat : Stat) (bytes rest : List UInt8) : Prop :=
  ∃ encoded kind, stat.encode = .ok encoded ∧ encoded[8]?.map topBit = some (topBit kind) ∧
    bytes = encoded.set 8 kind ++ rest

/-- The byte of the kind stands behind eight others. -/
theorem getElem?_bytesOfKind (stat : Stat) (kind : UInt8) :
    (stat.bytesOfKind kind)[8]? = some kind := by
  simp [bytesOfKind, Qid.bytesOfKind, List.getElem?_append]

theorem set_bytesOfKind (stat : Stat) (kind other : UInt8) :
    (stat.bytesOfKind kind).set 8 other = stat.bytesOfKind other := by
  simp [bytesOfKind, Qid.bytesOfKind]

/-- Reading accepts exactly what has a record at its front, and gives that record. -/
theorem decode_eq_ok_iff_atFront {stat : Stat} {bytes rest : List UInt8} :
    decode bytes = .ok (stat, rest) ↔ stat.AtFront bytes rest := by
  constructor
  · intro accepted
    obtain ⟨short, kind, isKind, split⟩ := Reader.exists_of_stat accepted
    refine ⟨stat.bytes, kind, encode_eq_ok_iff.mpr ⟨short, rfl⟩, ?_, ?_⟩
    · rw [bytes_eq, getElem?_bytesOfKind, Option.map_some, Kind.ofByte_eq_iff.mp isKind]
    · rw [bytes_eq, set_bytesOfKind, split]
  · rintro ⟨encoded, kind, written, sameTop, split⟩
    obtain ⟨short, same⟩ := encode_eq_ok_iff.mp written
    subst same
    rw [bytes_eq, getElem?_bytesOfKind, Option.map_some, Option.some.injEq] at sameTop
    rw [split, bytes_eq, set_bytesOfKind]
    exact Reader.Reads.stat short (Kind.ofByte_eq_iff.mpr sameTop) rest

/-- Reading accepts exactly what writing gives, up to the lower bits of the byte for the kind, and
refuses everything else for a reason of reading. -/
theorem decode_accepts_exactly (bytes : List UInt8) :
    (∀ stat rest, decode bytes = .ok (stat, rest) →
      ∃ consumed encoded kind, bytes = consumed ++ rest ∧ stat.encode = .ok encoded ∧
        consumed.length = stat.encodedLength ∧ consumed[8]? = some kind ∧
        encoded[8]? = some (if topBit kind then 0x80 else 0x00) ∧
        ∀ index, index ≠ 8 → consumed[index]? = encoded[index]?) ∧
    (∀ (stat : Stat) rest, stat.AtFront bytes rest → decode bytes = .ok (stat, rest)) ∧
    ((∀ (stat : Stat) rest, ¬ stat.AtFront bytes rest) →
      ∃ error, decode bytes = .error error ∧ error.IsOfReading) := by
  refine ⟨?_, ?_, ?_⟩
  · intro stat rest accepted
    obtain ⟨short, kind, isKind, split⟩ := Reader.exists_of_stat accepted
    have changed : stat.bytesOfKind kind = stat.bytes.set 8 kind := by
      rw [bytes_eq, set_bytesOfKind]
    refine ⟨stat.bytesOfKind kind, stat.bytes, kind, split, encode_eq_ok_iff.mpr ⟨short, rfl⟩, ?_,
      getElem?_bytesOfKind stat kind, ?_, ?_⟩
    · rw [changed, List.length_set, length_bytes]
    · rw [bytes_eq, getElem?_bytesOfKind, ← isKind, Kind.byte_ofByte]
    · intro index other
      rw [changed, List.getElem?_set_ne (Ne.symm other)]
  · intro stat rest front
    exact decode_eq_ok_iff_atFront.mpr front
  · intro absent
    cases decoded : decode bytes with
    | error error => exact ⟨error, rfl, Reader.FailsReading.stat bytes error decoded⟩
    | ok pair => exact absurd (decode_eq_ok_iff_atFront.mp decoded) (absent pair.1 pair.2)

end Stat

end MemFs
