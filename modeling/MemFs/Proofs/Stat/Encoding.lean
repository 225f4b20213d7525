import MemFs.Stat.Encoding

/-!
# The bytes of a record

A record that is not too long has texts that are not too long either, since the size of the record
counts their bytes. So it is refused for its own size or not at all.
-/

namespace MemFs

/-! ## Writing into limited room -/

namespace Written

/-- As many of these bytes as there is room for. -/
def within (room : Nat) (bytes : List UInt8) : Written :=
  ⟨bytes.take room, if bytes.length ≤ room then none else some (.transfer .outOfRoom)⟩

variable {room : Nat} {first : List UInt8}

theorem within_of_le (enough : first.length ≤ room) : within room first = ⟨first, none⟩ := by
  rw [within, if_pos enough, List.take_of_length_le enough]

theorem within_append (enough : first.length ≤ room) (second : List UInt8) :
    within room (first ++ second) = (within (room - first.length) second).after first := by
  have remaining : (first ++ second).length ≤ room ↔ second.length ≤ room - first.length := by
    rw [List.length_append]
    omega
  simp only [within, after, List.take_append, List.take_of_length_le enough, remaining]

theorem within_append_of_lt (short : room < first.length) (second : List UInt8) :
    within room (first ++ second) = ⟨first.take room, some (.transfer .outOfRoom)⟩ := by
  have tooLong : ¬ (first ++ second).length ≤ room := by
    rw [List.length_append]
    omega
  have noRoom : room - first.length = 0 := by omega
  simp only [within, if_neg tooLong, List.take_append, noRoom, List.take_zero, List.append_nil]

end Written

theorem writeParts_eq (room : Nat) (parts : List (List UInt8)) :
    writeParts room parts = .within room parts.flatten := by
  induction parts generalizing room with
  | nil => simp [writeParts, Written.within]
  | cons part rest inductionHypothesis =>
      rw [writeParts, List.flatten_cons]
      by_cases enough : part.length ≤ room
      · rw [if_pos enough, inductionHypothesis, Written.within_append enough]
      · rw [if_neg enough, Written.within_append_of_lt (Nat.lt_of_not_le enough)]

/-! ## Fields -/

namespace Field

/-- The bytes of a field. -/
def bytes : Field → List UInt8
  | .number width value => LittleEndian.encode width value
  | .text value => LittleEndian.encode 2 value.utf8ByteSize ++ Utf8.encode value

/-- The length of a text can be written in two bytes. -/
def Fits : Field → Prop
  | .number _ _ => True
  | .text value => value.utf8ByteSize ≤ greatestShort

theorem parts_of_fits {field : Field} (fits : field.Fits) :
    ∃ parts, field.parts = .ok parts ∧ parts.flatten = field.bytes := by
  cases field with
  | number width value => exact ⟨_, rfl, by simp [bytes]⟩
  | text value =>
      have short : value.utf8ByteSize ≤ greatestShort := fits
      refine ⟨[LittleEndian.encode 2 value.utf8ByteSize, Utf8.encode value], ?_, ?_⟩
      · rw [parts, if_pos short]
      · simp [bytes]

theorem encodeAll_of_fit {fields : List Field} (fit : ∀ field ∈ fields, field.Fits) :
    encodeAll fields = .ok (fields.flatMap bytes) := by
  induction fields with
  | nil => rfl
  | cons field rest inductionHypothesis =>
      obtain ⟨fits, restFit⟩ := List.forall_mem_cons.mp fit
      obtain ⟨parts, isParts, same⟩ := parts_of_fits fits
      rw [encodeAll, isParts, inductionHypothesis restFit, List.flatMap_cons, ← same]
      rfl

theorem writeAll_of_fit {fields : List Field} (fit : ∀ field ∈ fields, field.Fits) (room : Nat) :
    writeAll room fields = .within room (fields.flatMap bytes) := by
  induction fields generalizing room with
  | nil => simp [writeAll, Written.within]
  | cons field rest inductionHypothesis =>
      obtain ⟨fits, restFit⟩ := List.forall_mem_cons.mp fit
      obtain ⟨parts, isParts, same⟩ := parts_of_fits fits
      simp only [writeAll, isParts, writeParts_eq, same, List.flatMap_cons]
      by_cases enough : field.bytes.length ≤ room
      · rw [Written.within_of_le enough, Written.within_append enough, inductionHypothesis restFit]
      · rw [Written.within_append_of_lt (Nat.lt_of_not_le enough), Written.within, if_neg enough]

end Field

/-! ## Records -/

/-- The bytes of an identity with this byte in the place of its kind. -/
def Qid.bytesOfKind (qid : Qid) (kind : UInt8) : List UInt8 :=
  kind :: (LittleEndian.encode 4 qid.version.toNat ++ LittleEndian.encode 8 qid.path.toNat)

namespace Stat

/-- The bytes of a record that is not too long. -/
def bytes (stat : Stat) : List UInt8 :=
  stat.fields.flatMap Field.bytes

/-- The bytes of a record with this byte in the place of its kind. -/
def bytesOfKind (stat : Stat) (kind : UInt8) : List UInt8 :=
  LittleEndian.encode 2 stat.bodyLength
    ++ (LittleEndian.encode 2 stat.serverType.toNat
    ++ (LittleEndian.encode 4 stat.serverDevice.toNat
    ++ (stat.qid.bytesOfKind kind
    ++ (LittleEndian.encode 4 stat.mode.bits.toNat
    ++ (LittleEndian.encode 4 stat.accessTime.toNat
    ++ (LittleEndian.encode 4 stat.modifyTime.toNat
    ++ (LittleEndian.encode 8 stat.length.toNat
    ++ ((Field.text stat.name).bytes
    ++ ((Field.text stat.owner).bytes
    ++ ((Field.text stat.group).bytes
    ++ (Field.text stat.lastModifier).bytes))))))))))

theorem bytes_eq (stat : Stat) : stat.bytes = stat.bytesOfKind stat.qid.kind.byte := by
  simp [bytes, bytesOfKind, fields, Qid.fields, Qid.bytesOfKind, Field.bytes, LittleEndian.encode]

theorem length_bytes (stat : Stat) : stat.bytes.length = stat.encodedLength := by
  simp only [bytes, fields, Qid.fields, Field.bytes, List.flatMap_cons, List.flatMap_nil,
    List.cons_append, List.nil_append, List.length_append, LittleEndian.length_encode,
    Utf8.length_encode, List.length_nil, encodedLength, fixedLength]
  omega

/-- The texts of a record that is not too long are not too long. -/
theorem fields_fit {stat : Stat} (short : stat.bodyLength ≤ greatestShort) :
    ∀ field ∈ stat.fields, field.Fits := by
  have parts : stat.name.utf8ByteSize ≤ stat.bodyLength ∧
      stat.owner.utf8ByteSize ≤ stat.bodyLength ∧ stat.group.utf8ByteSize ≤ stat.bodyLength ∧
        stat.lastModifier.utf8ByteSize ≤ stat.bodyLength := by
    simp only [bodyLength, encodedLength, fixedLength]
    omega
  obtain ⟨name, owner, group, lastModifier⟩ := parts
  simp only [fields, Qid.fields, List.cons_append, List.nil_append, List.forall_mem_cons,
    Field.Fits, true_and]
  refine ⟨Nat.le_trans name short, Nat.le_trans owner short, Nat.le_trans group short,
    Nat.le_trans lastModifier short, ?_⟩
  intro field absent
  cases absent

theorem encode_eq_ok_iff {stat : Stat} {written : List UInt8} :
    stat.encode = .ok written ↔ stat.bodyLength ≤ greatestShort ∧ written = stat.bytes := by
  rw [encode]
  by_cases short : stat.bodyLength ≤ greatestShort
  · rw [if_pos short, Field.encodeAll_of_fit (fields_fit short)]
    simp [short, bytes, eq_comm]
  · simp [short]

theorem encode_eq_error_iff {stat : Stat} {error : RecordError} :
    stat.encode = .error error ↔
      ¬ stat.bodyLength ≤ greatestShort ∧ error = .recordTooLong stat.bodyLength := by
  rw [encode]
  by_cases short : stat.bodyLength ≤ greatestShort
  · rw [if_pos short, Field.encodeAll_of_fit (fields_fit short)]
    simp [short]
  · simp [short, eq_comm]

theorem encodeWithin_of_short {stat : Stat} (short : stat.bodyLength ≤ greatestShort)
    (room : Nat) : stat.encodeWithin room = .within room stat.bytes := by
  rw [encodeWithin, if_pos short, Field.writeAll_of_fit (fields_fit short), bytes]

theorem encodeWithin_of_long {stat : Stat} (long : ¬ stat.bodyLength ≤ greatestShort)
    (room : Nat) : stat.encodeWithin room = ⟨[], some (.recordTooLong stat.bodyLength)⟩ := by
  rw [encodeWithin, if_neg long]

/-- A record that is too long is refused before a byte is written, whatever room there is. Of every
other record the front is written, as far as the room goes and wherever in the record it ends, and
that is a success exactly when there is room for all of it. -/
theorem encodeWithin_front (stat : Stat) (room : Nat) :
    (65535 < stat.encodedLength - 2 →
      stat.encodeWithin room = ⟨[], some (.recordTooLong (stat.encodedLength - 2))⟩) ∧
    (stat.encodedLength - 2 ≤ 65535 →
      ∃ bytes, stat.encode = .ok bytes ∧ bytes.length = stat.encodedLength ∧
        (stat.encodeWithin room).bytes = bytes.take (min room stat.encodedLength) ∧
        ((stat.encodeWithin room).error? = none ↔ stat.encodedLength ≤ room) ∧
        (room < stat.encodedLength →
          (stat.encodeWithin room).error? = some (.transfer .outOfRoom))) := by
  constructor
  · intro long
    exact encodeWithin_of_long (Nat.not_le_of_lt long) room
  · intro short
    refine ⟨stat.bytes, encode_eq_ok_iff.mpr ⟨short, rfl⟩, stat.length_bytes, ?_⟩
    rw [encodeWithin_of_short short, ← stat.length_bytes]
    simp only [Written.within]
    refine ⟨?_, ?_, ?_⟩
    · rw [← List.take_take, List.take_length]
    · by_cases enough : stat.bytes.length ≤ room
      · simp [enough]
      · simp [enough]
    · intro tooLittle
      exact if_neg (Nat.not_le_of_lt tooLittle)

/-- The record of a file whose generation is told in the bytes 9 to 12. -/
def thirdGeneration : Stat where
  serverType := 0
  serverDevice := 0
  qid := ⟨.file, 0x03020100, 7⟩
  mode := ⟨0⟩
  accessTime := 0
  modifyTime := 0
  length := 0
  name := "a"
  owner := ""
  group := ""
  lastModifier := ""

/-- Room for eleven bytes ends inside the generation of the node, and room for all but two bytes
before the empty text at the end. -/
theorem encodeWithin_front_thirdGeneration :
    thirdGeneration.encodedLength = 50 ∧
      (thirdGeneration.encodeWithin 11).bytes = [48, 0, 0, 0, 0, 0, 0, 0, 0, 0, 1] ∧
      (thirdGeneration.encodeWithin 11).error? = some (.transfer .outOfRoom) ∧
      (thirdGeneration.encodeWithin 48).error? ≠ none ∧
      (thirdGeneration.encodeWithin 50).error? = none := by
  have length : thirdGeneration.encodedLength = 50 := by decide
  obtain ⟨_, encoded, -, front, -, refused⟩ :=
    (thirdGeneration.encodeWithin_front 11).2 (by rw [length]; decide)
  obtain ⟨_, -, -, -, short, -⟩ :=
    (thirdGeneration.encodeWithin_front 48).2 (by rw [length]; decide)
  obtain ⟨_, -, -, -, enough, -⟩ :=
    (thirdGeneration.encodeWithin_front 50).2 (by rw [length]; decide)
  refine ⟨length, ?_, refused (by rw [length]; decide), ?_, enough.mpr (Nat.le_of_eq length)⟩
  · obtain ⟨-, same⟩ := encode_eq_ok_iff.mp encoded
    rw [front, same]
    decide
  · rw [Ne, short, length]
    decide

end Stat

end MemFs
