import MemFs.Proofs.Stat.Encoding
import MemFs.Stat.Decoding
import Mathlib.Data.List.Forall2

/-!
# Reading back what was written

`Reads` says that a reader takes certain bytes from the front, whatever comes after them, and gives
a certain value. Readers in sequence read bytes in sequence.
-/

namespace MemFs

namespace Reader

variable {α β : Type}

/-- From these bytes, with any others behind them, the reader gives this value. -/
def Reads (reader : Reader α) (bytes : List UInt8) (value : α) : Prop :=
  ∀ rest, reader (bytes ++ rest) = .ok (value, rest)

namespace Reads

theorem pure (value : α) : Reads (Pure.pure value : Reader α) [] value := by
  intro rest
  rfl

theorem bind {reader : Reader α} {next : α → Reader β} {bytes more : List UInt8} {value : α}
    {result : β} (first : Reads reader bytes value) (second : Reads (next value) more result) :
    Reads (reader >>= next) (bytes ++ more) result := by
  intro rest
  have here : reader (bytes ++ (more ++ rest)) = .ok (value, more ++ rest) := first (more ++ rest)
  have there : next value (more ++ rest) = .ok (result, rest) := second rest
  rw [List.append_assoc]
  change (reader (bytes ++ (more ++ rest)) >>= fun (found, left) => next found left) = _
  rw [here]
  exact there

/-- The last reader of a sequence, with nothing behind it. -/
theorem last {reader : Reader α} {next : α → Reader β} {bytes : List UInt8} {value : α}
    {result : β} (first : Reads reader bytes value) (second : Reads (next value) [] result) :
    Reads (reader >>= next) bytes result := by
  have both := first.bind second
  rwa [List.append_nil] at both

theorem take (bytes : List UInt8) : Reads (Reader.take bytes.length) bytes bytes := by
  intro rest
  simp [Reader.take]

theorem number {width value : Nat} (fits : value < LittleEndian.capacity width) :
    Reads (Reader.number width) (LittleEndian.encode width value) value := by
  have front := take (LittleEndian.encode width value)
  rw [LittleEndian.length_encode] at front
  refine front.last ?_
  rw [LittleEndian.decode_encode fits]
  exact pure value

theorem text {value : String} (short : value.utf8ByteSize ≤ greatestShort) :
    Reads Reader.text (Field.text value).bytes value := by
  have fits : value.utf8ByteSize < LittleEndian.capacity 2 := Nat.lt_of_le_of_lt short (by decide)
  have content := take (Utf8.encode value)
  rw [Utf8.length_encode] at content
  refine (number fits).bind (content.last ?_)
  rw [Utf8.decode_encode]
  exact pure value

/-- Of the byte in the place of a kind, only the kind that it stands for matters. -/
theorem qid {value : Qid} {kind : UInt8} (same : Kind.ofByte kind = value.kind) :
    Reads Reader.qid (value.bytesOfKind kind) value := by
  obtain ⟨_, version, path⟩ := value
  cases same
  have small : kind.toNat < LittleEndian.capacity 1 := kind.toNat_lt
  have first : Reads (Reader.number 1) [kind] kind.toNat := by
    simpa [LittleEndian.encode] using number small
  refine first.bind ((number version.toNat_lt).bind ((number path.toNat_lt).last ?_))
  rw [UInt8.ofNat_toNat, UInt32.ofNat_toNat, UInt64.ofNat_toNat]
  exact pure _

theorem stat {value : Stat} (short : value.bodyLength ≤ greatestShort) {kind : UInt8}
    (same : Kind.ofByte kind = value.qid.kind) :
    Reads Reader.stat (value.bytesOfKind kind) value := by
  have fit := Stat.fields_fit short
  have name : value.name.utf8ByteSize ≤ greatestShort :=
    fit (.text value.name) (by simp [Stat.fields])
  have owner : value.owner.utf8ByteSize ≤ greatestShort :=
    fit (.text value.owner) (by simp [Stat.fields])
  have group : value.group.utf8ByteSize ≤ greatestShort :=
    fit (.text value.group) (by simp [Stat.fields])
  have lastModifier : value.lastModifier.utf8ByteSize ≤ greatestShort :=
    fit (.text value.lastModifier) (by simp [Stat.fields])
  have size : value.bodyLength < LittleEndian.capacity 2 := Nat.lt_of_le_of_lt short (by decide)
  refine (number size).bind ((number value.serverType.toNat_lt).bind
    ((number value.serverDevice.toNat_lt).bind ((qid same).bind
      ((number value.mode.bits.toNat_lt).bind ((number value.accessTime.toNat_lt).bind
        ((number value.modifyTime.toNat_lt).bind ((number value.length.toNat_lt).bind
          ((text name).bind ((text owner).bind ((text group).bind
            ((text lastModifier).last ?_)))))))))))
  simp only [UInt16.ofNat_toNat, UInt32.ofNat_toNat, UInt64.ofNat_toNat, if_pos]
  exact pure value

end Reads

end Reader

namespace Stat

theorem decode_bytes {stat : Stat} (short : stat.bodyLength ≤ greatestShort)
    (rest : List UInt8) : decode (stat.bytes ++ rest) = .ok (stat, rest) := by
  rw [bytes_eq]
  exact Reader.Reads.stat short (Kind.ofByte_byte stat.qid.kind) rest

/-- A record is written whole and read back, or refused for its size before anything is written. -/
theorem encode_roundTrip (stat : Stat) :
    stat.encodedLength = 49 + stat.name.utf8ByteSize + stat.owner.utf8ByteSize
      + stat.group.utf8ByteSize + stat.lastModifier.utf8ByteSize ∧
    ((∃ bytes, stat.encode = .ok bytes) ↔ stat.encodedLength - 2 ≤ 65535) ∧
    (∀ bytes, stat.encode = .ok bytes →
      bytes.length = stat.encodedLength ∧
      (∀ room, stat.encodeWithin room = .within room bytes) ∧
      ∀ rest, decode (bytes ++ rest) = .ok (stat, rest)) ∧
    ∀ error, stat.encode = .error error →
      error = .recordTooLong (stat.encodedLength - 2) ∧
      ∀ room, stat.encodeWithin room = ⟨[], some error⟩ := by
  refine ⟨rfl, ?_, ?_, ?_⟩
  · simp only [encode_eq_ok_iff, exists_and_left, exists_eq, and_true]
    rfl
  · intro bytes written
    obtain ⟨short, same⟩ := encode_eq_ok_iff.mp written
    subst same
    exact ⟨stat.length_bytes, encodeWithin_of_short short, decode_bytes short⟩
  · intro error refused
    obtain ⟨long, same⟩ := encode_eq_error_iff.mp refused
    subst same
    exact ⟨rfl, encodeWithin_of_long long⟩

/-! ## Sequences of records -/

/-- These are the encodings of the records, one by one. -/
abbrev Encodings (stats : List Stat) (pieces : List (List UInt8)) : Prop :=
  List.Forall₂ (fun stat piece => stat.encode = .ok piece) stats pieces

theorem encodeAll_of_encodings {stats : List Stat} {pieces : List (List UInt8)}
    (encodings : Encodings stats pieces) : encodeAll stats = .ok pieces.flatten := by
  induction encodings with
  | nil => rfl
  | cons first _ inductionHypothesis =>
      rw [encodeAll, first, inductionHypothesis]
      rfl

theorem exists_encode_of_encodings {stats : List Stat} {pieces : List (List UInt8)}
    (encodings : Encodings stats pieces) {stat : Stat} (member : stat ∈ stats) :
    ∃ bytes, stat.encode = .ok bytes := by
  induction encodings with
  | nil => cases member
  | cons first _ inductionHypothesis =>
      rcases List.mem_cons.mp member with here | later
      · exact ⟨_, here ▸ first⟩
      · exact inductionHypothesis later

theorem exists_encodings {stats : List Stat}
    (encodable : ∀ stat ∈ stats, ∃ bytes, stat.encode = .ok bytes) :
    ∃ pieces, Encodings stats pieces := by
  induction stats with
  | nil => exact ⟨[], List.Forall₂.nil⟩
  | cons first rest inductionHypothesis =>
      obtain ⟨here, later⟩ := List.forall_mem_cons.mp encodable
      obtain ⟨bytes, encoded⟩ := here
      obtain ⟨pieces, encodings⟩ := inductionHypothesis later
      exact ⟨bytes :: pieces, List.Forall₂.cons encoded encodings⟩

/-- A sequence that has no encoding has a record that has none, for the same reason. -/
theorem exists_encode_of_encodeAll_error {stats : List Stat} {error : RecordError}
    (refused : encodeAll stats = .error error) : ∃ stat ∈ stats, stat.encode = .error error := by
  induction stats with
  | nil => cases refused
  | cons first rest inductionHypothesis =>
      rw [encodeAll] at refused
      cases here : first.encode with
      | error fault =>
          rw [here] at refused
          cases refused
          exact ⟨first, List.mem_cons_self, here⟩
      | ok bytes =>
          cases there : encodeAll rest with
          | error fault =>
              rw [here, there] at refused
              cases refused
              obtain ⟨stat, member, same⟩ := inductionHypothesis there
              exact ⟨stat, List.mem_cons_of_mem first member, same⟩
          | ok more =>
              rw [here, there] at refused
              cases refused

theorem exists_encodings_of_encodeAll_ok {stats : List Stat} {written : List UInt8}
    (success : encodeAll stats = .ok written) :
    ∃ pieces, Encodings stats pieces ∧ written = pieces.flatten := by
  induction stats generalizing written with
  | nil =>
      cases success
      exact ⟨[], List.Forall₂.nil, rfl⟩
  | cons first rest inductionHypothesis =>
      rw [encodeAll] at success
      cases here : first.encode with
      | error fault =>
          rw [here] at success
          cases success
      | ok bytes =>
          cases there : encodeAll rest with
          | error fault =>
              rw [here, there] at success
              cases success
          | ok more =>
              rw [here, there] at success
              cases success
              obtain ⟨pieces, encodings, same⟩ := inductionHypothesis there
              exact ⟨bytes :: pieces, List.Forall₂.cons here encodings, by rw [same]; rfl⟩

theorem length_of_encode {stat : Stat} {bytes : List UInt8} (written : stat.encode = .ok bytes) :
    bytes.length = stat.encodedLength ∧ 0 < bytes.length := by
  obtain ⟨-, same⟩ := encode_eq_ok_iff.mp written
  rw [same, length_bytes]
  refine ⟨rfl, ?_⟩
  simp only [encodedLength, fixedLength]
  omega

theorem length_le_of_encodings {stats : List Stat} {pieces : List (List UInt8)}
    (encodings : Encodings stats pieces) : stats.length ≤ pieces.flatten.length := by
  induction encodings with
  | nil => exact Nat.le_refl 0
  | cons first _ inductionHypothesis =>
      have nonempty := (length_of_encode first).2
      rw [List.length_cons, List.flatten_cons, List.length_append]
      omega

theorem decodeUpTo_of_encodings {stats : List Stat} {pieces : List (List UInt8)}
    (encodings : Encodings stats pieces) {limit : Nat} (enough : stats.length ≤ limit) :
    decodeUpTo limit pieces.flatten = .ok stats := by
  induction encodings generalizing limit with
  | nil =>
      cases limit with
      | zero => rfl
      | succ limit => rfl
  | @cons stat piece rest pieces first _ inductionHypothesis =>
      obtain ⟨short, same⟩ := encode_eq_ok_iff.mp first
      have nonempty := (length_of_encode first).2
      cases limit with
      | zero => cases enough
      | succ limit =>
          have further := inductionHypothesis (Nat.le_of_succ_le_succ enough)
          have decoded : decode (piece ++ pieces.flatten) = .ok (stat, pieces.flatten) := by
            rw [same]
            exact decode_bytes short pieces.flatten
          rw [List.flatten_cons]
          cases piece with
          | nil => cases nonempty
          | cons byte more =>
              rw [List.cons_append] at decoded ⊢
              rw [decodeUpTo, decoded]
              · change (decodeUpTo limit pieces.flatten >>= fun more => pure (stat :: more)) = _
                rw [further]
                rfl
              · intro empty
                cases empty

/-- A sequence of records is read back from its bytes. -/
theorem decodeAll_of_encodings {stats : List Stat} {pieces : List (List UInt8)}
    (encodings : Encodings stats pieces) : decodeAll pieces.flatten = .ok stats :=
  decodeUpTo_of_encodings encodings (length_le_of_encodings encodings)

end Stat

end MemFs
