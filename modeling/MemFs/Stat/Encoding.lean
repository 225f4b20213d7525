import MemFs.Stat.Field

/-!
# Encoding records

`Stat.encode` gives all the bytes of a record. `Stat.encodeWithin` writes a record where there is
limited room: the fields are written in order until one does not fit, and that one as far as it
fits. Both refuse a record whose size has no size field before anything is written.
-/

namespace MemFs

def Field.encodeAll : List Field → Except RecordError (List UInt8)
  | [] => .ok []
  | field :: rest => do
      let parts ← field.parts
      let more ← encodeAll rest
      pure (parts.flatten ++ more)

/-- What came of writing into limited room. -/
structure Written where
  bytes : List UInt8
  error? : Option RecordError
deriving DecidableEq, Repr

def Written.after (bytes : List UInt8) (written : Written) : Written :=
  { written with bytes := bytes ++ written.bytes }

/-- Writes parts one after the other, the first one that does not fit as far as it fits. -/
def writeParts (room : Nat) : List (List UInt8) → Written
  | [] => ⟨[], none⟩
  | part :: rest =>
      if part.length ≤ room then
        (writeParts (room - part.length) rest).after part
      else ⟨part.take room, some (.transfer .outOfRoom)⟩

/-- Writes fields one after the other until one fails. -/
def Field.writeAll (room : Nat) : List Field → Written
  | [] => ⟨[], none⟩
  | field :: rest =>
      match field.parts with
      | .error error => ⟨[], some error⟩
      | .ok parts =>
          let written := writeParts room parts
          match written.error? with
          | some _ => written
          | none => (writeAll (room - written.bytes.length) rest).after written.bytes

namespace Qid

def encode (qid : Qid) : List UInt8 :=
  LittleEndian.encode 1 qid.kind.byte.toNat ++ LittleEndian.encode 4 qid.version.toNat
    ++ LittleEndian.encode 8 qid.path.toNat

end Qid

namespace Stat

def encode (stat : Stat) : Except RecordError (List UInt8) :=
  if stat.bodyLength ≤ greatestShort then
    Field.encodeAll stat.fields
  else .error (.recordTooLong stat.bodyLength)

def encodeWithin (room : Nat) (stat : Stat) : Written :=
  if stat.bodyLength ≤ greatestShort then
    Field.writeAll room stat.fields
  else ⟨[], some (.recordTooLong stat.bodyLength)⟩

/-- The bytes of a sequence of records, or the error of the first one that has no encoding. -/
def encodeAll : List Stat → Except RecordError (List UInt8)
  | [] => .ok []
  | stat :: rest => do
      let bytes ← stat.encode
      let more ← encodeAll rest
      pure (bytes ++ more)

end Stat

end MemFs
