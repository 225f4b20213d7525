import MemFs.Bytes.LittleEndian
import MemFs.Error
import MemFs.Stat.Basic

/-!
# Fields of a record

A record is a sequence of fields: little-endian numbers of fixed widths, and texts, each preceded by
its length in two bytes.
-/

namespace MemFs

/-- The greatest number that two bytes can hold. -/
def greatestShort : Nat := 65535

inductive Field where
  | number (width value : Nat)
  | text (value : String)
deriving DecidableEq, Repr

/-- The parts of a field that are written one after the other. -/
def Field.parts : Field → Except RecordError (List (List UInt8))
  | .number width value => .ok [LittleEndian.encode width value]
  | .text value =>
      let length := value.utf8ByteSize
      if length ≤ greatestShort then
        .ok [LittleEndian.encode 2 length, Utf8.encode value]
      else .error (.stringTooLong length)

def Qid.fields (qid : Qid) : List Field :=
  [.number 1 qid.kind.byte.toNat, .number 4 qid.version.toNat, .number 8 qid.path.toNat]

/-- The fields of a record, its size first. -/
def Stat.fields (stat : Stat) : List Field :=
  [.number 2 stat.bodyLength, .number 2 stat.serverType.toNat, .number 4 stat.serverDevice.toNat]
    ++ stat.qid.fields
    ++ [.number 4 stat.mode.bits.toNat, .number 4 stat.accessTime.toNat,
      .number 4 stat.modifyTime.toNat, .number 8 stat.length.toNat,
      .text stat.name, .text stat.owner, .text stat.group, .text stat.lastModifier]

end MemFs
