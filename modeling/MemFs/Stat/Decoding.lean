import MemFs.Stat.Field

/-!
# Decoding records

Fields are read in the order in which they are written. Each text is checked as it is read; the
size that a record declares is compared last, with the size of what was read.
-/

namespace MemFs

/-- Reads a value from the front of a byte sequence. -/
abbrev Reader (α : Type) : Type :=
  StateT (List UInt8) (Except RecordError) α

namespace Reader

def take (count : Nat) : Reader (List UInt8) := fun bytes =>
  let front := bytes.take count
  if front.length = count then .ok (front, bytes.drop count)
  else .error (.transfer .endOfInput)

def number (width : Nat) : Reader Nat := do
  let bytes ← take width
  pure (LittleEndian.decode bytes)

/-- The next text, behind its length. -/
def text : Reader String := do
  let length ← number 2
  let bytes ← take length
  match Utf8.decode bytes with
  | .ok value => pure value
  | .error fault => throw (.invalidText fault)

def qid : Reader Qid := do
  let kind ← number 1
  let version ← number 4
  let path ← number 8
  pure ⟨Kind.ofByte (.ofNat kind), .ofNat version, .ofNat path⟩

def stat : Reader Stat := do
  let declared ← number 2
  let serverType ← number 2
  let serverDevice ← number 4
  let qid ← qid
  let mode ← number 4
  let accessTime ← number 4
  let modifyTime ← number 4
  let length ← number 8
  let name ← text
  let owner ← text
  let group ← text
  let lastModifier ← text
  let stat : Stat :=
    { serverType := .ofNat serverType
      serverDevice := .ofNat serverDevice
      qid
      mode := ⟨.ofNat mode⟩
      accessTime := .ofNat accessTime
      modifyTime := .ofNat modifyTime
      length := .ofNat length
      name
      owner
      group
      lastModifier }
  if stat.bodyLength = declared then pure stat
  else throw (.sizeMismatch declared stat.bodyLength)

end Reader

def Qid.decode (bytes : List UInt8) : Except RecordError (Qid × List UInt8) :=
  Reader.qid bytes

namespace Stat

/-- The record at the front of the bytes, and the bytes after it. -/
def decode (bytes : List UInt8) : Except RecordError (Stat × List UInt8) :=
  Reader.stat bytes

/-- Reads records until the bytes end, at most `limit` of them. -/
def decodeUpTo : (limit : Nat) → List UInt8 → Except RecordError (List Stat)
  | _, [] => .ok []
  | 0, _ :: _ => .ok []
  | limit + 1, bytes => do
      let (stat, rest) ← decode bytes
      let more ← decodeUpTo limit rest
      pure (stat :: more)

/-- The records that the bytes consist of, or the first error. Every record takes at least one
byte, so there are no more records than bytes. -/
def decodeAll (bytes : List UInt8) : Except RecordError (List Stat) :=
  decodeUpTo bytes.length bytes

end Stat

end MemFs
