/-!
# Identities of nodes

A `Qid` is how clients tell nodes and their generations apart: the kind of the node, a version that
moves with every mutation, and a path number that no other node has.
-/

namespace MemFs

/-- The two kinds of nodes. -/
inductive Kind where
  | file
  | directory
deriving DecidableEq, Repr

namespace Kind

def byte : Kind → UInt8
  | .file => 0x00
  | .directory => 0x80

/-- Every byte with the top bit set stands for a directory. -/
def ofByte (byte : UInt8) : Kind :=
  if byte &&& 0x80 != 0 then .directory else .file

@[simp]
theorem ofByte_byte (kind : Kind) : ofByte kind.byte = kind := by
  cases kind <;> rfl

def word : Kind → String
  | .file => "File"
  | .directory => "Directory"

end Kind

/-- The identity of a node and its generation. -/
structure Qid where
  kind : Kind
  /-- Moves with every observable mutation of the node. -/
  version : UInt32
  /-- The number of the node. -/
  path : UInt64
deriving DecidableEq, Repr

namespace Qid

def isDirectory (qid : Qid) : Bool :=
  qid.kind = .directory

/-- The diagnostic form, field by field. -/
def describe (qid : Qid) : String :=
  s!"Qid \x7b kind: {qid.kind.word}, version: {qid.version}, path: {qid.path} \x7d"

end Qid

end MemFs
