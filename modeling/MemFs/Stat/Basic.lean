import MemFs.Access.Mode
import MemFs.Identity.Qid

/-!
# Stat records

A `Stat` is what a client sees of a node besides its content. Metadata is also written as a `Stat`;
a length of `unchangedLength` then leaves the content alone.
-/

namespace MemFs

/-- The metadata of a node at one moment. -/
structure Stat where
  /-- Private to the server. -/
  serverType : UInt16
  /-- Private to the server. -/
  serverDevice : UInt32
  qid : Qid
  mode : Mode
  /-- When the node was last accessed, in seconds. -/
  accessTime : UInt32
  /-- When the node was last modified, in seconds. -/
  modifyTime : UInt32
  /-- The number of bytes of content; zero for a directory. -/
  length : UInt64
  name : String
  owner : String
  group : String
  lastModifier : String
deriving DecidableEq, Repr

namespace Stat

/-- The length that leaves the content alone when metadata is written. -/
def unchangedLength : UInt64 := 0xFFFFFFFFFFFFFFFF

/-- The number of bytes of a record besides its texts. -/
def fixedLength : Nat := 49

/-- The number of bytes of a record, its size field included. -/
def encodedLength (stat : Stat) : Nat :=
  fixedLength + stat.name.utf8ByteSize + stat.owner.utf8ByteSize + stat.group.utf8ByteSize
    + stat.lastModifier.utf8ByteSize

/-- The number of bytes of a record that follow its size field. -/
def bodyLength (stat : Stat) : Nat :=
  stat.encodedLength - 2

end Stat

end MemFs
