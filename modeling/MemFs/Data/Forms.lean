import MemFs.Access.Request
import MemFs.Data.Datum
import MemFs.Stat.Basic

/-!
# Plain forms of domain values

`toDatum` gives the plain form of a value and `ofDatum?` reads it back. Reading needs every field of
a record in its range and ignores fields that it does not know.
-/

namespace MemFs

namespace Kind

/-- The plain form of a kind is its name. -/
def toDatum : Kind → Datum
  | .file => .text "file"
  | .directory => .text "directory"

def ofName? (name : String) : Option Kind :=
  if name = "file" then some .file
  else if name = "directory" then some .directory
  else none

/-- Reads a kind from its name, which may also be the only name of a record whose value is null. -/
def ofDatum? : Datum → Option Kind
  | .text name => ofName? name
  | .record [(name, .null)] => ofName? name
  | _ => none

end Kind

namespace Qid

def toDatum (qid : Qid) : Datum :=
  .record
    [("kind", qid.kind.toDatum), ("version", .ofNat qid.version.toNat),
      ("path", .ofNat qid.path.toNat)]

def ofDatum? (datum : Datum) : Option Qid := do
  let kind ← (← datum.field? "kind") |> Kind.ofDatum?
  let version ← (← datum.field? "version") |>.uint32?
  let path ← (← datum.field? "path") |>.uint64?
  pure { kind, version, path }

end Qid

namespace Mode

def toDatum (mode : Mode) : Datum :=
  .ofNat mode.bits.toNat

def ofDatum? (datum : Datum) : Option Mode :=
  datum.uint32?.map Mode.mk

end Mode

namespace Request

def toDatum (request : Request) : Datum :=
  .ofNat request.byte.toNat

def ofDatum? (datum : Datum) : Option Request :=
  datum.uint8?.map Request.mk

end Request

namespace Stat

def toDatum (stat : Stat) : Datum :=
  .record
    [("typ", .ofNat stat.serverType.toNat), ("dev", .ofNat stat.serverDevice.toNat),
      ("qid", stat.qid.toDatum), ("mode", stat.mode.toDatum),
      ("atime", .ofNat stat.accessTime.toNat), ("mtime", .ofNat stat.modifyTime.toNat),
      ("length", .ofNat stat.length.toNat), ("name", .text stat.name), ("uid", .text stat.owner),
      ("gid", .text stat.group), ("muid", .text stat.lastModifier)]

def ofDatum? (datum : Datum) : Option Stat := do
  let serverType ← (← datum.field? "typ") |>.uint16?
  let serverDevice ← (← datum.field? "dev") |>.uint32?
  let qid ← (← datum.field? "qid") |> Qid.ofDatum?
  let mode ← (← datum.field? "mode") |> Mode.ofDatum?
  let accessTime ← (← datum.field? "atime") |>.uint32?
  let modifyTime ← (← datum.field? "mtime") |>.uint32?
  let length ← (← datum.field? "length") |>.uint64?
  let name ← (← datum.field? "name") |>.text?
  let owner ← (← datum.field? "uid") |>.text?
  let group ← (← datum.field? "gid") |>.text?
  let lastModifier ← (← datum.field? "muid") |>.text?
  pure
    { serverType, serverDevice, qid, mode, accessTime, modifyTime, length, name, owner, group,
      lastModifier }

end Stat

end MemFs
