/-!
# Node modes

A mode is a word whose top bit marks directories and whose low nine bits are the permissions of the
owner, the group and everyone else, three bits each: read, write, execute. All other bits are
carried along.
-/

namespace MemFs

structure Mode where
  bits : UInt32
deriving DecidableEq, Repr

namespace Mode

def directoryFlag : UInt32 := 0x80000000

def permissionMask : UInt32 := 0o777

def readWriteMask : UInt32 := 0o666

def isDirectory (mode : Mode) : Bool :=
  mode.bits &&& directoryFlag != 0

def permissions (mode : Mode) : UInt32 :=
  mode.bits &&& permissionMask

def asDirectory (mode : Mode) : Mode :=
  ⟨mode.bits ||| directoryFlag⟩

/-- The mode of a directory with these permissions and no other bits. -/
def ofDirectory (permissions : UInt32) : Mode :=
  ⟨directoryFlag ||| (permissions &&& permissionMask)⟩

/-- The mode without the bits of `mask` that `ceiling` lacks. Bits outside `mask` are kept. -/
def clip (mode : Mode) (mask : UInt32) (ceiling : Mode) : Mode :=
  ⟨mode.bits &&& (~~~mask ||| (ceiling.bits &&& mask))⟩

/-- A number below 8⁴ in four octal digits. -/
def octal (value : Nat) : String :=
  String.ofList <| [512, 64, 8, 1].map fun weight => Nat.digitChar (value / weight % 8)

/-- The diagnostic form: the permissions in octal, marked for a directory. -/
def describe (mode : Mode) : String :=
  let marker := if mode.isDirectory then "d" else ""
  s!"FileMode({marker}{octal mode.permissions.toNat})"

end Mode

end MemFs
