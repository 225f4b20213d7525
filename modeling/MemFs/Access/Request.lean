/-!
# Requests for access

A request names one of four kinds of access in its two low bits. Two more bits ask to empty the
file and to remove it once the session ends.
-/

namespace MemFs

/-- What a client wants to do with a node. -/
inductive Access where
  | read
  | write
  | readWrite
  | execute
deriving DecidableEq, Repr

/-- The two bits that ask for this access. -/
def Access.code : Access → UInt8
  | .read => 0
  | .write => 1
  | .readWrite => 2
  | .execute => 3

def Access.word : Access → String
  | .read => "read"
  | .write => "write"
  | .readWrite => "rdwr"
  | .execute => "exec"

/-- A request for access with its modifiers, as one byte. -/
structure Request where
  byte : UInt8
deriving DecidableEq, Repr

namespace Request

def write : Request := ⟨1⟩

/-- A plain request to execute, which for a directory is to look up names. -/
def execute : Request := ⟨3⟩

/-- The bit that asks to empty the file. -/
def truncateFlag : UInt8 := 0x10

/-- The bit that asks to remove the node when the session ends. Whoever serves the tree acts on
it; the tree does not. -/
def removeFlag : UInt8 := 0x40

/-- The access asked for, without modifiers. -/
def access (request : Request) : Access :=
  match (request.byte &&& 3).toNat with
  | 0 => .read
  | 1 => .write
  | 2 => .readWrite
  | _ => .execute

def truncating (request : Request) : Request :=
  ⟨request.byte ||| truncateFlag⟩

def truncates (request : Request) : Bool :=
  request.byte &&& truncateFlag != 0

def removesOnClose (request : Request) : Bool :=
  request.byte &&& removeFlag != 0

def wantsRead (request : Request) : Bool :=
  match request.access with
  | .read | .readWrite => true
  | .write | .execute => false

def wantsWrite (request : Request) : Bool :=
  match request.access with
  | .write | .readWrite => true
  | .read | .execute => false

def wantsExecute (request : Request) : Bool :=
  request.access = .execute

/-- The diagnostic form: the access, then the modifiers, between bars. -/
def describe (request : Request) : String :=
  let truncation := if request.truncates then "|trunc" else ""
  let removal := if request.removesOnClose then "|rclose" else ""
  s!"OpenMode({request.access.word}{truncation}{removal})"

end Request

end MemFs
