import MemFs.Error
import MemFs.Node

/-!
# Sessions

A session is a cursor over an open node. A file session reads and writes the present content of its
file; a directory session reads a snapshot of the listing, taken at its first read or at its last
rewind.
-/

namespace MemFs

/-- The place where a tree keeps a session. -/
structure SessionRef where
  place : Nat
deriving DecidableEq, Repr

/-- What the cursor of a session moves over. -/
inductive Stream where
  /-- The content of a file, on behalf of a user. -/
  | file (user : String)
  /-- The listing of a directory, if a snapshot was taken. -/
  | directory (snapshot : Option (List UInt8))
deriving DecidableEq, Repr

/-- A cursor over a node. -/
structure Session where
  /-- The node, while the session is open. -/
  node : Option NodeRef
  cursor : Nat
  stream : Stream
deriving DecidableEq, Repr

/-- What the offset of a seek counts from. -/
inductive Origin where
  | start
  | current
  | ending
deriving DecidableEq, Repr

/-- The origin with this number. -/
def Origin.ofCode (code : Nat) : Except TreeError Origin :=
  match code with
  | 0 => .ok .start
  | 1 => .ok .current
  | 2 => .ok .ending
  | _ => .error .invalidSeek

namespace Session

/-- The bytes of the snapshot that a directory session holds. -/
def snapshotBytes (session : Session) : List UInt8 :=
  match session.stream with
  | .directory (some bytes) => bytes
  | _ => []

/-- The greatest position that a cursor may be asked for. -/
def greatestPosition : Int := 0x7FFFFFFFFFFFFFFF

/-- Where a seek leads in a stream of this length, if it is a position at all. Each kind of session
has a rule of its own on which positions it accepts. -/
def target? (session : Session) (length : Nat) (offset : Int) (origin : Origin) : Option Nat :=
  let base : Int :=
    match origin with
    | .start => 0
    | .current => session.cursor
    | .ending => length
  let position := base + offset
  if 0 ≤ position ∧ position ≤ greatestPosition then some position.toNat else none

def movedTo (session : Session) (position : Nat) : Session :=
  { session with cursor := position }

def withSnapshot (session : Session) (bytes : List UInt8) : Session :=
  { session with stream := .directory (some bytes) }

def closed (session : Session) : Session :=
  { session with node := none }

end Session

end MemFs
