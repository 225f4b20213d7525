import MemFs.Text.Utf8

/-!
# Errors

An error says what went wrong; `message` gives the wording and `cause` the wording of the error
beneath it, if there is one.
-/

namespace MemFs

/-- What can go wrong while bytes are moved. -/
inductive TransferFault where
  /-- The bytes ended before a field was complete. -/
  | endOfInput
  /-- The room ended before a field was complete. -/
  | outOfRoom
  /-- Any other fault, in the words of whoever moved the bytes. -/
  | other (text : String)
deriving DecidableEq, Repr

def TransferFault.message : TransferFault → String
  | .endOfInput => "failed to fill whole buffer"
  | .outOfRoom => "failed to write whole buffer"
  | .other text => text

/-- Why a record cannot be written or read. -/
inductive RecordError where
  /-- A text of `length` bytes has no length field. -/
  | stringTooLong (length : Nat)
  /-- A record of `length` bytes, its size field apart, has no size field. -/
  | recordTooLong (length : Nat)
  /-- The size field of a record is not the number of bytes that follow it. -/
  | sizeMismatch (declared actual : Nat)
  | invalidText (fault : Utf8.Fault)
  | transfer (fault : TransferFault)
deriving DecidableEq, Repr

namespace RecordError

def message : RecordError → String
  | .stringTooLong length => s!"string of {length} bytes does not fit a u16 length prefix"
  | .recordTooLong length => s!"stat record of {length} bytes does not fit a u16 size prefix"
  | .sizeMismatch declared actual =>
      s!"stat record size {declared} disagrees with {actual} encoded bytes"
  | .invalidText _ => "string is not valid UTF-8"
  | .transfer fault => s!"io error: {fault.message}"

/-- The wording of the error beneath this one. -/
def cause? : RecordError → Option String
  | .invalidText fault => some fault.message
  | .transfer fault => some fault.message
  | _ => none

end RecordError

/-- Why a tree refuses an operation. -/
inductive TreeError where
  | accessDenied
  | notOpen
  | invalidSeek
  | seekPastEnd
  | nameConflict
  | nameNotFound
  | notRemovable
  | lengthExtension
  | isADirectory
  | notADirectory
  | invalidName
  | wouldCycle
  /-- The stat of a node has no encoding. -/
  | encoding (error : RecordError)
deriving DecidableEq, Inhabited, Repr

/-- The classes of errors that systems commonly tell apart. -/
inductive ErrorClass where
  | permissionDenied
  | alreadyExists
  | notFound
  | invalidInput
  | invalidData
  | unsupported
  | other
deriving DecidableEq, Repr

namespace TreeError

def message : TreeError → String
  | .accessDenied => "access denied"
  | .notOpen => "session not open"
  | .invalidSeek => "invalid seek"
  | .seekPastEnd => "seek past end of file"
  | .nameConflict => "name already exists"
  | .nameNotFound => "name not found"
  | .notRemovable => "not removable"
  | .lengthExtension => "metadata write cannot extend file length"
  | .isADirectory => "is a directory"
  | .notADirectory => "not a directory"
  | .invalidName => "name not allowed"
  | .wouldCycle => "directory cannot be grafted beneath itself"
  | .encoding error => s!"stat encoding failed: {error.message}"

/-- The wording of the error beneath this one. -/
def cause? : TreeError → Option String
  | .encoding error => some error.message
  | _ => none

def errorClass : TreeError → ErrorClass
  | .accessDenied => .permissionDenied
  | .nameConflict => .alreadyExists
  | .nameNotFound => .notFound
  | .invalidSeek | .seekPastEnd | .lengthExtension | .notADirectory | .invalidName
  | .wouldCycle => .invalidInput
  | .isADirectory => .unsupported
  | .encoding _ => .invalidData
  | .notOpen | .notRemovable => .other

end TreeError

end MemFs
