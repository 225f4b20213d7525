import MemFs.Access.Policy
import MemFs.Data.Datum

/-!
# Events

Every refusal worth noting and every change of the tree leaves an event. Nodes are named by their
numbers.
-/

namespace MemFs

/-- How much an event matters. -/
inductive Level where
  /-- A refusal. -/
  | debug
  /-- A change, or a session that begins or ends. -/
  | trace
deriving DecidableEq, Repr

/-- Something that happened in a tree. -/
inductive Event where
  | accessDenied (node : UInt64) (user owner : String) (mode : Mode) (request : Request)
  | fileOpened (node : UInt64) (user : String) (request : Request) (opens : UInt32)
  | fileClosed (node : UInt64) (opens : UInt32)
  | directoryOpened (node : UInt64) (user : String) (request : Request) (opens : UInt32)
  | directoryClosed (node : UInt64) (opens : UInt32)
  | created (directory child : UInt64) (name user : String)
  | createConflict (directory : UInt64) (name : String)
  | added (directory : UInt64) (name : String)
  | addConflict (directory : UInt64) (name : String)
  | addCycle (directory graft : UInt64) (name : String)
  | renamed (directory : UInt64) (old new user : String)
  | renameMissing (directory : UInt64) (old : String)
  | renameConflict (directory : UInt64) (new : String)
  | removed (directory : UInt64) (name user : String)
  | removeMissing (directory : UInt64) (name : String)
  | removeOccupied (directory : UInt64) (name : String)
  | metadataRenamed (directory child : UInt64) (old new : String)
  | metadataConflict (directory child : UInt64) (new : String)
  | extensionRejected (node : UInt64) (requested current : Nat)
  | pathThroughFile (path component : String)
  | seekRejected (directory : UInt64) (requested current : Nat)
deriving DecidableEq, Repr

namespace Event

def level : Event → Level
  | .fileOpened .. | .fileClosed .. | .directoryOpened .. | .directoryClosed .. | .created ..
  | .added .. | .renamed .. | .removed .. | .metadataRenamed .. => .trace
  | .accessDenied .. | .createConflict .. | .addConflict .. | .addCycle .. | .renameMissing ..
  | .renameConflict .. | .removeMissing .. | .removeOccupied .. | .metadataConflict ..
  | .extensionRejected .. | .pathThroughFile .. | .seekRejected .. => .debug

def message : Event → String
  | .accessDenied .. => "access denied"
  | .fileOpened .. => "file opened"
  | .fileClosed .. => "file closed"
  | .directoryOpened .. => "directory opened"
  | .directoryClosed .. => "directory closed"
  | .created .. => "created"
  | .createConflict .. => "create: name exists"
  | .added .. => "added"
  | .addConflict .. => "add: name exists"
  | .addCycle .. => "add: would create a cycle"
  | .renamed .. => "renamed"
  | .renameMissing .. => "rename: source missing"
  | .renameConflict .. => "rename: target exists"
  | .removed .. => "removed"
  | .removeMissing .. => "remove: not found"
  | .removeOccupied .. => "remove: not removable"
  | .metadataRenamed .. => "renamed by metadata write"
  | .metadataConflict .. => "metadata rename: target exists"
  | .extensionRejected .. => "length extension rejected"
  | .pathThroughFile .. => "resolve: not a directory"
  | .seekRejected .. => "directory seek rejected"

/-- The particulars of an event by name. -/
def fields : Event → List (String × Datum)
  | .accessDenied node user owner mode request =>
      [("node", number node), ("user", .text user), ("owner", .text owner),
        ("mode", .text mode.describe), ("requested", .text request.describe)]
  | .fileOpened node user request opens | .directoryOpened node user request opens =>
      [("node", number node), ("user", .text user), ("mode", .text request.describe),
        ("opens", .ofNat opens.toNat)]
  | .fileClosed node opens | .directoryClosed node opens =>
      [("node", number node), ("opens", .ofNat opens.toNat)]
  | .created directory child name user =>
      [("dir", number directory), ("child", number child), ("name", .text name),
        ("user", .text user)]
  | .createConflict directory name | .added directory name | .addConflict directory name
  | .removeMissing directory name | .removeOccupied directory name =>
      [("dir", number directory), ("name", .text name)]
  | .addCycle directory graft name =>
      [("dir", number directory), ("graft", number graft), ("name", .text name)]
  | .renamed directory old new user =>
      [("dir", number directory), ("old", .text old), ("new", .text new), ("user", .text user)]
  | .renameMissing directory old => [("dir", number directory), ("old", .text old)]
  | .renameConflict directory new => [("dir", number directory), ("new", .text new)]
  | .removed directory name user =>
      [("dir", number directory), ("name", .text name), ("user", .text user)]
  | .metadataRenamed directory child old new =>
      [("dir", number directory), ("child", number child), ("old", .text old), ("new", .text new)]
  | .metadataConflict directory child new =>
      [("dir", number directory), ("child", number child), ("new", .text new)]
  | .extensionRejected node requested current =>
      [("node", number node), ("requested", .ofNat requested), ("current", .ofNat current)]
  | .pathThroughFile path component => [("path", .text path), ("component", .text component)]
  | .seekRejected directory requested current =>
      [("node", number directory), ("requested", .ofNat requested), ("current", .ofNat current)]
where
  number (id : UInt64) : Datum := .ofNat id.toNat

end Event

end MemFs
