import MemFs.Clock
import MemFs.Entries
import MemFs.Stat.Basic

/-!
# Nodes

A node is a file with its bytes or a directory with its entries. Entries and parent links refer to
nodes by where the tree keeps them; several nodes may have the same number, but no two are kept in
the same place.
-/

namespace MemFs

/-- The place where a tree keeps a node. -/
structure NodeRef where
  place : Nat
deriving DecidableEq, Repr

inductive Body where
  | file (content : List UInt8)
  | directory (entries : Entries NodeRef)
deriving DecidableEq

/-- A file or a directory with its metadata. -/
structure Node where
  id : UInt64
  /-- The name as stored, which is not always the name under which a directory holds the node. -/
  name : String
  owner : String
  group : String
  lastModifier : String
  mode : Mode
  version : UInt32
  accessTime : UInt32
  modifyTime : UInt32
  /-- The number of open sessions, kept in 32 bits. -/
  openCount : UInt32
  /-- The directory that last took the node in. It may be gone. -/
  parent : Option NodeRef
  body : Body
deriving DecidableEq

/-- What a new node is made from. -/
structure Blueprint where
  name : String
  mode : Mode
  owner : String
  group : String
deriving DecidableEq, Repr

namespace Blueprint

def file (blueprint : Blueprint) (id : UInt64) (content : List UInt8) (now : UInt32) : Node where
  id
  name := blueprint.name
  owner := blueprint.owner
  group := blueprint.group
  lastModifier := blueprint.owner
  mode := blueprint.mode
  version := 0
  accessTime := now
  modifyTime := now
  openCount := 0
  parent := none
  body := .file content

/-- A new directory without entries. Its mode carries the directory flag. -/
def directory (blueprint : Blueprint) (id : UInt64) (now : UInt32) : Node :=
  { blueprint.file id [] now with
    mode := blueprint.mode.asDirectory
    body := .directory .empty }

end Blueprint

namespace Node

def kind (node : Node) : Kind :=
  match node.body with
  | .file _ => .file
  | .directory _ => .directory

/-- The bytes of a file; a directory has none. -/
def content (node : Node) : List UInt8 :=
  match node.body with
  | .file content => content
  | .directory _ => []

/-- The entries of a directory; a file has none. -/
def entries (node : Node) : Entries NodeRef :=
  match node.body with
  | .file _ => .empty
  | .directory entries => entries

/-- Whether a directory may give up its entry for this node: directories have to be empty. -/
def isRemovable (node : Node) : Bool :=
  node.entries.isEmpty

/-- The name as shown: a directory without a name, such as the root, shows a slash. -/
def shownName (node : Node) : String :=
  match node.body with
  | .file _ => node.name
  | .directory _ => if node.name = "" then "/" else node.name

/-- The mode as shown: that of a directory always carries the directory flag. -/
def shownMode (node : Node) : Mode :=
  match node.body with
  | .file _ => node.mode
  | .directory _ => node.mode.asDirectory

def qid (node : Node) : Qid :=
  ⟨node.kind, node.version, node.id⟩

/-- The metadata that clients see. -/
def stat (node : Node) : Stat where
  serverType := 0
  serverDevice := 0
  qid := node.qid
  mode := node.shownMode
  accessTime := node.accessTime
  modifyTime := node.modifyTime
  length := .ofNat node.content.length
  name := node.shownName
  owner := node.owner
  group := node.group
  lastModifier := node.lastModifier

/-- The number of open sessions. -/
def opens (node : Node) : Nat :=
  node.openCount.toNat

def accessed (node : Node) (now : UInt32) : Node :=
  { node with accessTime := now }

/-- Which reading of the clock a mutation keeps as the access time. A file is accessed when it is
modified; a directory reads the clock again. -/
def accessReading (node : Node) : Nat :=
  match node.body with
  | .file _ => 0
  | .directory _ => 1

/-- The node after an observable mutation, which is also an access. -/
def mutated (node : Node) (clock : Clock) : Node :=
  { node with
    version := node.version + 1
    modifyTime := clock.now
    accessTime := clock.reading node.accessReading }

def mutatedBy (node : Node) (user : String) (clock : Clock) : Node :=
  { node.mutated clock with lastModifier := user }

/-- The clock after a mutation of this node. -/
def clockAfter (node : Node) (clock : Clock) : Clock :=
  clock.after (node.accessReading + 1)

/-- The node as contained in this directory. -/
def within (node : Node) (parent : NodeRef) : Node :=
  { node with parent := some parent }

def withEntries (node : Node) (entries : Entries NodeRef) : Node :=
  { node with body := .directory entries }

def withContent (node : Node) (content : List UInt8) : Node :=
  { node with body := .file content }

def opened (node : Node) (now : UInt32) : Node :=
  { node.accessed now with openCount := node.openCount + 1 }

/-- The node after a session on it ended. The count does not go below zero. -/
def released (node : Node) : Node :=
  { node with openCount := node.openCount - min node.openCount 1 }

/-- Whether writing this metadata would make a file longer. -/
def extendedBy (node : Node) (stat : Stat) : Bool :=
  match node.body with
  | .file content => stat.length != Stat.unchangedLength && content.length < stat.length.toNat
  | .directory _ => false

/-- What a node holds after its metadata was written: a file is cut to the length asked for. -/
def bodyAfter (node : Node) (stat : Stat) : Body :=
  match node.body with
  | .file content =>
      if stat.length = Stat.unchangedLength then .file content
      else .file (content.take stat.length.toNat)
  | .directory entries => .directory entries

/-- The node after its metadata was written, with a new name if one was asked for. -/
def revised (node : Node) (stat : Stat) (newName : Option String) (clock : Clock) : Node :=
  { node.mutated clock with
    name := newName.getD node.name
    owner := stat.owner
    group := stat.group
    mode := stat.mode
    body := node.bodyAfter stat }

end Node

end MemFs
