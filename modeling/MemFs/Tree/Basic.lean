import MemFs.Arena
import MemFs.Event
import MemFs.Identity.Source
import MemFs.Session

/-!
# Trees

A `Tree` keeps nodes and sessions, knows its root and what clients hold, and has a source of node
numbers. It never changes in place: an operation gives an `Outcome` with the tree afterwards, the
queries that were put to the access policy, and the events. An operation that waits for itself, or
goes round in a circle, never ends; its outcome says so and has the tree as it stays.
-/

namespace MemFs

/-- A tree of files and directories with the sessions on it. -/
structure Tree where
  nodes : Arena Node
  sessions : Arena Session
  /-- The nodes that clients hold, each as many times as it is held. -/
  held : List NodeRef
  root : NodeRef
  ids : IdSource
deriving DecidableEq

/-- The circumstances under which an operation runs. -/
structure Setting where
  policy : Policy
  /-- The number of queries that the policy answered before. -/
  asked : Nat
  clock : Clock

/-- A query and how the policy answered it. -/
structure Check where
  query : Query
  granted : Bool
deriving DecidableEq, Repr

/-- How an operation ends, if it does. -/
inductive Ending (α : Type) where
  | ok (value : α)
  | error (error : TreeError)
  /-- The operation never returns. -/
  | never
deriving DecidableEq, Repr

namespace Ending

variable {α β : Type}

def map (change : α → β) : Ending α → Ending β
  | .ok value => .ok (change value)
  | .error reason => .error reason
  | .never => .never

/-- The ending of an operation that returns. -/
def returned : Except TreeError α → Ending α
  | .ok value => .ok value
  | .error reason => .error reason

end Ending

/-- What came of an operation. -/
structure Outcome (α : Type) where
  ending : Ending α
  tree : Tree
  /-- The queries put to the policy, in order. -/
  checks : List Check
  events : List Event

namespace Outcome

variable {α β : Type}

/-- The answer of an operation that never returns does not come. -/
def awaited (outcome : Outcome α) : Except TreeError α :=
  awaited outcome
partial_fixpoint

/-- What the operation answers. Whoever asks waits as long as the operation takes. -/
def result (outcome : Outcome α) : Except TreeError α :=
  match outcome.ending with
  | .ok value => .ok value
  | .error error => .error error
  | .never => outcome.awaited

def afterCheck (outcome : Outcome α) (check : Check) : Outcome α :=
  { outcome with checks := check :: outcome.checks }

def map (outcome : Outcome α) (change : α → β) : Outcome β :=
  { outcome with ending := outcome.ending.map change }

end Outcome

namespace Setting

/-- The seconds of a clock as nodes keep them: times before the epoch count as the epoch, and later
ones wrap around. -/
def secondsOf (clock : Int) : UInt32 :=
  .ofNat clock.toNat

/-- Puts the question to the policy whether a user may access a node. -/
def check (setting : Setting) (node : Node) (user : String) (request : Request) : Check :=
  let query : Query := ⟨node.owner = user, node.mode, request⟩
  ⟨query, setting.policy.allows setting.asked query⟩

/-- The setting after one query to the policy and one reading of the clock. -/
def afterWalk (setting : Setting) : Setting :=
  { setting with asked := setting.asked + 1, clock := setting.clock.after 1 }

end Setting

namespace Tree

variable {α : Type}

/-! ## Nodes and sessions -/

def node? (tree : Tree) (ref : NodeRef) : Option Node :=
  tree.nodes.get? ref.place

/-- The directory kept in this place with its entries. -/
def directory? (tree : Tree) (ref : NodeRef) : Option (Node × Entries NodeRef) :=
  match tree.node? ref with
  | none => none
  | some node =>
      match node.body with
      | .file _ => none
      | .directory entries => some (node, entries)

def session? (tree : Tree) (ref : SessionRef) : Option Session :=
  tree.sessions.get? ref.place

/-- The directory that a node's parent link leads to, while it is there. -/
def parent? (tree : Tree) (ref : NodeRef) : Option NodeRef := do
  let node ← tree.node? ref
  let parent ← node.parent
  let _ ← tree.node? parent
  pure parent

/-- The directory that contains a node. A directory that nothing contains, such as the root,
contains itself; a file may be contained in nothing. -/
def container? (tree : Tree) (ref : NodeRef) : Option NodeRef :=
  match tree.parent? ref, tree.directory? ref with
  | some parent, _ => some parent
  | none, some _ => some ref
  | none, none => none

def children (tree : Tree) (entries : Entries NodeRef) : List Node :=
  entries.values.filterMap tree.node?

def modifyNode (tree : Tree) (ref : NodeRef) (change : Node → Node) : Tree :=
  { tree with nodes := tree.nodes.modify ref.place change }

def modifySession (tree : Tree) (ref : SessionRef) (change : Session → Session) : Tree :=
  { tree with sessions := tree.sessions.modify ref.place change }

def nextNode (tree : Tree) : NodeRef :=
  ⟨tree.nodes.size⟩

def nextSession (tree : Tree) : SessionRef :=
  ⟨tree.sessions.size⟩

/-- The tree with a new node, made from the next number, in the next place. -/
def addNode (tree : Tree) (make : UInt64 → Node) : Tree :=
  { tree with
    nodes := tree.nodes.push (make tree.ids.next.1)
    ids := tree.ids.next.2 }

def addSession (tree : Tree) (session : Session) : Tree :=
  { tree with sessions := tree.sessions.push session }

/-! ## Outcomes -/

/-- Nothing more happens than that a value is given. -/
def accept (tree : Tree) (value : α) (events : List Event) : Outcome α :=
  ⟨.ok value, tree, [], events⟩

/-- The operation fails and leaves the tree as it is. -/
def refuse (tree : Tree) (error : TreeError) (events : List Event) : Outcome α :=
  ⟨.error error, tree, [], events⟩

/-- The operation never returns and leaves the tree as it is. -/
def stall (tree : Tree) : Outcome α :=
  ⟨.never, tree, [], []⟩

/-- The policy denied a user access to a node. -/
def deny (tree : Tree) (node : Node) (user : String) (request : Request) : Outcome α :=
  tree.refuse .accessDenied [.accessDenied node.id user node.owner node.mode request]

/-! ## A tree without anything but its root -/

/-- A tree whose root is a new directory. -/
def ofRoot (blueprint : Blueprint) (ids : IdSource) (now : UInt32) : Tree where
  nodes := Arena.empty.push (blueprint.directory ids.next.1 now)
  sessions := .empty
  held := []
  root := ⟨0⟩
  ids := ids.next.2

end Tree

end MemFs
