import MemFs.Name
import MemFs.Tree.Ownership

/-!
# The namespace

Entries of directories are created, added, renamed, removed and walked. All but adding ask the
policy for access to the directory.
-/

namespace MemFs.Tree

/-- The blueprint of what a directory creates: owner and group are the directory's, and the
permissions are limited to the directory's, all nine bits of them for a directory and the read and
write bits for a file. -/
def inherited (directory : Node) (name : String) (requested : Mode) : Blueprint where
  name
  mode :=
    requested.clip
      (if requested.isDirectory then Mode.permissionMask else Mode.readWriteMask) directory.mode
  owner := directory.owner
  group := directory.group

/-- A new node for a directory, itself a directory if the mode asked for says so. -/
def newChild (parent : NodeRef) (directory : Node) (name : String) (requested : Mode)
    (now : UInt32) (id : UInt64) : Node :=
  let blueprint := inherited directory name requested
  let child :=
    if requested.isDirectory then blueprint.directory id now else blueprint.file id [] now
  child.within parent

/-- Creates an empty file or directory in a directory. -/
def create (tree : Tree) (setting : Setting) (ref : NodeRef) (user name : String)
    (requested : Mode) : Outcome NodeRef :=
  match tree.directory? ref with
  | none => tree.refuse .notADirectory []
  | some (directory, entries) =>
      if !Name.isValid name then tree.refuse .invalidName []
      else
        let check := setting.check directory user .write
        if !check.granted then (tree.deny directory user .write).afterCheck check
        else if entries.contains name then
          (tree.refuse .nameConflict [.createConflict directory.id name]).afterCheck check
        else
          let child := tree.nextNode
          let id := tree.ids.next.1
          let grown := tree.addNode (newChild ref directory name requested setting.clock.now)
          let changed := grown.modifyNode ref fun node =>
            (node.withEntries (entries.insert name child)).mutatedBy user (setting.clock.after 1)
          (changed.accept child [.created directory.id id name user]).afterCheck check

/-- How a search up the parent links ends, if it does. -/
inductive Search where
  | found
  /-- The way up ended without what was searched for. -/
  | missed
  /-- The way up goes round in a circle. -/
  | endless
deriving DecidableEq, Repr

/-- Searches for `ancestor` on the way up the parent links from `ref`. A way that is longer than the
limit is taken for an endless one. -/
def climb (tree : Tree) (ancestor : NodeRef) : (limit : Nat) → NodeRef → Search
  | 0, _ => .endless
  | limit + 1, ref =>
      if ref = ancestor then .found
      else
        match tree.parent? ref with
        | none => .missed
        | some parent => climb tree ancestor limit parent

/-- Searches for `ancestor` at this node and on its way up the parent links. A way up without
repetition has no more nodes than there are places. -/
def search (tree : Tree) (ref ancestor : NodeRef) : Search :=
  tree.climb ancestor tree.nodes.size ref

/-- Adds a node to a directory under a name, whatever the node itself is called. The policy is not
asked. A directory cannot be added to itself or to what lies within it; where the way up was made a
circle without it, neither the search for it ends nor the addition. -/
def add (tree : Tree) (setting : Setting) (ref : NodeRef) (name : String) (graft : NodeRef) :
    Outcome Unit :=
  match tree.directory? ref, tree.node? graft with
  | some (directory, entries), some node =>
      if !Name.isValid name then tree.refuse .invalidName []
      else
        match if node.kind = .directory then tree.search ref graft else .missed with
        | .found => tree.refuse .wouldCycle [.addCycle directory.id node.id name]
        | .endless => tree.stall
        | .missed =>
            if entries.contains name then
              tree.refuse .nameConflict [.addConflict directory.id name]
            else
              let linked := tree.modifyNode graft fun node => node.within ref
              let changed := linked.modifyNode ref fun node =>
                (node.withEntries (entries.insert name graft)).mutated setting.clock
              changed.accept () [.added directory.id name]
  | none, _ => tree.refuse .notADirectory []
  | some _, none => tree.refuse .nameNotFound []

/-- Renames an entry of a directory and the node under it. -/
def rename (tree : Tree) (setting : Setting) (ref : NodeRef) (user old new : String) :
    Outcome Unit :=
  match tree.directory? ref with
  | none => tree.refuse .notADirectory []
  | some (directory, entries) =>
      if !Name.isValid new then tree.refuse .invalidName []
      else
        let check := setting.check directory user .write
        if !check.granted then (tree.deny directory user .write).afterCheck check
        else
          match entries.find? old with
          | none =>
              (tree.refuse .nameNotFound [.renameMissing directory.id old]).afterCheck check
          | some child =>
              if entries.contains new then
                (tree.refuse .nameConflict [.renameConflict directory.id new]).afterCheck check
              else
                let named := tree.modifyNode child fun node => { node with name := new }
                let changed := named.modifyNode ref fun node =>
                  (node.withEntries (entries.move old new)).mutatedBy user setting.clock
                (changed.accept () [.renamed directory.id old new user]).afterCheck check

/-- Removes an entry of a directory. Open sessions on the node under it are no obstacle, but entries
of its own are. -/
def remove (tree : Tree) (setting : Setting) (ref : NodeRef) (user name : String) :
    Outcome Unit :=
  match tree.directory? ref with
  | none => tree.refuse .notADirectory []
  | some (directory, entries) =>
      let check := setting.check directory user .write
      if !check.granted then (tree.deny directory user .write).afterCheck check
      else
        match entries.find? name with
        | none => (tree.refuse .nameNotFound [.removeMissing directory.id name]).afterCheck check
        | some child =>
            if (tree.node? child).all Node.isRemovable then
              let changed := tree.modifyNode ref fun node =>
                (node.withEntries (entries.erase name)).mutatedBy user setting.clock
              (changed.sweep.accept () [.removed directory.id name user]).afterCheck check
            else
              (tree.refuse .notRemovable [.removeOccupied directory.id name]).afterCheck check

/-- The node that a name stands for in a directory: `.` for the directory itself, `..` for the one
that contains it, and any other name for what is under it. -/
def lookUp (tree : Tree) (ref : NodeRef) (entries : Entries NodeRef) (name : String) :
    Option NodeRef :=
  if name = "." then some ref
  else if name = ".." then tree.container? ref
  else entries.find? name

/-- Looks a name up in a directory. That nothing is found is no error. -/
def walk (tree : Tree) (setting : Setting) (ref : NodeRef) (user name : String) :
    Outcome (Option NodeRef) :=
  match tree.directory? ref with
  | none => tree.refuse .notADirectory []
  | some (directory, entries) =>
      let check := setting.check directory user .execute
      if !check.granted then (tree.deny directory user .execute).afterCheck check
      else
        let touched := tree.modifyNode ref fun node => node.accessed setting.clock.now
        (touched.accept (tree.lookUp ref entries name) []).afterCheck check

/-- Looks names up one after the other, from a node on, until one is not found. Only the last node
may be a file. -/
def follow (path : String) (user : String) : List String → Tree → Setting → NodeRef →
    Outcome (Option NodeRef)
  | [], tree, _, ref => tree.accept (some ref) []
  | component :: rest, tree, setting, ref =>
      match tree.directory? ref with
      | none => tree.refuse .notADirectory [.pathThroughFile path component]
      | some _ =>
          let step := tree.walk setting ref user component
          match step.ending with
          | .ok (some next) =>
              let further := follow path user rest step.tree setting.afterWalk next
              { further with
                checks := step.checks ++ further.checks
                events := step.events ++ further.events }
          | _ => step

/-- Looks up a path from the root. The empty path and a lone slash stand for the root. -/
def resolve (tree : Tree) (setting : Setting) (user path : String) : Outcome (Option NodeRef) :=
  follow path user (Name.components path) tree setting tree.root

end MemFs.Tree
