import MemFs.Name
import MemFs.Tree.Basic

/-!
# Metadata writes

Writing the metadata of a node sets its owner, group and mode, gives it another name and cuts its
content. The policy is not asked. A new name also moves the entry under which the parent holds the
node. Either all of it happens or nothing.
-/

namespace MemFs.Tree

def revise (tree : Tree) (clock : Clock) (ref : NodeRef) (node : Node) (stat : Stat)
    (newName : Option String) : Outcome Unit :=
  if node.extendedBy stat then
    tree.refuse .lengthExtension
      [.extensionRejected node.id stat.length.toNat node.content.length]
  else
    (tree.modifyNode ref fun node => node.revised stat newName clock).accept () []

/-- Writes metadata with a new name while the parent of the node is kept locked. A directory that
was made its own parent waits for the lock that it holds. -/
def reviseLocked (tree : Tree) (clock : Clock) (ref : NodeRef) (node : Node) (stat : Stat)
    (newName : String) (parentRef : NodeRef) : Outcome Unit :=
  if parentRef = ref then tree.stall else tree.revise clock ref node stat (some newName)

/-- The name under which entries hold a node with this number: the first one, if there are more. -/
def nameHeld? (tree : Tree) (entries : Entries NodeRef) (id : UInt64) : Option String :=
  entries.nameOf? fun child => (tree.node? child).any fun node => node.id = id

/-- Writes metadata with a new name to a node with a parent, and moves the parent's entry. A parent
that does not hold the node, or holds it under the new name already, is left alone. -/
def reviseEntry (tree : Tree) (clock : Clock) (ref : NodeRef) (node : Node) (stat : Stat)
    (newName : String) (parentRef : NodeRef) (parent : Node) (entries : Entries NodeRef) :
    Outcome Unit :=
  let revision := tree.reviseLocked clock ref node stat newName parentRef
  match (tree.nameHeld? entries node.id).filter (· != newName) with
  | none => revision
  | some oldName =>
      if entries.contains newName then
        tree.refuse .nameConflict [.metadataConflict parent.id node.id newName]
      else
        match revision.ending with
        | .ok () =>
            let changed := revision.tree.modifyNode parentRef fun parent =>
              (parent.withEntries (entries.move oldName newName)).mutated (node.clockAfter clock)
            changed.accept () [.metadataRenamed parent.id node.id oldName newName]
        | _ => revision

def writeMetadata (tree : Tree) (clock : Clock) (ref : NodeRef) (stat : Stat) : Outcome Unit :=
  match tree.node? ref with
  | none => tree.refuse .nameNotFound []
  | some node =>
      match Name.replacement? node.name node.shownName stat.name with
      | .error error => tree.refuse error []
      | .ok none => tree.revise clock ref node stat none
      | .ok (some newName) =>
          match tree.parent? ref with
          | none => tree.revise clock ref node stat (some newName)
          | some parentRef =>
              match tree.directory? parentRef with
              | none => tree.revise clock ref node stat (some newName)
              | some (parent, entries) =>
                  tree.reviseEntry clock ref node stat newName parentRef parent entries

end MemFs.Tree
