import MemFs.Tree.Basic

/-!
# Ownership

A node stays as long as something owns it: the tree owns its root, clients own what they hold, open
sessions own their nodes, and directories own their entries. Parent links own nothing. When a node
goes, its entries lose an owner, so that nodes beneath it may go as well. Nodes that own each other
in a circle stay.
-/

namespace MemFs.Tree

def isOwned (tree : Tree) (ref : NodeRef) : Bool :=
  ref = tree.root
    || tree.held.contains ref
    || tree.sessions.values.any (fun session => session.node = some ref)
    || tree.nodes.values.any (fun node => node.entries.values.contains ref)

/-- The tree without the nodes that nothing owns. -/
def dropUnowned (tree : Tree) : Tree :=
  { tree with nodes := tree.nodes.keep fun place => tree.isOwned ⟨place⟩ }

/-- Drops nodes that nothing owns until every node is owned, at most this many times. -/
def sweepUpTo : (passes : Nat) → Tree → Tree
  | 0, tree => tree
  | passes + 1, tree =>
      if tree.nodes.keys.all fun place => tree.isOwned ⟨place⟩ then tree
      else sweepUpTo passes tree.dropUnowned

/-- The tree without the nodes that nothing owns and those that only they owned. Every pass drops a
node, so there are no more passes than places. -/
def sweep (tree : Tree) : Tree :=
  sweepUpTo tree.nodes.size tree

def hold (tree : Tree) (ref : NodeRef) : Tree :=
  match tree.node? ref with
  | some _ => { tree with held := ref :: tree.held }
  | none => tree

def letGo (tree : Tree) (ref : NodeRef) : Tree :=
  sweep { tree with held := tree.held.erase ref }

/-- A node is told that this directory, if it is one, contains it. Its entries do not change. -/
def attach (tree : Tree) (ref parent : NodeRef) : Tree :=
  match tree.directory? parent with
  | some _ => tree.modifyNode ref fun node => node.within parent
  | none => tree

/-- A new file that no directory contains. Its maker holds it. -/
def makeFile (tree : Tree) (now : UInt32) (blueprint : Blueprint) (content : List UInt8) :
    Outcome NodeRef :=
  let ref := tree.nextNode
  (tree.addNode fun id => blueprint.file id content now).hold ref |>.accept ref []

/-- A new directory that no directory contains. Its maker holds it. -/
def makeDirectory (tree : Tree) (now : UInt32) (blueprint : Blueprint) : Outcome NodeRef :=
  let ref := tree.nextNode
  (tree.addNode fun id => blueprint.directory id now).hold ref |>.accept ref []

end MemFs.Tree
