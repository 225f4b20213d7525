import MemFs.Proofs.Tree.Alteration

/-!
# A value of the node in a place

Something that each node has, such as a version, is read for every place, with a value for places
without a node. Elementary changes act on these values as they act on the nodes, and a sweep keeps
the value of what it keeps.
-/

namespace MemFs.Tree

variable {α : Type} {field : Node → α} {absent : α} {tree : Tree} {ref : NodeRef}

/-- What the node in a place has, and something else while there is none. -/
def valueAt (field : Node → α) (absent : α) (tree : Tree) (ref : NodeRef) : α :=
  ((tree.node? ref).map field).getD absent

theorem valueAt_of_node? {node : Node} (there : tree.node? ref = some node) :
    valueAt field absent tree ref = field node := by
  rw [valueAt, there]
  rfl

theorem valueAt_of_missing (missing : tree.node? ref = none) :
    valueAt field absent tree ref = absent := by
  rw [valueAt, missing]
  rfl

theorem valueAt_congr {after : Tree} (same : after.node? ref = tree.node? ref) :
    valueAt field absent after ref = valueAt field absent tree ref := by
  rw [valueAt, valueAt, same]

theorem isSome_of_node? {node : Node} (there : tree.node? ref = some node) :
    (tree.node? ref).isSome = true := by
  rw [there, Option.isSome_some]

theorem isSome_of_directory? {node : Node} {entries : Entries NodeRef}
    (found : tree.directory? ref = some (node, entries)) : (tree.node? ref).isSome = true :=
  isSome_of_node? (directory?_eq_some_iff.mp found).1

theorem isSome_node?_modifyNode (target : NodeRef) (change : Node → Node) (ref : NodeRef) :
    ((tree.modifyNode target change).node? ref).isSome = (tree.node? ref).isSome := by
  rw [node?_modifyNode]
  split
  · exact Option.isSome_map
  · rfl

/-- A change of a node that is there acts on its value. -/
theorem valueAt_modifyNode {target : NodeRef} {change : Node → Node} (effect : α → α)
    (there : (tree.node? target).isSome = true)
    (acts : ∀ node, field (change node) = effect (field node)) :
    valueAt field absent (tree.modifyNode target change) ref =
      if ref = target then effect (valueAt field absent tree ref)
      else valueAt field absent tree ref := by
  rw [valueAt, valueAt, node?_modifyNode]
  by_cases here : ref = target
  · subst here
    obtain ⟨node, found⟩ := Option.isSome_iff_exists.mp there
    rw [if_pos rfl, if_pos rfl, found]
    exact acts node
  · rw [if_neg here, if_neg here]

theorem valueAt_modifyNode_of_same {target : NodeRef} {change : Node → Node}
    (same : ∀ node, field (change node) = field node) :
    valueAt field absent (tree.modifyNode target change) ref = valueAt field absent tree ref := by
  rw [valueAt, valueAt, node?_modifyNode]
  split
  · rw [Option.map_map]
    exact congrArg (Option.getD · absent) (Option.map_congr fun node _ => same node)
  · rfl

/-- A new node that starts with the value for places without a node changes no value. -/
theorem valueAt_addNode {make : UInt64 → Node} (new : ∀ id, field (make id) = absent) :
    valueAt field absent (tree.addNode make) ref = valueAt field absent tree ref := by
  rw [valueAt, valueAt, node?_addNode]
  by_cases fresh : ref = tree.nextNode
  · rw [if_pos fresh, fresh, node?_nextNode]
    exact new _
  · rw [if_neg fresh]

theorem valueAt_touchAll {clock : Clock}
    (same : ∀ (node : Node) (now : UInt32), field (node.accessed now) = field node)
    (walked : List NodeRef) :
    valueAt field absent (tree.touchAll clock walked) ref = valueAt field absent tree ref := by
  induction walked generalizing tree clock with
  | nil => rfl
  | cons first rest inductionHypothesis =>
      rw [touchAll, inductionHypothesis]
      exact valueAt_modifyNode_of_same fun node => same node clock.now

theorem valueAt_attach (same : ∀ (node : Node) parent, field (node.within parent) = field node)
    (target parent : NodeRef) :
    valueAt field absent (tree.attach target parent) ref = valueAt field absent tree ref := by
  unfold attach
  split
  · exact valueAt_modifyNode_of_same fun node => same node parent
  · rfl

/-- A node that is not dropped keeps its value. -/
theorem Thinned.valueAt_eq {after : Tree} (thinned : Thinned tree after)
    (stays : (tree.node? ref).isSome = true → (after.node? ref).isSome = true) :
    valueAt field absent after ref = valueAt field absent tree ref := by
  rcases thinned.node ref with same | gone
  · exact valueAt_congr same
  · have missing : tree.node? ref = none := by
      by_contra there
      have kept := stays (Option.isSome_iff_ne_none.mpr there)
      rw [gone] at kept
      cases kept
    exact valueAt_congr (gone.trans missing.symm)

/-- The release of a session does to a node that is not dropped what it does to the count of its
sessions. -/
theorem valueAt_release {session : SessionRef} {nodeRef : NodeRef}
    (stays : (tree.node? ref).isSome = true →
      ((tree.release session nodeRef).node? ref).isSome = true) :
    valueAt field absent (tree.release session nodeRef) ref =
      valueAt field absent (tree.modifyNode nodeRef Node.released) ref := by
  refine (swept_sweep _).toThinned.valueAt_eq fun there => stays ?_
  exact (isSome_node?_modifyNode nodeRef Node.released ref).symm.trans there

theorem valueAt_ofRoot (blueprint : Blueprint) (ids : IdSource) (now : UInt32)
    (new : ∀ id, field (blueprint.directory id now) = absent) :
    valueAt field absent (ofRoot blueprint ids now) ref = absent := by
  rw [valueAt, node?, ofRoot, Arena.get?_push]
  split
  · exact new _
  · rfl

end MemFs.Tree
