import MemFs.Proofs.Tree.Outline

/-!
# Looking up after a change

What each elementary change of a tree does to the nodes, the sessions and the outlines. Everything
that a change does not mention stays as it is.
-/

namespace MemFs.Tree

variable (tree : Tree)

/-! ## Nodes -/

theorem node?_modifyNode (ref other : NodeRef) (change : Node → Node) :
    (tree.modifyNode ref change).node? other =
      if other = ref then (tree.node? other).map change else tree.node? other := by
  cases other
  cases ref
  simp only [node?, modifyNode, Arena.get?_modify, NodeRef.mk.injEq]

theorem node?_addNode (make : UInt64 → Node) (other : NodeRef) :
    (tree.addNode make).node? other =
      if other = tree.nextNode then some (make tree.ids.next.1) else tree.node? other := by
  cases other
  simp only [node?, addNode, nextNode, Arena.get?_push, NodeRef.mk.injEq]

theorem node?_nextNode : tree.node? tree.nextNode = none :=
  Arena.get?_eq_none_of_size_le (Nat.le_refl _)

theorem place_lt_size {tree : Tree} {ref : NodeRef} {node : Node}
    (found : tree.node? ref = some node) : ref.place < tree.nodes.size :=
  Arena.lt_size_of_get?_eq_some found

/-! ## Sessions -/

theorem session?_modifySession (ref other : SessionRef) (change : Session → Session) :
    (tree.modifySession ref change).session? other =
      if other = ref then (tree.session? other).map change else tree.session? other := by
  cases other
  cases ref
  simp only [session?, modifySession, Arena.get?_modify, SessionRef.mk.injEq]

@[simp]
theorem session?_modifyNode (ref : NodeRef) (other : SessionRef) (change : Node → Node) :
    (tree.modifyNode ref change).session? other = tree.session? other := rfl

theorem session?_addSession (session : Session) (other : SessionRef) :
    (tree.addSession session).session? other =
      if other = tree.nextSession then some session else tree.session? other := by
  cases other
  simp only [session?, addSession, nextSession, Arena.get?_push, SessionRef.mk.injEq]

theorem sessionPlace_lt_size {tree : Tree} {ref : SessionRef} {session : Session}
    (found : tree.session? ref = some session) : ref.place < tree.sessions.size :=
  Arena.lt_size_of_get?_eq_some found

/-! ## Outlines -/

@[simp]
theorem outline?_modifySession (ref : SessionRef) (other : NodeRef) (change : Session → Session) :
    (tree.modifySession ref change).outline? other = tree.outline? other := rfl

theorem outline?_addNode (make : UInt64 → Node) (other : NodeRef) :
    (tree.addNode make).outline? other =
      if other = tree.nextNode then some (make tree.ids.next.1).outline
      else tree.outline? other := by
  rw [outline?, node?_addNode]
  split
  · rfl
  · rfl

/-- A change that acts on outlines by `effect` does so in its place only. -/
theorem outline?_modifyNode {ref : NodeRef} {change : Node → Node}
    (effect : Outline → Outline)
    (acts : ∀ node, tree.node? ref = some node → (change node).outline = effect node.outline)
    (other : NodeRef) :
    (tree.modifyNode ref change).outline? other =
      if other = ref then (tree.outline? other).map effect else tree.outline? other := by
  rw [outline?, node?_modifyNode]
  by_cases here : other = ref
  · subst here
    simp only [if_true, outline?, Option.map_map]
    cases found : tree.node? other with
    | none => rfl
    | some node => exact congrArg some (acts node found)
  · simp only [if_neg here, outline?]

theorem outline?_modifyNode_of_same {ref : NodeRef} {change : Node → Node}
    (same : ∀ node, tree.node? ref = some node → (change node).outline = node.outline)
    (other : NodeRef) :
    (tree.modifyNode ref change).outline? other = tree.outline? other := by
  rw [outline?_modifyNode tree id same]
  simp

theorem outline?_nextNode : tree.outline? tree.nextNode = none := by
  rw [outline?, node?_nextNode]
  rfl

theorem ne_nextNode {tree : Tree} {ref : NodeRef} {outline : Outline}
    (there : tree.outline? ref = some outline) : ref ≠ tree.nextNode := by
  intro fresh
  rw [fresh, outline?_nextNode] at there
  cases there

/-! ## A client takes hold of a node -/

@[simp]
theorem node?_hold (ref other : NodeRef) : (tree.hold ref).node? other = tree.node? other := by
  unfold hold
  cases tree.node? ref <;> rfl

@[simp]
theorem session?_hold (ref : NodeRef) (other : SessionRef) :
    (tree.hold ref).session? other = tree.session? other := by
  unfold hold
  cases tree.node? ref <;> rfl

@[simp]
theorem outline?_hold (ref other : NodeRef) :
    (tree.hold ref).outline? other = tree.outline? other := by
  rw [outline?, node?_hold, outline?]

@[simp]
theorem nodes_hold (ref : NodeRef) : (tree.hold ref).nodes = tree.nodes := by
  unfold hold
  cases tree.node? ref <;> rfl

@[simp]
theorem ids_hold (ref : NodeRef) : (tree.hold ref).ids = tree.ids := by
  unfold hold
  cases tree.node? ref <;> rfl

end MemFs.Tree
