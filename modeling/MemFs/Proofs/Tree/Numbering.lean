import MemFs.Proofs.Tree.Reshape

/-!
# Numbers of nodes

A counting source numbers the nodes by their places, so that no two nodes have the same number
before the numbers wrap around.
-/

namespace MemFs.Tree

/-- Nodes are numbered by their places, from a first number on. -/
structure IsNumbered (first : UInt64) (tree : Tree) : Prop where
  next : tree.ids = .counting (first + .ofNat tree.nodes.size)
  own : ∀ ref outline, tree.outline? ref = some outline → outline.id = first + .ofNat ref.place

variable {before after : Tree} {first : UInt64}

private theorem numberAfter (size : Nat) :
    first + .ofNat size + 1 = first + .ofNat (size + 1) := by
  rw [UInt64.add_assoc, UInt64.ofNat_add]
  rfl

theorem IsNumbered.of_kept (numbered : IsNumbered first before)
    (size : after.nodes.size = before.nodes.size) (ids : after.ids = before.ids)
    (same : ∀ ref outline, after.outline? ref = some outline →
      ∃ earlier, before.outline? ref = some earlier ∧ outline.id = earlier.id) :
    IsNumbered first after := by
  constructor
  · rw [ids, size]
    exact numbered.next
  · intro ref outline found
    obtain ⟨earlier, there, sameId⟩ := same ref outline found
    rw [sameId]
    exact numbered.own ref earlier there

theorem IsNumbered.of_grown {node : Outline} (numbered : IsNumbered first before)
    (store : Grown before after) (own : node.id = before.ids.next.1)
    (fresh : after.outline? before.nextNode = some node)
    (same : ∀ ref outline, ref ≠ before.nextNode → after.outline? ref = some outline →
      ∃ earlier, before.outline? ref = some earlier ∧ outline.id = earlier.id) :
    IsNumbered first after := by
  constructor
  · rw [store.ids, store.size, numbered.next, IdSource.next, numberAfter]
  · intro ref outline found
    by_cases new : ref = before.nextNode
    · subst new
      cases fresh.symm.trans found
      rw [own, numbered.next]
      rfl
    · obtain ⟨earlier, there, sameId⟩ := same ref outline new found
      rw [sameId]
      exact numbered.own ref earlier there

theorem Reshaped.isNumbered {operation : Operation} (reshaped : Reshaped before after operation)
    (numbered : IsNumbered first before) : IsNumbered first after := by
  cases reshaped with
  | kept store outlines =>
      refine numbered.of_kept store.size store.ids ?_
      intro ref outline found
      exact ⟨outline, outlines ref ▸ found, rfl⟩
  | swept store outlines thinned =>
      refine numbered.of_kept (thinned.size.trans store.size) (thinned.ids.trans store.ids) ?_
      intro ref outline found
      exact ⟨outline, outlines ref ▸ thinned.outline?_eq found, rfl⟩
  | made store own bare orphan outlines =>
      refine numbered.of_grown store own (by rw [outlines, if_pos rfl]) ?_
      intro ref outline old found
      rw [outlines, if_neg old] at found
      exact ⟨outline, found, rfl⟩
  | attached store found isDirectory outlines =>
      refine numbered.of_kept store.size store.ids ?_
      intro ref outline
      exact Outline.exists_earlier Outline.id (outlines ref) fun _ => rfl
  | renamedAlone store valid unmoved outlines =>
      refine numbered.of_kept store.size store.ids ?_
      intro ref outline
      exact Outline.exists_earlier Outline.id (outlines ref) fun _ => rfl
  | created store found isDirectory valid free own named bare inside outlines =>
      refine numbered.of_grown store own (by rw [outlines, if_pos rfl]) ?_
      intro ref outline old found
      have later := outlines ref
      rw [if_neg old] at later
      exact Outline.exists_earlier Outline.id later (fun _ => rfl) found
  | added store found isDirectory there valid free unmet outlines =>
      refine numbered.of_kept store.size store.ids ?_
      intro ref outline
      exact Outline.exists_earlier Outline.id (outlines ref) fun _ => rfl
  | moved store found isDirectory valid present free sameNumber outlines =>
      refine numbered.of_kept store.size store.ids ?_
      intro ref outline
      exact Outline.exists_earlier Outline.id (outlines ref) fun _ => rfl
  | removed store found isDirectory present removable outlines thinned =>
      refine numbered.of_kept (thinned.size.trans store.size) (thinned.ids.trans store.ids) ?_
      intro ref outline there
      exact Outline.exists_earlier Outline.id (outlines ref) (fun _ => rfl)
        (thinned.outline?_eq there)

/-- As long as the numbers do not wrap around, nodes with the same number are in the same place, even
in different trees. -/
theorem IsNumbered.apart {tree later : Tree} (numbered : IsNumbered first tree)
    (few : tree.nodes.size < UInt64.size) (laterNumbered : IsNumbered first later)
    (laterFew : later.nodes.size < UInt64.size) {ref other : NodeRef} {node otherNode : Node}
    (there : tree.node? ref = some node) (otherThere : later.node? other = some otherNode)
    (same : node.id = otherNode.id) : ref = other := by
  have own := numbered.own ref node.outline (by rw [outline?, there, Option.map_some])
  have otherOwn := laterNumbered.own other otherNode.outline
    (by rw [outline?, otherThere, Option.map_some])
  have number : node.id = first + .ofNat ref.place := own
  have otherNumber : otherNode.id = first + .ofNat other.place := otherOwn
  have small := Nat.lt_trans (place_lt_size there) few
  have otherSmall := Nat.lt_trans (place_lt_size otherThere) laterFew
  rw [number, otherNumber, UInt64.add_right_inj] at same
  have samePlace : ref.place = other.place := by
    have values := congrArg UInt64.toNat same
    rwa [UInt64.toNat_ofNat_of_lt' small, UInt64.toNat_ofNat_of_lt' otherSmall] at values
  cases ref
  cases other
  exact congrArg NodeRef.mk samePlace

/-- As long as the numbers do not wrap around, each node has its own. -/
theorem IsNumbered.distinct {tree : Tree} (numbered : IsNumbered first tree)
    (few : tree.nodes.size < UInt64.size) {ref other : NodeRef} {node otherNode : Node}
    (there : tree.node? ref = some node) (otherThere : tree.node? other = some otherNode)
    (same : node.id = otherNode.id) : ref = other :=
  numbered.apart few numbered few there otherThere same

theorem isNumbered_ofRoot (blueprint : Blueprint) (first : UInt64) (now : UInt32) :
    IsNumbered first (ofRoot blueprint (.counting first) now) := by
  constructor
  · rfl
  · intro ref outline found
    rw [outline?, node?, ofRoot, Arena.get?_push] at found
    split at found
    · rename_i atRoot
      cases found
      rw [atRoot]
      exact (UInt64.add_zero first).symm
    · cases found

end MemFs.Tree
