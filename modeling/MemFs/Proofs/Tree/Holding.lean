import MemFs.Proofs.Tree.Reshape

/-!
# Which directory holds what after an operation

The entries of a tree are read as one function from places. An operation changes this function in
one place at most, by a binding, a move or an unbinding, and a sweep only takes from it.
-/

namespace MemFs.Tree

/-- The entries of the directory in a place. There are none where there is no directory. -/
def entriesAt (tree : Tree) (ref : NodeRef) : Entries NodeRef :=
  ((tree.outline? ref).map Outline.entries).getD .empty

theorem holds_iff_entriesAt {tree : Tree} {directory child : NodeRef} {name : String} :
    tree.Holds directory name child ↔ (tree.entriesAt directory).find? name = some child := by
  rw [holds_iff, entriesAt]
  cases tree.outline? directory with
  | none => simp
  | some outline => simp

theorem owns_iff_entriesAt {tree : Tree} {directory child : NodeRef} :
    tree.Owns directory child ↔ ∃ name, (tree.entriesAt directory).find? name = some child := by
  simp only [Owns, holds_iff_entriesAt]

theorem entriesAt_of_outline? {tree : Tree} {ref : NodeRef} {outline : Outline}
    (found : tree.outline? ref = some outline) : tree.entriesAt ref = outline.entries := by
  rw [entriesAt, found]
  rfl

theorem entriesAt_of_directory? {tree : Tree} {ref : NodeRef} {node : Node}
    {entries : Entries NodeRef} (found : tree.directory? ref = some (node, entries)) :
    tree.entriesAt ref = entries := by
  obtain ⟨outlineThere, -, same⟩ := outline?_of_directory? found
  exact (entriesAt_of_outline? outlineThere).trans same

variable {before after : Tree}

theorem entriesAt_of_congr (same : ∀ ref, after.outline? ref = before.outline? ref)
    (ref : NodeRef) : after.entriesAt ref = before.entriesAt ref := by
  rw [entriesAt, entriesAt, same]

theorem entriesAt_of_same {effect : NodeRef → Outline → Outline}
    (outlines : ∀ ref, after.outline? ref = (before.outline? ref).map (effect ref))
    (keeps : ∀ ref outline, (effect ref outline).entries = outline.entries) (ref : NodeRef) :
    after.entriesAt ref = before.entriesAt ref := by
  rw [entriesAt, entriesAt, outlines, Option.map_map]
  exact congrArg (Option.getD · Entries.empty) (Option.map_congr fun outline _ => keeps ref outline)

theorem entriesAt_of_fresh {node : Outline} (bare : node.entries = .empty)
    (outlines : ∀ ref, after.outline? ref =
      if ref = before.nextNode then some node else before.outline? ref) (ref : NodeRef) :
    after.entriesAt ref = before.entriesAt ref := by
  rw [entriesAt, entriesAt, outlines]
  by_cases fresh : ref = before.nextNode
  · subst fresh
    rw [if_pos rfl, outline?_nextNode]
    exact bare
  · rw [if_neg fresh]

theorem entriesAt_of_rebound {effect : NodeRef → Outline → Outline} {directory : NodeRef}
    {outer : Outline} {entries : Entries NodeRef}
    (found : before.outline? directory = some outer)
    (outlines : ∀ ref, after.outline? ref = (before.outline? ref).map (effect ref))
    (rebinds : ∀ ref outline, (effect ref outline).entries =
      if ref = directory then entries else outline.entries) (ref : NodeRef) :
    after.entriesAt ref = if ref = directory then entries else before.entriesAt ref := by
  rw [entriesAt, entriesAt, outlines, Option.map_map]
  by_cases here : ref = directory
  · subst here
    rw [found, if_pos rfl]
    simp only [Option.map_some, Function.comp_apply, rebinds, if_pos, Option.getD_some]
  · rw [if_neg here]
    refine congrArg (Option.getD · Entries.empty) (Option.map_congr fun outline _ => ?_)
    rw [Function.comp_apply, rebinds, if_neg here]

theorem entriesAt_of_created {effect : NodeRef → Outline → Outline} {directory : NodeRef}
    {outer node : Outline} {entries : Entries NodeRef}
    (found : before.outline? directory = some outer) (bare : node.entries = .empty)
    (outlines : ∀ ref, after.outline? ref =
      if ref = before.nextNode then some node else (before.outline? ref).map (effect ref))
    (rebinds : ∀ ref outline, (effect ref outline).entries =
      if ref = directory then entries else outline.entries) (ref : NodeRef) :
    after.entriesAt ref = if ref = directory then entries else before.entriesAt ref := by
  by_cases fresh : ref = before.nextNode
  · subst fresh
    have elsewhere : before.nextNode ≠ directory := (ne_nextNode found).symm
    rw [if_neg elsewhere, entriesAt, entriesAt, outlines, if_pos rfl, outline?_nextNode]
    exact bare
  · have there : after.outline? ref = (before.outline? ref).map (effect ref) := by
      rw [outlines, if_neg fresh]
    by_cases here : ref = directory
    · subst here
      rw [if_pos rfl, entriesAt, there, found]
      simp only [Option.map_some, Option.getD_some, rebinds, if_pos]
    · rw [if_neg here, entriesAt, entriesAt, there, Option.map_map]
      refine congrArg (Option.getD · Entries.empty) (Option.map_congr fun outline _ => ?_)
      rw [Function.comp_apply, rebinds, if_neg here]

/-! ## The three changes of entries -/

section Rebinding

variable {directory : NodeRef} {outer : Outline} (found : before.outline? directory = some outer)

include found

theorem holds_of_insert {bound : NodeRef} {newName : String}
    (free : outer.entries.find? newName = none)
    (changed : ∀ ref, after.entriesAt ref =
      if ref = directory then outer.entries.insert newName bound else before.entriesAt ref)
    (holder child : NodeRef) (name : String) :
    after.Holds holder name child ↔
      before.Holds holder name child ∨
        (holder = directory ∧ name = newName ∧ child = bound) := by
  rw [holds_iff_entriesAt, holds_iff_entriesAt, changed]
  by_cases here : holder = directory
  · subst here
    rw [if_pos rfl, Entries.find?_insert, entriesAt_of_outline? found]
    by_cases atNew : name = newName
    · subst atNew
      simp [free, eq_comm]
    · simp [atNew]
  · simp [here]

theorem holds_of_move {moved : NodeRef} {old new : String}
    (present : outer.entries.find? old = some moved) (free : outer.entries.find? new = none)
    (changed : ∀ ref, after.entriesAt ref =
      if ref = directory then outer.entries.move old new else before.entriesAt ref)
    (holder child : NodeRef) (name : String) :
    after.Holds holder name child ↔
      (before.Holds holder name child ∧ ¬ (holder = directory ∧ name = old)) ∨
        (holder = directory ∧ name = new ∧ child = moved) := by
  rw [holds_iff_entriesAt, holds_iff_entriesAt, changed]
  by_cases here : holder = directory
  · subst here
    rw [if_pos rfl, Entries.find?_move present, entriesAt_of_outline? found]
    by_cases atNew : name = new
    · subst atNew
      simp [free, eq_comm]
    · by_cases atOld : name = old
      · simp [atOld, eq_comm]
      · simp [atNew, atOld]
  · simp [here]

theorem holds_of_erase {oldName : String}
    (changed : ∀ ref, after.entriesAt ref =
      if ref = directory then outer.entries.erase oldName else before.entriesAt ref)
    (holder child : NodeRef) (name : String) :
    after.Holds holder name child ↔
      before.Holds holder name child ∧ ¬ (holder = directory ∧ name = oldName) := by
  rw [holds_iff_entriesAt, holds_iff_entriesAt, changed]
  by_cases here : holder = directory
  · subst here
    rw [if_pos rfl, Entries.find?_erase, entriesAt_of_outline? found]
    by_cases atOld : name = oldName <;> simp [atOld]
  · simp [here]

theorem owns_of_insert {bound : NodeRef} {newName : String}
    (free : outer.entries.find? newName = none)
    (changed : ∀ ref, after.entriesAt ref =
      if ref = directory then outer.entries.insert newName bound else before.entriesAt ref)
    (holder child : NodeRef) :
    after.Owns holder child ↔
      before.Owns holder child ∨ (holder = directory ∧ child = bound) := by
  simp only [Owns, holds_of_insert found free changed, exists_or, exists_and_left,
    exists_eq_left]

theorem owns_of_move {moved : NodeRef} {old new : String}
    (present : outer.entries.find? old = some moved) (free : outer.entries.find? new = none)
    (changed : ∀ ref, after.entriesAt ref =
      if ref = directory then outer.entries.move old new else before.entriesAt ref)
    (holder child : NodeRef) :
    after.Owns holder child ↔ before.Owns holder child := by
  simp only [Owns, holds_iff_entriesAt, changed]
  by_cases here : holder = directory
  · subst here
    simp only [if_true, Entries.exists_find?_move_iff present free, entriesAt_of_outline? found]
  · simp only [if_neg here]

end Rebinding

theorem holds_of_same (same : ∀ ref, after.entriesAt ref = before.entriesAt ref)
    (holder child : NodeRef) (name : String) :
    after.Holds holder name child ↔ before.Holds holder name child := by
  rw [holds_iff_entriesAt, holds_iff_entriesAt, same]

theorem owns_of_same (same : ∀ ref, after.entriesAt ref = before.entriesAt ref)
    (holder child : NodeRef) : after.Owns holder child ↔ before.Owns holder child := by
  simp only [Owns, holds_of_same same]

/-! ## Nodes without entries -/

/-- A node without entries owns nothing. -/
theorem not_owns_of_empty {tree : Tree} {ref child : NodeRef}
    (bare : ∀ outline, tree.outline? ref = some outline → outline.entries.isEmpty = true) :
    ¬ tree.Owns ref child := by
  intro owned
  obtain ⟨name, here⟩ := owned
  obtain ⟨outline, found, bound⟩ := holds_iff.mp here
  rw [Entries.find?_eq_none_of_isEmpty (bare outline found) name] at bound
  cases bound

/-- A new tree has no entries. -/
theorem not_owns_ofRoot (blueprint : Blueprint) (ids : IdSource) (now : UInt32)
    (directory child : NodeRef) : ¬ (ofRoot blueprint ids now).Owns directory child := by
  refine not_owns_of_empty ?_
  intro outline there
  rw [outline?, node?, ofRoot, Arena.get?_push] at there
  split at there
  · cases there
    rfl
  · cases there

end MemFs.Tree
