import MemFs.Proofs.Arena
import MemFs.Proofs.Entries
import MemFs.Tree.Operation

/-!
# What the namespace sees of a tree

The namespace sees the outline of a node: its number, its name, its kind, its parent link and its
entries. Most changes of a node leave its outline alone. `Holds` is the relation that entries make
between directories and nodes, and `Owns` is the same relation without the names.
-/

namespace MemFs

/-- What the namespace sees of a node. -/
structure Outline where
  id : UInt64
  name : String
  kind : Kind
  parent : Option NodeRef
  entries : Entries NodeRef
deriving DecidableEq

namespace Outline

def named (outline : Outline) (name : String) : Outline :=
  { outline with name := name }

def within (outline : Outline) (parent : NodeRef) : Outline :=
  { outline with parent := some parent }

def withEntries (outline : Outline) (entries : Entries NodeRef) : Outline :=
  { outline with kind := .directory, entries := entries }

variable {α : Type} {effect : Outline → Outline} {earlier later : Option Outline}

/-- What an effect leaves alone is afterwards as it was before. -/
theorem exists_later (field : Outline → α) (outlines : later = earlier.map effect)
    {outline : Outline} (keeps : field (effect outline) = field outline)
    (found : earlier = some outline) : ∃ new, later = some new ∧ field new = field outline := by
  rw [found] at outlines
  exact ⟨effect outline, outlines, keeps⟩

/-- What an effect leaves alone was before as it is afterwards. -/
theorem exists_earlier (field : Outline → α) (outlines : later = earlier.map effect)
    (keeps : ∀ outline, field (effect outline) = field outline) {outline : Outline}
    (found : later = some outline) : ∃ old, earlier = some old ∧ field outline = field old := by
  rw [found] at outlines
  obtain ⟨old, there, same⟩ := Option.map_eq_some_iff.mp outlines.symm
  exact ⟨old, there, same ▸ keeps old⟩

end Outline

namespace Node

/-- The outline of a node. -/
def outline (node : Node) : Outline :=
  ⟨node.id, node.name, node.kind, node.parent, node.entries⟩

@[simp]
theorem outline_accessed (node : Node) (now : UInt32) :
    (node.accessed now).outline = node.outline := rfl

@[simp]
theorem outline_mutatedBy (node : Node) (user : String) (clock : Clock) :
    (node.mutatedBy user clock).outline = node.outline := rfl

@[simp]
theorem outline_opened (node : Node) (now : UInt32) :
    (node.opened now).outline = node.outline := rfl

@[simp]
theorem outline_released (node : Node) : node.released.outline = node.outline := rfl

@[simp]
theorem outline_within (node : Node) (parent : NodeRef) :
    (node.within parent).outline = node.outline.within parent := rfl

theorem outline_withContent {node : Node} {content : List UInt8}
    (isFile : node.body = .file content) (new : List UInt8) :
    (node.withContent new).outline = node.outline := by
  simp [outline, withContent, kind, entries, isFile]

theorem outline_revised (node : Node) (stat : Stat) (newName : Option String) (clock : Clock) :
    (node.revised stat newName clock).outline =
      node.outline.named (newName.getD node.name) := by
  cases body : node.body with
  | file content =>
      by_cases unchanged : stat.length = Stat.unchangedLength <;>
        simp [outline, Outline.named, revised, bodyAfter, mutated, kind, entries, body, unchanged]
  | directory held =>
      simp [outline, Outline.named, revised, bodyAfter, mutated, kind, entries, body]

theorem exists_entries_of_kind {node : Node} (isDirectory : node.kind = .directory) :
    ∃ entries, node.body = .directory entries := by
  cases body : node.body with
  | file content =>
      rw [kind, body] at isDirectory
      cases isDirectory
  | directory entries => exact ⟨entries, rfl⟩

theorem exists_content_of_kind {node : Node} (isFile : node.kind = .file) :
    ∃ content, node.body = .file content := by
  cases body : node.body with
  | file content => exact ⟨content, rfl⟩
  | directory entries =>
      rw [kind, body] at isFile
      cases isFile

end Node

namespace Tree

/-- The outline of the node kept in this place. -/
def outline? (tree : Tree) (ref : NodeRef) : Option Outline :=
  (tree.node? ref).map Node.outline

/-- The directory kept in one place holds the node kept in another under this name. -/
def Holds (tree : Tree) (directory : NodeRef) (name : String) (child : NodeRef) : Prop :=
  ∃ node entries, tree.directory? directory = some (node, entries) ∧
    entries.find? name = some child

/-- A directory holds a node under some name. -/
def Owns (tree : Tree) (directory child : NodeRef) : Prop :=
  ∃ name, tree.Holds directory name child

/-- Whether some directory holds this node. -/
def isLinked (tree : Tree) (ref : NodeRef) : Bool :=
  tree.nodes.values.any fun node => node.entries.values.contains ref

/-! ## Reading directories and entries off outlines -/

theorem directory?_eq_some_iff {tree : Tree} {ref : NodeRef} {node : Node}
    {entries : Entries NodeRef} :
    tree.directory? ref = some (node, entries) ↔
      tree.node? ref = some node ∧ node.body = .directory entries := by
  unfold directory?
  cases found : tree.node? ref with
  | none => simp
  | some here =>
      simp only [Option.some.injEq]
      constructor
      · intro same
        cases body : here.body with
        | file content => simp [body] at same
        | directory held =>
            simp only [body, Option.some.injEq, Prod.mk.injEq] at same
            obtain ⟨rfl, rfl⟩ := same
            exact ⟨rfl, body⟩
      · rintro ⟨rfl, body⟩
        simp only [body]

theorem outline?_of_directory? {tree : Tree} {ref : NodeRef} {node : Node}
    {entries : Entries NodeRef} (found : tree.directory? ref = some (node, entries)) :
    tree.outline? ref = some node.outline ∧ node.outline.kind = .directory ∧
      node.outline.entries = entries := by
  obtain ⟨there, body⟩ := directory?_eq_some_iff.mp found
  simp [outline?, there, Node.outline, Node.kind, Node.entries, body]

theorem holds_iff {tree : Tree} {directory child : NodeRef} {name : String} :
    tree.Holds directory name child ↔
      ∃ outline, tree.outline? directory = some outline ∧
        outline.entries.find? name = some child := by
  constructor
  · rintro ⟨node, entries, found, here⟩
    obtain ⟨there, -, same⟩ := outline?_of_directory? found
    exact ⟨node.outline, there, same ▸ here⟩
  · rintro ⟨outline, found, here⟩
    obtain ⟨node, there, rfl⟩ := Option.map_eq_some_iff.mp found
    cases body : node.body with
    | file content => simp [Node.outline, Node.entries, body] at here
    | directory entries =>
        refine ⟨node, entries, directory?_eq_some_iff.mpr ⟨there, body⟩, ?_⟩
        simpa [Node.outline, Node.entries, body] using here

/-- Some directory holds a node exactly if it is linked. -/
theorem isLinked_iff {tree : Tree} {ref : NodeRef} :
    tree.isLinked ref = true ↔ ∃ directory name, tree.Holds directory name ref := by
  simp only [isLinked, List.any_eq_true, List.contains_iff_mem, Entries.mem_values_iff,
    Arena.mem_values_iff, holds_iff, outline?]
  constructor
  · rintro ⟨node, ⟨place, found⟩, name, here⟩
    exact ⟨⟨place⟩, name, node.outline, by simp [node?, found], here⟩
  · rintro ⟨directory, name, outline, found, here⟩
    obtain ⟨node, there, rfl⟩ := Option.map_eq_some_iff.mp found
    exact ⟨node, ⟨directory.place, there⟩, name, here⟩

theorem parent?_eq_some_iff {tree : Tree} {ref parent : NodeRef} :
    tree.parent? ref = some parent ↔
      (∃ outline, tree.outline? ref = some outline ∧ outline.parent = some parent) ∧
        ∃ above, tree.outline? parent = some above := by
  simp only [parent?, outline?, Option.bind_eq_bind, Option.bind_eq_some_iff, Option.map_eq_some_iff]
  constructor
  · rintro ⟨node, there, above, link, parentNode, parentThere, same⟩
    cases same
    exact ⟨⟨node.outline, ⟨node, there, rfl⟩, link⟩, parentNode.outline, parentNode, parentThere, rfl⟩
  · rintro ⟨⟨-, ⟨node, there, rfl⟩, link⟩, -, parentNode, parentThere, rfl⟩
    exact ⟨node, there, parent, link, parentNode, parentThere, rfl⟩

end Tree

end MemFs
