import MemFs.Proofs.Access.Mode
import MemFs.Proofs.Tree.Revision

/-!
# Writing back what a node shows

The metadata that a node shows can be written back to it, whatever the node is called, wherever it
is and whatever it was made from. Only its version and its times tell of it: the slash that is shown
for no name is not taken for a name, the flag that a directory always shows is not taken for a
change, and a file is cut to the length that it has.
-/

namespace MemFs

namespace Node

variable (node : Node) (clock : Clock)

/-- What a node shows does not ask for another name. -/
theorem not_isRenamedBy_stat : ¬ node.IsRenamedBy node.stat :=
  fun renamed => renamed.2 rfl

/-- What a file shows does not ask for more bytes, also where its length does not fit. -/
theorem not_isExtendedBy_stat : ¬ node.IsExtendedBy node.stat := by
  rintro ⟨content, isFile, -, longer⟩
  have shown : node.stat.length = .ofNat content.length := by
    rw [stat, Node.content, isFile]
  rw [shown, UInt64.toNat_ofNat'] at longer
  exact absurd (Nat.mod_le _ _) (Nat.not_le_of_lt longer)

/-- Cutting a content to the length that its file shows changes no length that is shown. -/
theorem ofNat_length_cut (content : List UInt8) :
    UInt64.ofNat (if UInt64.ofNat content.length = Stat.unchangedLength then content
      else content.take (UInt64.ofNat content.length).toNat).length = .ofNat content.length := by
  split
  · rfl
  · rw [List.length_take, UInt64.toNat_ofNat', Nat.min_eq_left (Nat.mod_le _ _)]
    exact UInt64.ofNat_mod_size

theorem stat_withMetadata_stat :
    (node.withMetadata node.stat clock).stat = { node.stat with
      qid := { node.qid with version := node.version + 1 }
      accessTime := clock.reading node.accessReading
      modifyTime := clock.now } := by
  obtain ⟨id, name, owner, group, lastModifier, mode, version, accessTime, modifyTime, openCount,
    parent, body⟩ := node
  cases body with
  | file content =>
      simpa [stat, withMetadata, qid, kind, shownMode, shownName, Node.content] using
        ofNat_length_cut content
  | directory entries =>
      simpa [stat, withMetadata, qid, kind, shownMode, shownName, Node.content] using
        Mode.asDirectory_asDirectory mode

/-- A content whose length fits is cut to itself. -/
theorem body_withMetadata_stat (fits : node.content.length < UInt64.size) :
    (node.withMetadata node.stat clock).body = node.body := by
  unfold withMetadata stat
  cases body : node.body with
  | file content =>
      have same : node.content = content := by rw [Node.content, body]
      rw [same] at fits ⊢
      dsimp only
      rw [UInt64.toNat_ofNat', Nat.mod_eq_of_lt fits, List.take_length, ite_self]
  | directory entries => rfl

end Node

namespace Tree

variable {tree : Tree} {clock : Clock} {ref : NodeRef} {node : Node}

/-- Writing back what a node shows is never refused and leaves all other nodes alone. -/
theorem writeMetadata_stat (there : tree.node? ref = some node) (clock : Clock) :
    tree.writeMetadata clock ref node.stat =
      (tree.modifyNode ref fun node' => node'.revised node.stat none clock).accept () [] := by
  have wanted := node.replacement?_of_same node.not_isRenamedBy_stat
  have short : ¬ node.extendedBy node.stat = true :=
    node.extendedBy_iff.not.mpr node.not_isExtendedBy_stat
  simp only [writeMetadata, there, wanted, revise, if_neg short]

end Tree

namespace World

/-- Writing back what a node shows is always done. The node then shows the same but for another
version and what the clock shows for its times, and nothing else of it has changed, nor any other
node. That goes for every content whose length fits into what is shown of it. -/
theorem outcome_writeMetadata_stat (world : World) {ref : NodeRef} {node : Node}
    (there : world.tree.node? ref = some node) (clock : Clock) :
    let outcome := world.outcome clock (.writeMetadata ref node.stat)
    outcome.ending = .ok .done ∧
      (∃ later, outcome.tree.node? ref = some later ∧
        later.stat = { node.stat with
          qid := { node.qid with version := node.version + 1 }
          accessTime := clock.reading node.accessReading
          modifyTime := clock.now } ∧
        (node.content.length < UInt64.size → later.body = node.body) ∧
        later.parent = node.parent ∧ later.opens = node.opens ∧ later.name = node.name) ∧
      ∀ other, other ≠ ref → outcome.tree.node? other = world.tree.node? other := by
  intro outcome
  have written : outcome =
      ((world.tree.writeMetadata clock ref node.stat).map fun _ => Answer.done) := rfl
  rw [Tree.writeMetadata_stat there] at written
  rw [written]
  refine ⟨rfl, ⟨node.withMetadata node.stat clock, ?_, node.stat_withMetadata_stat clock,
    node.body_withMetadata_stat clock, rfl, rfl, if_pos (Or.inr rfl)⟩, ?_⟩
  · have wanted := node.replacement?_of_same node.not_isRenamedBy_stat
    refine (Tree.node?_modifyNode_of_some there ref _).trans ?_
    rw [if_pos rfl, node.revised_eq wanted]
  · intro other apart
    exact (Tree.node?_modifyNode _ _ _ _).trans (if_neg apart)

/-- A directory with a name that no entry may have is added to the root under another name. A file
is removed while a session is open on it. -/
def addedAndRemoved : List (Clock × Operation) :=
  [(1, .makeDirectory ⟨"..", ⟨0o755⟩, "o", "g"⟩), (2, .add ⟨0⟩ "k" ⟨1⟩),
    (3, .create ⟨0⟩ "o" "f" ⟨0o644⟩), (4, .openSession ⟨2⟩ "o" .write), (5, .write ⟨0⟩ [104]),
    (6, .remove ⟨0⟩ "o" "f")]

theorem outcome_of_addedAndRemoved :
    let world := (fresh .allowAll ⟨"", ⟨0o755⟩, "o", "g"⟩ .sequential 0).run addedAndRemoved
    ∃ added removed, (world.tree.node? ⟨1⟩ = some added ∧ added.stat.name = "..") ∧
      (world.tree.node? ⟨2⟩ = some removed ∧ removed.content = [104]) ∧
      (world.outcome 9 (.writeMetadata ⟨1⟩ added.stat)).ending = .ok .done ∧
      ∃ later, (world.outcome 9 (.writeMetadata ⟨2⟩ removed.stat)).tree.node? ⟨2⟩ = some later ∧
        later.stat.modifyTime = 9 ∧ later.body = removed.body := by
  intro world
  have shown : (world.tree.node? ⟨1⟩).map (fun node => node.stat.name) = some ".." ∧
      (world.tree.node? ⟨2⟩).map Node.content = some [104] := by decide +kernel
  obtain ⟨added, there, name⟩ := Option.map_eq_some_iff.mp shown.1
  obtain ⟨removed, alsoThere, content⟩ := Option.map_eq_some_iff.mp shown.2
  obtain ⟨done, -, -⟩ := outcome_writeMetadata_stat world there 9
  obtain ⟨-, ⟨later, laterThere, stat, body, -⟩, -⟩ := outcome_writeMetadata_stat world alsoThere 9
  have fits : removed.content.length < UInt64.size := by
    rw [content]
    decide
  exact ⟨added, removed, ⟨there, name⟩, ⟨alsoThere, content⟩, done, later, laterThere,
    congrArg Stat.modifyTime stat, body fits⟩

end World

end MemFs
