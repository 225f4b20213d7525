import MemFs.Proofs.Session.Listing
import MemFs.Proofs.Tree.Alteration

/-!
# The content of a file over a run

Whatever is done to a tree, the content of a file is what the edits on the way leave of an earlier
content, and nothing but edits changes it. Sessions read what is there and nothing beyond.
-/

namespace MemFs

namespace Tree

/-! ## Nodes that were there before -/

section Earlier

variable {before after : Tree} {operation : Operation}

theorem Reshaped.size_le (reshaped : Reshaped before after operation) :
    before.nodes.size ≤ after.nodes.size := by
  cases reshaped with
  | kept store | attached store | renamedAlone store | added store | moved store =>
      exact Nat.le_of_eq store.size.symm
  | swept store _ thinned => exact Nat.le_of_eq (thinned.size.trans store.size).symm
  | removed store _ _ _ _ _ thinned => exact Nat.le_of_eq (thinned.size.trans store.size).symm
  | made store | created store => exact Nat.le_of_lt (store.size ▸ Nat.lt_succ_self _)

/-- A node in a place that was used before was there before. -/
theorem Reshaped.exists_earlier (reshaped : Reshaped before after operation) {ref : NodeRef}
    {node : Node} (there : after.node? ref = some node) (used : ref.place < before.nodes.size) :
    ∃ earlier, before.node? ref = some earlier := by
  have old : ref ≠ before.nextNode := by
    intro fresh
    rw [fresh] at used
    exact Nat.lt_irrefl _ used
  have shown : after.outline? ref = some node.outline := by
    rw [outline?, there, Option.map_some]
  have earlier : ∃ outline, before.outline? ref = some outline := by
    cases reshaped with
    | kept store outlines => exact ⟨_, (outlines ref).symm.trans shown⟩
    | swept store outlines thinned =>
        exact ⟨_, (outlines ref).symm.trans (thinned.outline?_eq shown)⟩
    | made store numbered bare orphan outlines =>
        exact ⟨_, ((outlines ref).trans (if_neg old)).symm.trans shown⟩
    | created store found isDirectory valid free numbered named bare inside outlines =>
        rw [outlines, if_neg old] at shown
        obtain ⟨outline, outlineThere, -⟩ := Option.map_eq_some_iff.mp shown
        exact ⟨outline, outlineThere⟩
    | attached _ _ _ outlines | renamedAlone _ _ _ outlines | added _ _ _ _ _ _ _ outlines
    | moved _ _ _ _ _ _ _ outlines =>
        rw [outlines] at shown
        obtain ⟨outline, outlineThere, -⟩ := Option.map_eq_some_iff.mp shown
        exact ⟨outline, outlineThere⟩
    | removed store found isDirectory present removable outlines thinned =>
        have shownBefore := thinned.outline?_eq shown
        rw [outlines] at shownBefore
        obtain ⟨outline, outlineThere, -⟩ := Option.map_eq_some_iff.mp shownBefore
        exact ⟨outline, outlineThere⟩
  obtain ⟨outline, outlineThere⟩ := earlier
  obtain ⟨node, nodeThere, -⟩ := Option.map_eq_some_iff.mp outlineThere
  exact ⟨node, nodeThere⟩

end Earlier

/-! ## One operation -/

/-- An operation leaves the content of a file alone, or edits it. -/
theorem Altered.content {tree : Tree} {clock : Clock} {operation : Operation}
    {ending : Ending Answer} {ref : NodeRef} {before after : Node} {content : List UInt8}
    (altered : Altered tree clock operation ending ref before after)
    (isFile : before.body = .file content) :
    (operation.edit? tree ref ending = none ∧ after.body = .file content) ∨
      ∃ edit, operation.edit? tree ref ending = some edit ∧ edit.Fits content.length ∧
        after.body = .file (edit.apply content) := by
  have kind : before.kind = .file := by rw [Node.kind, isFile]
  have notDirectory : before.kind ≠ .directory := by
    rw [kind]
    decide
  cases altered with
  | kept unedited | accessed unedited | released unedited | takenIn parent unedited =>
      exact Or.inl ⟨unedited, isFile⟩
  | opened unedited => exact Or.inl ⟨unedited kind, isFile⟩
  | renamed isRename done here apart =>
      subst isRename
      exact Or.inl ⟨rfl, isFile⟩
  | @revised stat newName isWrite done fits =>
      subst isWrite done
      by_cases unchanged : stat.length = Stat.unchangedLength
      · refine Or.inl ⟨if_neg fun asked => asked.2 unchanged, ?_⟩
        simp only [Node.revised, Node.bodyAfter, isFile, unchanged, if_true]
      · refine Or.inr ⟨.cut stat.length.toNat, if_pos ⟨rfl, unchanged⟩, ?_, ?_⟩
        · change stat.length.toNat ≤ content.length
          simpa [Node.extendedBy, isFile, unchanged] using fits
        · simp only [Node.revised, Node.bodyAfter, isFile, unchanged, if_false, Edit.apply]
  | relisted isDirectory | relistedBy user isDirectory | renamedInside user name isDirectory =>
      exact absurd isDirectory notDirectory
  | emptied isOpening empties done _ =>
      subst isOpening done
      exact Or.inr ⟨.cut 0, if_pos ⟨rfl, empties⟩, Nat.zero_le _, rfl⟩
  | @written sessionRef session user data isWrite done isOpen _ ofUser =>
      subst isWrite done
      have same : before.content = content := by rw [Node.content, isFile]
      refine Or.inr ⟨.write session.cursor data, ?_, trivial, ?_⟩
      · simp only [Operation.edit?, isOpen.kept, Option.bind_some, isOpen.onNode, if_true]
      · rw [← same]
        rfl

/-! ## Reading -/

section Reading

variable {tree : Tree} {ref : SessionRef} {session : Session} {nodeRef : NodeRef} {node : Node}
  {content : List UInt8}

theorem read_of_file (isOpen : tree.OpenOn ref session nodeRef node)
    (isFile : node.body = .file content) (now : UInt32) (count : Nat) :
    tree.read now ref count = tree.readFrom now ref session nodeRef content count := by
  simp only [read, isOpen.kept, isOpen.openNode?, isFile]

/-- A read on a file gives the bytes from the cursor on, as many as asked for and as there are. -/
theorem read_file (isOpen : tree.OpenOn ref session nodeRef node)
    (isFile : node.body = .file content) (now : UInt32) (count : Nat) :
    ∃ bytes, (tree.read now ref count).ending = .ok bytes ∧
      bytes.length = min (session.cursor + count) content.length - session.cursor ∧
      (∀ index < bytes.length, bytes[index]? = content[session.cursor + index]?) ∧
      (tree.read now ref count).tree.session? ref =
        some (session.movedTo (session.cursor + bytes.length)) := by
  rw [read_of_file isOpen isFile]
  refine ⟨(content.drop session.cursor).take count, rfl, ?_, ?_, ?_⟩
  · rw [List.length_take, List.length_drop]
    omega
  · intro index within
    rw [List.length_take] at within
    rw [List.getElem?_take_of_lt (by omega), List.getElem?_drop]
  · rw [session?_readFrom tree isOpen.kept, if_pos rfl]

end Reading

end Tree

namespace World

/-- The edits of the content of a file in the order of a run. -/
def edits (ref : NodeRef) : World → List (Clock × Operation) → List Edit
  | _, [] => []
  | world, (clock, operation) :: rest =>
      (operation.edit? world.tree ref (world.outcome clock operation).ending).toList
        ++ edits ref (world.step clock operation) rest

/-- A node that is there after a run was there before it, if its place was used. -/
theorem exists_node_of_run {world : World} {ref : NodeRef} {later : Node}
    {operations : List (Clock × Operation)}
    (stays : (world.run operations).tree.node? ref = some later)
    (used : ref.place < world.tree.nodes.size) : ∃ node, world.tree.node? ref = some node := by
  induction operations generalizing world with
  | nil => exact ⟨later, stays⟩
  | cons timed rest inductionHypothesis =>
      obtain ⟨clock, operation⟩ := timed
      have reshaped := (Tree.effect_perform world.tree ⟨world.policy, world.asked, clock⟩
        operation).reshaped
      obtain ⟨next, nextThere⟩ := inductionHypothesis stays
        (Nat.lt_of_lt_of_le used reshaped.size_le)
      exact reshaped.exists_earlier nextThere used

/-- A node that is there after a run was there after its first operation, if it was there before. -/
theorem stays_of_run {world : World} {clock : Clock} {operation : Operation}
    {rest : List (Clock × Operation)} {ref : NodeRef}
    (later : (((world.step clock operation).run rest).tree.node? ref).isSome = true)
    (there : (world.tree.node? ref).isSome = true) :
    ((world.step clock operation).tree.node? ref).isSome = true := by
  obtain ⟨last, lastThere⟩ := Option.isSome_iff_exists.mp later
  obtain ⟨first, firstThere⟩ := Option.isSome_iff_exists.mp there
  obtain ⟨next, nextThere⟩ := exists_node_of_run lastThere (Nat.lt_of_lt_of_le
    (Tree.place_lt_size firstThere) (world.effect_outcome clock operation).reshaped.size_le)
  rw [nextThere, Option.isSome_some]

/-- What edits left of an initial content, the edits of a run go on with. -/
theorem leave_of_run {world : World} {ref : NodeRef} {node later : Node}
    {earlier : List Edit} {initial content : List UInt8} {operations : List (Clock × Operation)}
    (there : world.tree.node? ref = some node) (isFile : node.body = .file content)
    (leave : Edit.Leave earlier initial content)
    (stays : (world.run operations).tree.node? ref = some later) :
    ∃ content, later.body = .file content ∧
      Edit.Leave (earlier ++ world.edits ref operations) initial content := by
  induction operations generalizing world node earlier content with
  | nil =>
      cases there.symm.trans stays
      exact ⟨content, isFile, by rwa [edits, List.append_nil]⟩
  | cons timed rest inductionHypothesis =>
      obtain ⟨clock, operation⟩ := timed
      have effect := Tree.effect_perform world.tree ⟨world.policy, world.asked, clock⟩ operation
      have kept : ∃ next, (world.step clock operation).tree.node? ref = some next :=
        exists_node_of_run stays
          (Nat.lt_of_lt_of_le (Tree.place_lt_size there) effect.reshaped.size_le)
      obtain ⟨next, nextThere⟩ := kept
      rw [edits, ← List.append_assoc]
      rcases (effect.altered there nextThere).content isFile with
        ⟨unedited, same⟩ | ⟨edit, edited, fits, changed⟩
      · have noEdit :
            operation.edit? world.tree ref (world.outcome clock operation).ending = none :=
          unedited
        rw [noEdit, Option.toList_none, List.append_nil]
        exact inductionHypothesis nextThere same leave stays
      · have oneEdit : operation.edit? world.tree ref (world.outcome clock operation).ending =
            some edit := edited
        rw [oneEdit, Option.toList_some]
        exact inductionHypothesis nextThere changed (leave.concat fits) stays

/-- From any moment on, such as when it was made, a file holds what the edits of a run leave of its
content. A session on it reads from its cursor on what is there, and moves over it. -/
theorem content_after_run {world : World} {ref : NodeRef} {node : Node} {initial : List UInt8}
    (there : world.tree.node? ref = some node) (isFile : node.body = .file initial)
    (operations : List (Clock × Operation)) {later : Node}
    (stays : (world.run operations).tree.node? ref = some later) :
    ∃ content, later.body = .file content ∧
      Edit.Leave (world.edits ref operations) initial content ∧
      ∀ sessionRef session, (world.run operations).tree.session? sessionRef = some session →
        session.node = some ref → ∀ clock count,
          let outcome := (world.run operations).outcome clock (.read sessionRef count)
          ∃ bytes, outcome.ending = .ok (.bytes bytes) ∧
            bytes.length = min (session.cursor + count) content.length - session.cursor ∧
            (∀ index < bytes.length, bytes[index]? = content[session.cursor + index]?) ∧
            outcome.tree.session? sessionRef =
              some (session.movedTo (session.cursor + bytes.length)) := by
  obtain ⟨content, body, leave⟩ := leave_of_run there isFile (Edit.leave_nil initial) stays
  refine ⟨content, body, leave, ?_⟩
  intro sessionRef session kept onNode clock count outcome
  obtain ⟨bytes, answer, length, read, moved⟩ :=
    Tree.read_file ⟨kept, onNode, stays⟩ body clock.now count
  refine ⟨bytes, ?_, length, read, moved⟩
  exact congrArg (Ending.map Answer.bytes) answer

/-- A file is written at its end, cut, and written again by a session that is past its end. -/
def cutBelowCursor : List (Clock × Operation) :=
  [(2, .openSession ⟨1⟩ "o" ⟨2⟩), (3, .seek ⟨0⟩ 0 .ending), (4, .write ⟨0⟩ [122, 122]),
    (5, .writeMetadata ⟨1⟩ ⟨0, 0, ⟨.file, 0, 0⟩, ⟨0o644⟩, 0, 0, 3, "f", "o", "g", ""⟩),
    (6, .write ⟨0⟩ [89])]

theorem content_after_cutBelowCursor :
    let world := (fresh .allowAll ⟨"", ⟨0o755⟩, "o", "g"⟩ .sequential 0).step 1
      (.makeFile ⟨"f", ⟨0o644⟩, "o", "g"⟩ [97, 98, 99])
    ∃ node later, (world.tree.node? ⟨1⟩ = some node ∧ node.body = .file [97, 98, 99] ∧
        (world.run cutBelowCursor).tree.node? ⟨1⟩ = some later) ∧
      later.body = .file [97, 98, 99, 0, 0, 89] ∧
      Edit.Leave [.write 3 [122, 122], .cut 3, .write 5 [89]] [97, 98, 99]
        [97, 98, 99, 0, 0, 89] := by
  intro world
  have there : ∃ node, world.tree.node? ⟨1⟩ = some node ∧ node.body = .file [97, 98, 99] :=
    ⟨_, rfl, rfl⟩
  have stays : ∃ later, (world.run cutBelowCursor).tree.node? ⟨1⟩ = some later ∧
      later.body = .file [97, 98, 99, 0, 0, 89] := ⟨_, rfl, rfl⟩
  have edited : world.edits ⟨1⟩ cutBelowCursor = [.write 3 [122, 122], .cut 3, .write 5 [89]] := rfl
  obtain ⟨node, nodeThere, nodeBody⟩ := there
  obtain ⟨later, laterThere, laterBody⟩ := stays
  obtain ⟨content, body, leave, -⟩ :=
    content_after_run nodeThere nodeBody cutBelowCursor laterThere
  cases body.symm.trans laterBody
  rw [edited] at leave
  exact ⟨node, later, ⟨nodeThere, nodeBody, laterThere⟩, laterBody, leave⟩

end World

end MemFs
