import MemFs.Proofs.Session.Service
import MemFs.Proofs.Tree.Holding
import MemFs.Proofs.Tree.Run

/-!
# What holds of the sessions of every tree

Directories hold nodes that are there, and so are the nodes of open sessions. A session has the
kind of its node, and its cursor lies in its stream.
-/

namespace MemFs

/-- The cursor of a session lies in its stream. -/
def Session.IsPlaced (session : Session) : Prop :=
  match session.stream with
  | .file _ => True
  | .directory none => session.cursor = 0
  | .directory (some bytes) => session.cursor ≤ bytes.length

namespace Tree

structure IsSound (tree : Tree) : Prop where
  child : ∀ directory name child, tree.Holds directory name child →
    ∃ outline, tree.outline? child = some outline
  onNode : ∀ ref session nodeRef, tree.session? ref = some session →
    session.node = some nodeRef →
      ∃ outline, tree.outline? nodeRef = some outline ∧ outline.kind = session.stream.kind
  placed : ∀ ref session, tree.session? ref = some session → session.IsPlaced

variable {before after : Tree}

/-! ## Nodes that stay -/

/-- A node on which a session is open after an operation is there as it was before. -/
theorem Reshaped.stays {operation : Operation} (reshaped : Reshaped before after operation)
    {ref : SessionRef} {session : Session} {nodeRef : NodeRef} {outline : Outline}
    (there : before.outline? nodeRef = some outline)
    (kept : after.session? ref = some session) (onNode : session.node = some nodeRef) :
    ∃ later, after.outline? nodeRef = some later ∧ later.kind = outline.kind := by
  cases reshaped with
  | kept store outlines => exact ⟨outline, (outlines nodeRef).trans there, rfl⟩
  | swept store outlines thinned =>
      have same := thinned.outline?_of_session kept onNode
      exact ⟨outline, (same.trans (outlines nodeRef)).trans there, rfl⟩
  | made store numbered bare orphan outlines =>
      refine ⟨outline, ?_, rfl⟩
      rw [outlines, if_neg (ne_nextNode there), there]
  | attached store found isDirectory outlines =>
      exact Outline.exists_later Outline.kind (outlines nodeRef) rfl there
  | renamedAlone store valid unmoved outlines =>
      exact Outline.exists_later Outline.kind (outlines nodeRef) rfl there
  | created store found isDirectory valid free numbered named bare inside outlines =>
      have later := outlines nodeRef
      rw [if_neg (ne_nextNode there)] at later
      exact Outline.exists_later Outline.kind later rfl there
  | added store found isDirectory graftThere valid free unmet outlines =>
      exact Outline.exists_later Outline.kind (outlines nodeRef) rfl there
  | moved store found isDirectory valid present free sameNumber outlines =>
      exact Outline.exists_later Outline.kind (outlines nodeRef) rfl there
  | removed store found isDirectory present removable outlines thinned =>
      rw [thinned.outline?_of_session kept onNode]
      exact Outline.exists_later Outline.kind (outlines nodeRef) rfl there

/-- What a directory holds after an operation is there, if this was so before. -/
theorem Reshaped.child {operation : Operation} (reshaped : Reshaped before after operation)
    (earlier : ∀ directory name child, before.Holds directory name child →
      ∃ outline, before.outline? child = some outline)
    {directory child : NodeRef} {name : String} (here : after.Holds directory name child) :
    ∃ outline, after.outline? child = some outline := by
  cases reshaped with
  | kept store outlines =>
      rw [outlines]
      exact earlier _ _ _ ((holds_of_same (entriesAt_of_congr outlines) _ _ _).mp here)
  | swept store outlines thinned =>
      rw [thinned.outline?_of_holds here, outlines]
      exact earlier _ _ _
        ((holds_of_same (entriesAt_of_congr outlines) _ _ _).mp (thinned.holds here))
  | made store numbered bare orphan outlines =>
      obtain ⟨outline, there⟩ := earlier _ _ _
        ((holds_of_same (entriesAt_of_fresh bare outlines) _ _ _).mp here)
      exact ⟨outline, by rw [outlines, if_neg (ne_nextNode there), there]⟩
  | attached store found isDirectory outlines =>
      obtain ⟨outline, there⟩ := earlier _ _ _
        ((holds_of_same (entriesAt_of_same outlines fun _ _ => rfl) _ _ _).mp here)
      exact ⟨_, by rw [outlines, there, Option.map_some]⟩
  | renamedAlone store valid unmoved outlines =>
      obtain ⟨outline, there⟩ := earlier _ _ _
        ((holds_of_same (entriesAt_of_same outlines fun _ _ => rfl) _ _ _).mp here)
      exact ⟨_, by rw [outlines, there, Option.map_some]⟩
  | created store found isDirectory valid free numbered named bare inside outlines =>
      have changed := entriesAt_of_created found bare outlines fun _ _ => rfl
      rcases (holds_of_insert found free changed _ _ _).mp here with old | ⟨-, -, new⟩
      · obtain ⟨outline, there⟩ := earlier _ _ _ old
        exact ⟨_, by rw [outlines, if_neg (ne_nextNode there), there, Option.map_some]⟩
      · exact ⟨_, by rw [outlines, if_pos new]⟩
  | added store found isDirectory graftThere valid free unmet outlines =>
      have changed := entriesAt_of_rebound found outlines fun _ _ => rfl
      rcases (holds_of_insert found free changed _ _ _).mp here with old | ⟨-, -, new⟩
      · obtain ⟨outline, there⟩ := earlier _ _ _ old
        exact ⟨_, by rw [outlines, there, Option.map_some]⟩
      · exact ⟨_, by rw [outlines, new, graftThere, Option.map_some]⟩
  | moved store found isDirectory valid present free sameNumber outlines =>
      have changed := entriesAt_of_rebound found outlines fun _ _ => rfl
      obtain ⟨earlierName, old⟩ := (owns_of_move found present free changed _ _).mp ⟨name, here⟩
      obtain ⟨outline, there⟩ := earlier _ _ _ old
      exact ⟨_, by rw [outlines, there, Option.map_some]⟩
  | removed store found isDirectory present removable outlines thinned =>
      have changed := entriesAt_of_rebound found outlines fun _ _ => rfl
      have old := (holds_of_erase found changed _ _ _).mp (thinned.holds here)
      obtain ⟨outline, there⟩ := earlier _ _ _ old.1
      rw [thinned.outline?_of_holds here]
      exact ⟨_, by rw [outlines, there, Option.map_some]⟩

/-! ## Sessions -/

theorem OpenOn.outline {tree : Tree} {ref : SessionRef} {session : Session} {nodeRef : NodeRef}
    {node : Node} (isOpen : tree.OpenOn ref session nodeRef node) :
    tree.outline? nodeRef = some node.outline := by
  rw [outline?, isOpen.there, Option.map_some]

/-- The stream of an open session has the kind of its node. -/
theorem IsSound.kind {tree : Tree} (sound : tree.IsSound) {ref : SessionRef} {session : Session}
    {nodeRef : NodeRef} {node : Node} (isOpen : tree.OpenOn ref session nodeRef node) :
    session.stream.kind = node.kind := by
  obtain ⟨outline, there, same⟩ := sound.onNode ref session nodeRef isOpen.kept isOpen.onNode
  cases isOpen.outline.symm.trans there
  exact same.symm

/-- A session that has a node is open on it, and is of its kind. -/
theorem IsSound.openOn {tree : Tree} (sound : tree.IsSound) {ref : SessionRef} {session : Session}
    {nodeRef : NodeRef} (kept : tree.session? ref = some session)
    (onNode : session.node = some nodeRef) :
    ∃ node, tree.OpenOn ref session nodeRef node ∧ session.stream.kind = node.kind := by
  obtain ⟨outline, outlineThere, -⟩ := sound.onNode ref session nodeRef kept onNode
  obtain ⟨node, there, -⟩ := Option.map_eq_some_iff.mp outlineThere
  have isOpen : tree.OpenOn ref session nodeRef node := ⟨kept, onNode, there⟩
  exact ⟨node, isOpen, sound.kind isOpen⟩

/-- After an operation, a session on a node was on it before or is new, and has its kind. -/
theorem Served.onNode {tree : Tree} {ref : SessionRef} {operation : Operation}
    {outcome : Outcome Answer} (served : Served tree ref operation outcome) (sound : tree.IsSound)
    {session : Session} {nodeRef : NodeRef} (kept : outcome.tree.session? ref = some session)
    (onNode : session.node = some nodeRef) :
    ∃ outline, tree.outline? nodeRef = some outline ∧ outline.kind = session.stream.kind := by
  cases served with
  | apart same =>
      rw [same] at kept
      exact sound.onNode ref session nodeRef kept onNode
  | @opened _ node _ new there kind unread now =>
      cases now.symm.trans kept
      cases onNode
      exact ⟨node.outline, by rw [outline?, there, Option.map_some], kind.symm⟩
  | @onFile earlier _ _ _ _ isOpen isFile now =>
      cases now.symm.trans kept
      exact sound.onNode ref earlier nodeRef isOpen.kept onNode
  | @rewound earlier _ node entries bytes isOpen isDirectory rewinds now =>
      cases now.symm.trans kept
      cases isOpen.onNode.symm.trans onNode
      exact ⟨node.outline, isOpen.outline, by
        rw [Node.outline, Node.kind, isDirectory]; rfl⟩
  | @readOn earlier _ _ _ _ _ isOpen isDirectory taken given now =>
      cases now.symm.trans kept
      exact sound.onNode ref earlier nodeRef isOpen.kept onNode
  | @readFirst _ _ node _ _ _ isOpen isDirectory untaken now =>
      cases now.symm.trans kept
      cases isOpen.onNode.symm.trans onNode
      exact ⟨node.outline, isOpen.outline, by
        rw [Node.outline, Node.kind, isDirectory]; rfl⟩
  | closed isOpen now =>
      cases now.symm.trans kept
      cases onNode
  | dropped gone =>
      rw [gone] at kept
      cases kept

theorem Session.isPlaced_of_directory_some {session : Session} {bytes : List UInt8}
    (taken : session.stream = .directory (some bytes)) :
    session.IsPlaced ↔ session.cursor ≤ bytes.length := by
  rw [Session.IsPlaced, taken]

theorem cursor_add_portion_le {cursor count : Nat} {bytes : List UInt8}
    (placed : cursor ≤ bytes.length) :
    cursor + ((bytes.drop cursor).take count).length ≤ bytes.length := by
  rw [List.length_take, List.length_drop]
  omega

/-- A session that is open on a directory and has no snapshot is at the start. -/
theorem IsSound.unlisted {tree : Tree} (sound : tree.IsSound) {ref : SessionRef}
    {session : Session} {nodeRef : NodeRef} {node : Node} {entries : Entries NodeRef}
    (isOpen : tree.OpenOn ref session nodeRef node) (isDirectory : node.body = .directory entries)
    (untaken : ∀ bytes, session.stream ≠ .directory (some bytes)) :
    session.stream = .directory none ∧ session.cursor = 0 := by
  have kind := sound.kind isOpen
  have placed := sound.placed ref session isOpen.kept
  rw [Node.kind, isDirectory] at kind
  cases stream : session.stream with
  | file user =>
      rw [stream] at kind
      cases kind
  | directory snapshot =>
      cases snapshot with
      | none =>
          rw [Session.IsPlaced, stream] at placed
          exact ⟨rfl, placed⟩
      | some bytes => exact absurd stream (untaken bytes)

theorem Served.placed {tree : Tree} {ref : SessionRef} {operation : Operation}
    {outcome : Outcome Answer} (served : Served tree ref operation outcome) (sound : tree.IsSound)
    {session : Session} (kept : outcome.tree.session? ref = some session) : session.IsPlaced := by
  cases served with
  | apart same =>
      rw [same] at kept
      exact sound.placed ref session kept
  | @opened _ _ stream new there kind unread now =>
      cases now.symm.trans kept
      cases stream with
      | file user => exact trivial
      | directory snapshot =>
          cases snapshot with
          | none => exact rfl
          | some bytes => exact absurd rfl (unread bytes)
  | @onFile earlier _ _ _ _ isOpen isFile now =>
      cases now.symm.trans kept
      have kind := sound.kind isOpen
      rw [Node.kind, isFile] at kind
      cases stream : earlier.stream with
      | file user => rw [Session.IsPlaced, Session.movedTo, stream]; trivial
      | directory snapshot =>
          rw [stream] at kind
          cases kind
  | rewound isOpen isDirectory rewinds now =>
      cases now.symm.trans kept
      exact Nat.zero_le _
  | @readOn earlier _ _ _ _ _ isOpen isDirectory taken given now =>
      cases now.symm.trans kept
      have placed := (Session.isPlaced_of_directory_some taken).mp
        (sound.placed ref earlier isOpen.kept)
      refine (Session.isPlaced_of_directory_some ?_).mpr (cursor_add_portion_le placed)
      exact taken
  | readFirst isOpen isDirectory untaken now =>
      cases now.symm.trans kept
      obtain ⟨-, atStart⟩ := sound.unlisted isOpen isDirectory untaken
      refine cursor_add_portion_le ?_
      rw [atStart]
      exact Nat.zero_le _
  | @closed earlier _ _ isOpen now =>
      cases now.symm.trans kept
      exact sound.placed ref earlier isOpen.kept
  | dropped gone =>
      rw [gone] at kept
      cases kept

/-! ## Every tree of a run -/

theorem IsSound.perform {tree : Tree} (sound : tree.IsSound) (setting : Setting)
    (operation : Operation) : (tree.perform setting operation).tree.IsSound := by
  have effect := effect_perform tree setting operation
  have reshaped := effect.reshaped
  constructor
  · intro directory name child here
    exact reshaped.child sound.child here
  · intro ref session nodeRef kept onNode
    obtain ⟨outline, there, same⟩ := (effect.served ref).onNode sound kept onNode
    obtain ⟨later, laterThere, sameKind⟩ := reshaped.stays there kept onNode
    exact ⟨later, laterThere, sameKind.trans same⟩
  · intro ref session kept
    exact (effect.served ref).placed sound kept

theorem isSound_ofRoot (blueprint : Blueprint) (ids : IdSource) (now : UInt32) :
    (ofRoot blueprint ids now).IsSound := by
  constructor
  · intro directory name child here
    exact absurd ⟨name, here⟩ (not_owns_ofRoot blueprint ids now directory child)
  · intro ref session nodeRef kept
    cases kept
  · intro ref session kept
    cases kept

end Tree

theorem Tree.IsSound.run {world : World} (sound : world.tree.IsSound)
    (operations : List (Clock × Operation)) : (world.run operations).tree.IsSound := by
  refine World.run_induction Tree.IsSound (fun tree setting operation sound (_ : True) => ?_) sound
    (World.respects_of_forall (fun _ _ => trivial) world operations)
  exact sound.perform setting operation

theorem World.isSound_run (policy : Policy) (blueprint : Blueprint) (ids : IdSource)
    (start : UInt32) (operations : List (Clock × Operation)) :
    ((fresh policy blueprint ids start).run operations).tree.IsSound :=
  Tree.IsSound.run (Tree.isSound_ofRoot blueprint ids start) operations

end MemFs
