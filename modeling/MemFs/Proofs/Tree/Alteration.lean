import MemFs.Proofs.Content.Edit
import MemFs.Proofs.Tree.Perform
import MemFs.Proofs.Tree.Sweep

/-!
# What an operation does to a node

`Altered` is the view that one node has of any operation that it outlives: how the node afterwards
comes from the node before. Most operations leave a node alone or count as an access to it.
-/

namespace MemFs

/-- How many readings of the clock an operation makes before it modifies this node: what it makes or
revises comes before the directory. -/
def Operation.readingsBefore (tree : Tree) (ref : NodeRef) : Operation → Nat
  | .create .. => 1
  | .writeMetadata target _ =>
      if target = ref then 0
      else ((tree.node? target).map fun node => node.accessReading + 1).getD 0
  | _ => 0

namespace Tree

/-- What an operation with this ending does to a node that is there before and after it. -/
inductive Altered (tree : Tree) (clock : Clock) (operation : Operation)
    (ending : Ending Answer) (ref : NodeRef) (before : Node) : Node → Prop
  | kept (unedited : operation.edit? tree ref ending = none) :
      Altered tree clock operation ending ref before before
  | accessed {index : Nat} (unedited : operation.edit? tree ref ending = none) :
      Altered tree clock operation ending ref before (before.accessed (clock.reading index))
  | opened (unedited : before.kind = .file → operation.edit? tree ref ending = none) :
      Altered tree clock operation ending ref before (before.opened clock.now)
  | released (unedited : operation.edit? tree ref ending = none) :
      Altered tree clock operation ending ref before before.released
  | takenIn (parent : NodeRef) (unedited : operation.edit? tree ref ending = none) :
      Altered tree clock operation ending ref before (before.within parent)
  | renamed {directory : NodeRef} {user old new : String}
      (isRename : operation = .rename directory user old new) (done : ending = .ok .done)
      (here : tree.Holds directory old ref) (apart : ref ≠ directory) :
      Altered tree clock operation ending ref before { before with name := new }
  | revised {stat : Stat} {newName : Option String}
      (isWrite : operation = .writeMetadata ref stat) (done : ending = .ok .done)
      (fits : before.extendedBy stat = false) :
      Altered tree clock operation ending ref before (before.revised stat newName clock)
  | relisted {entries : Entries NodeRef} {later : Clock} (isDirectory : before.kind = .directory)
      (begins : later = clock.after (operation.readingsBefore tree ref)) :
      Altered tree clock operation ending ref before ((before.withEntries entries).mutated later)
  | relistedBy {entries : Entries NodeRef} {later : Clock} (user : String)
      (isDirectory : before.kind = .directory)
      (begins : later = clock.after (operation.readingsBefore tree ref)) :
      Altered tree clock operation ending ref before
        ((before.withEntries entries).mutatedBy user later)
  /-- A directory that holds itself is renamed within itself. -/
  | renamedInside {entries : Entries NodeRef} {later : Clock} (user name : String)
      (isDirectory : before.kind = .directory)
      (begins : later = clock.after (operation.readingsBefore tree ref)) :
      Altered tree clock operation ending ref before
        (({ before with name := name }.withEntries entries).mutatedBy user later)
  | emptied {user : String} {request : Request} {session : SessionRef}
      (isOpening : operation = .openSession ref user request)
      (empties : request.truncates ∧ request.wantsWrite) (done : ending = .ok (.session session))
      (isFile : before.kind = .file) :
      Altered tree clock operation ending ref before
        (((before.withContent []).mutatedBy user clock).opened clock.now)
  | written {sessionRef : SessionRef} {session : Session} {user : String} {data : List UInt8}
      (isWrite : operation = .write sessionRef data) (done : ending = .ok (.count data.length))
      (isOpen : tree.OpenOn sessionRef session ref before) (isFile : before.kind = .file)
      (ofUser : session.stream = .file user) :
      Altered tree clock operation ending ref before
        ((before.withContent (overwrite before.content session.cursor data)).mutatedBy user clock)

variable {tree : Tree} {ref : NodeRef} {before : Node}

/-! ## Nodes after elementary changes -/

theorem node?_addNode_of_some (there : tree.node? ref = some before) (make : UInt64 → Node) :
    (tree.addNode make).node? ref = some before := by
  have old : ref ≠ tree.nextNode := by
    intro fresh
    rw [fresh, node?_nextNode] at there
    cases there
  rw [node?_addNode, if_neg old, there]

theorem node?_modifyNode_of_some (there : tree.node? ref = some before) (target : NodeRef)
    (change : Node → Node) :
    (tree.modifyNode target change).node? ref =
      some (if ref = target then change before else before) := by
  rw [node?_modifyNode, there]
  split <;> rfl

/-- The next place has the node that was added, also after a change to a node that was there. -/
theorem node?_nextNode_of_added (there : tree.node? ref = some before) (make : UInt64 → Node)
    (change : Node → Node) :
    ((tree.addNode make).modifyNode ref change).node? tree.nextNode =
      some (make tree.ids.next.1) := by
  have elsewhere : tree.nextNode ≠ ref := by
    intro fresh
    rw [← fresh, node?_nextNode] at there
    cases there
  rw [node?_modifyNode, if_neg elsewhere, node?_addNode, if_pos rfl]

theorem node?_touchAll_of_some (there : tree.node? ref = some before) (clock : Clock)
    (walked : List NodeRef) :
    (tree.touchAll clock walked).node? ref = some before ∨
      ref ∈ walked ∧ ∃ index, (tree.touchAll clock walked).node? ref =
        some (before.accessed (clock.reading index)) := by
  induction walked generalizing tree clock before with
  | nil => exact Or.inl there
  | cons first rest inductionHypothesis =>
      have next := node?_modifyNode_of_some there first fun node => node.accessed clock.now
      rw [touchAll]
      rcases inductionHypothesis next (clock.after 1) with same | ⟨member, index, accessed⟩
      · rw [same]
        split
        · rename_i here
          exact Or.inr ⟨here ▸ List.mem_cons_self, 0, rfl⟩
        · exact Or.inl rfl
      · rw [accessed]
        refine Or.inr ⟨List.mem_cons_of_mem first member, 1 + index, ?_⟩
        split
        · rfl
        · rfl

theorem node?_of_sweep {after : Node} (stays : tree.sweep.node? ref = some after) :
    tree.node? ref = some after :=
  (swept_sweep tree).toThinned.node?_eq stays

theorem node?_of_release {after : Node} {sessionRef : SessionRef} {nodeRef : NodeRef}
    (there : tree.node? ref = some before)
    (stays : (tree.release sessionRef nodeRef).node? ref = some after) :
    after = if ref = nodeRef then before.released else before := by
  have earlier := node?_of_sweep stays
  have released := node?_modifyNode_of_some there nodeRef Node.released
  exact Option.some.inj (earlier.symm.trans released)

theorem kind_of_directory? {directory : Node} {entries : Entries NodeRef}
    (found : tree.directory? ref = some (directory, entries))
    (there : tree.node? ref = some before) : before.kind = .directory := by
  obtain ⟨same, body⟩ := directory?_eq_some_iff.mp found
  cases there.symm.trans same
  rw [Node.kind, body]

theorem search_self (there : tree.node? ref = some before) : tree.search ref ref = .found := by
  unfold search
  cases size : tree.nodes.size with
  | zero => exact absurd (place_lt_size there) (by omega)
  | succ limit => simp only [climb, if_true]

/-! ## One node -/

theorem Operation.edit?_of_portion? {operation : Operation} {sessionRef : SessionRef} {count : Nat}
    (reads : operation.portion? tree = some (sessionRef, count)) (ref : NodeRef)
    (ending : Ending Answer) : operation.edit? tree ref ending = none := by
  cases operation with
  | read | readAll => rfl
  | _ => cases reads

section Rules

variable {clock : Clock} {operation : Operation} {ending : Ending Answer} {after : Node}

/-- An operation that may be an access to the node and is nothing else to it. -/
private theorem altered_of_access {accesses : Prop} [Decidable accesses] (index : Nat)
    (unedited : operation.edit? tree ref ending = none)
    (same : after = if accesses then before.accessed (clock.reading index) else before) :
    Altered tree clock operation ending ref before after := by
  subst same
  split
  · exact Altered.accessed unedited
  · exact Altered.kept unedited

end Rules

theorem Effect.altered {setting : Setting} {operation : Operation} {outcome : Outcome Answer}
    (effect : Effect tree setting operation outcome) {after : Node}
    (there : tree.node? ref = some before) (stays : outcome.tree.node? ref = some after) :
    Altered tree setting.clock operation outcome.ending ref before after := by
  have modified := node?_modifyNode_of_some there
  have grown := node?_addNode_of_some there
  cases effect with
  | refused | stalled =>
      cases there.symm.trans stays
      exact Altered.kept (Operation.edit?_of_failed operation tree ref nofun)
  | madeFile | madeDirectory =>
      rw [node?_hold] at stays
      cases (grown _).symm.trans stays
      exact Altered.kept rfl
  | held node =>
      rw [node?_hold] at stays
      cases there.symm.trans stays
      exact Altered.kept rfl
  | letGo node =>
      have earlier := (swept_sweep { tree with held := tree.held.erase node }).node?_eq stays
      cases there.symm.trans earlier
      exact Altered.kept rfl
  | attached target parent =>
      unfold attach at stays
      split at stays
      · cases (modified _ _).symm.trans stays
        split
        · exact Altered.takenIn parent rfl
        · exact Altered.kept rfl
      · cases there.symm.trans stays
        exact Altered.kept rfl
  | @created directory _ _ user name requested found valid granted free =>
      cases (node?_modifyNode_of_some (grown _) directory _).symm.trans stays
      split
      · rename_i here
        exact Altered.relistedBy user (kind_of_directory? found (here ▸ there)) rfl
      · exact Altered.kept rfl
  | @added directory graft _ node _ name found graftThere valid unmet free =>
      cases (node?_modifyNode_of_some (modified graft _) directory _).symm.trans stays
      by_cases atDirectory : ref = directory
      · have isDirectory := kind_of_directory? found (atDirectory ▸ there)
        have notGraft : ref ≠ graft := by
          intro atGraft
          subst atGraft atDirectory
          cases there.symm.trans graftThere
          have apart := unmet isDirectory
          rw [search_self there] at apart
          cases apart
        rw [if_pos atDirectory, if_neg notGraft]
        exact Altered.relisted isDirectory (Clock.after_zero _).symm
      · rw [if_neg atDirectory]
        split
        · exact Altered.takenIn directory rfl
        · exact Altered.kept rfl
  | @renamed directory child _ _ user old new found valid granted present free =>
      cases (node?_modifyNode_of_some (modified child _) directory _).symm.trans stays
      by_cases atDirectory : ref = directory
      · have isDirectory := kind_of_directory? found (atDirectory ▸ there)
        rw [if_pos atDirectory]
        split
        · exact Altered.renamedInside user new isDirectory (Clock.after_zero _).symm
        · exact Altered.relistedBy user isDirectory (Clock.after_zero _).symm
      · rw [if_neg atDirectory]
        split
        · rename_i atChild
          exact Altered.renamed rfl rfl ⟨_, _, found, atChild ▸ present⟩ atDirectory
        · exact Altered.kept rfl
  | @removed directory child _ _ user name found granted present removable =>
      cases (modified directory _).symm.trans (node?_of_sweep stays)
      split
      · rename_i atDirectory
        exact Altered.relistedBy user (kind_of_directory? found (atDirectory ▸ there))
          (Clock.after_zero _).symm
      · exact Altered.kept rfl
  | walked user name found granted =>
      exact altered_of_access 0 rfl (Option.some.inj ((modified _ _).symm.trans stays)).symm
  | resolved user path ending walked =>
      rcases node?_touchAll_of_some there setting.clock walked with same | ⟨-, index, accessed⟩
      · cases same.symm.trans stays
        exact Altered.kept rfl
      · cases accessed.symm.trans stays
        exact Altered.accessed rfl
  | @revised target _ _ stat targetThere wanted fits unmoved =>
      cases (modified target _).symm.trans stays
      by_cases here : ref = target
      · subst here
        cases there.symm.trans targetThere
        rw [if_pos rfl]
        exact Altered.revised rfl rfl fits
      · rw [if_neg here]
        exact Altered.kept (if_neg fun same => here same.1.symm)
  | @rekeyed target parentRef _ _ _ _ _ stat targetThere wanted fits moved free apart =>
      obtain ⟨-, found, -⟩ := entryMoved?_eq_some moved
      cases (node?_modifyNode_of_some (modified target _) parentRef _).symm.trans stays
      by_cases atParent : ref = parentRef
      · subst atParent
        rw [if_pos rfl, if_neg apart]
        refine Altered.relisted (kind_of_directory? found there) ?_
        rw [Operation.readingsBefore, if_neg apart.symm, targetThere]
        rfl
      · rw [if_neg atParent]
        by_cases here : ref = target
        · subst here
          cases there.symm.trans targetThere
          rw [if_pos rfl]
          exact Altered.revised rfl rfl fits
        · rw [if_neg here]
          exact Altered.kept (if_neg fun same => here same.1.symm)
  | @openedFile target _ _ user request targetThere isFile granted =>
      cases (modified target _).symm.trans stays
      by_cases here : ref = target
      · subst here
        cases there.symm.trans targetThere
        have kind : before.kind = .file := by rw [Node.kind, isFile]
        rw [if_pos rfl]
        by_cases empties : request.truncates ∧ request.wantsWrite
        · rw [if_pos (by simpa using empties)]
          exact Altered.emptied rfl empties rfl kind
        · rw [if_neg (by simpa using empties)]
          exact Altered.opened fun _ => if_neg fun asked => empties asked.2
      · rw [if_neg here]
        exact Altered.kept (if_neg fun asked => here asked.1.symm)
  | @openedDirectory target _ _ user request targetThere isDirectory granted =>
      cases (modified target _).symm.trans stays
      by_cases here : ref = target
      · subst here
        cases there.symm.trans targetThere
        rw [if_pos rfl]
        refine Altered.opened fun isFile => ?_
        rw [Node.kind, isDirectory] at isFile
        cases isFile
      · rw [if_neg here]
        exact Altered.kept (if_neg fun asked => here asked.1.symm)
  | soughtFile offset origin isOpen isFile leads within =>
      exact altered_of_access 0 rfl (Option.some.inj ((modified _ _).symm.trans stays)).symm
  | rewound offset origin isOpen isDirectory leads listed =>
      exact altered_of_access 0 rfl (Option.some.inj ((modified _ _).symm.trans stays)).symm
  | stayed offset origin isOpen isDirectory leads beyond =>
      exact altered_of_access 0 rfl (Option.some.inj ((modified _ _).symm.trans stays)).symm
  | readContent reads isOpen isFile =>
      exact altered_of_access _ (Operation.edit?_of_portion? reads ref _)
        (Option.some.inj ((modified _ _).symm.trans stays)).symm
  | readSnapshot reads isOpen isDirectory taken =>
      exact altered_of_access _ (Operation.edit?_of_portion? reads ref _)
        (Option.some.inj ((modified _ _).symm.trans stays)).symm
  | readFresh reads isOpen isDirectory untaken listed =>
      exact altered_of_access _ (Operation.edit?_of_portion? reads ref _)
        (Option.some.inj ((modified _ _).symm.trans stays)).symm
  | @written sessionRef session nodeRef _ _ user data isOpen isFile ofUser =>
      cases (modified nodeRef _).symm.trans stays
      by_cases here : ref = nodeRef
      · subst here
        cases there.symm.trans isOpen.there
        rw [if_pos rfl]
        exact Altered.written rfl rfl isOpen (by rw [Node.kind, isFile]) ofUser
      · rw [if_neg here]
        refine Altered.kept ?_
        have elsewhere : session.node ≠ some ref := by
          rw [isOpen.onNode]
          exact fun same => here (Option.some.inj same).symm
        simp only [Operation.edit?, isOpen.kept, Option.bind_some, if_neg elsewhere]
  | closed isOpen =>
      rw [node?_of_release there stays]
      split
      · exact Altered.released rfl
      · exact Altered.kept rfl
  | droppedOpen isOpen =>
      rw [node?_of_release there stays]
      split
      · exact Altered.released rfl
      · exact Altered.kept rfl
  | droppedClosed sessionRef notOpen =>
      cases there.symm.trans stays
      exact Altered.kept rfl

end Tree

end MemFs
