import MemFs.Proofs.Session.Turnover
import MemFs.Proofs.Tree.Rebinding

/-!
# Nodes go exactly when nothing owns them

A sweep leaves no node behind that nothing owns, and drops no other. Only an operation that can take
an owner away ends with one, so in every tree of a run each node has an owner.
-/

namespace MemFs

/-- An operation after which a node may have lost its last owner. -/
def Operation.mayDrop : Operation → Bool
  | .letGo _ | .remove _ _ _ | .close _ | .dropSession _ => true
  | _ => false

/-- An operation that makes a node. -/
def Operation.makes : Operation → Bool
  | .makeFile _ _ | .makeDirectory _ | .create _ _ _ _ => true
  | _ => false

namespace Tree

/-- Every node has an owner. -/
def IsTended (tree : Tree) : Prop :=
  ∀ ref, (tree.node? ref).isSome = true → tree.isOwned ref = true

variable {tree before after : Tree}

theorem isOwned_iff_owner {ref : NodeRef} :
    tree.isOwned ref = true ↔
      ref = tree.root ∨ ref ∈ tree.held ∨ (∃ session, tree.nodeOf? session = some ref) ∨
        ∃ directory, tree.Owns directory ref := by
  simp only [isOwned_iff, IsSupported, nodeOf?, Option.bind_eq_some_iff, true_and]

/-! ## Sweeps -/

theorem dropUnowned_fewer (untended : ¬ tree.nodes.keys.all fun place => tree.isOwned ⟨place⟩) :
    tree.dropUnowned.nodes.keys.length < tree.nodes.keys.length := by
  obtain ⟨place, listed, unowned⟩ := List.all_eq_false.mp (Bool.eq_false_iff.mpr untended)
  rw [dropUnowned, Arena.keys_keep]
  exact List.length_filter_lt_length_iff_exists.mpr ⟨place, listed, unowned⟩

/-- Each pass over a tree with a node that nothing owns leaves fewer nodes. -/
theorem isTended_sweepUpTo {passes : Nat} (enough : tree.nodes.keys.length ≤ passes) :
    (sweepUpTo passes tree).IsTended := by
  induction passes generalizing tree with
  | zero =>
      intro ref there
      have listed : ref.place ∈ tree.nodes.keys := Arena.mem_keys_iff.mpr there
      rw [List.eq_nil_of_length_eq_zero (Nat.le_zero.mp enough)] at listed
      cases listed
  | succ passes inductionHypothesis =>
      unfold sweepUpTo
      split
      · rename_i tended
        intro ref there
        exact List.all_eq_true.mp tended ref.place (Arena.mem_keys_iff.mpr there)
      · rename_i untended
        have fewer := dropUnowned_fewer untended
        exact inductionHypothesis (by omega)

theorem isTended_sweep (tree : Tree) : tree.sweep.IsTended :=
  isTended_sweepUpTo (Arena.length_keys_le_size tree.nodes)

/-- What a sweep drops has no owner afterwards. -/
theorem Swept.not_isOwned (swept : Swept before after) {ref : NodeRef}
    (there : (before.node? ref).isSome = true) (gone : after.node? ref = none) :
    after.isOwned ref = false := by
  rw [Bool.eq_false_iff, Ne, isOwned_iff]
  intro owned
  have same : after.node? ref = before.node? ref := by
    rcases owned with isRoot | isHeld | ⟨place, session, kept, onNode⟩ | ⟨directory, -, name, here⟩
    · refine swept.supported (· = ref) ?_ ref rfl
      rintro _ rfl
      exact Or.inl (isRoot.trans swept.root)
    · refine swept.supported (· = ref) ?_ ref rfl
      rintro _ rfl
      exact Or.inr (Or.inl (swept.held ▸ isHeld))
    · refine swept.supported (· = ref) ?_ ref rfl
      rintro _ rfl
      exact Or.inr (Or.inr (Or.inl ⟨place, session, swept.session place session kept, onNode⟩))
    · exact swept.child directory name ref here
  rw [← same, gone] at there
  cases there

theorem Swept.isSome_of_later (swept : Swept before after) {ref : NodeRef}
    (there : (after.node? ref).isSome = true) : (before.node? ref).isSome = true := by
  obtain ⟨node, found⟩ := Option.isSome_iff_exists.mp there
  exact isSome_of_node? (swept.toThinned.node?_eq found)

/-! ## Owners that stay -/

/-- Whatever owns a node does so later as well. -/
structure KeepsOwners (before after : Tree) : Prop where
  root : after.root = before.root
  held : before.held ⊆ after.held
  onNode : ∀ session ref, before.nodeOf? session = some ref → after.nodeOf? session = some ref
  owns : ∀ directory child, before.Owns directory child → after.Owns directory child

theorem KeepsOwners.isOwned (keeps : KeepsOwners before after) {ref : NodeRef}
    (owned : before.isOwned ref = true) : after.isOwned ref = true := by
  rcases isOwned_iff_owner.mp owned with isRoot | isHeld | ⟨session, onNode⟩ | ⟨directory, here⟩
  · exact isOwned_iff_owner.mpr (Or.inl (isRoot.trans keeps.root.symm))
  · exact isOwned_iff_owner.mpr (Or.inr (Or.inl (keeps.held isHeld)))
  · have later := keeps.onNode session ref onNode
    exact isOwned_iff_owner.mpr (Or.inr (Or.inr (Or.inl ⟨session, later⟩)))
  · have later := keeps.owns directory ref here
    exact isOwned_iff_owner.mpr (Or.inr (Or.inr (Or.inr ⟨directory, later⟩)))

theorem KeepsOwners.isTended (keeps : KeepsOwners before after) (tended : before.IsTended)
    (known : ∀ ref, (after.node? ref).isSome = true →
      (before.node? ref).isSome = true ∨ after.isOwned ref = true) : after.IsTended := by
  intro ref there
  rcases known ref there with old | owned
  · exact keeps.isOwned (tended ref old)
  · exact owned

theorem isOwned_of_forget {session : SessionRef} {ref : NodeRef}
    (unowned : tree.isOwned ref = false) : (tree.forget session).isOwned ref = false := by
  rw [Bool.eq_false_iff, Ne, isOwned_iff_owner] at unowned ⊢
  rintro (isRoot | isHeld | ⟨other, onNode⟩ | owned)
  · exact unowned (Or.inl isRoot)
  · exact unowned (Or.inr (Or.inl isHeld))
  · rw [nodeOf?_forget] at onNode
    split at onNode
    · cases onNode
    · exact unowned (Or.inr (Or.inr (Or.inl ⟨other, onNode⟩)))
  · exact unowned (Or.inr (Or.inr (Or.inr owned)))

/-- To give up a session that is not open takes no owner away. -/
theorem IsTended.forget (tended : tree.IsTended) {session : SessionRef}
    (closed : tree.nodeOf? session = none) : (tree.forget session).IsTended := by
  have keeps : KeepsOwners tree (tree.forget session) := by
    refine ⟨rfl, List.Subset.refl _, fun other ref onNode => ?_, fun _ _ owned => owned⟩
    rw [nodeOf?_forget, if_neg, onNode]
    rintro rfl
    cases closed.symm.trans onNode
  exact keeps.isTended tended fun _ there => Or.inl there

theorem held_hold_subset (tree : Tree) (ref : NodeRef) : tree.held ⊆ (tree.hold ref).held := by
  unfold hold
  split
  · exact List.subset_cons_self ref tree.held
  · exact List.Subset.refl tree.held

theorem mem_held_hold {ref : NodeRef} (there : (tree.node? ref).isSome = true) :
    ref ∈ (tree.hold ref).held := by
  obtain ⟨node, found⟩ := Option.isSome_iff_exists.mp there
  simp only [hold, found, List.mem_cons, true_or]

theorem held_attach (target parent : NodeRef) : (tree.attach target parent).held = tree.held := by
  unfold attach
  split <;> rfl

theorem held_touchAll (clock : Clock) (walked : List NodeRef) :
    (tree.touchAll clock walked).held = tree.held := by
  induction walked generalizing tree clock with
  | nil => rfl
  | cons first rest inductionHypothesis =>
      rw [touchAll, inductionHypothesis]
      rfl

theorem isSome_node?_touchAll (clock : Clock) (walked : List NodeRef) (ref : NodeRef) :
    ((tree.touchAll clock walked).node? ref).isSome = (tree.node? ref).isSome := by
  induction walked generalizing tree clock with
  | nil => rfl
  | cons first rest inductionHypothesis =>
      rw [touchAll, inductionHypothesis, isSome_node?_modifyNode]

theorem isSome_node?_attach (target parent ref : NodeRef) :
    ((tree.attach target parent).node? ref).isSome = (tree.node? ref).isSome := by
  unfold attach
  split
  · exact isSome_node?_modifyNode target _ ref
  · rfl

theorem Reshaped.root_eq {operation : Operation} (reshaped : Reshaped before after operation) :
    after.root = before.root := by
  cases reshaped with
  | kept store | made store | attached store | renamedAlone store | created store | added store
  | moved store => exact store.root
  | swept store outlines thinned => exact thinned.root.trans store.root
  | removed store found isDirectory present removable outlines thinned =>
      exact thinned.root.trans store.root

/-! ## Removed nodes -/

section Removal

variable {directory child : NodeRef} {node : Node} {entries : Entries NodeRef} {name : String}
  (found : tree.directory? directory = some (node, entries))
  (present : entries.find? name = some child)
  (removable : (tree.node? child).all Node.isRemovable = true)

include removable

theorem not_owns_of_removable (other : NodeRef) : ¬ tree.Owns child other := by
  refine not_owns_of_empty fun outline outlineThere => ?_
  obtain ⟨childNode, childThere, rfl⟩ := Option.map_eq_some_iff.mp outlineThere
  rw [childThere, Option.all_some] at removable
  exact removable

include found present

theorem ne_of_removable : directory ≠ child := by
  rintro rfl
  exact not_owns_of_removable removable _ ⟨name, node, entries, found, present⟩

/-- A removal drops the removed node at most. -/
theorem IsTended.stays_of_erased (tended : tree.IsTended) {change : Node → Node}
    (erases : ∀ node, (change node).entries = entries.erase name) {ref : NodeRef}
    (apart : ref ≠ child) (there : (tree.node? ref).isSome = true) :
    ((tree.modifyNode directory change).sweep.node? ref).isSome = true := by
  obtain ⟨outerThere, -, same⟩ := outline?_of_directory? found
  have erased : ∀ holder key held, (tree.modifyNode directory change).Holds holder key held ↔
      tree.Holds holder key held ∧ ¬ (holder = directory ∧ key = name) := by
    intro holder key held
    refine holds_of_erase outerThere (fun other => ?_) holder held key
    rw [entriesAt_eq, entriesAt_eq, same]
    exact valueAt_modifyNode (fun _ => entries.erase name) (isSome_of_directory? found) erases
  -- All nodes but the removed one own each other as before.
  have kept := (swept_sweep (tree.modifyNode directory change)).supported
    (fun other => (tree.node? other).isSome = true ∧ other ≠ child) ?_ ref ⟨there, apart⟩
  · rw [kept, isSome_node?_modifyNode, there]
  · rintro other ⟨otherThere, otherApart⟩
    rcases isOwned_iff.mp (tended other otherThere) with
      isRoot | isHeld | onSession | ⟨holder, -, key, here⟩
    · exact Or.inl isRoot
    · exact Or.inr (Or.inl isHeld)
    · exact Or.inr (Or.inr (Or.inl onSession))
    · refine Or.inr (Or.inr (Or.inr ⟨holder, ⟨?_, ?_⟩, key, ?_⟩))
      · obtain ⟨_, _, holderFound, -⟩ := here
        exact isSome_of_directory? holderFound
      · rintro rfl
        exact not_owns_of_removable removable other ⟨key, here⟩
      · refine (erased holder key other).mpr ⟨here, ?_⟩
        rintro ⟨rfl, rfl⟩
        obtain ⟨_, _, again, bound⟩ := here
        cases found.symm.trans again
        cases present.symm.trans bound
        exact otherApart rfl

end Removal

section OneOperation

variable {setting : Setting} {operation : Operation} {outcome : Outcome Answer}

theorem Operation.mayDrop_of_portion? {session : SessionRef} {count : Nat}
    (reads : operation.portion? tree = some (session, count)) : operation.mayDrop = false := by
  cases operation with
  | read | readAll => rfl
  | _ => cases reads

/-- Nodes go only when they may have lost an owner. -/
theorem Effect.stays (effect : Effect tree setting operation outcome)
    (lasting : operation.mayDrop = false) {ref : NodeRef}
    (there : (tree.node? ref).isSome = true) : (outcome.tree.node? ref).isSome = true := by
  obtain ⟨node, found⟩ := Option.isSome_iff_exists.mp there
  cases effect with
  | refused | stalled | droppedClosed => exact there
  | madeFile | madeDirectory =>
      rw [node?_hold, node?_addNode_of_some found]
      rfl
  | held => rwa [node?_hold]
  | letGo | removed | closed | droppedOpen => cases lasting
  | attached target parent => rwa [isSome_node?_attach]
  | created => rw [isSome_node?_modifyNode, node?_addNode_of_some found]; rfl
  | added | renamed | rekeyed => rwa [isSome_node?_modifyNode, isSome_node?_modifyNode]
  | resolved => rwa [isSome_node?_touchAll]
  | _ => exact (isSome_node?_modifyNode _ _ ref).trans there

/-- Only a removal takes a binding away. -/
theorem eq_remove_of_rebound? {ending : Ending Answer} {directory : NodeRef}
    {name : String} (asked : operation.rebound? tree ending = some (directory, .unbind name)) :
    ∃ user, operation = .remove directory user name := by
  cases ending with
  | error | never => cases asked
  | ok answer =>
      cases operation with
      | create target user name requested =>
          cases answer with
          | node made => cases made <;> cases asked
          | _ => cases asked
      | remove target user name =>
          cases asked
          exact ⟨user, rfl⟩
      | writeMetadata child stat =>
          simp [Operation.rebound?, Option.bind_eq_some_iff] at asked
      | _ => cases asked

theorem Effect.keepsOwners (effect : Effect tree setting operation outcome)
    (sound : tree.IsSound) (lasting : operation.mayDrop = false) :
    KeepsOwners tree outcome.tree where
  root := effect.reshaped.root_eq
  held := by
    cases effect with
    | madeFile | madeDirectory => exact held_hold_subset (tree.addNode _) _
    | held node => exact held_hold_subset tree node
    | letGo | removed | closed | droppedOpen | droppedClosed => cases lasting
    | attached => rw [held_attach]; exact List.Subset.refl _
    | resolved => rw [held_touchAll]; exact List.Subset.refl _
    | _ => exact List.Subset.refl tree.held
  onNode := by
    intro session ref isOpen
    cases effect.turnover sound with
    | quiet silent size onNode => rw [onNode, isOpen]
    | opened isOpening there done announced opening number size onNode =>
        have old : session ≠ tree.nextSession := by
          rintro rfl
          exact Nat.lt_irrefl _ (place_lt_of_nodeOf? isOpen)
        rw [onNode, if_neg old, isOpen]
    | released isEnding =>
        rcases isEnding with rfl | rfl
        · cases lasting
        · cases lasting
  owns := by
    intro directory child owned
    have rebound := effect.rebound sound.child
    refine rebound.owns ?_ (fun ref there => effect.stays lasting there) owned
    intro directory name asked
    obtain ⟨user, rfl⟩ := eq_remove_of_rebound? asked
    cases lasting

/-- A node that was not there before is the one that the operation made and answers. -/
theorem Effect.made_of_new (effect : Effect tree setting operation outcome) {ref : NodeRef}
    (missing : tree.node? ref = none) (there : (outcome.tree.node? ref).isSome = true) :
    operation.makes = true ∧ outcome.ending = .ok (.node (some ref)) := by
  have unmade : ∀ {wanted : Prop}, (tree.node? ref).isSome = true → wanted := by
    intro wanted old
    rw [missing] at old
    cases old
  have fresh : ∀ {make : UInt64 → Node}, ((tree.addNode make).node? ref).isSome = true →
      tree.nextNode = ref := by
    intro make new
    by_contra old
    rw [node?_addNode, if_neg fun same => old same.symm] at new
    exact unmade new
  cases effect with
  | refused | stalled | droppedClosed => exact unmade there
  | madeFile | madeDirectory =>
      rw [node?_hold] at there
      exact ⟨rfl, by rw [fresh there]⟩
  | held => exact unmade (by rwa [node?_hold] at there)
  | letGo node =>
      have earlier := (swept_sweep { tree with held := tree.held.erase node }).isSome_of_later there
      exact unmade earlier
  | attached => exact unmade (by rwa [isSome_node?_attach] at there)
  | created =>
      rw [isSome_node?_modifyNode] at there
      exact ⟨rfl, by rw [fresh there]⟩
  | added | renamed | rekeyed =>
      exact unmade (by rwa [isSome_node?_modifyNode, isSome_node?_modifyNode] at there)
  | removed =>
      have earlier := (swept_sweep _).isSome_of_later there
      exact unmade (by rwa [isSome_node?_modifyNode] at earlier)
  | resolved => exact unmade (by rwa [isSome_node?_touchAll] at there)
  | closed | droppedOpen =>
      have earlier := (swept_sweep _).isSome_of_later there
      exact unmade ((isSome_node?_modifyNode _ _ ref).symm.trans earlier)
  | _ => exact unmade ((isSome_node?_modifyNode _ _ ref).symm.trans there)

/-- A node that an operation makes has an owner. -/
theorem Effect.isOwned_of_new (effect : Effect tree setting operation outcome) {ref : NodeRef}
    (missing : tree.node? ref = none) (there : (outcome.tree.node? ref).isSome = true) :
    outcome.tree.isOwned ref = true := by
  obtain ⟨makes, answer⟩ := effect.made_of_new missing there
  rw [isOwned_iff_owner]
  cases effect with
  | madeFile | madeDirectory =>
      cases answer
      rw [node?_hold] at there
      exact Or.inr (Or.inl (mem_held_hold there))
  | @created directory node entries user name requested found valid granted free =>
      cases answer
      have directoryThere := node?_addNode_of_some (directory?_eq_some_iff.mp found).1
        (newChild directory node name requested setting.clock.now)
      refine Or.inr (Or.inr (Or.inr ⟨directory, name, ?_⟩))
      rw [holds_iff_entriesAt, entriesAt_eq, valueAt_modifyNode
        (fun _ => entries.insert name tree.nextNode) (isSome_of_node? directoryThere) fun _ => rfl,
        if_pos rfl, Entries.find?_insert, if_pos rfl]
  | refused | stalled | readContent | readSnapshot | readFresh => cases answer
  | _ => cases makes

/-- What an operation drops has no owner afterwards. -/
theorem Effect.not_isOwned_of_gone (effect : Effect tree setting operation outcome)
    {ref : NodeRef} (there : (tree.node? ref).isSome = true)
    (gone : outcome.tree.node? ref = none) : outcome.tree.isOwned ref = false := by
  have kept : ∀ {wanted : Prop}, operation.mayDrop = false → wanted := by
    intro wanted lasting
    have later := effect.stays lasting there
    rw [gone] at later
    cases later
  cases effect with
  | letGo node =>
      exact (swept_sweep { tree with held := tree.held.erase node }).not_isOwned there gone
  | removed =>
      refine (swept_sweep _).not_isOwned ?_ gone
      rwa [isSome_node?_modifyNode]
  | closed isOpen =>
      refine (swept_sweep _).not_isOwned ?_ gone
      exact (isSome_node?_modifyNode _ _ ref).trans there
  | droppedOpen isOpen =>
      refine isOwned_of_forget ?_
      refine (swept_sweep _).not_isOwned ?_ gone
      exact (isSome_node?_modifyNode _ _ ref).trans there
  | refused | stalled | droppedClosed =>
      have missing : tree.node? ref = none := gone
      rw [missing] at there
      cases there
  | readContent reads | readSnapshot reads | readFresh reads =>
      exact kept (Operation.mayDrop_of_portion? reads)
  | _ => exact kept rfl

/-- An operation leaves no node without an owner. -/
theorem Effect.isTended (effect : Effect tree setting operation outcome) (sound : tree.IsSound)
    (tended : tree.IsTended) : outcome.tree.IsTended := by
  by_cases lasting : operation.mayDrop = false
  · refine (effect.keepsOwners sound lasting).isTended tended fun ref there => ?_
    by_cases old : (tree.node? ref).isSome = true
    · exact Or.inl old
    · exact Or.inr (effect.isOwned_of_new (Option.not_isSome_iff_eq_none.mp old) there)
  · cases effect with
    | refused | stalled => exact tended
    | letGo | removed | closed => exact isTended_sweep _
    | @droppedOpen session _ nodeRef =>
        have released : (tree.release session nodeRef).IsTended := isTended_sweep _
        exact released.forget (by rw [nodeOf?_release, if_pos rfl])
    | droppedClosed ref notOpen => exact tended.forget (sound.nodeOf?_of_notOpen notOpen)
    | readContent reads | readSnapshot reads | readFresh reads =>
        exact absurd (Operation.mayDrop_of_portion? reads) lasting
    | _ => exact absurd rfl lasting

/-- What was there before an operation is there afterwards exactly if it has an owner then. -/
theorem Effect.isSome_node?_iff (effect : Effect tree setting operation outcome)
    (sound : tree.IsSound) (tended : tree.IsTended) {ref : NodeRef}
    (there : (tree.node? ref).isSome = true) :
    (outcome.tree.node? ref).isSome = true ↔ outcome.tree.isOwned ref = true := by
  constructor
  · exact effect.isTended sound tended ref
  · intro owned
    by_contra gone
    have unowned := effect.not_isOwned_of_gone there (Option.not_isSome_iff_eq_none.mp gone)
    rw [owned] at unowned
    cases unowned

/-- The directory in which a binding changes stays. -/
theorem Effect.directory_stays (effect : Effect tree setting operation outcome)
    (tended : tree.IsTended) {directory : NodeRef} {rebinding : Rebinding}
    (asked : operation.rebound? tree outcome.ending = some (directory, rebinding))
    (there : (tree.node? directory).isSome = true) :
    (outcome.tree.node? directory).isSome = true := by
  by_cases lasting : operation.mayDrop = false
  · exact effect.stays lasting there
  · cases effect with
    | refused | stalled => exact there
    | letGo | closed | droppedOpen | droppedClosed => cases asked
    | removed user name found granted present removable =>
        cases asked
        exact tended.stays_of_erased found present removable (fun _ => rfl)
          (ne_of_removable found present removable) there
    | readContent reads | readSnapshot reads | readFresh reads =>
        exact absurd (Operation.mayDrop_of_portion? reads) lasting
    | _ => exact absurd rfl lasting

end OneOperation

theorem isTended_ofRoot (blueprint : Blueprint) (ids : IdSource) (now : UInt32) :
    (ofRoot blueprint ids now).IsTended := by
  intro ref there
  have atRoot : ref = (ofRoot blueprint ids now).root := by
    cases ref
    rw [node?, ofRoot, Arena.get?_push] at there
    split at there
    · rename_i same
      exact congrArg NodeRef.mk same
    · cases there
  exact isOwned_iff_owner.mpr (Or.inl atRoot)

end Tree

namespace World

/-- A run leaves no node without an owner. -/
theorem isTended_run {world : World} (sound : world.tree.IsSound) (tended : world.tree.IsTended)
    (operations : List (Clock × Operation)) : (world.run operations).tree.IsTended := by
  induction operations generalizing world with
  | nil => exact tended
  | cons timed rest inductionHypothesis =>
      have effect := world.effect_outcome timed.1 timed.2
      exact inductionHypothesis (sound.perform _ timed.2) (effect.isTended sound tended)

end World

end MemFs
