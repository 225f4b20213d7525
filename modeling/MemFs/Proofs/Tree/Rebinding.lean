import MemFs.Proofs.Session.Soundness
import MemFs.Proofs.Tree.Mutation
import Mathlib.Data.Finset.Insert
import Mathlib.Logic.Function.Basic

/-!
# Changes of a binding

A directory is a finite map from names to nodes. `Rebound` is the view that these maps have of an
operation: either it leaves them all alone, or it binds one free name, moves one binding to a free
name or takes away the binding of one file or empty directory, in one directory, and leaves one
event that says so.
-/

namespace MemFs

/-- A change of one binding in a map from names to nodes. -/
inductive Rebinding where
  | bind (name : String) (child : NodeRef)
  | move (old new : String)
  | unbind (name : String)
deriving DecidableEq, Repr

namespace Rebinding

/-- The map after the change. -/
def apply (found : String → Option NodeRef) : Rebinding → String → Option NodeRef
  | .bind name child => Function.update found name (some child)
  | .move old new => Function.update (Function.update found old none) new (found old)
  | .unbind name => Function.update found name none

/-- The names after the change. -/
def rename (names : Finset String) : Rebinding → Finset String
  | .bind name _ => insert name names
  | .move old new => insert new (names.erase old)
  | .unbind name => names.erase name

/-- A new name has to be valid and free, an old one bound, and what loses its binding a file or an
empty directory. -/
def IsPossible (tree : Tree) (found : String → Option NodeRef) : Rebinding → Prop
  | .bind name _ => Name.isValid name = true ∧ found name = none
  | .move old new =>
      Name.isValid new = true ∧ old ≠ new ∧ (∃ child, found old = some child) ∧ found new = none
  | .unbind name => ∃ child node, found name = some child ∧ tree.node? child = some node ∧
      (node.kind = .file ∨ node.body = .directory .empty)

variable {tree : Tree} {found after : String → Option NodeRef} {rebinding : Rebinding}

/-- A change that is possible changes the map. -/
theorem apply_ne (possible : rebinding.IsPossible tree found) : rebinding.apply found ≠ found := by
  intro same
  cases rebinding with
  | bind name child =>
      have bound := congrFun same name
      rw [apply, Function.update_self, possible.2] at bound
      cases bound
  | move old new =>
      obtain ⟨-, -, ⟨child, present⟩, free⟩ := possible
      have bound := congrFun same new
      rw [apply, Function.update_self, present, free] at bound
      cases bound
  | unbind name =>
      obtain ⟨child, -, present, -⟩ := possible
      have unbound := congrFun same name
      rw [apply, Function.update_self, present] at unbound
      cases unbound

theorem mem_rename_iff (possible : rebinding.IsPossible tree found) {names : Finset String}
    (named : ∀ name, name ∈ names ↔ (found name).isSome = true) (name : String) :
    name ∈ rebinding.rename names ↔ (rebinding.apply found name).isSome = true := by
  cases rebinding with
  | bind new child =>
      rw [rename, Finset.mem_insert, named, apply, Function.update_apply]
      split
      · simp [*]
      · simp [*]
  | move old new =>
      obtain ⟨-, -, ⟨child, present⟩, -⟩ := possible
      rw [rename, Finset.mem_insert, Finset.mem_erase, named, apply, Function.update_apply,
        Function.update_apply]
      by_cases atNew : name = new
      · simp [atNew, present]
      · by_cases atOld : name = old
        · subst atOld
          simp [atNew]
        · simp [atNew, atOld]
  | unbind old =>
      rw [rename, Finset.mem_erase, named, apply, Function.update_apply]
      split
      · simp [*]
      · simp [*]

variable {child : NodeRef}

theorem exists_apply_bind_iff {name : String} {bound : NodeRef} (free : found name = none) :
    (∃ key, (bind name bound).apply found key = some child) ↔
      (∃ key, found key = some child) ∨ bound = child := by
  simp only [apply, Function.update_apply]
  constructor
  · rintro ⟨key, here⟩
    split at here
    · exact Or.inr (Option.some.inj here)
    · exact Or.inl ⟨key, here⟩
  · rintro (⟨key, here⟩ | same)
    · have notName : key ≠ name := by
        rintro rfl
        cases free.symm.trans here
      exact ⟨key, by rw [if_neg notName, here]⟩
    · exact ⟨name, by rw [if_pos rfl, same]⟩

theorem exists_apply_move_iff {old new : String} (different : old ≠ new)
    (free : found new = none) :
    (∃ key, (move old new).apply found key = some child) ↔ ∃ key, found key = some child := by
  simp only [apply, Function.update_apply]
  constructor
  · rintro ⟨key, here⟩
    split at here
    · exact ⟨old, here⟩
    · split at here
      · cases here
      · exact ⟨key, here⟩
  · rintro ⟨key, here⟩
    by_cases atOld : key = old
    · exact ⟨new, by rw [if_pos rfl, ← atOld, here]⟩
    · have notNew : key ≠ new := by
        rintro rfl
        cases free.symm.trans here
      exact ⟨key, by rw [if_neg notNew, if_neg atOld, here]⟩

theorem exists_apply_unbind_iff {name : String} :
    (∃ key, (unbind name).apply found key = some child) ↔
      ∃ key, key ≠ name ∧ found key = some child := by
  refine exists_congr fun key => ?_
  rw [apply, Function.update_apply]
  by_cases atName : key = name <;> simp [atName]

end Rebinding

namespace Entries

variable {α : Type}

theorem mem_names_iff {entries : Entries α} {name : String} :
    name ∈ entries.names ↔ (entries.find? name).isSome = true := by
  rw [names, List.mem_map, Option.isSome_iff_exists]
  constructor
  · rintro ⟨⟨key, value⟩, member, rfl⟩
    exact ⟨value, mem_toList_iff.mp member⟩
  · rintro ⟨value, present⟩
    exact ⟨(name, value), mem_toList_iff.mpr present, rfl⟩

theorem find?_insert_eq (entries : Entries α) (name : String) (value : α) :
    (entries.insert name value).find? = Function.update entries.find? name (some value) := by
  funext key
  rw [find?_insert, Function.update_apply]

theorem find?_erase_eq (entries : Entries α) (name : String) :
    (entries.erase name).find? = Function.update entries.find? name none := by
  funext key
  rw [find?_erase, Function.update_apply]

theorem find?_move_eq {entries : Entries α} {old : String} {value : α}
    (present : entries.find? old = some value) (new : String) :
    (entries.move old new).find? =
      Function.update (Function.update entries.find? old none) new (entries.find? old) := by
  funext key
  rw [find?_move present, Function.update_apply, Function.update_apply, present]

end Entries

/-- Only a directory without entries can lose its binding. -/
theorem Node.isRemovable_iff {node : Node} :
    node.isRemovable = true ↔ node.kind = .file ∨ node.body = .directory .empty := by
  cases body : node.body with
  | file content => simp [isRemovable, entries, kind, body, Entries.isEmpty, Entries.empty]
  | directory held =>
      obtain ⟨items, sorted⟩ := held
      simp [isRemovable, entries, kind, body, Entries.isEmpty, Entries.empty]

/-! ## Events about names -/

namespace Event

/-- A change of the names in a directory was noted. -/
def isNaming (event : Event) : Bool :=
  event.level = .trace &&
    ["created", "added", "renamed", "removed", "renamed by metadata write"].contains event.message

/-- The event says of the directory with this number that a binding in it was changed so. -/
inductive Tells (number : UInt64) : Rebinding → Event → Prop
  | created (child : NodeRef) (made : UInt64) (name user : String) :
      Tells number (.bind name child) (.created number made name user)
  | added (child : NodeRef) (name : String) :
      Tells number (.bind name child) (.added number name)
  | renamed (old new user : String) : Tells number (.move old new) (.renamed number old new user)
  | metadataRenamed (child : UInt64) (old new : String) :
      Tells number (.move old new) (.metadataRenamed number child old new)
  | removed (name user : String) : Tells number (.unbind name) (.removed number name user)

theorem Tells.isNaming {number : UInt64} {rebinding : Rebinding} {event : Event}
    (told : event.Tells number rebinding) : event.isNaming = true := by
  cases told <;> rfl

theorem not_isNaming_of_debug {event : Event} (quiet : event.level = .debug) :
    event.isNaming = false := by
  rw [Event.isNaming, quiet]
  rfl

end Event

/-! ## What an operation asks for -/

/-- The name that a metadata write gives to a node, if it is another one. -/
def Node.newName? (node : Node) (stat : Stat) : Option String :=
  (Name.replacement? node.name node.shownName stat.name).toOption.join

/-- The directory in which an operation with this ending changes a binding, and the change. For a
metadata write it is found as the operation finds it. -/
def Operation.rebound? (tree : Tree) (operation : Operation) :
    Ending Answer → Option (NodeRef × Rebinding)
  | .error _ | .never => none
  | .ok answer =>
      match operation, answer with
      | .create directory _ name _, .node (some child) => some (directory, .bind name child)
      | .add directory name graft, _ => some (directory, .bind name graft)
      | .rename directory _ old new, _ => some (directory, .move old new)
      | .remove directory _ name, _ => some (directory, .unbind name)
      | .writeMetadata target stat, _ => do
          let node ← tree.node? target
          let new ← node.newName? stat
          let (holder, _, _, old) ← tree.entryMoved? target node new
          pure (holder, .move old new)
      | _, _ => none

namespace Tree

/-- What an operation does to the maps of the directories that are there afterwards. -/
inductive Rebound (before after : Tree) : Option (NodeRef × Rebinding) → List Event → Prop
  | kept {events : List Event} (untold : ∀ event ∈ events, event.isNaming = false)
      (same : ∀ ref, (after.node? ref).isSome = true → after.entriesAt ref = before.entriesAt ref) :
      Rebound before after none events
  | changed {directory : NodeRef} {node : Node} {entries : Entries NodeRef} {rebinding : Rebinding}
      {event : Event} (found : before.directory? directory = some (node, entries))
      (possible : rebinding.IsPossible before entries.find?)
      (told : event.Tells node.id rebinding)
      (here : (after.node? directory).isSome = true →
        (after.entriesAt directory).find? = rebinding.apply entries.find?)
      (elsewhere : ∀ ref, (after.node? ref).isSome = true → ref ≠ directory →
        after.entriesAt ref = before.entriesAt ref) :
      Rebound before after (some (directory, rebinding)) [event]

variable {tree : Tree}

private theorem untold_nil : ∀ event ∈ ([] : List Event), event.isNaming = false :=
  fun _ absent => nomatch absent

private theorem untold_singleton {event : Event} (unnamed : event.isNaming = false) :
    ∀ other ∈ [event], other.isNaming = false := by
  intro other member
  rw [List.mem_singleton.mp member, unnamed]

private theorem entriesAt_kept {target : NodeRef} {change : Node → Node}
    (keeps : ∀ node, (change node).entries = node.entries) (ref : NodeRef) :
    (tree.modifyNode target change).entriesAt ref = tree.entriesAt ref := by
  rw [entriesAt_eq, entriesAt_eq]
  exact valueAt_modifyNode_of_same keeps

/-- New entries for a directory, in a tree with the entries of an earlier one. -/
private theorem entriesAt_rebound {middle : Tree} {directory : NodeRef} {change : Node → Node}
    {entries : Entries NodeRef} (there : (middle.node? directory).isSome = true)
    (earlier : ∀ ref, middle.entriesAt ref = tree.entriesAt ref)
    (rebinds : ∀ node, (change node).entries = entries) (ref : NodeRef) :
    (middle.modifyNode directory change).entriesAt ref =
      if ref = directory then entries else tree.entriesAt ref := by
  rw [← earlier, entriesAt_eq, entriesAt_eq]
  exact valueAt_modifyNode (fun _ => entries) there rebinds

/-- A change of one directory, with the event about it. -/
private theorem rebound_of_entriesAt {after : Tree} {directory : NodeRef} {node : Node}
    {entries new : Entries NodeRef} {rebinding : Rebinding} {event : Event}
    (found : tree.directory? directory = some (node, entries))
    (possible : rebinding.IsPossible tree entries.find?) (told : event.Tells node.id rebinding)
    (applied : new.find? = rebinding.apply entries.find?)
    (changed : ∀ ref, (after.node? ref).isSome = true →
      after.entriesAt ref = if ref = directory then new else tree.entriesAt ref) :
    Rebound tree after (some (directory, rebinding)) [event] := by
  refine Rebound.changed found possible told ?_ ?_
  · intro there
    rw [changed directory there, if_pos rfl, applied]
  · intro ref there other
    rw [changed ref there, if_neg other]

/-- A change of a node that leaves its entries alone. -/
private theorem rebound_of_modifyNode {after : Tree} {target : NodeRef} {change : Node → Node}
    {events : List Event} (nodes : after.nodes = (tree.modifyNode target change).nodes)
    (keeps : ∀ node, tree.node? target = some node → (change node).outline = node.outline)
    (untold : ∀ event ∈ events, event.isNaming = false) :
    Rebound tree after none events := by
  refine Rebound.kept untold fun ref _ => entriesAt_of_congr (fun other => ?_) ref
  rw [outline?_congr_nodes nodes]
  exact outline?_modifyNode_of_same tree keeps other

private theorem entriesAt_of_swept {middle after : Tree} (thinned : Thinned middle after)
    {ref : NodeRef} (there : (after.node? ref).isSome = true) :
    after.entriesAt ref = middle.entriesAt ref := by
  rw [entriesAt_eq, entriesAt_eq]
  exact thinned.valueAt_eq fun _ => there

theorem Operation.rebound?_of_portion? {operation : Operation} {session : SessionRef} {count : Nat}
    (reads : operation.portion? tree = some (session, count)) (ending : Ending Answer) :
    operation.rebound? tree ending = none := by
  cases operation with
  | read | readAll => cases ending <;> rfl
  | _ => cases reads

/-- A new binding is one of what was created or added. -/
theorem Operation.bind_of_rebound? {operation : Operation} {ending : Ending Answer}
    {directory child : NodeRef} {name : String}
    (bound : operation.rebound? tree ending = some (directory, .bind name child)) :
    (∃ user requested, operation = .create directory user name requested ∧
        ending = .ok (.node (some child))) ∨ operation = .add directory name child := by
  cases ending with
  | error | never => cases bound
  | ok answer =>
      cases operation with
      | create target user key requested =>
          cases answer with
          | node made =>
              cases made with
              | none => cases bound
              | some new =>
                  cases bound
                  exact Or.inl ⟨user, requested, rfl, rfl⟩
          | _ => cases bound
      | add target key graft =>
          cases bound
          exact Or.inr rfl
      | writeMetadata target stat =>
          simp only [Operation.rebound?, Option.bind_eq_bind, Option.bind_eq_some_iff,
            Option.pure_def, Option.some.injEq, Prod.mk.injEq, reduceCtorEq, and_false,
            exists_false] at bound
      | _ => cases bound

theorem rebound?_writeMetadata {target : NodeRef} {node : Node} {stat : Stat}
    {newName : Option String} (there : tree.node? target = some node)
    (wanted : Name.replacement? node.name node.shownName stat.name = .ok newName)
    (answer : Answer) :
    (Operation.writeMetadata target stat).rebound? tree (.ok answer) =
      newName.bind fun new => (tree.entryMoved? target node new).map fun moved =>
        (moved.1, .move moved.2.2.2 new) := by
  have asked : node.newName? stat = newName := by
    rw [Node.newName?, wanted]
    rfl
  simp only [Operation.rebound?, there, asked, Option.bind_eq_bind, Option.bind_some]
  cases newName with
  | none => rfl
  | some new =>
      rw [Option.bind_some, Option.bind_some]
      cases tree.entryMoved? target node new <;> rfl

/-- Every operation changes one binding in one directory, or none. -/
theorem Effect.rebound {setting : Setting} {operation : Operation} {outcome : Outcome Answer}
    (effect : Effect tree setting operation outcome)
    (inside : ∀ directory name child, tree.Holds directory name child →
      ∃ outline, tree.outline? child = some outline) :
    Rebound tree outcome.tree (operation.rebound? tree outcome.ending) outcome.events := by
  cases effect with
  | refused error checks events inquiry =>
      have untold := fun event member => Event.not_isNaming_of_debug (inquiry.quiet event member)
      exact Rebound.kept untold fun _ _ => rfl
  | stalled => exact Rebound.kept untold_nil fun _ _ => rfl
  | madeFile | madeDirectory =>
      refine Rebound.kept untold_nil fun ref _ => ?_
      rw [entriesAt_eq, entriesAt_eq]
      exact (valueAt_congr (node?_hold _ _ _)).trans (valueAt_addNode fun _ => rfl)
  | held node =>
      exact Rebound.kept untold_nil fun ref _ => entriesAt_of_congr (outline?_hold tree node) ref
  | letGo node =>
      refine Rebound.kept untold_nil fun ref there => ?_
      exact entriesAt_of_swept (swept_sweep { tree with held := tree.held.erase node }).toThinned
        there
  | attached target parent =>
      refine Rebound.kept untold_nil fun ref _ => ?_
      rw [entriesAt_eq, entriesAt_eq]
      exact valueAt_attach (fun _ _ => rfl) target parent
  | @created directory node entries user name requested found valid granted free =>
      have new : ∀ id, (newChild directory node name requested setting.clock.now id).entries =
          Entries.empty := by
        intro id
        unfold newChild
        split <;> rfl
      have there := node?_addNode_of_some (directory?_eq_some_iff.mp found).1
        (newChild directory node name requested setting.clock.now)
      refine rebound_of_entriesAt found ⟨valid, free⟩ (.created tree.nextNode _ name user)
        (entries.find?_insert_eq name tree.nextNode) fun ref _ => ?_
      refine entriesAt_rebound (isSome_of_node? there) ?_ ?_ ref
      · intro other
        rw [entriesAt_eq, entriesAt_eq]
        exact valueAt_addNode new
      · exact fun _ => rfl
  | @added directory graft node _ entries name found graftThere valid unmet free =>
      refine rebound_of_entriesAt found ⟨valid, free⟩ (.added graft name)
        (entries.find?_insert_eq name graft) fun ref _ => ?_
      refine entriesAt_rebound ?_ ?_ ?_ ref
      · rw [isSome_node?_modifyNode, isSome_of_directory? found]
      · exact entriesAt_kept fun _ => rfl
      · exact fun _ => rfl
  | @renamed directory child node entries user old new found valid granted present free =>
      have different : old ≠ new := by
        intro same
        rw [same, free] at present
        cases present
      refine rebound_of_entriesAt found ⟨valid, different, ⟨child, present⟩, free⟩
        (.renamed old new user) (Entries.find?_move_eq present new) fun ref _ => ?_
      refine entriesAt_rebound ?_ ?_ ?_ ref
      · rw [isSome_node?_modifyNode, isSome_of_directory? found]
      · exact entriesAt_kept fun _ => rfl
      · exact fun _ => rfl
  | @removed directory child node entries user name found granted present removable =>
      have loses : (Rebinding.unbind name).IsPossible tree entries.find? := by
        obtain ⟨outline, outlineThere⟩ :=
          inside directory name child ⟨node, entries, found, present⟩
        obtain ⟨childNode, there, -⟩ := Option.map_eq_some_iff.mp outlineThere
        rw [there, Option.all_some] at removable
        exact ⟨child, childNode, present, there, Node.isRemovable_iff.mp removable⟩
      refine rebound_of_entriesAt found loses (.removed name user)
        (entries.find?_erase_eq name) fun ref there => ?_
      rw [entriesAt_of_swept (swept_sweep _).toThinned there]
      refine entriesAt_rebound (isSome_of_directory? found) ?_ ?_ ref
      · exact fun _ => rfl
      · exact fun _ => rfl
  | walked user name found granted =>
      exact rebound_of_modifyNode rfl (fun node _ => Node.outline_accessed node _) untold_nil
  | resolved user path ending walked checks events returns quiet =>
      have unasked : (Operation.resolve user path).rebound? tree ending = none := by
        cases ending <;> rfl
      rw [unasked]
      refine Rebound.kept (fun event member => Event.not_isNaming_of_debug (quiet event member)) ?_
      intro ref _
      rw [entriesAt_eq, entriesAt_eq]
      exact valueAt_touchAll (fun _ _ => rfl) walked
  | @revised target node newName stat there wanted fits unmoved =>
      have unasked : (newName.bind fun new => (tree.entryMoved? target node new).map fun moved =>
          (moved.1, Rebinding.move moved.2.2.2 new)) = none := by
        cases newName with
        | none => rfl
        | some new => rw [Option.bind_some, unmoved new rfl, Option.map_none]
      rw [rebound?_writeMetadata there wanted, unasked]
      exact Rebound.kept untold_nil fun ref _ => entriesAt_revised ref
  | @rekeyed target holder node parent entries old new stat there wanted fits moved free =>
      obtain ⟨-, found, child, -, present, -⟩ := entryMoved?_eq_some moved
      obtain ⟨-, different⟩ := nameHeld?_of_entryMoved? moved
      rw [rebound?_writeMetadata there wanted, Option.bind_some, moved, Option.map_some]
      refine rebound_of_entriesAt found
        ⟨Name.isValid_of_replacement? wanted, different, ⟨child, present⟩, free⟩
        (.metadataRenamed node.id old new) (Entries.find?_move_eq present new) fun ref _ => ?_
      refine entriesAt_rebound ?_ ?_ ?_ ref
      · rw [isSome_node?_modifyNode, isSome_of_directory? found]
      · exact fun other => entriesAt_revised other
      · exact fun _ => rfl
  | openedFile user request there isFile granted =>
      refine rebound_of_modifyNode rfl (fun node held => ?_) (untold_singleton rfl)
      cases there.symm.trans held
      split
      · exact Node.outline_withContent isFile []
      · rfl
  | openedDirectory user request there isDirectory granted =>
      exact rebound_of_modifyNode rfl (fun node _ => Node.outline_opened node _)
        (untold_singleton rfl)
  | soughtFile | rewound | stayed =>
      exact rebound_of_modifyNode rfl (fun node _ => Node.outline_accessed node _) untold_nil
  | readContent reads | readSnapshot reads | readFresh reads =>
      rw [Operation.rebound?_of_portion? reads]
      exact rebound_of_modifyNode rfl (fun node _ => Node.outline_accessed node _) untold_nil
  | written data isOpen isFile ofUser =>
      refine rebound_of_modifyNode rfl (fun node held => ?_) untold_nil
      cases isOpen.there.symm.trans held
      rw [Node.outline_mutatedBy]
      exact Node.outline_withContent isFile _
  | @closed _ _ nodeRef node isOpen | @droppedOpen _ _ nodeRef node isOpen =>
      refine Rebound.kept (untold_singleton ?_) fun ref there => ?_
      · unfold closedEvent
        split <;> rfl
      · refine (entriesAt_of_swept (swept_sweep _).toThinned there).trans ?_
        rw [entriesAt_eq, entriesAt_eq]
        exact valueAt_modifyNode_of_same fun _ => rfl
  | droppedClosed ref notOpen => exact Rebound.kept untold_nil fun _ _ => rfl

/-! ## The map in one place -/

section OnePlace

variable {before after : Tree} {asked : Option (NodeRef × Rebinding)} {events : List Event}
  {directory : NodeRef} {rebinding : Rebinding}

/-- The map in which a binding changes. -/
theorem Rebound.here (rebound : Rebound before after asked events)
    (isAsked : asked = some (directory, rebinding))
    (stays : (before.node? directory).isSome = true → (after.node? directory).isSome = true) :
    rebinding.IsPossible before (before.entriesAt directory).find? ∧
      (after.entriesAt directory).find? = rebinding.apply (before.entriesAt directory).find? := by
  cases rebound with
  | kept untold same => cases isAsked
  | changed found possible told here elsewhere =>
      cases isAsked
      obtain ⟨outerThere, -, same⟩ := outline?_of_directory? found
      rw [entriesAt_of_outline? outerThere, same]
      exact ⟨possible, here (stays (isSome_of_directory? found))⟩

/-- The maps in which none does. -/
theorem Rebound.elsewhere (rebound : Rebound before after asked events)
    (unasked : ∀ rebinding, asked ≠ some (directory, rebinding))
    (stays : (before.node? directory).isSome = true → (after.node? directory).isSome = true) :
    after.entriesAt directory = before.entriesAt directory := by
  by_cases there : (after.node? directory).isSome = true
  · cases rebound with
    | kept untold same => exact same directory there
    | @changed target _ _ rebinding _ found possible told here elsewhere =>
        refine elsewhere directory there fun same => ?_
        exact unasked rebinding (by rw [same])
  · have gone : after.node? directory = none := Option.not_isSome_iff_eq_none.mp there
    have missing : before.node? directory = none :=
      Option.not_isSome_iff_eq_none.mp fun earlier => there (stays earlier)
    rw [entriesAt_eq, entriesAt_eq, valueAt_of_missing gone, valueAt_of_missing missing]

/-- Nothing but the removal of a binding takes an owner away. -/
theorem Rebound.owns (rebound : Rebound before after asked events)
    (bound : ∀ directory name, asked ≠ some (directory, .unbind name))
    (stays : ∀ ref, (before.node? ref).isSome = true → (after.node? ref).isSome = true)
    {child : NodeRef} (owned : before.Owns directory child) : after.Owns directory child := by
  rw [owns_iff_entriesAt] at owned ⊢
  by_cases isAsked : ∃ rebinding, asked = some (directory, rebinding)
  · obtain ⟨rebinding, isAsked⟩ := isAsked
    obtain ⟨possible, applied⟩ := rebound.here isAsked (stays directory)
    rw [applied]
    cases rebinding with
    | bind name new => exact (Rebinding.exists_apply_bind_iff possible.2).mpr (Or.inl owned)
    | move old new =>
        exact (Rebinding.exists_apply_move_iff possible.2.1 possible.2.2.2).mpr owned
    | unbind name => exact absurd isAsked (bound directory name)
  · rw [rebound.elsewhere (fun rebinding same => isAsked ⟨rebinding, same⟩) (stays directory)]
    exact owned

/-- Nothing but a new binding gives a directory something more to own. -/
theorem Rebound.owns_earlier (rebound : Rebound before after asked events) {child : NodeRef}
    (owned : after.Owns directory child) :
    before.Owns directory child ∨ ∃ name, asked = some (directory, .bind name child) := by
  have there : (after.node? directory).isSome = true := by
    obtain ⟨_, _, _, found, -⟩ := owned
    exact isSome_of_directory? found
  rw [owns_iff_entriesAt] at owned ⊢
  cases rebound with
  | kept untold same => exact Or.inl (same directory there ▸ owned)
  | @changed target _ entries rebinding _ found possible told here elsewhere =>
      by_cases apart : directory = target
      · subst apart
        rw [here there] at owned
        rw [entriesAt_of_directory? found]
        cases rebinding with
        | bind name bound =>
            refine ((Rebinding.exists_apply_bind_iff possible.2).mp owned).imp_right ?_
            rintro rfl
            exact ⟨name, rfl⟩
        | move old new =>
            exact Or.inl ((Rebinding.exists_apply_move_iff possible.2.1 possible.2.2.2).mp owned)
        | unbind name =>
            obtain ⟨key, -, bound⟩ := Rebinding.exists_apply_unbind_iff.mp owned
            exact Or.inl ⟨key, bound⟩
      · exact Or.inl (elsewhere directory there apart ▸ owned)

end OnePlace

end Tree

end MemFs
