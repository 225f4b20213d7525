import MemFs.Proofs.Content.History
import MemFs.Proofs.Tree.Naming
import MemFs.Proofs.Tree.Value
import Mathlib.Data.List.Induction

/-!
# Versions count mutations

A node starts with version zero. From then on the version goes up by one with each mutation of the
node and with nothing else, and wraps around. What is a mutation is read off the operation and its
ending alone, but for a metadata write, which is also one of the directory whose entry it moves.
-/

namespace MemFs

namespace Tree

/-- The name under which a directory finds the entry of a node. Directories go by numbers. -/
def nameIn? (tree : Tree) (directory target : NodeRef) : Option String :=
  (tree.node? target).bind fun node => tree.nameHeld? (tree.entriesAt directory) node.id

end Tree

/-- How many mutations of a node an operation with this ending was. -/
def Operation.mutations (operation : Operation) (before after : Tree) (ref : NodeRef) :
    Ending Answer → Nat
  | .error _ | .never => 0
  | .ok _ =>
      match operation with
      | .create directory _ _ _ | .add directory _ _ | .rename directory _ _ _
      | .remove directory _ _ => if ref = directory then 1 else 0
      | .writeMetadata target _ =>
          (if ref = target then 1 else 0)
            + (if after.nameIn? ref target = before.nameIn? ref target then 0 else 1)
      | .write session _ => if (before.session? session).bind Session.node = some ref then 1 else 0
      | .openSession target _ request =>
          if ref = target ∧ (before.node? ref).any (·.kind = .file) ∧ request.truncates ∧
            request.wantsWrite then 1 else 0
      | _ => 0

namespace Tree

variable {tree : Tree}

/-- A change that adds to the version of a node that is there. -/
theorem version_modifyNode {target ref : NodeRef} {change : Node → Node} {version : UInt32}
    (count : Nat) (earlier : tree.valueAt Node.version 0 ref = version)
    (there : (tree.node? target).isSome = true)
    (adds : ∀ node, (change node).version = node.version + .ofNat count) :
    (tree.modifyNode target change).valueAt Node.version 0 ref =
      version + .ofNat (if ref = target then count else 0) := by
  rw [valueAt_modifyNode (· + .ofNat count) there adds, earlier]
  split
  · rfl
  · exact (UInt32.add_zero _).symm

/-! ## Names that entries have -/

theorem entriesAt_eq (tree : Tree) (ref : NodeRef) :
    tree.entriesAt ref = tree.valueAt Node.entries .empty ref := by
  rw [entriesAt, outline?, Option.map_map]
  rfl

theorem number_modifyNode {target ref : NodeRef} {change : Node → Node}
    (same : ∀ node, (change node).id = node.id) :
    ((tree.modifyNode target change).node? ref).map Node.id = (tree.node? ref).map Node.id := by
  rw [node?_modifyNode]
  split
  · rw [Option.map_map]
    exact Option.map_congr fun node _ => same node
  · rfl

theorem nameHeld?_congr {after : Tree}
    (numbers : ∀ ref, (after.node? ref).map Node.id = (tree.node? ref).map Node.id)
    (entries : Entries NodeRef) (id : UInt64) :
    after.nameHeld? entries id = tree.nameHeld? entries id := by
  have sameMatch : ∀ child, ((after.node? child).any fun node => node.id = id) =
      (tree.node? child).any fun node => node.id = id := by
    intro child
    have read : ∀ found : Option Node, (found.any fun node => node.id = id) =
        (found.map Node.id).any (· = id) := by
      intro found
      rw [Option.any_map]
    rw [read, read, numbers]
  simp only [nameHeld?, sameMatch]

theorem nameIn?_congr {after : Tree} {directory : NodeRef}
    (numbers : ∀ ref, (after.node? ref).map Node.id = (tree.node? ref).map Node.id)
    (entries : after.entriesAt directory = tree.entriesAt directory) (target : NodeRef) :
    after.nameIn? directory target = tree.nameIn? directory target := by
  have read : ∀ (found : Option Node) (name? : UInt64 → Option String),
      (found.bind fun node => name? node.id) = (found.map Node.id).bind name? := by
    intro found name?
    rw [Option.bind_map]
    rfl
  rw [nameIn?, nameIn?, read _ fun id => after.nameHeld? _ id, numbers, entries,
    read _ fun id => tree.nameHeld? _ id]
  simp only [nameHeld?_congr numbers]

/-! ## Metadata writes -/

section MetadataWrites

variable {clock : Clock} {target parentRef : NodeRef} {node parent : Node} {stat : Stat}
  {newName : Option String} {entries : Entries NodeRef} {oldName name : String}

theorem nameHeld?_of_entryMoved?
    (moved : tree.entryMoved? target node name = some (parentRef, parent, entries, oldName)) :
    tree.nameHeld? entries node.id = some oldName ∧ oldName ≠ name := by
  simp only [entryMoved?, Option.bind_eq_bind, Option.bind_eq_some_iff, Option.pure_def,
    Option.some.injEq, Prod.mk.injEq, Prod.exists] at moved
  obtain ⟨_, -, _, _, -, _, held, rfl, rfl, rfl, rfl⟩ := moved
  obtain ⟨named, other⟩ := Option.filter_eq_some_iff.mp held
  exact ⟨named, by simpa using other⟩

/-- A metadata write under a new name moves the entry of the node itself, if the directory above the
node holds it once. -/
theorem entryMoved?_iff_of_once (distinct : tree.IsDistinct) (there : tree.node? target = some node)
    (once : tree.parent? target = some parentRef → ∀ first second,
      tree.Holds parentRef first target → tree.Holds parentRef second target → first = second) :
    (∃ parent entries,
        tree.entryMoved? target node name = some (parentRef, parent, entries, oldName)) ↔
      tree.parent? target = some parentRef ∧ tree.Holds parentRef oldName target ∧
        oldName ≠ name := by
  constructor
  · rintro ⟨parent, entries, moved⟩
    obtain ⟨above, found, bound, boundNode, present, boundThere, sameId⟩ :=
      entryMoved?_eq_some moved
    have same : bound = target := eq_of_sameNumber distinct boundThere there sameId
    exact ⟨above, ⟨parent, entries, found, same ▸ present⟩, (nameHeld?_of_entryMoved? moved).2⟩
  · rintro ⟨above, here, other⟩
    have only := fun name held => once above name oldName held here
    obtain ⟨parent, entries, found, present⟩ := here
    have held := nameHeld?_of_once distinct only found present there
    have notNew : (oldName != name) = true := bne_iff_ne.mpr other
    refine ⟨parent, entries, ?_⟩
    simp only [entryMoved?, above, found, held, Option.bind_eq_bind, Option.bind_some,
      Option.filter_some, notNew, if_true, Option.pure_def]

theorem entriesAt_revised (directory : NodeRef) :
    (tree.modifyNode target fun node => node.revised stat newName clock).entriesAt directory =
      tree.entriesAt directory := by
  rw [entriesAt_eq, entriesAt_eq]
  refine valueAt_modifyNode_of_same fun node => ?_
  exact congrArg Outline.entries (Node.outline_revised node stat newName clock)

/-- A metadata write that moves no entry leaves all names of entries as they were. -/
theorem nameIn?_revised (directory other : NodeRef) :
    (tree.modifyNode target fun node => node.revised stat newName clock).nameIn? directory other =
      tree.nameIn? directory other := by
  refine nameIn?_congr (fun ref => ?_) (entriesAt_revised directory) other
  exact number_modifyNode fun _ => rfl

/-- A metadata write that moves an entry gives it another name, and leaves the entries of other
directories alone. -/
theorem nameIn?_moved {after : Tree}
    (numbers : ∀ ref, (after.node? ref).map Node.id = (tree.node? ref).map Node.id)
    (there : tree.node? target = some node)
    (moved : tree.entryMoved? target node name = some (parentRef, parent, entries, oldName))
    (rebound : ∀ ref, after.entriesAt ref =
      if ref = parentRef then entries.move oldName name else tree.entriesAt ref)
    (directory : NodeRef) :
    after.nameIn? directory target = tree.nameIn? directory target ↔ directory ≠ parentRef := by
  obtain ⟨-, found, child, -, present, -⟩ := entryMoved?_eq_some moved
  obtain ⟨held, other⟩ := nameHeld?_of_entryMoved? moved
  by_cases here : directory = parentRef
  · subst here
    refine iff_of_false ?_ fun apart => apart rfl
    intro same
    obtain ⟨outlineThere, -, sameEntries⟩ := outline?_of_directory? found
    have earlier : tree.nameIn? directory target = some oldName := by
      rw [nameIn?, there, Option.bind_some, entriesAt_of_outline? outlineThere, sameEntries, held]
    -- The old name is free after the move.
    obtain ⟨_, -, still⟩ := Option.bind_eq_some_iff.mp (same.trans earlier)
    rw [rebound, if_pos rfl] at still
    obtain ⟨_, stillPresent, -⟩ := Entries.find?_of_nameOf?_eq_some still
    rw [Entries.find?_move present, if_neg other, if_pos rfl] at stillPresent
    cases stillPresent
  · refine iff_of_true (nameIn?_congr numbers ?_ target) here
    rw [rebound, if_neg here]

theorem nameIn?_rekeyed (stat : Stat) (clock later : Clock) (newName : Option String)
    (there : tree.node? target = some node)
    (moved : tree.entryMoved? target node name = some (parentRef, parent, entries, oldName))
    (directory : NodeRef) :
    ((tree.modifyNode target fun node => node.revised stat newName clock).modifyNode parentRef
        fun parent => (parent.withEntries (entries.move oldName name)).mutated later).nameIn?
      directory target = tree.nameIn? directory target ↔ directory ≠ parentRef := by
  have parentThere := isSome_of_directory? (entryMoved?_eq_some moved).2.1
  refine nameIn?_moved ?_ there moved ?_ directory
  · intro ref
    refine Eq.trans (number_modifyNode ?_) (number_modifyNode ?_)
    · exact fun _ => rfl
    · exact fun _ => rfl
  · intro ref
    have revised : (tree.modifyNode target fun node =>
        node.revised stat newName clock).entriesAt ref = tree.entriesAt ref := entriesAt_revised ref
    rw [← revised, entriesAt_eq, entriesAt_eq]
    refine valueAt_modifyNode (fun _ => entries.move oldName name) ?_ ?_
    · rw [isSome_node?_modifyNode, parentThere]
    · exact fun _ => rfl

end MetadataWrites

/-! ## One operation -/

theorem Operation.mutations_of_portion? {operation : Operation} {after : Tree}
    {session : SessionRef} {count : Nat}
    (reads : operation.portion? tree = some (session, count)) (ref : NodeRef)
    (ending : Ending Answer) : operation.mutations tree after ref ending = 0 := by
  cases operation with
  | read | readAll => cases ending <;> rfl
  | _ => cases reads

theorem version_newChild (parent : NodeRef) (directory : Node) (name : String) (requested : Mode)
    (now : UInt32) (id : UInt64) :
    (newChild parent directory name requested now id).version = 0 := by
  unfold newChild
  split <;> rfl

section OneOperation

variable {setting : Setting} {operation : Operation} {outcome : Outcome Answer} {ref : NodeRef}

/-- An operation adds to the version of each node as many as the mutations of it that it was. -/
theorem Effect.version (effect : Effect tree setting operation outcome)
    (stays : (tree.node? ref).isSome = true → (outcome.tree.node? ref).isSome = true) :
    outcome.tree.valueAt Node.version 0 ref =
      tree.valueAt Node.version 0 ref
        + .ofNat (operation.mutations tree outcome.tree ref outcome.ending) := by
  have untouched : ∀ {version : UInt32}, version = tree.valueAt Node.version 0 ref →
      version = tree.valueAt Node.version 0 ref + .ofNat 0 :=
    fun same => same.trans (UInt32.add_zero _).symm
  cases effect with
  | refused | stalled => exact untouched rfl
  | madeFile | madeDirectory =>
      exact untouched ((valueAt_congr (node?_hold _ _ _)).trans (valueAt_addNode fun _ => rfl))
  | held node => exact untouched (valueAt_congr (node?_hold tree node ref))
  | letGo node =>
      have thinned := (swept_sweep { tree with held := tree.held.erase node }).toThinned
      exact untouched (thinned.valueAt_eq stays)
  | attached target parent => exact untouched (valueAt_attach (fun _ _ => rfl) target parent)
  | @created directory node _ user name requested found valid granted free =>
      have there := node?_addNode_of_some (directory?_eq_some_iff.mp found).1
        (newChild directory node name requested setting.clock.now)
      have new := version_newChild directory node name requested setting.clock.now
      exact version_modifyNode 1 (valueAt_addNode new) (isSome_of_node? there) fun _ => rfl
  | @added directory graft _ node _ name found graftThere valid unmet free =>
      have there := isSome_of_directory? found
      refine version_modifyNode 1 ?_ ?_ fun _ => rfl
      · exact valueAt_modifyNode_of_same fun _ => rfl
      · rw [isSome_node?_modifyNode, there]
  | @renamed directory child _ _ user old new found valid granted present free =>
      have there := isSome_of_directory? found
      refine version_modifyNode 1 ?_ ?_ fun _ => rfl
      · exact valueAt_modifyNode_of_same fun _ => rfl
      · rw [isSome_node?_modifyNode, there]
  | @removed directory child _ _ user name found granted present removable =>
      have there := isSome_of_directory? found
      refine ((swept_sweep _).toThinned.valueAt_eq fun kept => stays ?_).trans ?_
      · exact (isSome_node?_modifyNode directory _ ref).symm.trans kept
      · exact version_modifyNode 1 rfl there fun _ => rfl
  | walked user name found granted =>
      exact untouched (valueAt_modifyNode_of_same fun _ => rfl)
  | resolved user path ending walked =>
      have unmoved : Operation.mutations (.resolve user path) tree
          (tree.touchAll setting.clock walked) ref ending = 0 := by
        cases ending <;> rfl
      rw [unmoved]
      exact untouched (valueAt_touchAll (fun _ _ => rfl) walked)
  | @revised target _ newName stat there wanted fits unmoved =>
      have names : (tree.modifyNode target fun node =>
          node.revised stat newName setting.clock).nameIn? ref target = tree.nameIn? ref target :=
        nameIn?_revised ref target
      refine (version_modifyNode 1 rfl (isSome_of_node? there) fun _ => rfl).trans ?_
      rw [Operation.mutations, if_pos names]
      rfl
  | @rekeyed target parentRef node _ entries oldName newName stat there wanted fits moved free =>
      have parentThere := isSome_of_directory? (entryMoved?_eq_some moved).2.1
      have names := nameIn?_rekeyed stat setting.clock (node.clockAfter setting.clock)
        (some newName) there moved ref
      refine (version_modifyNode 1 (version_modifyNode 1 rfl (isSome_of_node? there) ?_) ?_
        fun _ => rfl).trans ?_
      · exact fun _ => rfl
      · rw [isSome_node?_modifyNode, parentThere]
      · rw [Operation.mutations, UInt32.ofNat_add, ← UInt32.add_assoc]
        by_cases here : ref = parentRef
        · rw [if_pos here, if_neg fun same => names.mp same here]
        · rw [if_neg here, if_pos (names.mpr here)]
  | @openedFile target node _ user request there isFile granted =>
      refine (version_modifyNode (if request.truncates && request.wantsWrite then 1 else 0) rfl
        (isSome_of_node? there) ?_).trans ?_
      · intro node
        split
        · rfl
        · exact (UInt32.add_zero _).symm
      · rw [Operation.mutations]
        by_cases here : ref = target
        · subst here
          have file : (tree.node? ref).any (fun node => decide (node.kind = .file)) = true := by
            rw [there, Option.any_some, Node.kind, isFile]
            rfl
          simp only [file, Bool.and_eq_true, true_and, if_true]
        · rw [if_neg here, if_neg fun asked => here asked.1]
  | @openedDirectory target node _ user request there isDirectory granted =>
      rw [Operation.mutations, if_neg]
      · exact untouched (valueAt_modifyNode_of_same fun _ => rfl)
      · rintro ⟨here, isFile, -⟩
        rw [here, there, Option.any_some, Node.kind, isDirectory] at isFile
        cases of_decide_eq_true isFile
  | soughtFile offset origin isOpen isFile leads within =>
      exact untouched (valueAt_modifyNode_of_same fun _ => rfl)
  | rewound offset origin isOpen isDirectory leads listed =>
      exact untouched (valueAt_modifyNode_of_same fun _ => rfl)
  | stayed offset origin isOpen isDirectory leads beyond =>
      exact untouched (valueAt_modifyNode_of_same fun _ => rfl)
  | readContent reads isOpen isFile =>
      rw [Operation.mutations_of_portion? reads]
      exact untouched (valueAt_modifyNode_of_same fun _ => rfl)
  | readSnapshot reads isOpen isDirectory taken =>
      rw [Operation.mutations_of_portion? reads]
      exact untouched (valueAt_modifyNode_of_same fun _ => rfl)
  | readFresh reads isOpen isDirectory untaken listed =>
      rw [Operation.mutations_of_portion? reads]
      exact untouched (valueAt_modifyNode_of_same fun _ => rfl)
  | @written sessionRef session nodeRef _ _ user data isOpen isFile ofUser =>
      have onNode : (tree.session? sessionRef).bind Session.node = some nodeRef := by
        rw [isOpen.kept, Option.bind_some, isOpen.onNode]
      refine (version_modifyNode 1 rfl (isSome_of_node? isOpen.there) fun _ => rfl).trans ?_
      rw [Operation.mutations, onNode]
      simp only [Option.some.injEq, eq_comm]
  | closed isOpen | droppedOpen isOpen =>
      refine untouched ((valueAt_release stays).trans ?_)
      exact valueAt_modifyNode_of_same fun _ => rfl
  | droppedClosed sessionRef notOpen => exact untouched rfl

/-- Nothing is a mutation of a node that is not there. -/
theorem Effect.mutations_of_missing (effect : Effect tree setting operation outcome)
    (missing : tree.node? ref = none) :
    operation.mutations tree outcome.tree ref outcome.ending = 0 := by
  have apart : ∀ {target : NodeRef} {node : Node}, tree.node? target = some node →
      ref ≠ target := by
    intro target node there same
    rw [same, there] at missing
    cases missing
  cases effect with
  | refused | stalled | madeFile | madeDirectory | held | letGo | attached | walked | soughtFile
  | rewound | stayed | closed | droppedOpen | droppedClosed => rfl
  | resolved user path ending => cases ending <;> rfl
  | readContent reads | readSnapshot reads | readFresh reads =>
      exact Operation.mutations_of_portion? reads ref _
  | created _ _ _ found | added _ found | renamed _ _ _ found | removed _ _ found =>
      exact if_neg (apart (directory?_eq_some_iff.mp found).1)
  | @revised target _ newName stat there =>
      have names : (tree.modifyNode target fun node =>
          node.revised stat newName setting.clock).nameIn? ref target = tree.nameIn? ref target :=
        nameIn?_revised ref target
      rw [Operation.mutations, if_neg (apart there), if_pos names]
  | @rekeyed _ _ node _ _ _ newName stat there wanted fits moved free =>
      have found := (directory?_eq_some_iff.mp (entryMoved?_eq_some moved).2.1).1
      have names := nameIn?_rekeyed stat setting.clock (node.clockAfter setting.clock)
        (some newName) there moved ref
      rw [Operation.mutations, if_neg (apart there), if_pos (names.mpr (apart found))]
  | openedFile _ _ there | openedDirectory _ _ there =>
      exact if_neg fun asked => apart there asked.1
  | written data isOpen =>
      refine if_neg fun onNode => ?_
      rw [isOpen.kept, Option.bind_some, isOpen.onNode] at onNode
      exact apart isOpen.there (Option.some.inj onNode).symm

end OneOperation

end Tree

namespace World

/-! ## Runs -/

/-- How many mutations of a node the operations of a run were. -/
def mutations (ref : NodeRef) : World → List (Clock × Operation) → Nat
  | _, [] => 0
  | world, (clock, operation) :: rest =>
      operation.mutations world.tree (world.step clock operation).tree ref
          (world.outcome clock operation).ending
        + mutations ref (world.step clock operation) rest

variable {ref : NodeRef} {node : Node} {operations : List (Clock × Operation)}

/-- Nothing in a run is a mutation of a node that is made only later. -/
theorem mutations_of_unmade {world : World}
    (unmade : (world.run operations).tree.nodes.size ≤ ref.place) :
    world.mutations ref operations = 0 := by
  induction operations generalizing world with
  | nil => rfl
  | cons timed rest inductionHypothesis =>
      obtain ⟨clock, operation⟩ := timed
      have small := Nat.le_trans (size_le_run world ((clock, operation) :: rest)) unmade
      have missing : world.tree.node? ref = none := Arena.get?_eq_none_of_size_le small
      have effect := world.effect_outcome clock operation
      rw [mutations, inductionHypothesis unmade]
      exact effect.mutations_of_missing missing

/-- A run adds to the version of a node that outlives it as many as the mutations in it. -/
theorem version_run {world : World}
    (there : (world.run operations).tree.node? ref = some node) :
    (world.run operations).tree.valueAt Node.version 0 ref =
      world.tree.valueAt Node.version 0 ref + .ofNat (world.mutations ref operations) := by
  induction operations generalizing world with
  | nil => exact (UInt32.add_zero _).symm
  | cons timed rest inductionHypothesis =>
      obtain ⟨clock, operation⟩ := timed
      have effect := world.effect_outcome clock operation
      have first := effect.version (stays_of_run (Tree.isSome_of_node? there))
      rw [run_cons, inductionHypothesis there, mutations, UInt32.ofNat_add, ← UInt32.add_assoc]
      exact congrArg (· + _) first

/-- The version of a node is the number of its mutations since it was made, as far as it fits, and
it goes up with a mutation and with nothing else. -/
theorem version_eq_mutations (policy : Policy) (blueprint : Blueprint) (ids : IdSource)
    (start : UInt32) (operations : List (Clock × Operation))
    (there : ((fresh policy blueprint ids start).run operations).tree.node? ref = some node) :
    let world := (fresh policy blueprint ids start).run operations
    node.version = .ofNat ((fresh policy blueprint ids start).mutations ref operations) ∧
      (∀ front behind, operations = front ++ behind →
        ((fresh policy blueprint ids start).run front).tree.node? ref = none →
          (fresh policy blueprint ids start).mutations ref front = 0) ∧
      ∀ clock operation later, (world.step clock operation).tree.node? ref = some later →
        later.version = node.version + .ofNat (operation.mutations world.tree
          (world.step clock operation).tree ref (world.outcome clock operation).ending) := by
  intro world
  refine ⟨?_, ?_, ?_⟩
  · have counted := version_run there
    have initially : (fresh policy blueprint ids start).tree.valueAt Node.version 0 ref = 0 :=
      Tree.valueAt_ofRoot blueprint ids start fun _ => rfl
    rwa [initially, Tree.valueAt_of_node? there, UInt32.zero_add] at counted
  · intro front behind split missing
    rw [split, run, List.foldl_append, ← run, ← run] at there
    refine mutations_of_unmade (Nat.le_of_not_lt fun used => ?_)
    obtain ⟨earlier, earlierThere⟩ := exists_node_of_run there used
    rw [missing] at earlierThere
    cases earlierThere
  · intro clock operation later laterThere
    have effect := world.effect_outcome clock operation
    have counted := effect.version fun _ => Tree.isSome_of_node? laterThere
    have before : world.tree.valueAt Node.version 0 ref = node.version :=
      Tree.valueAt_of_node? there
    have after : (world.step clock operation).tree.valueAt Node.version 0 ref = later.version :=
      Tree.valueAt_of_node? laterThere
    rw [← before, ← after]
    exact counted

/-- A file is created, emptied, written to with nothing, and given another name by a metadata write,
which moves its entry, and the same name again, which does not. Then a rename fails. -/
def mutatedFile : List (Clock × Operation) :=
  [(1, .create ⟨0⟩ "o" "f" ⟨0o644⟩), (2, .openSession ⟨1⟩ "o" ⟨0x11⟩), (3, .write ⟨0⟩ []),
    (4, .writeMetadata ⟨1⟩ renamed), (5, .writeMetadata ⟨1⟩ renamed),
    (6, .rename ⟨0⟩ "o" "f" "h")]
where
  renamed : Stat :=
    ⟨0, 0, ⟨.file, 0, 0⟩, ⟨0o644⟩, 0, 0, Stat.unchangedLength, "g", "o", "g", ""⟩

theorem version_of_mutatedFile :
    let start := fresh .allowAll ⟨"", ⟨0o755⟩, "o", "g"⟩ .sequential 0
    ∃ root file, ((start.run mutatedFile).tree.node? ⟨0⟩ = some root ∧
        (start.run mutatedFile).tree.node? ⟨1⟩ = some file) ∧
      root.version = 2 ∧ file.version = 4 := by
  intro start
  have bothThere : ((start.run mutatedFile).tree.node? ⟨0⟩).isSome = true ∧
      ((start.run mutatedFile).tree.node? ⟨1⟩).isSome = true := by decide +kernel
  obtain ⟨root, rootThere⟩ := Option.isSome_iff_exists.mp bothThere.1
  obtain ⟨file, fileThere⟩ := Option.isSome_iff_exists.mp bothThere.2
  have rootCount : start.mutations ⟨0⟩ mutatedFile = 2 := by decide +kernel
  have fileCount : start.mutations ⟨1⟩ mutatedFile = 4 := by decide +kernel
  have rootVersion := (version_eq_mutations .allowAll ⟨"", ⟨0o755⟩, "o", "g"⟩ .sequential 0
    mutatedFile rootThere).1
  have fileVersion := (version_eq_mutations .allowAll ⟨"", ⟨0o755⟩, "o", "g"⟩ .sequential 0
    mutatedFile fileThere).1
  refine ⟨root, file, ⟨rootThere, fileThere⟩, ?_, ?_⟩
  · rw [rootVersion, rootCount]
    rfl
  · rw [fileVersion, fileCount]
    rfl

end World

end MemFs
