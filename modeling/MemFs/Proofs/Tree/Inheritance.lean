import MemFs.Proofs.Access.Mode
import MemFs.Proofs.Access.Rights
import MemFs.Proofs.Tree.Address

/-!
# What nodes inherit

A directory gives what is created in it its owner and group, and no permission that it does not have
itself, but for the execution of files. As long as nothing is made elsewhere and put into the tree
and no metadata is written, all nodes have the owner and the group of the root, and permissions only
get fewer on the way down, whatever is renamed and removed.
-/

namespace MemFs

/-- The permissions of a new node of this kind that are limited to those of its directory. -/
def Kind.inheritedMask : Kind → UInt32
  | .file => Mode.readWriteMask
  | .directory => Mode.permissionMask

theorem Kind.inheritedMask_and (kind : Kind) :
    kind.inheritedMask &&& Mode.permissionMask = kind.inheritedMask := by
  cases kind <;> rfl

/-- An operation that makes nodes in directories only, puts nothing else into a directory, and
leaves parent links and metadata alone. -/
def Operation.isInternal : Operation → Bool
  | .makeFile _ _ | .makeDirectory _ | .attach _ _ | .add _ _ _ | .writeMetadata _ _ => false
  | _ => true

theorem Operation.keepsParents_of_isInternal {operation : Operation}
    (isInternal : operation.isInternal = true) : operation.keepsParents = true := by
  cases operation with
  | attach | add => cases isInternal
  | _ => rfl

/-! ## What a directory creates -/

namespace Rights

variable (directory : Node) (name : String) (requested : Mode)

theorem kind_ofChild :
    (ofChild directory name requested).kind =
      if requested.isDirectory then .directory else .file := by
  unfold ofChild
  split <;> rfl

theorem owner_ofChild : (ofChild directory name requested).owner = directory.owner := by
  unfold ofChild
  split <;> rfl

theorem group_ofChild : (ofChild directory name requested).group = directory.group := by
  unfold ofChild
  split <;> rfl

/-- A new mode is limited by the directory, on the mask for its kind. -/
theorem ofChild_isBelow_directory :
    let rights := ofChild directory name requested
    Mode.IsBelow rights.kind.inheritedMask rights.mode directory.mode := by
  unfold ofChild Tree.inherited
  split
  · have flagged := Mode.asDirectory_isBelow (requested.clip Mode.permissionMask directory.mode)
    exact flagged.trans (Mode.isBelow_clip requested directory.mode _)
  · exact Mode.isBelow_clip requested directory.mode _

/-- A new mode has no permissions that were not requested. -/
theorem ofChild_isBelow_requested :
    Mode.IsBelow Mode.permissionMask (ofChild directory name requested).mode requested := by
  unfold ofChild Tree.inherited
  split
  · have flagged := Mode.asDirectory_isBelow (requested.clip Mode.permissionMask directory.mode)
    exact flagged.trans (Mode.clip_isBelow requested directory.mode _ _)
  · exact Mode.clip_isBelow requested directory.mode _ _

/-- A new file can be executed as requested. -/
theorem execute_ofChild (isFile : (ofChild directory name requested).kind = .file) :
    (ofChild directory name requested).mode.bits &&& Mode.executeMask =
      requested.bits &&& Mode.executeMask := by
  rw [kind_ofChild] at isFile
  unfold ofChild Tree.inherited
  split
  · rename_i isDirectory
    rw [if_pos isDirectory] at isFile
    cases isFile
  · exact Mode.clip_and_of_apart requested directory.mode (by decide)

end Rights

namespace Tree

variable {tree : Tree} {setting : Setting} {operation : Operation}

/-- Below a root with these rights, all nodes have its owner and group, and none has a permission
that it should not have inherited. -/
structure IsNarrowed (tree : Tree) (top : Rights) : Prop where
  root : ∃ node, tree.node? tree.root = some node ∧ node.rights = top
  owner : ∀ ref node, tree.node? ref = some node → node.owner = top.owner
  group : ∀ ref node, tree.node? ref = some node → node.group = top.group
  belowRoot : ∀ ref node, tree.node? ref = some node →
    Mode.IsBelow node.kind.inheritedMask node.mode top.mode
  belowHolder : ∀ outer inner outerNode innerNode, tree.Owns outer inner →
    tree.node? outer = some outerNode → tree.node? inner = some innerNode →
      Mode.IsBelow innerNode.kind.inheritedMask innerNode.mode outerNode.mode

/-- Below a directory means below all directories above it as well. -/
theorem IsNarrowed.belowAll {top : Rights} (narrowed : tree.IsNarrowed top)
    {upper lower : NodeRef} (above : Relation.TransGen tree.Owns upper lower)
    {upperNode lowerNode : Node} (upperThere : tree.node? upper = some upperNode)
    (lowerThere : tree.node? lower = some lowerNode) :
    Mode.IsBelow lowerNode.kind.inheritedMask lowerNode.mode upperNode.mode := by
  induction above generalizing lowerNode with
  | single owned => exact narrowed.belowHolder _ _ _ _ owned upperThere lowerThere
  | @tail middle lower _ owned inductionHypothesis =>
      obtain ⟨name, middleNode, entries, found, bound⟩ := owned
      have middleThere := (directory?_eq_some_iff.mp found).1
      have isDirectory := kind_of_directory? found middleThere
      have farther := inductionHypothesis middleThere
      rw [isDirectory] at farther
      have nearer := narrowed.belowHolder _ _ _ _ ⟨name, middleNode, entries, found, bound⟩
        middleThere lowerThere
      exact nearer.trans (farther.mono (Kind.inheritedMask_and _))

section OneOperation

variable {top : Rights} {ref : NodeRef}

theorem Operation.not_writeMetadata_of_isInternal (isInternal : operation.isInternal = true)
    (stat : Stat) : operation ≠ .writeMetadata ref stat := by
  rintro rfl
  cases isInternal

/-- What an internal operation adds to the nodes has the rights of what a directory creates. -/
theorem Effect.rights_created {outcome : Outcome Answer}
    (effect : Effect tree setting operation outcome) (isInternal : operation.isInternal = true)
    (missing : tree.node? ref = none) {node : Node} (there : outcome.tree.node? ref = some node) :
    ∃ directory holder entries user name requested,
      operation = .create directory user name requested ∧
        tree.directory? directory = some (holder, entries) ∧
        node.rights = .ofChild holder name requested := by
  obtain ⟨made, -⟩ := effect.made missing there
  cases made with
  | file | directory => cases isInternal
  | child user name requested id found =>
      exact ⟨_, _, _, user, name, requested, rfl, found, rights_newChild _ _ _ _ _ _⟩

section Kept

variable (isInternal : operation.isInternal = true)

include isInternal

/-- An internal operation leaves the rights of all nodes alone. -/
theorem rights_internal {node later : Node} (there : tree.node? ref = some node)
    (stays : (tree.perform setting operation).tree.node? ref = some later) :
    later.rights = node.rights :=
  rights_perform (Operation.not_writeMetadata_of_isInternal isInternal) there stays

/-- What holds of the rights of all nodes and of all that directories create holds after an internal
operation. -/
theorem forall_rights_internal (holds : Rights → Prop)
    (old : ∀ ref node, tree.node? ref = some node → holds node.rights)
    (new : ∀ ref holder name requested, tree.node? ref = some holder → holder.kind = .directory →
      holds (.ofChild holder name requested)) {later : Node}
    (stays : (tree.perform setting operation).tree.node? ref = some later) :
    holds later.rights := by
  cases there : tree.node? ref with
  | some node =>
      rw [rights_internal isInternal there stays]
      exact old ref node there
  | none =>
      obtain ⟨directory, holder, entries, user, name, requested, -, found, rights⟩ :=
        (effect_perform tree setting operation).rights_created isInternal there stays
      have holderThere := (directory?_eq_some_iff.mp found).1
      rw [rights]
      exact new directory holder name requested holderThere (kind_of_directory? found holderThere)

/-- A directory that owns a node after an internal operation owned it before, or created it. -/
theorem owns_internal (sound : tree.IsSound) {outer inner : NodeRef}
    {outerLater innerLater : Node}
    (owned : (tree.perform setting operation).tree.Owns outer inner)
    (outerStays : (tree.perform setting operation).tree.node? outer = some outerLater)
    (innerStays : (tree.perform setting operation).tree.node? inner = some innerLater) :
    ∃ outerNode, tree.node? outer = some outerNode ∧ outerLater.rights = outerNode.rights ∧
      ((∃ innerNode, tree.Owns outer inner ∧ tree.node? inner = some innerNode ∧
          innerLater.rights = innerNode.rights) ∨
        ∃ name requested, innerLater.rights = .ofChild outerNode name requested) := by
  have effect := effect_perform tree setting operation
  rcases (effect.rebound sound.child).owns_earlier owned with old | ⟨name, asked⟩
  · have whole := old
    obtain ⟨name, outerNode, entries, found, bound⟩ := old
    obtain ⟨outline, outlineThere⟩ :=
      sound.child outer name inner ⟨outerNode, entries, found, bound⟩
    obtain ⟨innerNode, innerThere, -⟩ := Option.map_eq_some_iff.mp outlineThere
    have outerThere := (directory?_eq_some_iff.mp found).1
    exact ⟨outerNode, outerThere, rights_internal isInternal outerThere outerStays,
      Or.inl ⟨innerNode, whole, innerThere, rights_internal isInternal innerThere innerStays⟩⟩
  · rcases Operation.bind_of_rebound? asked with ⟨user, requested, rfl, answer⟩ | rfl
    · obtain ⟨missing, -⟩ := effect.new_of_made rfl answer
      obtain ⟨_, holder, entries, _, _, _, same, found, rights⟩ :=
        effect.rights_created isInternal missing innerStays
      cases same
      have outerThere := (directory?_eq_some_iff.mp found).1
      exact ⟨holder, outerThere, rights_internal isInternal outerThere outerStays,
        Or.inr ⟨name, requested, rights⟩⟩
    · cases isInternal

theorem IsNarrowed.perform (narrowed : tree.IsNarrowed top) (sound : tree.IsSound)
    (rooted : (tree.perform setting operation).tree.IsRooted) :
    (tree.perform setting operation).tree.IsNarrowed top := by
  have effect := effect_perform tree setting operation
  constructor
  · obtain ⟨root, there, rights⟩ := narrowed.root
    obtain ⟨outline, outlineThere, -⟩ := rooted.top
    obtain ⟨later, stays, -⟩ := Option.map_eq_some_iff.mp outlineThere
    rw [← effect.reshaped.root_eq] at there
    exact ⟨later, stays, (rights_internal isInternal there stays).trans rights⟩
  · intro ref later stays
    refine forall_rights_internal isInternal (·.owner = top.owner) narrowed.owner ?_ stays
    intro ref holder name requested there _
    rw [Rights.owner_ofChild]
    exact narrowed.owner ref holder there
  · intro ref later stays
    refine forall_rights_internal isInternal (·.group = top.group) narrowed.group ?_ stays
    intro ref holder name requested there _
    rw [Rights.group_ofChild]
    exact narrowed.group ref holder there
  · intro ref later stays
    refine forall_rights_internal isInternal
      (fun rights => Mode.IsBelow rights.kind.inheritedMask rights.mode top.mode)
      narrowed.belowRoot ?_ stays
    intro ref holder name requested there isDirectory
    have farther := narrowed.belowRoot ref holder there
    rw [isDirectory] at farther
    have nearer := Rights.ofChild_isBelow_directory holder name requested
    exact nearer.trans (farther.mono (Kind.inheritedMask_and _))
  · intro outer inner outerLater innerLater owned outerStays innerStays
    obtain ⟨outerNode, outerThere, sameOuter, earlier⟩ :=
      owns_internal isInternal sound owned outerStays innerStays
    have goal : Mode.IsBelow innerLater.rights.kind.inheritedMask innerLater.rights.mode
        outerLater.rights.mode := by
      rw [sameOuter]
      rcases earlier with ⟨innerNode, old, innerThere, sameInner⟩ | ⟨name, requested, rights⟩
      · rw [sameInner]
        exact narrowed.belowHolder outer inner outerNode innerNode old outerThere innerThere
      · rw [rights]
        exact Rights.ofChild_isBelow_directory outerNode name requested
    exact goal

end Kept

end OneOperation

theorem isNarrowed_ofRoot (blueprint : Blueprint) (ids : IdSource) (now : UInt32) :
    (ofRoot blueprint ids now).IsNarrowed
      ⟨.directory, blueprint.owner, blueprint.group, blueprint.mode.asDirectory⟩ := by
  constructor
  · exact ⟨_, rfl, rfl⟩
  · intro ref node there
    rw [eq_of_node?_ofRoot there]
    rfl
  · intro ref node there
    rw [eq_of_node?_ofRoot there]
    rfl
  · intro ref node there
    rw [eq_of_node?_ofRoot there]
    exact Mode.IsBelow.refl _ _
  · intro outer inner _ _ owned
    exact absurd owned (not_owns_ofRoot blueprint ids now outer inner)

end Tree

namespace World

variable {world : World} {operations : List (Clock × Operation)} {ref : NodeRef}

/-- Internal operations leave the rights of a node alone. -/
theorem rights_run (isInternal : ∀ timed ∈ operations, timed.2.isInternal = true)
    {node later : Node} (there : world.tree.node? ref = some node)
    (laterThere : (world.run operations).tree.node? ref = some later) :
    later.rights = node.rights := by
  induction operations generalizing world node with
  | nil =>
      cases there.symm.trans laterThere
      rfl
  | cons timed rest inductionHypothesis =>
      obtain ⟨here, further⟩ := List.forall_mem_cons.mp isInternal
      have stays := stays_of_run (Tree.isSome_of_node? laterThere) (Tree.isSome_of_node? there)
      obtain ⟨next, nextThere⟩ := Option.isSome_iff_exists.mp stays
      have same := Tree.rights_internal here there nextThere
      exact (inductionHypothesis further nextThere laterThere).trans same

/-- In a run of internal operations, what was created is still as it was requested, within what its
directory allowed. -/
theorem rights_of_created {front behind : List (Clock × Operation)} {clock : Clock}
    {directory : NodeRef} {user name : String} {requested : Mode}
    (isInternal : ∀ timed ∈ behind, timed.2.isInternal = true)
    (answer : ((world.run front).outcome clock (.create directory user name requested)).ending =
      .ok (.node (some ref)))
    {node : Node}
    (there : (world.run (front ++ (clock, .create directory user name requested) :: behind)).tree.node?
      ref = some node) :
    ∃ holder, node.rights = .ofChild holder name requested := by
  have effect := (world.run front).effect_outcome clock (.create directory user name requested)
  obtain ⟨missing, stays⟩ := effect.new_of_made rfl answer
  obtain ⟨made, madeThere⟩ := Option.isSome_iff_exists.mp stays
  obtain ⟨_, holder, _, _, _, _, same, -, rights⟩ := effect.rights_created rfl missing madeThere
  cases same
  rw [run_append] at there
  exact ⟨holder, (rights_run isInternal madeThere there).trans rights⟩

/-- As long as nodes are only created and metadata is never written, access only gets narrower from
the root down: a directory has no permission that a directory above it lacks, and a file none to
read or write. What was created has no permission that was not requested, and a file those to
execute that were. All nodes have the owner and the group of the root. -/
theorem access_narrows (policy : Policy) (blueprint : Blueprint) (ids : IdSource) (start : UInt32)
    {operations : List (Clock × Operation)}
    (isInternal : ∀ timed ∈ operations, timed.2.isInternal = true) :
    let initial := fresh policy blueprint ids start
    let tree := (initial.run operations).tree
    ∃ root, tree.node? tree.root = some root ∧
      root.rights =
        ⟨.directory, blueprint.owner, blueprint.group, blueprint.mode.asDirectory⟩ ∧
      (∀ ref node, tree.node? ref = some node →
        node.owner = root.owner ∧ node.group = root.group ∧
          Mode.IsBelow node.kind.inheritedMask node.mode root.mode) ∧
      (∀ upper lower upperNode lowerNode, Relation.TransGen tree.Owns upper lower →
        tree.node? upper = some upperNode → tree.node? lower = some lowerNode →
          Mode.IsBelow lowerNode.kind.inheritedMask lowerNode.mode upperNode.mode) ∧
      ∀ front clock directory user name requested behind ref node,
        operations = front ++ (clock, .create directory user name requested) :: behind →
        ((initial.run front).outcome clock (.create directory user name requested)).ending =
          .ok (.node (some ref)) →
        tree.node? ref = some node →
          node.kind = (if requested.isDirectory then .directory else .file) ∧
          Mode.IsBelow Mode.permissionMask node.mode requested ∧
          (node.kind = .file →
            node.mode.bits &&& Mode.executeMask = requested.bits &&& Mode.executeMask) := by
  intro initial tree
  have respected : initial.Respects (fun _ operation => operation.isInternal = true) operations :=
    respects_of_forall_mem (fun timed member _ => isInternal timed member) initial
  let top : Rights :=
    ⟨.directory, blueprint.owner, blueprint.group, blueprint.mode.asDirectory⟩
  obtain ⟨-, -, narrowed⟩ : tree.IsRooted ∧ tree.IsSound ∧ tree.IsNarrowed top := by
    refine run_induction (fun tree => tree.IsRooted ∧ tree.IsSound ∧ tree.IsNarrowed top) ?_
      ⟨Tree.isRooted_ofRoot blueprint ids start, Tree.isSound_ofRoot blueprint ids start,
        Tree.isNarrowed_ofRoot blueprint ids start⟩ respected
    rintro earlier setting operation ⟨rooted, sound, narrowed⟩ isInternal
    have plain := Operation.isPlainBelow_of_keepsParents
      (Operation.keepsParents_of_isInternal isInternal) earlier
    have later := rooted.perform setting plain
    exact ⟨later, sound.perform setting operation, narrowed.perform isInternal sound later⟩
  obtain ⟨root, rootThere, rights⟩ := narrowed.root
  refine ⟨root, rootThere, rights, ?_, ?_, ?_⟩
  · intro ref node there
    rw [show root.owner = blueprint.owner from congrArg Rights.owner rights,
      show root.group = blueprint.group from congrArg Rights.group rights,
      show root.mode = blueprint.mode.asDirectory from congrArg Rights.mode rights]
    exact ⟨narrowed.owner ref node there, narrowed.group ref node there,
      narrowed.belowRoot ref node there⟩
  · exact fun upper lower _ _ above upperThere lowerThere =>
      narrowed.belowAll above upperThere lowerThere
  · rintro front clock directory user name requested behind ref node rfl answer there
    have later := (List.forall_mem_cons.mp (List.forall_mem_append.mp isInternal).2).2
    obtain ⟨holder, rights⟩ := rights_of_created later answer there
    have kind : node.kind = (Rights.ofChild holder name requested).kind :=
      congrArg Rights.kind rights
    have mode : node.mode = (Rights.ofChild holder name requested).mode :=
      congrArg Rights.mode rights
    rw [kind, mode]
    exact ⟨Rights.kind_ofChild holder name requested,
      Rights.ofChild_isBelow_requested holder name requested,
      Rights.execute_ofChild holder name requested⟩

/-- A directory and a file in it are created with more permissions than there are to inherit, and
the directory gets another name. -/
def createdDeep : List (Clock × Operation) :=
  [(1, .create ⟨0⟩ "o" "d" (.ofDirectory 0o777)), (2, .create ⟨1⟩ "u" "f" ⟨0o777⟩),
    (3, .rename ⟨0⟩ "o" "d" "e"), (4, .openSession ⟨2⟩ "u" ⟨0⟩)]

theorem access_narrows_createdDeep :
    let tree := ((fresh .allowAll ⟨"", ⟨0o750⟩, "o", "g"⟩ .sequential 0).run createdDeep).tree
    (∀ timed ∈ createdDeep, timed.2.isInternal = true) ∧
    ∃ root file, tree.node? ⟨0⟩ = some root ∧ tree.node? ⟨2⟩ = some file ∧
      file.mode = ⟨0o751⟩ ∧ file.owner = "o" ∧
      Mode.IsBelow Mode.readWriteMask file.mode root.mode ∧
      file.mode.bits &&& Mode.executeMask = 0o111 := by
  intro tree
  have isInternal : ∀ timed ∈ createdDeep, timed.2.isInternal = true := by decide
  obtain ⟨root, rootThere, rights, family, above, created⟩ :=
    access_narrows .allowAll ⟨"", ⟨0o750⟩, "o", "g"⟩ .sequential 0 isInternal
  have fileThere : ∃ file, tree.node? ⟨2⟩ = some file ∧ file.mode = ⟨0o751⟩ ∧
      file.kind = .file := ⟨_, rfl, rfl, rfl⟩
  obtain ⟨file, there, mode, isFile⟩ := fileThere
  have outer : tree.Owns ⟨0⟩ ⟨1⟩ := ⟨"e", _, _, rfl, rfl⟩
  have inner : tree.Owns ⟨1⟩ ⟨2⟩ := ⟨"f", _, _, rfl, rfl⟩
  have below := above ⟨0⟩ ⟨2⟩ root file (.tail (.single outer) inner) rootThere there
  rw [isFile] at below
  obtain ⟨-, -, executed⟩ := created [(1, .create ⟨0⟩ "o" "d" (.ofDirectory 0o777))] 2 ⟨1⟩ "u" "f"
    ⟨0o777⟩ [(3, .rename ⟨0⟩ "o" "d" "e"), (4, .openSession ⟨2⟩ "u" ⟨0⟩)] ⟨2⟩ file rfl rfl there
  refine ⟨isInternal, root, file, rootThere, there, mode, ?_, below, executed isFile⟩
  exact (family ⟨2⟩ file there).1.trans (congrArg Rights.owner rights)

end World

end MemFs
