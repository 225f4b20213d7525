import MemFs.Proofs.Name
import MemFs.Proofs.Tree.Perform
import MemFs.Proofs.Tree.Sweep

/-!
# What an operation does to the namespace

`Reshaped` is the view that the namespace has of an operation: how the outlines of the nodes
afterwards come from those before. The many operations that touch no outline are one case of it.
-/

namespace MemFs.Tree

/-- No place and no number was used up between two trees. -/
structure SameStore (before after : Tree) : Prop where
  root : after.root = before.root
  size : after.nodes.size = before.nodes.size
  ids : after.ids = before.ids

/-- One place and one number were used up between two trees. -/
structure Grown (before after : Tree) : Prop where
  root : after.root = before.root
  size : after.nodes.size = before.nodes.size + 1
  ids : after.ids = before.ids.next.2

/-- What the namespace sees of an operation. -/
inductive Reshaped (before after : Tree) : Operation → Prop
  | kept {operation : Operation} (store : SameStore before after)
      (outlines : ∀ ref, after.outline? ref = before.outline? ref) :
      Reshaped before after operation
  | swept {operation : Operation} {middle : Tree} (store : SameStore before middle)
      (outlines : ∀ ref, middle.outline? ref = before.outline? ref)
      (thinned : Thinned middle after) :
      Reshaped before after operation
  | made {operation : Operation} {node : Outline} (store : Grown before after)
      (numbered : node.id = before.ids.next.1)
      (bare : node.entries = .empty) (orphan : node.parent = none)
      (outlines : ∀ ref, after.outline? ref =
        if ref = before.nextNode then some node else before.outline? ref) :
      Reshaped before after operation
  | attached {target parent : NodeRef} {above : Outline} (store : SameStore before after)
      (found : before.outline? parent = some above) (isDirectory : above.kind = .directory)
      (outlines : ∀ ref, after.outline? ref = (before.outline? ref).map fun outline =>
        { outline with parent := if ref = target then some parent else outline.parent }) :
      Reshaped before after (.attach target parent)
  | renamedAlone {target : NodeRef} {name : String} {stat : Stat}
      (store : SameStore before after) (valid : Name.isValid name = true)
      (unmoved : ∀ node, before.node? target = some node →
        before.entryMoved? target node name = none)
      (outlines : ∀ ref, after.outline? ref = (before.outline? ref).map fun outline =>
        { outline with name := if ref = target then name else outline.name }) :
      Reshaped before after (.writeMetadata target stat)
  | created {directory : NodeRef} {outer node : Outline} {user name : String} {requested : Mode}
      (store : Grown before after)
      (found : before.outline? directory = some outer) (isDirectory : outer.kind = .directory)
      (valid : Name.isValid name = true) (free : outer.entries.find? name = none)
      (numbered : node.id = before.ids.next.1) (named : node.name = name)
      (bare : node.entries = .empty) (inside : node.parent = some directory)
      (outlines : ∀ ref, after.outline? ref =
        if ref = before.nextNode then some node
        else (before.outline? ref).map fun outline =>
          { outline with
            entries :=
              if ref = directory then outer.entries.insert name before.nextNode
              else outline.entries }) :
      Reshaped before after (.create directory user name requested)
  | added {directory graft : NodeRef} {outer node : Outline} {name : String}
      (store : SameStore before after)
      (found : before.outline? directory = some outer) (isDirectory : outer.kind = .directory)
      (there : before.outline? graft = some node)
      (valid : Name.isValid name = true) (free : outer.entries.find? name = none)
      (unmet : node.kind = .directory → before.search directory graft = .missed)
      (outlines : ∀ ref, after.outline? ref = (before.outline? ref).map fun outline =>
        { outline with
          parent := if ref = graft then some directory else outline.parent
          entries :=
            if ref = directory then outer.entries.insert name graft else outline.entries }) :
      Reshaped before after (.add directory name graft)
  | moved {operation : Operation} {directory child target : NodeRef} {outer : Outline}
      {old new : String} (store : SameStore before after)
      (found : before.outline? directory = some outer) (isDirectory : outer.kind = .directory)
      (valid : Name.isValid new = true)
      (present : outer.entries.find? old = some child) (free : outer.entries.find? new = none)
      (sameNumber : (before.outline? target).map Outline.id =
        (before.outline? child).map Outline.id)
      (outlines : ∀ ref, after.outline? ref = (before.outline? ref).map fun outline =>
        { outline with
          name := if ref = target then new else outline.name
          entries :=
            if ref = directory then outer.entries.move old new else outline.entries }) :
      Reshaped before after operation
  | removed {directory child : NodeRef} {outer : Outline} {user name : String} {middle : Tree}
      (store : SameStore before middle)
      (found : before.outline? directory = some outer) (isDirectory : outer.kind = .directory)
      (present : outer.entries.find? name = some child)
      (removable : ∀ node, before.outline? child = some node → node.entries.isEmpty = true)
      (outlines : ∀ ref, middle.outline? ref = (before.outline? ref).map fun outline =>
        { outline with
          entries := if ref = directory then outer.entries.erase name else outline.entries })
      (thinned : Thinned middle after) :
      Reshaped before after (.remove directory user name)

/-! ## Elementary changes -/

variable (tree : Tree)

theorem sameStore_refl : SameStore tree tree := ⟨rfl, rfl, rfl⟩

theorem sameStore_modifyNode (ref : NodeRef) (change : Node → Node) :
    SameStore tree (tree.modifyNode ref change) :=
  ⟨rfl, Arena.size_modify tree.nodes ref.place change, rfl⟩

theorem sameStore_hold (ref : NodeRef) : SameStore tree (tree.hold ref) := by
  refine ⟨?_, ?_, ids_hold tree ref⟩
  · unfold hold
    cases tree.node? ref <;> rfl
  · rw [nodes_hold]

theorem grown_addNode (make : UInt64 → Node) : Grown tree (tree.addNode make) :=
  ⟨rfl, Arena.size_push tree.nodes _, rfl⟩

theorem SameStore.trans {first second third : Tree} (here : SameStore first second)
    (there : SameStore second third) : SameStore first third :=
  ⟨there.root.trans here.root, there.size.trans here.size, there.ids.trans here.ids⟩

theorem Grown.trans {first second third : Tree} (here : Grown first second)
    (there : SameStore second third) : Grown first third :=
  ⟨there.root.trans here.root, there.size.trans here.size, there.ids.trans here.ids⟩

theorem Thinned.forget {before after : Tree} (thinned : Thinned before after)
    (ref : SessionRef) : Thinned before (after.forget ref) :=
  { thinned with
    session := by
      intro other session kept
      rw [session?_forget] at kept
      split at kept
      · cases kept
      · exact thinned.session other session kept }

theorem outline?_congr_nodes {first second : Tree} (same : second.nodes = first.nodes)
    (ref : NodeRef) : second.outline? ref = first.outline? ref := by
  simp only [outline?, node?, same]

/-- A change acts on the outlines as it acts on the outline of the node it changes. -/
private theorem outlines_modifyNode {ref : NodeRef} {change : Node → Node}
    (effect : Outline → Outline)
    (acts : ∀ node, tree.node? ref = some node → (change node).outline = effect node.outline)
    (other : NodeRef) :
    (tree.modifyNode ref change).outline? other = (tree.outline? other).map fun outline =>
      if other = ref then effect outline else outline := by
  rw [outline?_modifyNode tree effect acts]
  split
  · rfl
  · exact Option.map_id'.symm

/-- A change of one node that leaves its outline alone, whatever becomes of the sessions. -/
private theorem reshaped_of_modifyNode {operation : Operation} {ref : NodeRef}
    {change : Node → Node} {after : Tree}
    (same : ∀ node, tree.node? ref = some node → (change node).outline = node.outline)
    (nodes : after.nodes = (tree.modifyNode ref change).nodes)
    (root : after.root = tree.root) (ids : after.ids = tree.ids) :
    Reshaped tree after operation := by
  refine Reshaped.kept ⟨root, ?_, ids⟩ ?_
  · rw [nodes]
    exact (sameStore_modifyNode tree ref change).size
  · intro other
    rw [outline?_congr_nodes nodes]
    exact outline?_modifyNode_of_same tree same other

private theorem outline?_touchAll (clock : Clock) (walked : List NodeRef) (ref : NodeRef) :
    (tree.touchAll clock walked).outline? ref = tree.outline? ref := by
  induction walked generalizing tree clock with
  | nil => rfl
  | cons first rest inductionHypothesis =>
      rw [touchAll, inductionHypothesis]
      exact outline?_modifyNode_of_same tree (fun node _ => Node.outline_accessed node clock.now)
        ref

private theorem sameStore_touchAll (clock : Clock) (walked : List NodeRef) :
    SameStore tree (tree.touchAll clock walked) := by
  induction walked generalizing tree clock with
  | nil => exact sameStore_refl tree
  | cons first rest inductionHypothesis =>
      exact (sameStore_modifyNode tree first _).trans (inductionHypothesis _ _)

private theorem sameStore_release (ref : SessionRef) (nodeRef : NodeRef) :
    SameStore tree ((tree.modifyNode nodeRef Node.released).modifySession ref Session.closed) :=
  ⟨rfl, Arena.size_modify tree.nodes nodeRef.place Node.released, rfl⟩

private theorem outline?_release (ref : SessionRef) (nodeRef other : NodeRef) :
    ((tree.modifyNode nodeRef Node.released).modifySession ref Session.closed).outline? other =
      tree.outline? other := by
  rw [outline?_modifySession]
  exact outline?_modifyNode_of_same tree (fun node _ => Node.outline_released node) other

/-! ## Changes that the namespace sees -/

/-- New entries for a directory, in a tree that differs from an earlier one by `effect`. -/
private theorem outlines_withEntries {middle : Tree} {directory : NodeRef} {outer : Outline}
    {effect : NodeRef → Outline → Outline} {change : Node → Node} {entries : Entries NodeRef}
    (found : tree.outline? directory = some outer) (isDirectory : outer.kind = .directory)
    (keeps : ∀ outline, (effect directory outline).kind = outline.kind)
    (earlier : ∀ ref, middle.outline? ref = (tree.outline? ref).map (effect ref))
    (acts : ∀ node, (change node).outline = node.outline.withEntries entries) (ref : NodeRef) :
    (middle.modifyNode directory change).outline? ref = (tree.outline? ref).map fun outline =>
      { effect ref outline with
        entries := if ref = directory then entries else (effect ref outline).entries } := by
  rw [outlines_modifyNode middle (fun outline => outline.withEntries entries)
    fun node _ => acts node, earlier, Option.map_map]
  refine Option.map_congr fun outline held => ?_
  by_cases here : ref = directory
  · subst here
    cases found.symm.trans held
    have kind : (effect ref outer).kind = .directory := (keeps outer).trans isDirectory
    simp only [Function.comp_apply, if_true, Outline.withEntries, kind]
  · simp only [Function.comp_apply, if_neg here]

private theorem reshaped_created {ref : NodeRef} {directory : Node} {entries : Entries NodeRef}
    (clock : Clock) (user name : String) (requested : Mode)
    (found : tree.directory? ref = some (directory, entries))
    (valid : Name.isValid name = true) (free : entries.find? name = none) :
    Reshaped tree
      ((tree.addNode (newChild ref directory name requested clock.now)).modifyNode ref fun node =>
        (node.withEntries (entries.insert name tree.nextNode)).mutatedBy user (clock.after 1))
      (.create ref user name requested) := by
  obtain ⟨there, isDirectory, same⟩ := outline?_of_directory? found
  have elsewhere : tree.nextNode ≠ ref := (ne_nextNode there).symm
  have store := (grown_addNode tree (newChild ref directory name requested clock.now)).trans
    (sameStore_modifyNode _ ref fun node =>
      (node.withEntries (entries.insert name tree.nextNode)).mutatedBy user (clock.after 1))
  have child : ∃ outline, (newChild ref directory name requested clock.now tree.ids.next.1).outline =
      outline ∧ outline.id = tree.ids.next.1 ∧ outline.name = name ∧
        outline.entries = .empty ∧ outline.parent = some ref := by
    refine ⟨_, rfl, ?_⟩
    unfold newChild
    by_cases asked : requested.isDirectory = true
    · simp only [asked, if_true]
      exact ⟨rfl, rfl, rfl, rfl⟩
    · simp only [asked]
      exact ⟨rfl, rfl, rfl, rfl⟩
  obtain ⟨node, isNode, numbered, named, bare, inside⟩ := child
  refine Reshaped.created store there isDirectory valid (same ▸ free) numbered named bare inside ?_
  intro other
  rw [outlines_modifyNode _ (fun outline => outline.withEntries (entries.insert name tree.nextNode))
    fun _ _ => rfl, outline?_addNode, isNode]
  by_cases fresh : other = tree.nextNode
  · subst fresh
    simp only [if_true, if_neg elsewhere, Option.map_id']
  · simp only [if_neg fresh]
    refine Option.map_congr fun outline held => ?_
    by_cases here : other = ref
    · subst here
      cases there.symm.trans held
      simp only [if_true, Outline.withEntries, isDirectory, same]
    · simp only [if_neg here]

/-- The outlines after an addition. -/
theorem outline?_added {ref : NodeRef} {directory : Node} {entries : Entries NodeRef}
    (clock : Clock) (name : String) (graft : NodeRef)
    (found : tree.directory? ref = some (directory, entries)) (other : NodeRef) :
    ((tree.modifyNode graft fun node => node.within ref).modifyNode ref fun node =>
        (node.withEntries (entries.insert name graft)).mutated clock).outline? other =
      (tree.outline? other).map fun outline =>
        { outline with
          parent := if other = graft then some ref else outline.parent
          entries :=
            if other = ref then entries.insert name graft else outline.entries } := by
  obtain ⟨outerThere, isDirectory, -⟩ := outline?_of_directory? found
  have linked := outlines_modifyNode tree (fun outline => outline.within ref)
    fun (node : Node) (_ : tree.node? graft = some node) => Node.outline_within node ref
  have binds : ∀ node : Node,
      ((node.withEntries (entries.insert name graft)).mutated clock).outline =
        node.outline.withEntries (entries.insert name graft) := fun _ => rfl
  rw [outlines_withEntries tree outerThere isDirectory ?_ linked binds]
  · refine Option.map_congr fun outline _ => ?_
    by_cases atGraft : other = graft
    · simp only [if_pos atGraft, Outline.within]
    · simp only [if_neg atGraft]
  · intro outline
    split <;> rfl

private theorem reshaped_added {ref graft : NodeRef} {directory node : Node}
    {entries : Entries NodeRef} (clock : Clock) (name : String)
    (found : tree.directory? ref = some (directory, entries))
    (there : tree.node? graft = some node)
    (valid : Name.isValid name = true)
    (unmet : node.kind = .directory → tree.search ref graft = .missed)
    (free : entries.find? name = none) :
    Reshaped tree
      ((tree.modifyNode graft fun node => node.within ref).modifyNode ref fun node =>
        (node.withEntries (entries.insert name graft)).mutated clock)
      (.add ref name graft) := by
  obtain ⟨outerThere, isDirectory, same⟩ := outline?_of_directory? found
  have graftThere : tree.outline? graft = some node.outline := by
    rw [outline?, there]
    rfl
  have store := (sameStore_modifyNode tree graft fun node => node.within ref).trans
    (sameStore_modifyNode _ ref fun node =>
      (node.withEntries (entries.insert name graft)).mutated clock)
  refine Reshaped.added store outerThere isDirectory graftThere valid (same ▸ free) unmet ?_
  intro other
  rw [outline?_added tree clock name graft found, same]

/-- A node is named, and the entry of a node with the same number is moved. -/
private theorem reshaped_moved {operation : Operation} {ref child target : NodeRef}
    {directory : Node} {entries : Entries NodeRef} {old new : String}
    {naming rekeying : Node → Node}
    (found : tree.directory? ref = some (directory, entries))
    (valid : Name.isValid new = true)
    (present : entries.find? old = some child) (free : entries.find? new = none)
    (sameNumber : (tree.outline? target).map Outline.id = (tree.outline? child).map Outline.id)
    (names : ∀ node, (naming node).outline = node.outline.named new)
    (rekeys : ∀ node, (rekeying node).outline = node.outline.withEntries (entries.move old new)) :
    Reshaped tree ((tree.modifyNode target naming).modifyNode ref rekeying) operation := by
  obtain ⟨outerThere, isDirectory, same⟩ := outline?_of_directory? found
  have store := (sameStore_modifyNode tree target naming).trans
    (sameStore_modifyNode _ ref rekeying)
  have named := outlines_modifyNode tree (fun outline => outline.named new)
    fun (node : Node) (_ : tree.node? target = some node) => names node
  refine Reshaped.moved store outerThere isDirectory valid (same ▸ present) (same ▸ free)
    sameNumber ?_
  intro other
  rw [outlines_withEntries tree outerThere isDirectory ?_ named rekeys]
  · refine Option.map_congr fun outline _ => ?_
    by_cases atTarget : other = target
    · simp only [if_pos atTarget, Outline.named, same]
    · simp only [if_neg atTarget, same]
  · intro outline
    split <;> rfl

private theorem reshaped_removed {ref child : NodeRef} {directory : Node}
    {entries : Entries NodeRef} (clock : Clock) (user name : String)
    (found : tree.directory? ref = some (directory, entries))
    (present : entries.find? name = some child)
    (removable : (tree.node? child).all Node.isRemovable = true) :
    Reshaped tree
      ((tree.modifyNode ref fun node =>
        (node.withEntries (entries.erase name)).mutatedBy user clock).sweep)
      (.remove ref user name) := by
  obtain ⟨outerThere, isDirectory, same⟩ := outline?_of_directory? found
  have unbinds : ∀ node : Node,
      ((node.withEntries (entries.erase name)).mutatedBy user clock).outline =
        node.outline.withEntries (entries.erase name) := fun _ => rfl
  have unchanged : ∀ other, tree.outline? other = (tree.outline? other).map fun outline => outline :=
    fun other => Option.map_id'.symm
  refine Reshaped.removed (sameStore_modifyNode tree ref _) outerThere isDirectory
    (same ▸ present) ?_ ?_ (swept_sweep _).toThinned
  · intro outline held
    obtain ⟨node, there, rfl⟩ := Option.map_eq_some_iff.mp held
    rw [there] at removable
    exact removable
  · intro other
    rw [outlines_withEntries tree outerThere isDirectory (fun _ => rfl) unchanged unbinds, same]

private theorem reshaped_made {operation : Operation} (make : UInt64 → Node)
    (numbered : (make tree.ids.next.1).outline.id = tree.ids.next.1)
    (bare : (make tree.ids.next.1).outline.entries = .empty)
    (orphan : (make tree.ids.next.1).outline.parent = none) :
    Reshaped tree ((tree.addNode make).hold tree.nextNode) operation := by
  refine Reshaped.made ((grown_addNode tree make).trans (sameStore_hold _ _)) numbered bare
    orphan ?_
  intro other
  rw [outline?_hold, outline?_addNode]

private theorem reshaped_attached (ref parent : NodeRef) :
    Reshaped tree (tree.attach ref parent) (.attach ref parent) := by
  unfold attach
  split
  · rename_i found
    obtain ⟨there, isDirectory, -⟩ := outline?_of_directory? found
    refine Reshaped.attached (sameStore_modifyNode tree ref _) there isDirectory ?_
    intro other
    rw [outlines_modifyNode tree (fun outline => outline.within parent) fun _ _ => rfl]
    refine Option.map_congr fun outline _ => ?_
    by_cases here : other = ref
    · simp only [if_pos here, Outline.within]
    · simp only [if_neg here]
  · exact Reshaped.kept (sameStore_refl tree) fun _ => rfl

private theorem reshaped_revised {ref : NodeRef} {node : Node} {newName : Option String}
    (clock : Clock) (stat : Stat) (there : tree.node? ref = some node)
    (wanted : Name.replacement? node.name node.shownName stat.name = .ok newName)
    (unmoved : ∀ name, newName = some name → tree.entryMoved? ref node name = none) :
    Reshaped tree (tree.modifyNode ref fun node => node.revised stat newName clock)
      (.writeMetadata ref stat) := by
  cases newName with
  | none =>
      refine reshaped_of_modifyNode tree ?_ rfl rfl rfl
      intro other held
      rw [Node.outline_revised]
      rfl
  | some name =>
      refine Reshaped.renamedAlone (sameStore_modifyNode tree ref _)
        (Name.isValid_of_replacement? wanted) ?_ ?_
      · intro other held
        cases there.symm.trans held
        exact unmoved name rfl
      · intro other
        rw [outlines_modifyNode tree (fun outline => outline.named name)
          fun node _ => Node.outline_revised node stat (some name) clock]
        refine Option.map_congr fun outline _ => ?_
        by_cases here : other = ref
        · simp only [if_pos here, Outline.named]
        · simp only [if_neg here]

private theorem reshaped_rekeyed {ref parentRef : NodeRef} {node parent : Node}
    {entries : Entries NodeRef} {oldName newName : String} (clock later : Clock) (stat : Stat)
    (there : tree.node? ref = some node)
    (wanted : Name.replacement? node.name node.shownName stat.name = .ok (some newName))
    (moved : tree.entryMoved? ref node newName = some (parentRef, parent, entries, oldName))
    (free : entries.find? newName = none) :
    Reshaped tree
      ((tree.modifyNode ref fun node => node.revised stat (some newName) clock).modifyNode
        parentRef fun parent => (parent.withEntries (entries.move oldName newName)).mutated later)
      (.writeMetadata ref stat) := by
  obtain ⟨-, found, child, childNode, present, childThere, sameId⟩ := entryMoved?_eq_some moved
  refine reshaped_moved tree found (Name.isValid_of_replacement? wanted) present free ?_
    (fun other => Node.outline_revised other stat (some newName) clock) fun _ => rfl
  rw [outline?, outline?, there, childThere]
  exact congrArg some sameId.symm

/-- Every effect of an operation is one that the namespace has a view of. -/
theorem Effect.reshaped {tree : Tree} {setting : Setting} {operation : Operation}
    {outcome : Outcome Answer} (effect : Effect tree setting operation outcome) :
    Reshaped tree outcome.tree operation := by
  cases effect with
  | refused | stalled => exact Reshaped.kept (sameStore_refl tree) fun _ => rfl
  | madeFile blueprint content => exact reshaped_made tree _ rfl rfl rfl
  | madeDirectory blueprint => exact reshaped_made tree _ rfl rfl rfl
  | held ref => exact Reshaped.kept (sameStore_hold tree ref) (outline?_hold tree ref)
  | letGo ref =>
      have store : SameStore tree { tree with held := tree.held.erase ref } := ⟨rfl, rfl, rfl⟩
      exact Reshaped.swept store (fun _ => rfl) (swept_sweep _).toThinned
  | attached ref parent => exact reshaped_attached tree ref parent
  | created user name requested found valid granted free =>
      exact reshaped_created tree setting.clock user name requested found valid free
  | added name found there valid unmet free =>
      exact reshaped_added tree setting.clock name found there valid unmet free
  | renamed user old new found valid granted present free =>
      exact reshaped_moved tree found valid present free rfl (fun _ => rfl) (fun _ => rfl)
  | removed user name found granted present removable =>
      exact reshaped_removed tree setting.clock user name found present removable
  | walked user name found granted =>
      exact reshaped_of_modifyNode tree (fun node _ => Node.outline_accessed node _) rfl rfl rfl
  | resolved user path ending walked =>
      exact Reshaped.kept (sameStore_touchAll tree _ walked) (outline?_touchAll tree _ walked)
  | revised stat there wanted fits unmoved =>
      exact reshaped_revised tree setting.clock stat there wanted unmoved
  | rekeyed stat there wanted fits moved free =>
      exact reshaped_rekeyed tree setting.clock _ stat there wanted moved free
  | openedFile user request there isFile granted =>
      refine reshaped_of_modifyNode tree ?_ rfl rfl rfl
      intro node held
      cases there.symm.trans held
      split
      · exact Node.outline_withContent isFile []
      · rfl
  | openedDirectory user request there isDirectory granted =>
      exact reshaped_of_modifyNode tree (fun node _ => Node.outline_opened node _) rfl rfl rfl
  | soughtFile offset origin isOpen isFile leads within =>
      exact reshaped_of_modifyNode tree (fun node _ => Node.outline_accessed node _) rfl rfl rfl
  | rewound offset origin isOpen isDirectory leads listed =>
      exact reshaped_of_modifyNode tree (fun node _ => Node.outline_accessed node _) rfl rfl rfl
  | stayed offset origin isOpen isDirectory leads beyond =>
      exact reshaped_of_modifyNode tree (fun node _ => Node.outline_accessed node _) rfl rfl rfl
  | readContent reads isOpen isFile =>
      exact reshaped_of_modifyNode tree (fun node _ => Node.outline_accessed node _) rfl rfl rfl
  | readSnapshot reads isOpen isDirectory taken =>
      exact reshaped_of_modifyNode tree (fun node _ => Node.outline_accessed node _) rfl rfl rfl
  | readFresh reads isOpen isDirectory untaken listed =>
      exact reshaped_of_modifyNode tree (fun node _ => Node.outline_accessed node _) rfl rfl rfl
  | written data isOpen isFile ofUser =>
      refine reshaped_of_modifyNode tree ?_ rfl rfl rfl
      intro node held
      cases isOpen.there.symm.trans held
      rw [Node.outline_mutatedBy]
      exact Node.outline_withContent isFile _
  | closed isOpen =>
      exact Reshaped.swept (sameStore_release tree _ _) (outline?_release tree _ _)
        (swept_sweep _).toThinned
  | droppedOpen isOpen =>
      exact Reshaped.swept (sameStore_release tree _ _) (outline?_release tree _ _)
        ((swept_sweep _).toThinned.forget _)
  | droppedClosed ref notOpen =>
      exact Reshaped.kept ⟨rfl, rfl, rfl⟩ fun _ => rfl

end MemFs.Tree
