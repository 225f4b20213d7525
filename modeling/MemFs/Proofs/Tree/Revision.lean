import MemFs.Proofs.Tree.Failure
import MemFs.Proofs.Tree.ParentLinks

/-!
# What comes of a metadata write

A metadata write is refused for a name that no entry may have, for one that is taken where the entry
of the node would get it, and for a length that the file does not have. The first reason counts.
Without one everything is applied at once, to the node and to the directory that holds it. Only a
directory that was made its own parent does not get a new name: it waits for itself.
-/

namespace MemFs

namespace Name

/-- A name that no entry may have. -/
def IsMalformed (name : String) : Prop :=
  name = "" ∨ name = "." ∨ name = ".." ∨ '/' ∈ name.toList

theorem isValid_iff {name : String} : isValid name = true ↔ ¬ IsMalformed name := by
  simp [isValid, IsMalformed, and_assoc]

end Name

namespace Node

/-- The metadata has a name for the node that it neither has nor shows. -/
def IsRenamedBy (node : Node) (stat : Stat) : Prop :=
  stat.name ≠ node.name ∧ stat.name ≠ node.shownName

/-- The metadata has a length that the file does not have. -/
def IsExtendedBy (node : Node) (stat : Stat) : Prop :=
  ∃ content, node.body = .file content ∧ stat.length ≠ Stat.unchangedLength ∧
    content.length < stat.length.toNat

/-- The node after the metadata was written to it. The name stays if it is the one that the node has
or shows, and a file is cut to the length unless that is to stay. -/
def withMetadata (node : Node) (stat : Stat) (clock : Clock) : Node :=
  { node with
    name := if stat.name = node.name ∨ stat.name = node.shownName then node.name else stat.name
    owner := stat.owner
    group := stat.group
    mode := stat.mode
    version := node.version + 1
    accessTime := clock.reading node.accessReading
    modifyTime := clock.now
    body :=
      match node.body with
      | .file content =>
          .file (if stat.length = Stat.unchangedLength then content
            else content.take stat.length.toNat)
      | .directory entries => .directory entries }

variable {node : Node} {stat : Stat}

theorem extendedBy_iff : node.extendedBy stat = true ↔ node.IsExtendedBy stat := by
  unfold extendedBy IsExtendedBy
  cases node.body with
  | file content => simp
  | directory entries => simp

theorem replacement?_of_same (same : ¬ node.IsRenamedBy stat) :
    Name.replacement? node.name node.shownName stat.name = .ok none := by
  refine if_pos ?_
  by_contra other
  exact same (not_or.mp other)

theorem replacement?_of_renamed (renamed : node.IsRenamedBy stat) :
    Name.replacement? node.name node.shownName stat.name =
      if Name.isValid stat.name then .ok (some stat.name) else .error .invalidName :=
  if_neg (not_or.mpr renamed)

theorem eq_some_of_renamed {newName : Option String} (renamed : node.IsRenamedBy stat)
    (wanted : Name.replacement? node.name node.shownName stat.name = .ok newName) :
    newName = some stat.name := by
  rw [replacement?_of_renamed renamed] at wanted
  split at wanted
  · exact (Except.ok.inj wanted).symm
  · cases wanted

theorem renamed_of_some {newName : String}
    (wanted : Name.replacement? node.name node.shownName stat.name = .ok (some newName)) :
    node.IsRenamedBy stat := by
  by_contra same
  cases (replacement?_of_same same).symm.trans wanted

theorem revised_eq {newName : Option String} {clock : Clock}
    (wanted : Name.replacement? node.name node.shownName stat.name = .ok newName) :
    node.revised stat newName clock = node.withMetadata stat clock := by
  have name : newName.getD node.name =
      if stat.name = node.name ∨ stat.name = node.shownName then node.name else stat.name := by
    by_cases renamed : node.IsRenamedBy stat
    · rw [eq_some_of_renamed renamed wanted, if_neg (not_or.mpr renamed), Option.getD_some]
    · rw [replacement?_of_same renamed] at wanted
      cases wanted
      refine (if_pos ?_).symm
      by_contra other
      exact renamed (not_or.mp other)
  have body : node.bodyAfter stat = (node.withMetadata stat clock).body := by
    unfold bodyAfter withMetadata
    cases node.body with
    | file content => exact (apply_ite Body.file _ content _).symm
    | directory entries => rfl
  rw [revised, name, body]
  rfl

end Node

namespace Tree

variable {tree : Tree} {setting : Setting} {outcome : Outcome Answer} {clock : Clock}
  {ref directory : NodeRef} {node : Node} {stat : Stat} {old name newName : String}

/-- The directory above a node, while it is there, holds the node under another name than this. -/
def HeldOtherwise (tree : Tree) (ref : NodeRef) (name : String) (directory : NodeRef)
    (old : String) : Prop :=
  tree.parent? ref = some directory ∧ tree.Holds directory old ref ∧ old ≠ name

/-- The directory above a node holds the node under another name, and something under this. -/
def Collides (tree : Tree) (ref : NodeRef) (name : String) : Prop :=
  ∃ directory old other, tree.HeldOtherwise ref name directory old ∧
    tree.Holds directory name other

/-- A directory that was made its own parent is to get a new name, which an entry may have. -/
def WaitsForItself (tree : Tree) (ref : NodeRef) (node : Node) (stat : Stat) : Prop :=
  tree.IsOwnParent ref ∧ node.IsRenamedBy stat ∧ ¬ Name.IsMalformed stat.name

/-- The directory above a node, while it is there, holds the node once at most. -/
def HeldOnce (tree : Tree) (ref : NodeRef) : Prop :=
  ∀ directory first second, tree.parent? ref = some directory → tree.Holds directory first ref →
    tree.Holds directory second ref → first = second

/-! ## No directory holds itself -/

/-- What a directory gets to hold is not the directory itself. -/
theorem Effect.not_owns_self {operation : Operation}
    (effect : Effect tree setting operation outcome) (sound : tree.IsSound)
    (earlier : ∀ directory, ¬ tree.Owns directory directory) (directory : NodeRef) :
    ¬ outcome.tree.Owns directory directory := by
  intro owned
  rcases (effect.rebound sound.child).owns_earlier owned with old | ⟨name, bound⟩
  · exact earlier directory old
  · rcases Operation.bind_of_rebound? bound with ⟨user, requested, rfl, answer⟩ | rfl
    · cases effect with
      | refused | stalled => cases answer
      | created user name requested found =>
          cases answer
          cases (node?_nextNode tree).symm.trans (directory?_eq_some_iff.mp found).1
      | readContent reads | readSnapshot reads | readFresh reads => cases reads
    · cases effect with
      | refused | stalled => cases bound
      | added name found there valid unmet =>
          have missed := unmet (kind_of_directory? found there)
          cases (search_self there).symm.trans missed
      | readContent reads | readSnapshot reads | readFresh reads => cases reads

/-! ## Whether it is done -/

open Classical in
theorem ending_revise (newName : Option String) :
    (tree.revise clock ref node stat newName).ending =
      if node.IsExtendedBy stat then .error .lengthExtension else .ok () := by
  simp only [revise, node.extendedBy_iff]
  split <;> rfl

section NewName

variable {parentRef : NodeRef} {parent : Node} {entries : Entries NodeRef}

/-- A write under a new name that moves no entry is one of the node alone. -/
theorem ending_writeMetadata_of_unmoved (there : tree.node? ref = some node)
    (wanted : Name.replacement? node.name node.shownName stat.name = .ok (some newName))
    (apart : ¬ tree.IsOwnParent ref) (unmoved : tree.entryMoved? ref node newName = none) :
    (tree.writeMetadata clock ref stat).ending =
      (tree.revise clock ref node stat (some newName)).ending := by
  unfold writeMetadata
  simp only [there, wanted]
  cases above : tree.parent? ref with
  | none => rfl
  | some parentRef =>
      cases found : tree.directory? parentRef with
      | none => simp only [found]
      | some pair =>
          have notSelf : parentRef ≠ ref := by
            rintro rfl
            exact apart ⟨above, Option.isSome_of_eq_some found⟩
          rw [entryMoved?_of_parent above found, Option.map_eq_none_iff] at unmoved
          simp only [found, reviseEntry, unmoved, reviseLocked, if_neg notSelf]

/-- A write under a new name that moves an entry needs the name to be free. -/
theorem ending_writeMetadata_of_moved (there : tree.node? ref = some node)
    (wanted : Name.replacement? node.name node.shownName stat.name = .ok (some newName))
    (apart : ¬ tree.IsOwnParent ref)
    (moved : tree.entryMoved? ref node newName = some (parentRef, parent, entries, old)) :
    (tree.writeMetadata clock ref stat).ending =
      if entries.contains newName then .error .nameConflict
      else (tree.revise clock ref node stat (some newName)).ending := by
  obtain ⟨above, found, -⟩ := entryMoved?_eq_some moved
  have notSelf : parentRef ≠ ref := by
    rintro rfl
    exact apart ⟨above, Option.isSome_of_eq_some found⟩
  rw [entryMoved?_of_parent above found, Option.map_eq_some_iff] at moved
  obtain ⟨_, held, same⟩ := moved
  cases same
  unfold writeMetadata
  simp only [there, wanted, above, found, reviseEntry, held, reviseLocked, if_neg notSelf]
  cases entries.contains newName with
  | true => rfl
  | false =>
      cases ending : (tree.revise clock ref node stat (some newName)).ending with
      | error | never => simp [ending]
      | ok done => rfl

/-- A directory that is its own parent and would move no entry waits for its own lock. -/
theorem writeMetadata_of_ownParent (there : tree.node? ref = some node)
    (wanted : Name.replacement? node.name node.shownName stat.name = .ok (some newName))
    (own : tree.IsOwnParent ref) (unmoved : tree.entryMoved? ref node newName = none) :
    tree.writeMetadata clock ref stat = tree.stall := by
  obtain ⟨above, isDirectory⟩ := own
  obtain ⟨pair, found⟩ := Option.isSome_iff_exists.mp isDirectory
  rw [entryMoved?_of_parent above found, Option.map_eq_none_iff] at unmoved
  unfold writeMetadata
  simp only [there, wanted, above, found, reviseEntry, unmoved, reviseLocked, if_true]

end NewName

section Decision

variable (distinct : tree.IsDistinct) (once : tree.HeldOnce ref)
  (there : tree.node? ref = some node)

include distinct once there

theorem exists_entryMoved?_iff :
    (∃ parent entries, tree.entryMoved? ref node name = some (directory, parent, entries, old)) ↔
      tree.HeldOtherwise ref name directory old :=
  entryMoved?_iff_of_once distinct there fun above first second =>
    once directory first second above

/-- The name to which an entry would be moved is taken exactly if there is something under it. -/
theorem contains_iff_collides {parent : Node} {entries : Entries NodeRef}
    (moved : tree.entryMoved? ref node name = some (directory, parent, entries, old)) :
    entries.contains name = true ↔ tree.Collides ref name := by
  obtain ⟨above, found, -⟩ := entryMoved?_eq_some moved
  rw [Entries.contains, Option.isSome_iff_exists]
  constructor
  · rintro ⟨other, taken⟩
    have held := (exists_entryMoved?_iff distinct once there).mp ⟨parent, entries, moved⟩
    exact ⟨directory, old, other, held, parent, entries, found, taken⟩
  · rintro ⟨holder, _, other, ⟨aboveHolder, -⟩, _, _, holderFound, taken⟩
    cases above.symm.trans aboveHolder
    cases found.symm.trans holderFound
    exact ⟨other, taken⟩

open Classical in
/-- Whether a metadata write is done, and otherwise why not. -/
theorem ending_writeMetadata (clock : Clock) (stat : Stat)
    (onward : ¬ tree.WaitsForItself ref node stat) :
    (tree.writeMetadata clock ref stat).ending =
      if node.IsRenamedBy stat ∧ Name.IsMalformed stat.name then .error .invalidName
      else if node.IsRenamedBy stat ∧ tree.Collides ref stat.name then .error .nameConflict
      else if node.IsExtendedBy stat then .error .lengthExtension
      else .ok () := by
  by_cases renamed : node.IsRenamedBy stat
  · have wanted := node.replacement?_of_renamed renamed
    by_cases malformed : Name.IsMalformed stat.name
    · rw [if_neg (Name.isValid_iff.not.mpr (not_not.mpr malformed))] at wanted
      rw [if_pos ⟨renamed, malformed⟩]
      simp only [writeMetadata, there, wanted]
      rfl
    · rw [if_pos (Name.isValid_iff.mpr malformed)] at wanted
      rw [if_neg fun both => malformed both.2]
      have apart : ¬ tree.IsOwnParent ref := fun own => onward ⟨own, renamed, malformed⟩
      cases moved : tree.entryMoved? ref node stat.name with
      | none =>
          have free : ¬ (node.IsRenamedBy stat ∧ tree.Collides ref stat.name) := by
            rintro ⟨-, holder, old, -, held, -⟩
            obtain ⟨parent, entries, some⟩ :=
              (exists_entryMoved?_iff distinct once there).mpr held
            cases moved.symm.trans some
          rw [ending_writeMetadata_of_unmoved there wanted apart moved, ending_revise,
            if_neg free]
      | some entry =>
          obtain ⟨holder, parent, entries, old⟩ := entry
          rw [ending_writeMetadata_of_moved there wanted apart moved, ending_revise]
          simp only [contains_iff_collides distinct once there moved, renamed, true_and]
  · have wanted := node.replacement?_of_same renamed
    rw [if_neg fun both => renamed both.1, if_neg fun both => renamed both.1]
    simp only [writeMetadata, there, wanted, ending_revise]

/-- A directory that waits for itself holds nothing that would have to be moved. -/
theorem writeMetadata_of_waitsForItself (clock : Clock) {stat : Stat}
    (waits : tree.WaitsForItself ref node stat) (notSelf : ¬ tree.Owns ref ref) :
    tree.writeMetadata clock ref stat = tree.stall := by
  obtain ⟨own, renamed, proper⟩ := waits
  have wanted := node.replacement?_of_renamed renamed
  rw [if_pos (Name.isValid_iff.mpr proper)] at wanted
  refine writeMetadata_of_ownParent there wanted own ?_
  cases moved : tree.entryMoved? ref node stat.name with
  | none => rfl
  | some entry =>
      obtain ⟨holder, parent, entries, old⟩ := entry
      obtain ⟨above, held, -⟩ :=
        (exists_entryMoved?_iff distinct once there).mp ⟨parent, entries, moved⟩
      cases own.1.symm.trans above
      exact absurd ⟨old, held⟩ notSelf

end Decision

/-! ## What is done -/

/-- Metadata was written to a node, which moved the entry of the node if that was under another
name, and did nothing else. -/
structure Revised (before after : Tree) (clock : Clock) (ref : NodeRef) (node : Node)
    (stat : Stat) : Prop where
  here : after.node? ref = some (node.withMetadata stat clock)
  entry : node.IsRenamedBy stat → ∀ directory old parent entries,
    before.HeldOtherwise ref stat.name directory old →
      before.directory? directory = some (parent, entries) → directory ≠ ref ∧
        ∃ moved, after.node? directory = some { parent with
            version := parent.version + 1
            accessTime := (node.clockAfter clock).reading 1
            modifyTime := (node.clockAfter clock).now
            body := .directory moved } ∧
          ∀ name, moved.find? name =
            if name = stat.name then some ref
            else if name = old then none
            else entries.find? name
  elsewhere : ∀ other, other ≠ ref →
    (node.IsRenamedBy stat → ∀ old, ¬ before.HeldOtherwise ref stat.name other old) →
      after.node? other = before.node? other

/-- A metadata write that is done does what it should. -/
theorem Effect.revised_of_done (effect : Effect tree setting (.writeMetadata ref stat) outcome)
    (distinct : tree.IsDistinct) (once : tree.HeldOnce ref) (there : tree.node? ref = some node)
    (done : outcome.ending = .ok .done) :
    tree.Revised outcome.tree setting.clock ref node stat := by
  have modified := node?_modifyNode_of_some there
  cases effect with
  | refused | stalled => cases done
  | revised stat same wanted fits unmoved =>
      cases there.symm.trans same
      constructor
      · rw [modified, if_pos rfl, node.revised_eq wanted]
      · intro renamed directory old parent entries held
        obtain ⟨_, _, moved⟩ := (exists_entryMoved?_iff distinct once there).mpr held
        cases (unmoved stat.name (node.eq_some_of_renamed renamed wanted)).symm.trans moved
      · intro other apart _
        rw [node?_modifyNode, if_neg apart]
  | @rekeyed _ parentRef _ parent entries old new stat same wanted fits moved free notSelf =>
      cases there.symm.trans same
      have renamed := node.renamed_of_some wanted
      cases Name.eq_of_replacement? wanted
      obtain ⟨-, found, -⟩ := entryMoved?_eq_some moved
      have held := (exists_entryMoved?_iff distinct once there).mp ⟨parent, entries, moved⟩
      have parentThere := (directory?_eq_some_iff.mp found).1
      constructor
      · rw [node?_modifyNode_of_some (modified ref _), if_neg notSelf.symm, if_pos rfl,
          node.revised_eq wanted]
      · intro _ directory oldName holder listed heldThere foundThere
        obtain ⟨_, _, movedThere⟩ := (exists_entryMoved?_iff distinct once there).mpr heldThere
        cases moved.symm.trans movedThere
        cases found.symm.trans foundThere
        have moves := node?_modifyNode_of_some
          (node?_modifyNode_of_some parentThere ref fun node =>
            node.revised stat (some stat.name) setting.clock) parentRef fun parent =>
          (parent.withEntries (entries.move old stat.name)).mutated (node.clockAfter setting.clock)
        rw [if_pos rfl, if_neg notSelf] at moves
        refine ⟨notSelf, entries.move old stat.name, moves, fun name => ?_⟩
        obtain ⟨_, _, sameFound, bound⟩ := held.2.1
        cases found.symm.trans sameFound
        exact Entries.find?_move bound name
      · intro other notRef unheld
        have notParent : other ≠ parentRef := by
          rintro rfl
          exact unheld renamed old held
        rw [node?_modifyNode, if_neg notParent, node?_modifyNode, if_neg notRef]
  | readContent reads | readSnapshot reads | readFresh reads => cases reads

end Tree

namespace World

/-- In no tree of a run does a directory hold itself. -/
theorem not_owns_self (policy : Policy) (blueprint : Blueprint) (ids : IdSource) (start : UInt32)
    (operations : List (Clock × Operation)) (directory : NodeRef) :
    ¬ ((fresh policy blueprint ids start).run operations).tree.Owns directory directory := by
  have invariant := run_induction
    (fun tree => tree.IsSound ∧ ∀ directory, ¬ tree.Owns directory directory)
    (fun tree setting operation ⟨sound, apart⟩ (_ : True) => ⟨sound.perform setting operation,
      (Tree.effect_perform tree setting operation).not_owns_self sound apart⟩)
    ⟨Tree.isSound_ofRoot blueprint ids start,
      fun directory => Tree.not_owns_ofRoot blueprint ids start directory directory⟩
    (respects_of_forall (fun _ _ => trivial) (fresh policy blueprint ids start) operations)
  exact invariant.2 directory

open Classical in
/-- A metadata write is refused for the first of three reasons, or done. If it is refused, nothing
has happened; if it is done, everything has. -/
structure WritesMetadata (before : World) (clock : Clock) (ref : NodeRef) (node : Node)
    (stat : Stat) (outcome : Outcome Answer) : Prop where
  decided : outcome.ending =
    if node.IsRenamedBy stat ∧ Name.IsMalformed stat.name then .error .invalidName
    else if node.IsRenamedBy stat ∧ before.tree.Collides ref stat.name then .error .nameConflict
    else if node.IsExtendedBy stat then .error .lengthExtension
    else .ok .done
  refused : (∃ error, outcome.ending = .error error) → outcome.tree = before.tree
  done : outcome.ending = .ok .done → before.tree.Revised outcome.tree clock ref node stat

theorem WritesMetadata.ending_ne_never {before : World} {clock : Clock} {ref : NodeRef}
    {node : Node} {stat : Stat} {outcome : Outcome Answer}
    (writes : before.WritesMetadata clock ref node stat outcome) : outcome.ending ≠ .never := by
  rw [writes.decided]
  split_ifs <;> exact nofun

/-- In every tree of a run in which numbers are distinct, a metadata write of a node that its
directory holds once at most does what it should, unless the node waits for itself. Then the write
never returns and changes nothing. After regular operations no node does. -/
theorem writesMetadata_iff (policy : Policy) (blueprint : Blueprint) (ids : IdSource)
    (start : UInt32) (operations : List (Clock × Operation)) {ref : NodeRef} {node : Node}
    (there : ((fresh policy blueprint ids start).run operations).tree.node? ref = some node)
    (distinct : ((fresh policy blueprint ids start).run operations).tree.IsDistinct)
    (once : ((fresh policy blueprint ids start).run operations).tree.HeldOnce ref)
    (clock : Clock) (stat : Stat) :
    let before := (fresh policy blueprint ids start).run operations
    let outcome := before.outcome clock (.writeMetadata ref stat)
    (before.WritesMetadata clock ref node stat outcome ↔
      ¬ before.tree.WaitsForItself ref node stat) ∧
    (before.tree.WaitsForItself ref node stat →
      outcome.ending = .never ∧ outcome.tree = before.tree) ∧
    ((∀ timed ∈ operations, timed.2.isRegular = true) →
      ¬ before.tree.WaitsForItself ref node stat) := by
  intro before outcome
  have waiting : before.tree.WaitsForItself ref node stat →
      outcome.ending = .never ∧ outcome.tree = before.tree := by
    intro waits
    have stalled := Tree.writeMetadata_of_waitsForItself distinct once there clock waits
      (not_owns_self policy blueprint ids start operations ref)
    have performed : outcome =
        (before.tree.writeMetadata clock ref stat).map fun _ => .done := rfl
    rw [performed, stalled]
    exact ⟨rfl, rfl⟩
  have neverAround : (∀ timed ∈ operations, timed.2.isRegular = true) →
      ¬ before.tree.WaitsForItself ref node stat := by
    intro regular waits
    have leadsUp : before.tree.LeadsUp := leadsUp_run policy blueprint ids start regular
    exact leadsUp.circleFree ref (.single waits.1.1)
  refine ⟨⟨fun writes waits => writes.ending_ne_never (waiting waits).1, fun onward => ?_⟩, waiting,
    neverAround⟩
  have effect := before.effect_outcome clock (.writeMetadata ref stat)
  constructor
  · have decided := congrArg (Ending.map fun _ => Answer.done)
      (Tree.ending_writeMetadata distinct once there clock stat onward)
    refine decided.trans ?_
    split_ifs <;> rfl
  · rintro ⟨error, failed⟩
    exact effect.tree_of_error failed nofun
  · exact effect.revised_of_done distinct once there

/-- Two files in a directory. -/
def twoFiles : List (Clock × Operation) :=
  [(1, .create ⟨0⟩ "o" "f" ⟨0o644⟩), (2, .create ⟨0⟩ "o" "k" ⟨0o644⟩)]

/-- Metadata that gives a file another owner and this name. -/
def metadataNamed (name : String) : Stat :=
  ⟨0, 0, ⟨.file, 0, 0⟩, ⟨0o600⟩, 0, 0, Stat.unchangedLength, name, "u", "g", ""⟩

/-- The first file can have a name that is free, and not that of the other. -/
theorem writesMetadata_of_twoFiles :
    let before := (fresh .allowAll ⟨"", ⟨0o755⟩, "o", "g"⟩ .sequential 0).run twoFiles
    let renamed := before.outcome 3 (.writeMetadata ⟨1⟩ (metadataNamed "g"))
    let refused := before.outcome 3 (.writeMetadata ⟨1⟩ (metadataNamed "k"))
    (before.tree.IsDistinct ∧ before.tree.HeldOnce ⟨1⟩) ∧
      ∃ node, before.tree.node? ⟨1⟩ = some node ∧
        (renamed.ending = .ok .done ∧
          before.tree.Revised renamed.tree 3 ⟨1⟩ node (metadataNamed "g")) ∧
        refused.ending = .error .nameConflict ∧ refused.tree = before.tree := by
  intro before renamed refused
  have apart : before.tree.IsDistinct :=
    (respects_isDistinct (Tree.isNumbered_ofRoot ⟨"", ⟨0o755⟩, "o", "g"⟩ 1 0)
      (show (World.run _ (twoFiles ++ [(3, .hold ⟨0⟩)])).tree.nodes.size < UInt64.size by
        decide +kernel)).2.2.1
  have parent : before.tree.parent? ⟨1⟩ = some ⟨0⟩ := by decide +kernel
  have once : before.tree.HeldOnce ⟨1⟩ := by
    intro directory first second above firstHeld secondHeld
    cases parent.symm.trans above
    have listed : (before.tree.entriesAt ⟨0⟩).toList = [("f", ⟨1⟩), ("k", ⟨2⟩)] := by
      decide +kernel
    have only : ∀ name, before.tree.Holds ⟨0⟩ name ⟨1⟩ → name = "f" := by
      intro name held
      have member := Entries.mem_toList_iff.mpr (Tree.holds_iff_entriesAt.mp held)
      rw [listed] at member
      simpa using member
    rw [only first firstHeld, only second secondHeld]
  have there : (before.tree.node? ⟨1⟩).isSome = true := by decide +kernel
  obtain ⟨node, there⟩ := Option.isSome_iff_exists.mp there
  have done : renamed.ending = .ok .done := by decide +kernel
  have taken : refused.ending = .error .nameConflict := by decide +kernel
  have onward : ∀ stat, ¬ before.tree.WaitsForItself ⟨1⟩ node stat := by
    rintro stat ⟨⟨own, -⟩, -⟩
    cases parent.symm.trans own
  have writes := (writesMetadata_iff .allowAll ⟨"", ⟨0o755⟩, "o", "g"⟩ .sequential 0 twoFiles there
    apart once 3 (metadataNamed "g")).1.mpr (onward _)
  have refuses := (writesMetadata_iff .allowAll ⟨"", ⟨0o755⟩, "o", "g"⟩ .sequential 0 twoFiles there
    apart once 3 (metadataNamed "k")).1.mpr (onward _)
  exact ⟨⟨apart, once⟩, node, there, ⟨done, writes.done done⟩, taken, refuses.refused ⟨_, taken⟩⟩

/-- The root is made its own parent, and nothing else is there. -/
def selfParented : List (Clock × Operation) :=
  [(1, .attach ⟨0⟩ ⟨0⟩)]

/-- Nothing speaks against a new name for the root, but the write of it never returns. -/
theorem never_of_selfParented :
    let before := (fresh .allowAll ⟨"", ⟨0o755⟩, "o", "g"⟩ .sequential 0).run selfParented
    let outcome := before.outcome 2 (.writeMetadata ⟨0⟩ (metadataNamed "x"))
    before.tree.IsDistinct ∧ before.tree.HeldOnce ⟨0⟩ ∧
      ∃ node, before.tree.node? ⟨0⟩ = some node ∧
        ¬ Name.IsMalformed "x" ∧ ¬ before.tree.Collides ⟨0⟩ "x" ∧
        ¬ node.IsExtendedBy (metadataNamed "x") ∧
        outcome.ending = .never ∧
        ¬ before.WritesMetadata 2 ⟨0⟩ node (metadataNamed "x") outcome := by
  intro before outcome
  have distinct : before.tree.IsDistinct :=
    (respects_isDistinct (Tree.isNumbered_ofRoot ⟨"", ⟨0o755⟩, "o", "g"⟩ 1 0)
      (show (World.run _ (selfParented ++ [(2, .hold ⟨0⟩)])).tree.nodes.size < UInt64.size by
        decide +kernel)).2.1
  have onlyRoot : before.tree.nodes.size = 1 := by decide +kernel
  have nothing : (before.tree.entriesAt ⟨0⟩).toList = [] := by decide +kernel
  have unheld : ∀ directory name child, ¬ before.tree.Holds directory name child := by
    intro directory name child held
    obtain ⟨_, _, found, -⟩ := id held
    have used := Tree.place_lt_size (Tree.directory?_eq_some_iff.mp found).1
    rw [onlyRoot, Nat.lt_one_iff] at used
    obtain rfl : directory = ⟨0⟩ := congrArg NodeRef.mk used
    have member := Entries.mem_toList_iff.mpr (Tree.holds_iff_entriesAt.mp held)
    rw [nothing] at member
    cases member
  have root : ∃ node, before.tree.node? ⟨0⟩ = some node ∧ node.kind = .directory := ⟨_, rfl, rfl⟩
  obtain ⟨node, there, isDirectory⟩ := root
  have never : outcome.ending = .never := by decide +kernel
  refine ⟨distinct, fun directory first second _ held => absurd held (unheld _ _ _), node, there,
    Name.isValid_iff.mp (by decide), ?_, ?_, never, fun writes => writes.ending_ne_never never⟩
  · rintro ⟨directory, old, other, -, held⟩
    exact unheld _ _ _ held
  · rintro ⟨content, isFile, -⟩
    rw [Node.kind, isFile] at isDirectory
    cases isDirectory

end World

end MemFs
