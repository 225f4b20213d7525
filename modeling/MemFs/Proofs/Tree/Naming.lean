import MemFs.Proofs.Content.History
import MemFs.Proofs.Session.Listing
import MemFs.Proofs.Tree.Failure
import MemFs.Proofs.Tree.Forest
import MemFs.Proofs.Tree.Version

/-!
# Names of entries and names of nodes

A name stands in two places: in the node, where a listing takes it from, and in the entry that leads
to the node, where a lookup takes it from. Creating, renaming and writing metadata change both;
adding a node makes an entry under any name and leaves the name of the node alone.
-/

namespace MemFs

namespace Tree

/-- No two nodes have the same number. -/
def IsDistinct (tree : Tree) : Prop :=
  ∀ first second outline other, tree.outline? first = some outline →
    tree.outline? second = some other → outline.id = other.id → first = second

/-- A directory holds a node under a name, and the node itself is called `own`. -/
structure HoldsAs (tree : Tree) (directory : NodeRef) (name : String) (child : NodeRef)
    (own : String) : Prop where
  here : tree.Holds directory name child
  called : ∃ outline, tree.outline? child = some outline ∧ outline.name = own

/-- Entries have valid names. -/
def NamesValid (tree : Tree) : Prop :=
  ∀ directory name child, tree.Holds directory name child → Name.isValid name = true

variable {before after : Tree} {operation : Operation}

theorem eq_of_sameNumber {tree : Tree} (distinct : tree.IsDistinct) {first second : NodeRef}
    {node other : Node} (there : tree.node? first = some node)
    (otherThere : tree.node? second = some other) (same : node.id = other.id) : first = second :=
  distinct first second node.outline other.outline
    (by rw [outline?, there, Option.map_some]) (by rw [outline?, otherThere, Option.map_some]) same

theorem IsNumbered.isDistinct {tree : Tree} {first : UInt64} (numbered : IsNumbered first tree)
    (few : tree.nodes.size < UInt64.size) : tree.IsDistinct := by
  intro ref other outline otherOutline there otherThere same
  obtain ⟨node, found, rfl⟩ := Option.map_eq_some_iff.mp there
  obtain ⟨otherNode, otherFound, rfl⟩ := Option.map_eq_some_iff.mp otherThere
  exact numbered.distinct few found otherFound same

/-! ## Valid names -/

theorem Reshaped.namesValid (reshaped : Reshaped before after operation)
    (valid : before.NamesValid) : after.NamesValid := by
  intro directory name child here
  cases reshaped with
  | kept store outlines =>
      exact valid _ _ _ ((holds_of_same (entriesAt_of_congr outlines) _ _ _).mp here)
  | swept store outlines thinned =>
      exact valid _ _ _
        ((holds_of_same (entriesAt_of_congr outlines) _ _ _).mp (thinned.holds here))
  | made store numbered bare orphan outlines =>
      exact valid _ _ _ ((holds_of_same (entriesAt_of_fresh bare outlines) _ _ _).mp here)
  | attached store found isDirectory outlines =>
      exact valid _ _ _ ((holds_of_same (entriesAt_of_same outlines fun _ _ => rfl) _ _ _).mp here)
  | renamedAlone store validName unmoved outlines =>
      exact valid _ _ _ ((holds_of_same (entriesAt_of_same outlines fun _ _ => rfl) _ _ _).mp here)
  | created store found isDirectory validName free numbered named bare inside outlines =>
      have changed := entriesAt_of_created found bare outlines fun _ _ => rfl
      rcases (holds_of_insert found free changed _ _ _).mp here with old | ⟨-, atName, -⟩
      · exact valid _ _ _ old
      · exact atName ▸ validName
  | added store found isDirectory there validName free unmet outlines =>
      have changed := entriesAt_of_rebound found outlines fun _ _ => rfl
      rcases (holds_of_insert found free changed _ _ _).mp here with old | ⟨-, atName, -⟩
      · exact valid _ _ _ old
      · exact atName ▸ validName
  | moved store found isDirectory validName present free sameNumber outlines =>
      have changed := entriesAt_of_rebound found outlines fun _ _ => rfl
      rcases (holds_of_move found present free changed _ _ _).mp here with ⟨old, -⟩ | ⟨-, atName, -⟩
      · exact valid _ _ _ old
      · exact atName ▸ validName
  | removed store found isDirectory present removable outlines thinned =>
      have changed := entriesAt_of_rebound found outlines fun _ _ => rfl
      exact valid _ _ _ ((holds_of_erase found changed _ _ _).mp (thinned.holds here)).1

/-! ## One operation -/

/-- A directory finds the entry of a node by the number of the node. -/
theorem nameHeld?_of_once {tree : Tree} (distinct : tree.IsDistinct)
    {directory child : NodeRef} {name : String} {parent node : Node} {entries : Entries NodeRef}
    (once : ∀ other, tree.Holds directory other child → other = name)
    (found : tree.directory? directory = some (parent, entries))
    (present : entries.find? name = some child) (there : tree.node? child = some node) :
    tree.nameHeld? entries node.id = some name := by
  have matched : (tree.node? child).any (fun other => other.id = node.id) = true := by
    rw [there]
    exact decide_eq_true rfl
  obtain ⟨first, searched⟩ := Entries.exists_nameOf?_of_find?
    (fun child => (tree.node? child).any fun other => other.id = node.id) present matched
  obtain ⟨other, otherPresent, otherMatched⟩ := Entries.find?_of_nameOf?_eq_some searched
  obtain ⟨otherNode, otherThere, sameId⟩ := (Option.any_eq_true _ _).mp otherMatched
  have same : other = child :=
    eq_of_sameNumber distinct otherThere there (of_decide_eq_true sameId)
  have sameName : first = name := once first ⟨parent, entries, found, same ▸ otherPresent⟩
  rw [Tree.nameHeld?, searched, sameName]

/-- A metadata write to a node in a directory leaves the entry alone only if it has the name
already. -/
theorem LinksAgree.eq_of_unmoved {tree : Tree} (agree : tree.LinksAgree)
    (distinct : tree.IsDistinct) {directory child : NodeRef} {name newName : String}
    (here : tree.Holds directory name child)
    (unmoved : ∀ node, tree.node? child = some node → tree.entryMoved? child node newName = none) :
    name = newName := by
  have above := agree.ascends_of_owns ⟨name, here⟩
  obtain ⟨outline, outlineThere, -⟩ := agree.inside _ _ _ here
  obtain ⟨node, there, -⟩ := Option.map_eq_some_iff.mp outlineThere
  have once := fun other held => agree.once directory other name child held here
  obtain ⟨parent, entries, found, present⟩ := here
  have held := nameHeld?_of_once distinct once found present there
  have still := unmoved node there
  rw [Ascends] at above
  simp only [entryMoved?, above, found, held, Option.bind_eq_bind, Option.bind_some,
    Option.bind_eq_none_iff, Option.filter_eq_some_iff] at still
  by_contra other
  exact absurd (still name ⟨rfl, by simpa using other⟩) (by simp)

theorem HoldsAs.of_earlier {directory child : NodeRef} {name own : String}
    (holdsAs : after.HoldsAs directory name child own)
    (here : before.Holds directory name child)
    (names : ∀ outline, after.outline? child = some outline →
      ∃ earlier, before.outline? child = some earlier ∧ outline.name = earlier.name) :
    before.HoldsAs directory name child own := by
  obtain ⟨outline, there, called⟩ := holdsAs.called
  obtain ⟨earlier, earlierThere, same⟩ := names outline there
  exact ⟨here, earlier, earlierThere, same.symm.trans called⟩

/-- A node that is held under a name other than its own was so before an operation, or the operation
has just added it. -/
theorem Reshaped.holdsAs (reshaped : Reshaped before after operation) (agree : before.LinksAgree)
    (distinct : before.IsDistinct) {directory child : NodeRef} {name own : String}
    (holdsAs : after.HoldsAs directory name child own) (apart : own ≠ name) :
    before.HoldsAs directory name child own ∨
      (operation = .add directory name child ∧ ¬ before.Holds directory name child ∧
        ∃ outline, before.outline? child = some outline ∧ outline.name = own) := by
  have here := holdsAs.here
  cases reshaped with
  | kept store outlines =>
      refine Or.inl (holdsAs.of_earlier ?_ ?_)
      · exact (holds_of_same (entriesAt_of_congr outlines) _ _ _).mp here
      · exact fun outline there => ⟨outline, (outlines child).symm.trans there, rfl⟩
  | swept store outlines thinned =>
      refine Or.inl (holdsAs.of_earlier ?_ ?_)
      · exact (holds_of_same (entriesAt_of_congr outlines) _ _ _).mp (thinned.holds here)
      · intro outline there
        exact ⟨outline, (outlines child).symm.trans (thinned.outline?_eq there), rfl⟩
  | made store numbered bare orphan outlines =>
      have held := (holds_of_same (entriesAt_of_fresh bare outlines) _ _ _).mp here
      obtain ⟨old, oldThere, -⟩ := agree.inside _ _ _ held
      refine Or.inl (holdsAs.of_earlier held ?_)
      intro outline there
      rw [outlines, if_neg (ne_nextNode oldThere)] at there
      exact ⟨outline, there, rfl⟩
  | attached store found isDirectory outlines =>
      refine Or.inl (holdsAs.of_earlier ?_ ?_)
      · exact (holds_of_same (entriesAt_of_same outlines fun _ _ => rfl) _ _ _).mp here
      · exact fun outline => Outline.exists_earlier Outline.name (outlines child) fun _ => rfl
  | @renamedAlone target newName _ store valid unmoved outlines =>
      have held := (holds_of_same (entriesAt_of_same outlines fun _ _ => rfl) _ _ _).mp here
      refine Or.inl (holdsAs.of_earlier held ?_)
      -- The node was given the name under which it is held.
      have notTarget : child ≠ target := by
        intro same
        subst same
        obtain ⟨outline, there, called⟩ := holdsAs.called
        rw [outlines] at there
        obtain ⟨_, -, renamed⟩ := Option.map_eq_some_iff.mp there
        subst renamed
        rw [if_pos rfl] at called
        exact apart (called.symm.trans (agree.eq_of_unmoved distinct held unmoved).symm)
      exact fun outline => Outline.exists_earlier Outline.name (outlines child)
        fun _ => if_neg notTarget
  | @created _ _ node _ newName _ store found isDirectory valid free numbered named bare inside
      outlines =>
      have changed := entriesAt_of_created found bare outlines fun _ _ => rfl
      rcases (holds_of_insert found free changed _ _ _).mp here with held | ⟨-, atName, atChild⟩
      · obtain ⟨old, oldThere, -⟩ := agree.inside _ _ _ held
        have later := outlines child
        rw [if_neg (ne_nextNode oldThere)] at later
        refine Or.inl (holdsAs.of_earlier held ?_)
        exact fun outline => Outline.exists_earlier Outline.name later fun _ => rfl
      · obtain ⟨outline, there, called⟩ := holdsAs.called
        rw [outlines, if_pos atChild] at there
        cases there
        exact absurd (called.symm.trans (named.trans atName.symm)) apart
  | @added outer graft _ _ newName store found isDirectory there valid free unmet outlines =>
      have names : ∀ outline, after.outline? child = some outline →
          ∃ earlier, before.outline? child = some earlier ∧ outline.name = earlier.name :=
        fun outline => Outline.exists_earlier Outline.name (outlines child) fun _ => rfl
      have changed := entriesAt_of_rebound found outlines fun _ _ => rfl
      rcases (holds_of_insert found free changed _ _ _).mp here with
        held | ⟨atDirectory, atName, atChild⟩
      · exact Or.inl (holdsAs.of_earlier held names)
      · subst atDirectory atName atChild
        obtain ⟨outline, laterThere, called⟩ := holdsAs.called
        obtain ⟨earlier, earlierThere, same⟩ := names outline laterThere
        refine Or.inr ⟨rfl, ?_, earlier, earlierThere, same.symm.trans called⟩
        intro held
        rw [holds_iff_entriesAt, entriesAt_of_outline? found, free] at held
        cases held
  | @moved _ holder movedChild target _ old new store found isDirectory valid present free
      sameNumber outlines =>
      have movedHeld : before.Holds holder old movedChild := by
        rw [holds_iff_entriesAt, entriesAt_of_outline? found, present]
      -- The node that is named is the one whose entry moves.
      have named : target = movedChild := by
        obtain ⟨outline, there, -⟩ := agree.inside _ _ _ movedHeld
        rw [there, Option.map_some] at sameNumber
        obtain ⟨other, otherThere, sameId⟩ := Option.map_eq_some_iff.mp sameNumber
        exact distinct _ _ _ _ otherThere there sameId
      have changed := entriesAt_of_rebound found outlines fun _ _ => rfl
      rcases (holds_of_move found present free changed _ _ _).mp here with
        ⟨held, notOld⟩ | ⟨-, atName, atChild⟩
      · have notTarget : child ≠ target := by
          intro same
          have atMoved := same.trans named
          subst atMoved
          obtain ⟨outline, there, inHolder⟩ := agree.inside _ _ _ movedHeld
          obtain ⟨again, thereAgain, inDirectory⟩ := agree.inside _ _ _ held
          cases there.symm.trans thereAgain
          cases inHolder.symm.trans inDirectory
          exact notOld ⟨rfl, agree.once _ _ _ _ held movedHeld⟩
        refine Or.inl (holdsAs.of_earlier held ?_)
        exact fun outline => Outline.exists_earlier Outline.name (outlines child)
          fun _ => if_neg notTarget
      · obtain ⟨outline, there, called⟩ := holdsAs.called
        rw [outlines] at there
        obtain ⟨_, -, renamed⟩ := Option.map_eq_some_iff.mp there
        subst renamed
        rw [if_pos (atChild.trans named.symm)] at called
        exact absurd (called.symm.trans atName.symm) apart
  | removed store found isDirectory present removable outlines thinned =>
      have changed := entriesAt_of_rebound found outlines fun _ _ => rfl
      refine Or.inl (holdsAs.of_earlier ?_ ?_)
      · exact ((holds_of_erase found changed _ _ _).mp (thinned.holds here)).1
      · intro outline there
        exact Outline.exists_earlier Outline.name (outlines child) (fun _ => rfl)
          (thinned.outline?_eq there)

end Tree

namespace World

/-! ## Runs -/

/-- In a run, a directory took in a node under one name while the node was called `own`, and ever
since it has held the node under that name and the node has been called so. -/
def AddedAs (world : World) (operations : List (Clock × Operation)) (directory : NodeRef)
    (name : String) (child : NodeRef) (own : String) : Prop :=
  ∃ before clock behind, operations = before ++ (clock, .add directory name child) :: behind ∧
    ((world.run before).outcome clock (.add directory name child)).ending = .ok .done ∧
    (∃ outline, (world.run before).tree.outline? child = some outline ∧ outline.name = own) ∧
    ∀ first, first <+: behind →
      (world.run (before ++ (clock, .add directory name child) :: first)).tree.HoldsAs directory
        name child own

variable {directory child : NodeRef} {name own : String}

theorem AddedAs.holdsAs {world : World} {operations : List (Clock × Operation)}
    (addedAs : world.AddedAs operations directory name child own) :
    (world.run operations).tree.HoldsAs directory name child own := by
  obtain ⟨before, clock, behind, split, -, -, since⟩ := addedAs
  rw [split]
  exact since behind List.prefix_rfl

theorem AddedAs.concat {world : World} {operations : List (Clock × Operation)}
    (addedAs : world.AddedAs operations directory name child own) {timed : Clock × Operation}
    (holdsAs : (world.run (operations ++ [timed])).tree.HoldsAs directory name child own) :
    world.AddedAs (operations ++ [timed]) directory name child own := by
  obtain ⟨before, clock, behind, split, done, called, since⟩ := addedAs
  refine ⟨before, clock, behind ++ [timed], ?_, done, called, ?_⟩
  · rw [split, List.append_assoc, List.cons_append]
  · intro first isPrefix
    rcases List.prefix_concat_iff.mp isPrefix with whole | earlier
    · rw [whole, ← List.cons_append, ← List.append_assoc, ← split]
      exact holdsAs
    · exact since first earlier

/-- An addition that changes something succeeds. -/
theorem done_of_add {world : World} {clock : Clock}
    (unheld : ¬ world.tree.Holds directory name child)
    (holdsAs : (world.step clock (.add directory name child)).tree.HoldsAs directory name child own) :
    (world.outcome clock (.add directory name child)).ending = .ok .done := by
  have effect := world.effect_outcome clock (.add directory name child)
  have here := holdsAs.here
  change (world.outcome clock (.add directory name child)).tree.Holds directory name child at here
  generalize world.outcome clock (.add directory name child) = outcome at effect here
  cases effect with
  | refused | stalled => exact absurd here unheld
  | added => rfl
  | readContent reads | readSnapshot reads | readFresh reads => cases reads

theorem namesValid_run (policy : Policy) (blueprint : Blueprint) (ids : IdSource)
    (start : UInt32) (operations : List (Clock × Operation)) :
    ((fresh policy blueprint ids start).run operations).tree.NamesValid := by
  have initially : (fresh policy blueprint ids start).tree.NamesValid := by
    intro directory name child here
    exact absurd ⟨name, here⟩ (Tree.not_owns_ofRoot blueprint ids start directory child)
  refine run_induction Tree.NamesValid (fun tree setting operation valid (_ : True) => ?_)
    initially (respects_of_forall (fun _ _ => trivial) _ operations)
  exact (Tree.effect_perform tree setting operation).reshaped.namesValid valid

/-- While additions take in what no directory holds, entries and parent links agree. -/
theorem linksAgree_run {world : World} (wooded : world.tree.IsWooded)
    {operations : List (Clock × Operation)}
    (plain : world.Respects (fun tree operation => operation.isPlain tree = true) operations) :
    (world.run operations).tree.LinksAgree :=
  (run_induction Tree.IsWooded (fun _ setting _ wooded plain => wooded.perform setting plain) wooded
    plain).agree

/-- What a directory holds under a name other than its own was added so. -/
theorem holdsAs_iff_addedAs {world : World} (wooded : world.tree.IsWooded)
    (bare : ∀ directory name child, ¬ world.tree.Holds directory name child)
    {operations : List (Clock × Operation)}
    (plain : world.Respects (fun tree operation => operation.isPlain tree = true) operations)
    (distinct : world.Respects (fun tree _ => tree.IsDistinct) operations) (apart : own ≠ name) :
    (world.run operations).tree.HoldsAs directory name child own ↔
      world.AddedAs operations directory name child own := by
  refine ⟨fun holdsAs => ?_, AddedAs.holdsAs⟩
  induction operations using List.reverseRecOn with
  | nil => exact absurd holdsAs.here (bare directory name child)
  | append_singleton operations timed inductionHypothesis =>
      obtain ⟨clock, operation⟩ := timed
      obtain ⟨plainBefore, -⟩ := respects_append_iff.mp plain
      obtain ⟨distinctBefore, distinctHere, -⟩ := respects_append_iff.mp distinct
      have agree := linksAgree_run wooded plainBefore
      have reshaped := ((world.run operations).effect_outcome clock operation).reshaped
      have later := holdsAs
      rw [run_concat] at later
      rcases reshaped.holdsAs agree distinctHere later apart with earlier | ⟨isAdd, unheld, called⟩
      · exact (inductionHypothesis plainBefore distinctBefore earlier).concat holdsAs
      · subst isAdd
        refine ⟨operations, clock, [], rfl, done_of_add unheld later, called, ?_⟩
        intro first isPrefix
        rw [List.prefix_nil.mp isPrefix]
        exact holdsAs

/-! ## What a client sees -/

/-- These are the records of a directory that is read: their names are the names in the directory,
in the same order, and whoever may look names up in it finds under each of them the node that the
record is about. -/
structure ShowsNames (world : World) (directory : NodeRef) (node : Node)
    (entries : Entries NodeRef) (stats : List Stat) : Prop where
  names : stats.map Stat.name = entries.names
  found : ∀ stat ∈ stats, ∀ user clock,
    world.policy.allows world.asked ⟨node.owner = user, node.mode, .execute⟩ = true →
      ∃ child childNode,
        (world.outcome clock (.walk directory user stat.name)).ending = .ok (.node (some child)) ∧
        world.tree.node? child = some childNode ∧ childNode.id = stat.qid.path

end World

namespace Tree

variable {tree : Tree} {directory : NodeRef} {node : Node} {entries : Entries NodeRef}

theorem names_listed (sound : tree.IsSound)
    (found : tree.directory? directory = some (node, entries)) :
    (tree.listed entries).map Prod.fst = entries.names := by
  rw [listed, List.map_filterMap, Entries.names, ← List.filterMap_eq_map]
  refine List.filterMap_congr fun entry member => ?_
  have present := Entries.mem_toList_iff.mp member
  obtain ⟨outline, outlineThere⟩ :=
    sound.child directory entry.1 entry.2 ⟨node, entries, found, present⟩
  obtain ⟨child, there, -⟩ := Option.map_eq_some_iff.mp outlineThere
  rw [there]
  rfl

/-- A valid name is shown exactly if it is the stored name. -/
theorem shownName_eq_iff {child : Node} {name : String} (valid : Name.isValid name = true) :
    child.shownName = name ↔ child.name = name := by
  constructor
  · intro shown
    by_contra other
    exact Node.shownName_ne_of_isValid valid other shown
  · intro stored
    subst stored
    exact Node.shownName_of_isValid child valid

/-- A directory shows its names exactly if none is other than the name of what it holds. -/
theorem names_eq_iff (sound : tree.IsSound) (valid : tree.NamesValid)
    (found : tree.directory? directory = some (node, entries)) :
    ((tree.listed entries).map Prod.snd).map Stat.name = entries.names ↔
      ∀ name child own, tree.HoldsAs directory name child own → own = name := by
  have lists := sound.lists found
  rw [← names_listed sound found, List.map_map, List.map_inj_left]
  constructor
  · intro same name child own holdsAs
    obtain ⟨here, outline, outlineThere, called⟩ := holdsAs
    obtain ⟨childNode, there, rfl⟩ := Option.map_eq_some_iff.mp outlineThere
    have shown := same (name, childNode.stat)
      ((lists.mem_iff _ _).mpr ⟨child, childNode, here, there, rfl⟩)
    rw [← called]
    exact (shownName_eq_iff (valid _ _ _ here)).mp shown
  · intro agree entry member
    obtain ⟨child, childNode, here, there, shown⟩ := (lists.mem_iff _ _).mp member
    have stored : childNode.name = entry.1 := agree entry.1 child childNode.name
      ⟨here, childNode.outline, by rw [outline?, there, Option.map_some], rfl⟩
    rw [Function.comp_apply, shown]
    exact (shownName_eq_iff (valid _ _ _ here)).mpr stored

theorem lookUp_of_isValid {name : String} (valid : Name.isValid name = true) :
    tree.lookUp directory entries name = entries.find? name := by
  unfold lookUp
  rw [if_neg (Name.ne_dot_of_isValid valid), if_neg (Name.ne_dots_of_isValid valid)]

/-- Whoever may look names up finds what the name stands for. -/
theorem ending_walk_of_granted {setting : Setting} {user : String}
    (found : tree.directory? directory = some (node, entries))
    (granted : (setting.check node user .execute).granted = true) (name : String) :
    (tree.walk setting directory user name).ending = .ok (tree.lookUp directory entries name) := by
  simp only [walk, found, granted, Bool.not_true, Bool.false_eq_true, if_false]
  rfl

/-- A name of an entry leads to what is under it. -/
theorem walk_of_granted (setting : Setting) {user name : String}
    (found : tree.directory? directory = some (node, entries))
    (granted : (setting.check node user .execute).granted = true)
    (valid : Name.isValid name = true) :
    (tree.walk setting directory user name).ending = .ok (entries.find? name) := by
  rw [ending_walk_of_granted found granted, lookUp_of_isValid valid]

end Tree

namespace World

/-- A directory whose names are those of its nodes shows them. -/
theorem showsNames_of_names {world : World} {directory : NodeRef} {node : Node}
    {entries : Entries NodeRef} (sound : world.tree.IsSound) (valid : world.tree.NamesValid)
    (found : world.tree.directory? directory = some (node, entries))
    (same : ((world.tree.listed entries).map Prod.snd).map Stat.name = entries.names) :
    world.ShowsNames directory node entries ((world.tree.listed entries).map Prod.snd) := by
  refine ⟨same, ?_⟩
  intro stat member user clock granted
  obtain ⟨entry, listed, isStat⟩ := List.mem_map.mp member
  subst isStat
  have lists := sound.lists found
  have named : entry.2.name = entry.1 := by
    rw [← Tree.names_listed sound found, List.map_map, List.map_inj_left] at same
    exact same entry listed
  obtain ⟨child, childNode, here, there, shown⟩ := (lists.mem_iff _ _).mp listed
  have walked := Tree.walk_of_granted ⟨world.policy, world.asked, clock⟩ found granted
    (valid _ _ _ here)
  refine ⟨child, childNode, ?_, there, ?_⟩
  · obtain ⟨_, _, again, present⟩ := here
    cases found.symm.trans again
    rw [outcome, Tree.perform, Outcome.map, named, walked, present]
    rfl
  · rw [shown]
    rfl

/-- No place of a node is ever used again. -/
theorem size_le_run (world : World) (operations : List (Clock × Operation)) :
    world.tree.nodes.size ≤ (world.run operations).tree.nodes.size := by
  induction operations generalizing world with
  | nil => exact Nat.le_refl _
  | cons timed rest inductionHypothesis =>
      have reshaped := (world.effect_outcome timed.1 timed.2).reshaped
      exact Nat.le_trans reshaped.size_le (inductionHypothesis (world.step timed.1 timed.2))

/-- As long as the numbers of a counting source do not wrap around, each node of a run has its
own. -/
theorem respects_isDistinct {world : World} {first : UInt64}
    (numbered : world.tree.IsNumbered first) {operations : List (Clock × Operation)}
    (few : (world.run operations).tree.nodes.size < UInt64.size) :
    world.Respects (fun tree _ => tree.IsDistinct) operations := by
  induction operations generalizing world with
  | nil => exact trivial
  | cons timed rest inductionHypothesis =>
      have reshaped := (world.effect_outcome timed.1 timed.2).reshaped
      have fewHere := Nat.lt_of_le_of_lt (size_le_run world (timed :: rest)) few
      exact ⟨numbered.isDistinct fewHere, inductionHypothesis (reshaped.isNumbered numbered) few⟩

/-- A directory of a run shows its names, and everything is found under the name that it shows,
exactly if the directory holds no node that was added under a name other than its own and has kept
both names since. -/
theorem showsNames_iff_calledSo (policy : Policy) (blueprint : Blueprint) (ids : IdSource)
    (start : UInt32) (operations : List (Clock × Operation))
    (plain : (fresh policy blueprint ids start).Respects
      (fun tree operation => operation.isPlain tree = true) operations)
    (distinct : (fresh policy blueprint ids start).Respects (fun tree _ => tree.IsDistinct)
      operations)
    {directory : NodeRef} {node : Node} {entries : Entries NodeRef}
    (found : ((fresh policy blueprint ids start).run operations).tree.directory? directory =
      some (node, entries))
    (encodable : ∀ name child childNode,
      ((fresh policy blueprint ids start).run operations).tree.Holds directory name child →
      ((fresh policy blueprint ids start).run operations).tree.node? child = some childNode →
        ∃ bytes, childNode.stat.encode = .ok bytes) :
    let world := (fresh policy blueprint ids start).run operations
    ∃ bytes stats, world.tree.listing entries = .ok bytes ∧ Stat.decodeAll bytes = .ok stats ∧
      (world.ShowsNames directory node entries stats ↔
        ∀ name child own, (fresh policy blueprint ids start).AddedAs operations directory name
          child own → own = name) := by
  intro world
  have sound := isSound_run policy blueprint ids start operations
  have valid : world.tree.NamesValid := namesValid_run policy blueprint ids start operations
  have lists := sound.lists found
  have bare : ∀ directory name child,
      ¬ (fresh policy blueprint ids start).tree.Holds directory name child :=
    fun directory name child here =>
      Tree.not_owns_ofRoot blueprint ids start directory child ⟨name, here⟩
  have wooded := Tree.isWooded_ofRoot blueprint ids start
  have allEncodable : ∀ stat ∈ (world.tree.listed entries).map Prod.snd,
      ∃ bytes, stat.encode = .ok bytes := by
    intro stat member
    obtain ⟨entry, listed, isStat⟩ := List.mem_map.mp member
    obtain ⟨child, childNode, here, there, shown⟩ := (lists.mem_iff _ _).mp listed
    rw [← isStat, shown]
    exact encodable entry.1 child childNode here there
  obtain ⟨pieces, encodings⟩ := Stat.exists_encodings allEncodable
  refine ⟨pieces.flatten, _, ?_, Stat.decodeAll_of_encodings encodings, ?_⟩
  · rw [Tree.listing_eq_encodeAll]
    exact Stat.encodeAll_of_encodings encodings
  · constructor
    · intro shows name child own addedAs
      exact (Tree.names_eq_iff sound valid found).mp shows.names name child own addedAs.holdsAs
    · intro calledSo
      refine showsNames_of_names sound valid found ?_
      refine (Tree.names_eq_iff sound valid found).mpr fun name child own holdsAs => ?_
      by_contra apart
      have addedAs := (holdsAs_iff_addedAs wooded bare plain distinct apart).mp holdsAs
      exact apart (calledSo name child own addedAs)

/-- A file is added to the root under a name that is not its own. -/
def addedOtherwise : List (Clock × Operation) :=
  [(1, .makeFile ⟨"m", ⟨0o644⟩, "o", "g"⟩ []), (2, .add ⟨0⟩ "k" ⟨1⟩)]

/-- The root has the name `k`, its listing shows `m`, and `m` leads nowhere. -/
theorem not_found_of_addedOtherwise :
    let world := (fresh .allowAll ⟨"", ⟨0o755⟩, "o", "g"⟩ .sequential 0).run addedOtherwise
    (fresh .allowAll ⟨"", ⟨0o755⟩, "o", "g"⟩ .sequential 0).Respects
        (fun tree operation => operation.isPlain tree = true) addedOtherwise ∧
      ∃ node entries bytes stats, world.tree.directory? ⟨0⟩ = some (node, entries) ∧
        entries.names = ["k"] ∧ world.tree.listing entries = .ok bytes ∧
        Stat.decodeAll bytes = .ok stats ∧ stats.map Stat.name = ["m"] ∧
        (world.outcome 3 (.walk ⟨0⟩ "o" "m")).ending = .ok (.node none) := by
  intro world
  refine ⟨by decide +kernel, _, _, _, _, rfl, rfl, rfl, rfl, rfl, rfl⟩

/-- The directory then gives the file another name, which is the name of both from then on. -/
def renamedAfterwards : List (Clock × Operation) :=
  addedOtherwise ++ [(3, .rename ⟨0⟩ "o" "k" "b")]

/-- The root has the name `b`, its listing shows `b`, and everybody finds the file under it. -/
theorem showsNames_of_renamedAfterwards :
    let start := fresh .allowAll ⟨"", ⟨0o755⟩, "o", "g"⟩ .sequential 0
    let world := start.run renamedAfterwards
    ∃ node entries, (start.Respects (fun tree operation => operation.isPlain tree = true)
          renamedAfterwards ∧
        start.Respects (fun tree _ => tree.IsDistinct) renamedAfterwards ∧
        world.tree.directory? ⟨0⟩ = some (node, entries) ∧
        ∀ name child childNode, world.tree.Holds ⟨0⟩ name child →
          world.tree.node? child = some childNode → ∃ bytes, childNode.stat.encode = .ok bytes) ∧
      entries.names = ["b"] ∧
      ∃ bytes stats, world.tree.listing entries = .ok bytes ∧ Stat.decodeAll bytes = .ok stats ∧
        world.ShowsNames ⟨0⟩ node entries stats := by
  intro start world
  have plain : start.Respects (fun tree operation => operation.isPlain tree = true)
      renamedAfterwards := by decide +kernel
  have distinct : start.Respects (fun tree _ => tree.IsDistinct) renamedAfterwards :=
    respects_isDistinct (Tree.isNumbered_ofRoot ⟨"", ⟨0o755⟩, "o", "g"⟩ 1 0) (by decide +kernel)
  have found : ∃ node entries, world.tree.directory? ⟨0⟩ = some (node, entries) ∧
      entries.toList = [("b", ⟨1⟩)] := ⟨_, _, rfl, rfl⟩
  have file : ∃ node, world.tree.node? ⟨1⟩ = some node ∧ node.name = "b" ∧
      ∃ bytes, node.stat.encode = .ok bytes := ⟨_, rfl, rfl, _, rfl⟩
  obtain ⟨node, entries, found, single⟩ := found
  obtain ⟨fileNode, fileThere, fileName, encoded⟩ := file
  -- The root holds nothing but the file, as `b`.
  have only : ∀ name child, world.tree.Holds ⟨0⟩ name child → name = "b" ∧ child = ⟨1⟩ := by
    rintro name child ⟨_, others, again, present⟩
    cases found.symm.trans again
    have member := Entries.mem_toList_iff.mpr present
    rw [single] at member
    exact Prod.mk.inj (List.mem_singleton.mp member)
  have encodable : ∀ name child childNode, world.tree.Holds ⟨0⟩ name child →
      world.tree.node? child = some childNode → ∃ bytes, childNode.stat.encode = .ok bytes := by
    intro name child childNode here there
    obtain ⟨-, isFile⟩ := only name child here
    subst isFile
    cases fileThere.symm.trans there
    exact encoded
  have names : entries.names = ["b"] := congrArg (List.map Prod.fst) single
  refine ⟨node, entries, ⟨plain, distinct, found, encodable⟩, names, ?_⟩
  obtain ⟨bytes, stats, listing, decoded, shows⟩ := showsNames_iff_calledSo .allowAll
    ⟨"", ⟨0o755⟩, "o", "g"⟩ .sequential 0 renamedAfterwards plain distinct found encodable
  refine ⟨bytes, stats, listing, decoded, shows.mpr ?_⟩
  intro name child own addedAs
  obtain ⟨here, outline, there, called⟩ := addedAs.holdsAs
  obtain ⟨sameName, isFile⟩ := only name child here
  subst isFile
  rw [Tree.outline?, fileThere] at there
  cases there
  exact called.symm.trans (fileName.trans sameName.symm)

end World

end MemFs
