import MemFs.Proofs.Tree.Ancestry
import MemFs.Proofs.Tree.Holding
import MemFs.Proofs.Tree.Run

/-!
# Circles of entries

A circle is a directory that reaches itself by entries. No operation breaks a circle, and the only
one that closes a circle is an addition of a node from which the directory can be reached. Additions
look for the node on the way up the parent links instead, which is another way where a node is held
by several directories.
-/

namespace MemFs.Tree

/-- Some directory reaches itself by entries. -/
def HasCircle (tree : Tree) : Prop :=
  ∃ directory, Relation.TransGen tree.Owns directory directory

/-! ## One more link in a relation -/

section Link

variable {α : Type} {earlier later : α → α → Prop} {source target : α}

private theorem transGen_of_link
    (links : ∀ first second, later first second →
      earlier first second ∨ (first = source ∧ second = target))
    {start finish : α} (path : Relation.TransGen later start finish) :
    Relation.ReflTransGen earlier target source ∨
      Relation.TransGen earlier start finish ∨
        (Relation.ReflTransGen earlier start source ∧
          Relation.ReflTransGen earlier target finish) := by
  induction path with
  | single link =>
      rcases links _ _ link with old | ⟨atSource, atTarget⟩
      · exact Or.inr (Or.inl (Relation.TransGen.single old))
      · subst atSource
        subst atTarget
        exact Or.inr (Or.inr ⟨Relation.ReflTransGen.refl, Relation.ReflTransGen.refl⟩)
  | tail _ link inductionHypothesis =>
      rcases inductionHypothesis with closes | direct | ⟨before, behind⟩
      · exact Or.inl closes
      · rcases links _ _ link with old | ⟨atSource, atTarget⟩
        · exact Or.inr (Or.inl (direct.tail old))
        · subst atSource
          subst atTarget
          exact Or.inr (Or.inr ⟨direct.to_reflTransGen, Relation.ReflTransGen.refl⟩)
      · rcases links _ _ link with old | ⟨atSource, atTarget⟩
        · exact Or.inr (Or.inr ⟨before, behind.tail old⟩)
        · subst atSource
          exact Or.inl behind

/-- A new link closes a circle exactly if there was a way from its end to its start. -/
theorem exists_transGen_iff_of_link
    (links : ∀ first second, later first second ↔
      earlier first second ∨ (first = source ∧ second = target)) :
    (∃ start, Relation.TransGen later start start) ↔
      (∃ start, Relation.TransGen earlier start start) ∨
        Relation.ReflTransGen earlier target source := by
  have kept : ∀ first second, earlier first second → later first second :=
    fun first second old => (links first second).mpr (Or.inl old)
  constructor
  · intro circle
    obtain ⟨start, path⟩ := circle
    rcases transGen_of_link (fun first second => (links first second).mp) path with
      closes | direct | ⟨before, behind⟩
    · exact Or.inr closes
    · exact Or.inl ⟨start, direct⟩
    · exact Or.inr (behind.trans before)
  · intro either
    rcases either with ⟨start, path⟩ | way
    · exact ⟨start, Relation.TransGen.mono kept _ _ path⟩
    · have link : later source target := (links source target).mpr (Or.inr ⟨rfl, rfl⟩)
      exact ⟨source, Relation.TransGen.head' link (Relation.ReflTransGen.mono kept _ _ way)⟩

end Link

/-! ## What an operation does to circles -/

theorem hasCircle_congr {before after : Tree}
    (same : ∀ directory child, after.Owns directory child ↔ before.Owns directory child) :
    after.HasCircle ↔ before.HasCircle := by
  have sameRelation : after.Owns = before.Owns :=
    funext fun directory => funext fun child => propext (same directory child)
  rw [HasCircle, HasCircle, sameRelation]

theorem Thinned.hasCircle_iff {before after : Tree} (thinned : Thinned before after) :
    after.HasCircle ↔ before.HasCircle := by
  constructor
  · intro circle
    obtain ⟨directory, path⟩ := circle
    exact ⟨directory, Relation.TransGen.mono (fun _ _ => thinned.owns) _ _ path⟩
  · intro circle
    obtain ⟨directory, path⟩ := circle
    exact ⟨directory, thinned.transGen_owns path⟩

/-- A circle does not go through a link to a node without entries. -/
theorem hasCircle_of_leaf {before after : Tree} {leaf : NodeRef}
    (bare : ∀ child, ¬ before.Owns leaf child)
    (kept : ∀ directory child, before.Owns directory child → child ≠ leaf →
      after.Owns directory child) (circle : before.HasCircle) : after.HasCircle := by
  obtain ⟨directory, path⟩ := circle
  have notLeaf : ∀ start finish, Relation.TransGen before.Owns start finish → start ≠ leaf := by
    intro start finish way atLeaf
    obtain ⟨next, link, -⟩ := Relation.TransGen.head'_iff.mp way
    exact bare next (atLeaf ▸ link)
  have lift : ∀ finish, Relation.TransGen before.Owns directory finish →
      finish ≠ leaf → Relation.TransGen after.Owns directory finish := by
    intro finish way
    induction way with
    | single link =>
        intro inner
        exact Relation.TransGen.single (kept _ _ link inner)
    | tail _ link inductionHypothesis =>
        intro inner
        have middle := notLeaf _ _ (Relation.TransGen.single link)
        exact (inductionHypothesis middle).tail (kept _ _ link inner)
  exact ⟨directory, lift directory path (notLeaf _ _ path)⟩

variable {before after : Tree}

/-- Only additions close circles, and nothing opens them. -/
theorem Reshaped.hasCircle_iff {operation : Operation} (reshaped : Reshaped before after operation)
    (notAdded : ∀ directory name graft, operation ≠ .add directory name graft) :
    after.HasCircle ↔ before.HasCircle := by
  cases reshaped with
  | kept store outlines => exact hasCircle_congr (owns_of_same (entriesAt_of_congr outlines))
  | swept store outlines thinned =>
      rw [thinned.hasCircle_iff]
      exact hasCircle_congr (owns_of_same (entriesAt_of_congr outlines))
  | made store numbered bare orphan outlines =>
      exact hasCircle_congr (owns_of_same (entriesAt_of_fresh bare outlines))
  | attached store found isDirectory outlines =>
      exact hasCircle_congr (owns_of_same (entriesAt_of_same outlines fun _ _ => rfl))
  | renamedAlone store valid unmoved outlines =>
      exact hasCircle_congr (owns_of_same (entriesAt_of_same outlines fun _ _ => rfl))
  | @created directory _ _ _ name _ store found isDirectory valid free numbered named bare inside
      outlines =>
      have changed := entriesAt_of_created found bare outlines fun _ _ => rfl
      have closes := exists_transGen_iff_of_link (owns_of_insert found free changed)
      rw [HasCircle, HasCircle, closes, or_iff_left]
      intro way
      -- The new node owns nothing, so there is no way from it to another node.
      rcases Relation.ReflTransGen.cases_head way with same | ⟨next, link, -⟩
      · exact ne_nextNode found same.symm
      · refine not_owns_of_empty ?_ link
        intro outline there
        rw [outline?_nextNode] at there
        cases there
  | added => exact absurd rfl (notAdded _ _ _)
  | moved store found isDirectory valid present free sameNumber outlines =>
      have changed := entriesAt_of_rebound found outlines fun _ _ => rfl
      exact hasCircle_congr (owns_of_move found present free changed)
  | @removed directory child _ _ _ _ store found isDirectory present removable outlines thinned =>
      rw [thinned.hasCircle_iff]
      have changed := entriesAt_of_rebound found outlines fun _ _ => rfl
      constructor
      · intro circle
        obtain ⟨start, path⟩ := circle
        refine ⟨start, Relation.TransGen.mono ?_ _ _ path⟩
        intro holder held link
        obtain ⟨name, here⟩ := link
        exact ⟨name, ((holds_of_erase found changed holder held name).mp here).1⟩
      · refine hasCircle_of_leaf (fun _ => not_owns_of_empty removable) ?_
        intro holder held link notChild
        obtain ⟨name, here⟩ := link
        refine ⟨name, (holds_of_erase found changed holder held name).mpr ⟨here, ?_⟩⟩
        intro erased
        obtain ⟨atDirectory, atName⟩ := erased
        subst atDirectory
        subst atName
        rw [holds_iff_entriesAt, entriesAt_of_outline? found, present] at here
        cases here
        exact notChild rfl

/-- An addition either fails and does nothing, or closes the circles through its new entry. -/
theorem hasCircle_add_iff (tree : Tree) (setting : Setting) (directory graft : NodeRef)
    (name : String) :
    (tree.perform setting (.add directory name graft)).tree.HasCircle ↔
      tree.HasCircle ∨
        ((tree.perform setting (.add directory name graft)).ending = .ok .done ∧
          Relation.ReflTransGen tree.Owns graft directory) := by
  have effect := effect_perform tree setting (.add directory name graft)
  generalize tree.perform setting (.add directory name graft) = outcome at effect
  cases effect with
  | refused => simp
  | stalled => simp [stall]
  | added _ found there valid unmet free =>
      obtain ⟨outerThere, -, same⟩ := outline?_of_directory? found
      subst same
      have changed := entriesAt_of_rebound outerThere
        (outline?_added tree setting.clock name graft found) fun _ _ => rfl
      have closes := exists_transGen_iff_of_link (owns_of_insert outerThere free changed)
      simpa only [HasCircle, true_and] using closes
  | readContent reads => cases reads
  | readSnapshot reads => cases reads
  | readFresh reads => cases reads

/-- An operation closes a circle exactly if it adds to a directory, with success, a node from which
it can be reached. -/
theorem hasCircle_perform_iff (tree : Tree) (setting : Setting) (operation : Operation) :
    (tree.perform setting operation).tree.HasCircle ↔
      tree.HasCircle ∨ ∃ directory name graft, operation = .add directory name graft ∧
        (tree.perform setting operation).ending = .ok .done ∧
        Relation.ReflTransGen tree.Owns graft directory := by
  by_cases added : ∃ directory name graft, operation = .add directory name graft
  · obtain ⟨directory, name, graft, same⟩ := added
    subst same
    rw [hasCircle_add_iff]
    refine or_congr_right ?_
    constructor
    · intro closes
      exact ⟨directory, name, graft, rfl, closes⟩
    · intro closes
      obtain ⟨_, _, _, same, closing⟩ := closes
      cases same
      exact closing
  · have reshaped := (effect_perform tree setting operation).reshaped
    rw [reshaped.hasCircle_iff, or_iff_left]
    · intro closes
      obtain ⟨directory, name, graft, same, -⟩ := closes
      exact added ⟨directory, name, graft, same⟩
    · intro directory name graft same
      exact added ⟨directory, name, graft, same⟩

theorem directory_of_added {tree : Tree} {setting : Setting} {directory graft : NodeRef}
    {name : String}
    (done : (tree.perform setting (.add directory name graft)).ending = .ok .done) :
    (tree.directory? directory).isSome = true ∧ Name.isValid name = true := by
  have effect := effect_perform tree setting (.add directory name graft)
  generalize tree.perform setting (.add directory name graft) = outcome at effect done
  cases effect with
  | refused | stalled => cases done
  | added _ found there valid =>
      rw [found]
      exact ⟨rfl, valid⟩
  | readContent reads => cases reads
  | readSnapshot reads => cases reads
  | readFresh reads => cases reads

/-- Adding to a directory a node from which it can be reached is refused as a circle exactly if the
node is on the way up from the directory. -/
theorem add_wouldCycle_iff {tree : Tree} {directory graft : NodeRef} {name : String}
    (setting : Setting) (isDirectory : (tree.directory? directory).isSome = true)
    (valid : Name.isValid name = true)
    (reached : Relation.ReflTransGen tree.Owns graft directory) :
    ((tree.perform setting (.add directory name graft)).ending = .error .wouldCycle ∧
        (tree.perform setting (.add directory name graft)).tree = tree) ↔
      Relation.ReflTransGen tree.Ascends directory graft := by
  obtain ⟨⟨outer, entries⟩, found⟩ := Option.isSome_iff_exists.mp isDirectory
  have outerThere := (directory?_eq_some_iff.mp found).1
  have graftFound : ∃ node held, tree.directory? graft = some (node, held) := by
    rcases Relation.ReflTransGen.cases_head reached with same | ⟨next, ⟨_, node, held, here, -⟩, -⟩
    · exact ⟨outer, entries, same ▸ found⟩
    · exact ⟨node, held, here⟩
  obtain ⟨node, held, graftDirectory⟩ := graftFound
  obtain ⟨graftThere, body⟩ := directory?_eq_some_iff.mp graftDirectory
  have kind : node.kind = .directory := by
    rw [Node.kind, body]
  rw [← search_eq_found_iff outerThere]
  cases searched : tree.search directory graft with
  | found =>
      simp [perform, add, found, graftThere, valid, kind, searched, refuse, Outcome.map, Ending.map]
  | endless =>
      simp [perform, add, found, graftThere, valid, kind, searched, stall, Outcome.map, Ending.map]
  | missed =>
      cases taken : entries.contains name with
      | true =>
          simp [perform, add, found, graftThere, valid, searched, taken, refuse, Outcome.map,
            Ending.map]
      | false =>
          simp [perform, add, found, graftThere, valid, searched, taken, accept, Outcome.map,
            Ending.map]

end MemFs.Tree

/-! ## Circles along a run -/

namespace MemFs.World

/-- This operation adds to a directory, with success, a node from which it can be reached. -/
def ClosesCircle (world : World) (clock : Clock) (operation : Operation) : Prop :=
  ∃ directory name graft, operation = .add directory name graft ∧
    (world.outcome clock operation).ending = .ok .done ∧
    Relation.ReflTransGen world.tree.Owns graft directory

theorem hasCircle_step_iff (world : World) (clock : Clock) (operation : Operation) :
    (world.step clock operation).tree.HasCircle ↔
      world.tree.HasCircle ∨ world.ClosesCircle clock operation :=
  Tree.hasCircle_perform_iff world.tree _ operation

theorem hasCircle_run_iff (world : World) (operations : List (Clock × Operation)) :
    (world.run operations).tree.HasCircle ↔
      world.tree.HasCircle ∨
        ∃ before clock operation behind, operations = before ++ (clock, operation) :: behind ∧
          (world.run before).ClosesCircle clock operation := by
  induction operations generalizing world with
  | nil => simp [run]
  | cons timed rest inductionHypothesis =>
      obtain ⟨first, operation⟩ := timed
      rw [run_cons, inductionHypothesis, hasCircle_step_iff, or_assoc]
      refine or_congr_right ?_
      constructor
      · intro either
        rcases either with closes | ⟨before, clock, later, behind, same, closes⟩
        · exact ⟨[], first, operation, rest, rfl, closes⟩
        · exact ⟨(first, operation) :: before, clock, later, behind, by rw [same]; rfl, closes⟩
      · intro closing
        obtain ⟨before, clock, later, behind, same, closes⟩ := closing
        cases before with
        | nil =>
            cases same
            exact Or.inl closes
        | cons head before =>
            cases same
            exact Or.inr ⟨before, clock, later, behind, rfl, closes⟩

theorem not_hasCircle_fresh (policy : Policy) (blueprint : Blueprint) (ids : IdSource)
    (now : UInt32) : ¬ (fresh policy blueprint ids now).tree.HasCircle := by
  intro circle
  obtain ⟨directory, path⟩ := circle
  obtain ⟨next, link, -⟩ := Relation.TransGen.head'_iff.mp path
  exact Tree.not_owns_ofRoot blueprint ids now directory next link

/-- A tree has a circle exactly if an earlier addition took in a node that reaches the directory by
entries but is not on the way up from it. Such a node on the way up is refused. -/
theorem hasCircle_iff_graft_missed (policy : Policy) (blueprint : Blueprint) (ids : IdSource)
    (start : UInt32) (operations : List (Clock × Operation)) :
    let world := (fresh policy blueprint ids start).run operations
    (world.tree.HasCircle ↔
      ∃ before clock directory name graft behind,
        operations = before ++ (clock, .add directory name graft) :: behind ∧
        let earlier := (fresh policy blueprint ids start).run before
        (earlier.outcome clock (.add directory name graft)).ending = .ok .done ∧
          Relation.ReflTransGen earlier.tree.Owns graft directory ∧
          ¬ Relation.ReflTransGen earlier.tree.Ascends directory graft) ∧
    ∀ clock directory name graft, (world.tree.directory? directory).isSome = true →
      Name.isValid name = true → Relation.ReflTransGen world.tree.Owns graft directory →
        let outcome := world.outcome clock (.add directory name graft)
        (outcome.ending = .error .wouldCycle ∧ outcome.tree = world.tree ↔
          Relation.ReflTransGen world.tree.Ascends directory graft) := by
  intro world
  refine ⟨?_, fun clock directory name graft isDirectory valid reached =>
    Tree.add_wouldCycle_iff _ isDirectory valid reached⟩
  rw [hasCircle_run_iff, or_iff_right (not_hasCircle_fresh policy blueprint ids start)]
  constructor
  · intro closing
    obtain ⟨before, clock, _, behind, split, directory, name, graft, rfl, done, reached⟩ := closing
    refine ⟨before, clock, directory, name, graft, behind, split, done, reached, ?_⟩
    intro upwards
    obtain ⟨isDirectory, valid⟩ := Tree.directory_of_added done
    have contradiction : Ending.ok Answer.done = .error TreeError.wouldCycle :=
      done.symm.trans ((Tree.add_wouldCycle_iff _ isDirectory valid reached).mpr upwards).1
    cases contradiction
  · intro missed
    obtain ⟨before, clock, directory, name, graft, behind, split, done, reached, -⟩ := missed
    exact ⟨before, clock, _, behind, split, directory, name, graft, rfl, done, reached⟩

/-- A directory is taken in twice, so that its parent link forgets the first time. -/
def takenInTwice : List (Clock × Operation) :=
  [(1, .makeDirectory ⟨"x", ⟨0o755⟩, "o", "g"⟩), (2, .makeDirectory ⟨"b", ⟨0o755⟩, "o", "g"⟩),
    (3, .add ⟨0⟩ "x" ⟨1⟩), (4, .add ⟨2⟩ "x" ⟨1⟩), (5, .add ⟨1⟩ "r" ⟨0⟩)]

/-- The root can then be added beneath itself. -/
theorem hasCircle_takenInTwice :
    (∀ timed ∈ takenInTwice, timed.2.isRegular = true) ∧
      ((fresh .allowAll ⟨"", ⟨0o755⟩, "o", "g"⟩ .sequential 0).run takenInTwice).tree.HasCircle := by
  refine ⟨by decide, ⟨0⟩, ?_⟩
  refine (Relation.TransGen.single (b := ⟨1⟩) ⟨"x", ?_⟩).tail ⟨"r", ?_⟩
  · exact ⟨_, _, rfl, rfl⟩
  · exact ⟨_, _, rfl, rfl⟩

theorem wouldCycle_beneath_root :
    let world := (fresh .allowAll ⟨"", ⟨0o755⟩, "o", "g"⟩ .sequential 0).run (takenInTwice.take 3)
    ((world.tree.directory? ⟨1⟩).isSome = true ∧ Name.isValid "r" = true ∧
        Relation.ReflTransGen world.tree.Owns ⟨0⟩ ⟨1⟩) ∧
      (world.outcome 4 (.add ⟨1⟩ "r" ⟨0⟩)).ending = .error .wouldCycle := by
  intro world
  have isDirectory : (world.tree.directory? ⟨1⟩).isSome = true := by decide
  have valid : Name.isValid "r" = true := by decide
  have reached : Relation.ReflTransGen world.tree.Owns ⟨0⟩ ⟨1⟩ :=
    Relation.ReflTransGen.single ⟨"x", _, _, rfl, rfl⟩
  have upwards : Relation.ReflTransGen world.tree.Ascends ⟨1⟩ ⟨0⟩ :=
    Relation.ReflTransGen.single rfl
  have refusals := (hasCircle_iff_graft_missed .allowAll ⟨"", ⟨0o755⟩, "o", "g"⟩ .sequential 0
    (takenInTwice.take 3)).2
  exact ⟨⟨isDirectory, valid, reached⟩,
    ((refusals 4 ⟨1⟩ "r" ⟨0⟩ isDirectory valid reached).mpr upwards).1⟩

end MemFs.World
