import MemFs.Proofs.Tree.Circle
import MemFs.Proofs.Tree.Numbering

/-!
# Forests

A tree is a forest while no node is added that an entry holds already: every node has its own
number, one entry at most, a parent link to the directory with this entry, and no way back to
itself. On a forest, the way up the parent links is the way of the entries, so that additions find
every circle before they close it.
-/

namespace MemFs

/-- An operation that neither sets a parent link directly nor adds a node that is held already. -/
def Operation.isPlain (tree : Tree) : Operation → Bool
  | .attach _ _ => false
  | .add _ _ graft => !tree.isLinked graft
  | _ => true

namespace Tree

structure IsForest (tree : Tree) : Prop where
  distinct : ∀ first second node other, tree.node? first = some node →
    tree.node? second = some other → node.id = other.id → first = second
  heldOnce : ∀ directory other name otherName child, tree.Holds directory name child →
    tree.Holds other otherName child → directory = other ∧ name = otherName
  parentHolds : ∀ directory name child, tree.Holds directory name child →
    tree.parent? child = some directory
  noCircle : ∀ directory, ¬ Relation.TransGen tree.Owns directory directory

/-! ## Entries and parent links -/

/-- The parent link of what a directory holds leads to it, and it holds it under one name. -/
structure LinksAgree (tree : Tree) : Prop where
  inside : ∀ directory name child, tree.Holds directory name child →
    ∃ outline, tree.outline? child = some outline ∧ outline.parent = some directory
  once : ∀ directory name other child, tree.Holds directory name child →
    tree.Holds directory other child → name = other

namespace LinksAgree

variable {before after : Tree}

theorem of_fewer (agree : before.LinksAgree)
    (fewer : ∀ directory name child, after.Holds directory name child →
      before.Holds directory name child)
    (parents : ∀ directory name child outline, after.Holds directory name child →
      before.outline? child = some outline →
        ∃ later, after.outline? child = some later ∧ later.parent = outline.parent) :
    after.LinksAgree := by
  constructor
  · intro directory name child here
    obtain ⟨outline, there, link⟩ := agree.inside _ _ _ (fewer _ _ _ here)
    obtain ⟨later, found, same⟩ := parents _ _ _ outline here there
    exact ⟨later, found, same.trans link⟩
  · intro directory name other child here otherHere
    exact agree.once _ _ _ _ (fewer _ _ _ here) (fewer _ _ _ otherHere)

theorem of_bound {directory bound : NodeRef} {newName : String} (agree : before.LinksAgree)
    (holds : ∀ holder child name, after.Holds holder name child ↔
      before.Holds holder name child ∨ (holder = directory ∧ name = newName ∧ child = bound))
    (unheld : ∀ holder name, ¬ before.Holds holder name bound)
    (inside : ∃ outline, after.outline? bound = some outline ∧ outline.parent = some directory)
    (parents : ∀ child outline, child ≠ bound → before.outline? child = some outline →
      ∃ later, after.outline? child = some later ∧ later.parent = outline.parent) :
    after.LinksAgree := by
  constructor
  · intro holder name child here
    rcases (holds holder child name).mp here with old | ⟨atDirectory, -, atBound⟩
    · have notBound : child ≠ bound := by
        intro same
        exact unheld holder name (same ▸ old)
      obtain ⟨outline, there, link⟩ := agree.inside _ _ _ old
      obtain ⟨later, found, same⟩ := parents child outline notBound there
      exact ⟨later, found, same.trans link⟩
    · rw [atBound, atDirectory]
      exact inside
  · intro holder name other child here otherHere
    rcases (holds holder child name).mp here with old | ⟨-, atNew, atBound⟩
    · rcases (holds holder child other).mp otherHere with otherOld | ⟨-, -, atBound⟩
      · exact agree.once _ _ _ _ old otherOld
      · exact absurd (atBound ▸ old) (unheld holder name)
    · rcases (holds holder child other).mp otherHere with otherOld | ⟨-, otherNew, -⟩
      · exact absurd (atBound ▸ otherOld) (unheld holder other)
      · exact atNew.trans otherNew.symm

/-- A node that is missing is not held. -/
theorem not_holds_of_missing (agree : before.LinksAgree) {child : NodeRef}
    (missing : before.outline? child = none) (directory : NodeRef) (name : String) :
    ¬ before.Holds directory name child := by
  intro here
  obtain ⟨outline, there, -⟩ := agree.inside _ _ _ here
  rw [missing] at there
  cases there

/-- On the way up, parent links lead back along the entries. -/
theorem ascends_of_owns (agree : before.LinksAgree) {directory child : NodeRef}
    (owned : before.Owns directory child) : before.Ascends child directory := by
  obtain ⟨name, here⟩ := owned
  obtain ⟨outline, holder, -⟩ := holds_iff.mp here
  exact parent?_eq_some_iff.mpr ⟨agree.inside _ _ _ here, outline, holder⟩

theorem ascends_of_reached (agree : before.LinksAgree) {upper lower : NodeRef}
    (reached : Relation.ReflTransGen before.Owns upper lower) :
    Relation.ReflTransGen before.Ascends lower upper := by
  induction reached with
  | refl => exact Relation.ReflTransGen.refl
  | tail _ link inductionHypothesis =>
      exact Relation.ReflTransGen.head (agree.ascends_of_owns link) inductionHypothesis

end LinksAgree

variable {before after : Tree}

theorem Reshaped.linksAgree {operation : Operation} (reshaped : Reshaped before after operation)
    (plain : operation.isPlain before = true) (agree : before.LinksAgree) : after.LinksAgree := by
  cases reshaped with
  | kept store outlines =>
      refine agree.of_fewer ?_ ?_
      · intro directory name child
        exact (holds_of_same (entriesAt_of_congr outlines) directory child name).mp
      · intro _ _ child outline _ there
        exact ⟨outline, (outlines child).trans there, rfl⟩
  | swept store outlines thinned =>
      refine agree.of_fewer ?_ ?_
      · intro directory name child here
        exact (holds_of_same (entriesAt_of_congr outlines) directory child name).mp
          (thinned.holds here)
      · intro directory name child outline here there
        exact ⟨outline, ((thinned.outline?_of_holds here).trans (outlines child)).trans there, rfl⟩
  | made store numbered bare orphan outlines =>
      refine agree.of_fewer ?_ ?_
      · intro directory name child
        exact (holds_of_same (entriesAt_of_fresh bare outlines) directory child name).mp
      · intro _ _ child outline _ there
        refine ⟨outline, ?_, rfl⟩
        rw [outlines, if_neg (ne_nextNode there), there]
  | attached => cases plain
  | renamedAlone store valid unmoved outlines =>
      refine agree.of_fewer ?_ ?_
      · intro directory name child
        exact (holds_of_same (entriesAt_of_same outlines fun _ _ => rfl) directory child name).mp
      · intro _ _ child outline _
        exact Outline.exists_later Outline.parent (outlines child) rfl
  | created store found isDirectory valid free numbered named bare inside outlines =>
      have changed := entriesAt_of_created found bare outlines fun _ _ => rfl
      refine agree.of_bound (holds_of_insert found free changed)
        (agree.not_holds_of_missing (outline?_nextNode before)) ?_ ?_
      · exact ⟨_, by rw [outlines, if_pos rfl], inside⟩
      · intro child outline old
        have later := outlines child
        rw [if_neg old] at later
        exact Outline.exists_later Outline.parent later rfl
  | added store found isDirectory there valid free unmet outlines =>
      have changed := entriesAt_of_rebound found outlines fun _ _ => rfl
      refine agree.of_bound (holds_of_insert found free changed) ?_ ?_ ?_
      · intro holder name here
        have linked := isLinked_iff.mpr ⟨holder, name, here⟩
        rw [Operation.isPlain, linked] at plain
        cases plain
      · refine ⟨_, by rw [outlines, there, Option.map_some], ?_⟩
        simp only [if_pos]
      · intro child outline other
        exact Outline.exists_later Outline.parent (outlines child) (if_neg other)
  | @moved _ directory moved _ outer old new store found isDirectory valid present free sameNumber
      outlines =>
      have changed := entriesAt_of_rebound found outlines fun _ _ => rfl
      have holds := holds_of_move found present free changed
      have movedHeld : before.Holds directory old moved := by
        rw [holds_iff_entriesAt, entriesAt_of_outline? found, present]
      constructor
      · intro holder name child here
        have owned := (owns_of_move found present free changed holder child).mp ⟨name, here⟩
        obtain ⟨earlierName, earlier⟩ := owned
        obtain ⟨outline, there, link⟩ := agree.inside _ _ _ earlier
        obtain ⟨later, laterThere, same⟩ :=
          Outline.exists_later Outline.parent (outlines child) rfl there
        exact ⟨later, laterThere, same.trans link⟩
      · intro holder name other child here otherHere
        rcases (holds holder child name).mp here with ⟨kept, notOld⟩ | ⟨atDirectory, atNew, atMoved⟩
        · rcases (holds holder child other).mp otherHere with
            ⟨otherKept, -⟩ | ⟨atDirectory, -, atMoved⟩
          · exact agree.once _ _ _ _ kept otherKept
          · subst atDirectory
            subst atMoved
            exact absurd ⟨rfl, agree.once _ _ _ _ kept movedHeld⟩ notOld
        · subst atDirectory
          subst atMoved
          rcases (holds holder child other).mp otherHere with
            ⟨otherKept, notOld⟩ | ⟨-, otherNew, -⟩
          · exact absurd ⟨rfl, agree.once _ _ _ _ otherKept movedHeld⟩ notOld
          · exact atNew.trans otherNew.symm
  | removed store found isDirectory present removable outlines thinned =>
      have changed := entriesAt_of_rebound found outlines fun _ _ => rfl
      refine agree.of_fewer ?_ ?_
      · intro directory name child here
        exact ((holds_of_erase found changed directory child name).mp (thinned.holds here)).1
      · intro directory name child outline here there
        rw [thinned.outline?_of_holds here]
        exact Outline.exists_later Outline.parent (outlines child) rfl there

/-! ## Circles -/

/-- What a forest is, apart from the numbers. -/
structure IsWooded (tree : Tree) : Prop where
  agree : tree.LinksAgree
  circleFree : ¬ tree.HasCircle

/-- While entries and parent links agree, an addition finds every circle that it would close. -/
theorem IsWooded.perform {tree : Tree} (wooded : tree.IsWooded) (setting : Setting)
    {operation : Operation} (plain : operation.isPlain tree = true) :
    (tree.perform setting operation).tree.IsWooded := by
  have reshaped := (effect_perform tree setting operation).reshaped
  refine ⟨reshaped.linksAgree plain wooded.agree, ?_⟩
  rw [hasCircle_perform_iff]
  intro either
  rcases either with circle | ⟨directory, name, graft, isAdd, done, reached⟩
  · exact wooded.circleFree circle
  · subst isAdd
    obtain ⟨isDirectory, valid⟩ := directory_of_added done
    have upwards := wooded.agree.ascends_of_reached reached
    have refused := ((add_wouldCycle_iff setting isDirectory valid reached).mpr upwards).1
    rw [refused] at done
    cases done

theorem isWooded_ofRoot (blueprint : Blueprint) (ids : IdSource) (now : UInt32) :
    (ofRoot blueprint ids now).IsWooded := by
  have nothingOwned := not_owns_ofRoot blueprint ids now
  constructor
  · constructor
    · intro directory name child here
      exact absurd ⟨name, here⟩ (nothingOwned directory child)
    · intro directory name other child here
      exact absurd ⟨name, here⟩ (nothingOwned directory child)
  · exact World.not_hasCircle_fresh .allowAll blueprint ids now

theorem IsWooded.isForest {tree : Tree} {first : UInt64} (wooded : tree.IsWooded)
    (numbered : tree.IsNumbered first) (few : tree.nodes.size < UInt64.size) : tree.IsForest := by
  constructor
  · intro ref other node otherNode there otherThere same
    exact numbered.distinct few there otherThere same
  · intro directory other name otherName child here otherHere
    obtain ⟨outline, there, link⟩ := wooded.agree.inside _ _ _ here
    obtain ⟨again, thereAgain, otherLink⟩ := wooded.agree.inside _ _ _ otherHere
    cases there.symm.trans thereAgain
    cases link.symm.trans otherLink
    exact ⟨rfl, wooded.agree.once _ _ _ _ here otherHere⟩
  · intro directory name child here
    exact wooded.agree.ascends_of_owns ⟨name, here⟩
  · intro directory path
    exact wooded.circleFree ⟨directory, path⟩

end Tree

/-- Whatever plain operations are performed, in whatever order, the tree is a forest. -/
theorem World.isForest_run (policy : Policy) (blueprint : Blueprint) (first : UInt64)
    (start : UInt32) (operations : List (Clock × Operation))
    (plain : (fresh policy blueprint (.counting first) start).Respects
      (fun tree operation => operation.isPlain tree = true) operations)
    (few : ((fresh policy blueprint (.counting first) start).run operations).tree.nodes.size <
      UInt64.size) :
    ((fresh policy blueprint (.counting first) start).run operations).tree.IsForest := by
  have preserved : ∀ (tree : Tree) (setting : Setting) (operation : Operation),
      tree.IsWooded ∧ tree.IsNumbered first → operation.isPlain tree = true →
        (tree.perform setting operation).tree.IsWooded ∧
          (tree.perform setting operation).tree.IsNumbered first := by
    intro tree setting operation invariant allowed
    obtain ⟨wooded, numbered⟩ := invariant
    have reshaped := (Tree.effect_perform tree setting operation).reshaped
    exact ⟨wooded.perform setting allowed, reshaped.isNumbered numbered⟩
  have initially := Tree.isNumbered_ofRoot blueprint first start
  obtain ⟨wooded, numbered⟩ := run_induction
    (fun tree => tree.IsWooded ∧ tree.IsNumbered first) preserved
    ⟨Tree.isWooded_ofRoot blueprint (.counting first) start, initially⟩ plain
  exact wooded.isForest numbered few

/-- A directory is taken in by one directory, removed from it and taken in by another. -/
def World.takenInAgain : List (Clock × Operation) :=
  [(1, .makeDirectory ⟨"x", ⟨0o755⟩, "o", "g"⟩), (2, .create ⟨0⟩ "u" "a" (.ofDirectory 0o755)),
    (3, .add ⟨2⟩ "x" ⟨1⟩), (4, .rename ⟨0⟩ "u" "a" "b"), (5, .remove ⟨2⟩ "u" "x"),
    (6, .create ⟨1⟩ "u" "f" ⟨0o644⟩), (7, .add ⟨0⟩ "y" ⟨1⟩)]

theorem World.isForest_takenInAgain :
    ((fresh .allowAll ⟨"", ⟨0o755⟩, "o", "g"⟩ (.counting 1) 0).Respects
        (fun tree operation => operation.isPlain tree = true) takenInAgain ∧
      ((fresh .allowAll ⟨"", ⟨0o755⟩, "o", "g"⟩ (.counting 1) 0).run
        takenInAgain).tree.nodes.size < UInt64.size) ∧
    ((fresh .allowAll ⟨"", ⟨0o755⟩, "o", "g"⟩ (.counting 1) 0).run takenInAgain).tree.IsForest := by
  have plain : (fresh .allowAll ⟨"", ⟨0o755⟩, "o", "g"⟩ (.counting 1) 0).Respects
      (fun tree operation => operation.isPlain tree = true) takenInAgain := by decide +kernel
  have few : ((fresh .allowAll ⟨"", ⟨0o755⟩, "o", "g"⟩ (.counting 1) 0).run
      takenInAgain).tree.nodes.size < UInt64.size := by decide +kernel
  exact ⟨⟨plain, few⟩, isForest_run .allowAll ⟨"", ⟨0o755⟩, "o", "g"⟩ 1 0 takenInAgain plain few⟩

end MemFs
