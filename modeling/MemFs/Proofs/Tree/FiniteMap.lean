import MemFs.Proofs.Text.ByteOrder
import MemFs.Proofs.Tree.Naming
import MemFs.Proofs.Tree.Rebinding

/-!
# Directories as finite maps

As long as nothing is added that a directory holds already, and numbers are distinct, a directory
is a finite map in which operations change one binding at a time. So a directory holds what was
created or added in it and has not been removed from it, each node once.
-/

namespace MemFs

/-- The changes of a map that operations make: a node is created or added under a name, a binding is
given another name by the directory or by the node, or a name is removed. -/
inductive Operation.Rebinds (tree : Tree) (directory : NodeRef) :
    Operation → Ending Answer → Rebinding → Prop
  | create (user name : String) (requested : Mode) (child : NodeRef) :
      Rebinds tree directory (.create directory user name requested) (.ok (.node (some child)))
        (.bind name child)
  | add (name : String) (graft : NodeRef) (answer : Answer) :
      Rebinds tree directory (.add directory name graft) (.ok answer) (.bind name graft)
  | rename (user old new : String) (answer : Answer) :
      Rebinds tree directory (.rename directory user old new) (.ok answer) (.move old new)
  | remove (user name : String) (answer : Answer) :
      Rebinds tree directory (.remove directory user name) (.ok answer) (.unbind name)
  | writeMetadata {child : NodeRef} {node : Node} {old new : String} (stat : Stat) (answer : Answer)
      (there : tree.node? child = some node) (bound : tree.Holds directory old child)
      (wanted : node.newName? stat = some new) (other : old ≠ new) :
      Rebinds tree directory (.writeMetadata child stat) (.ok answer) (.move old new)

namespace Tree

variable {tree before after : Tree}

/-! ## What a metadata write moves -/

/-- A metadata write under a new name moves the binding of the node itself. -/
theorem LinksAgree.entryMoved?_iff (agree : tree.LinksAgree) (distinct : tree.IsDistinct)
    {directory child : NodeRef} {node : Node} {old new : String}
    (there : tree.node? child = some node) :
    (∃ parent entries, tree.entryMoved? child node new = some (directory, parent, entries, old)) ↔
      tree.Holds directory old child ∧ old ≠ new := by
  refine (entryMoved?_iff_of_once distinct there fun _ first second =>
    agree.once directory first second child).trans (and_iff_right_of_imp fun moved => ?_)
  exact agree.ascends_of_owns ⟨old, moved.1⟩

/-- An operation changes the binding that it should. -/
theorem LinksAgree.rebound?_iff (agree : tree.LinksAgree) (distinct : tree.IsDistinct)
    {operation : Operation} {ending : Ending Answer} {directory : NodeRef}
    {rebinding : Rebinding} :
    operation.rebound? tree ending = some (directory, rebinding) ↔
      operation.Rebinds tree directory ending rebinding := by
  constructor
  · intro asked
    cases ending with
    | error | never => cases asked
    | ok answer =>
        cases operation with
        | create target user name requested =>
            cases answer with
            | node made =>
                cases made with
                | none => cases asked
                | some child =>
                    cases asked
                    exact .create user name requested child
            | _ => cases asked
        | add target name graft =>
            cases asked
            exact .add name graft answer
        | rename target user old new =>
            cases asked
            exact .rename user old new answer
        | remove target user name =>
            cases asked
            exact .remove user name answer
        | writeMetadata child stat =>
            simp only [Operation.rebound?, Option.bind_eq_bind, Option.bind_eq_some_iff,
              Option.pure_def, Option.some.injEq, Prod.mk.injEq, Prod.exists] at asked
            obtain ⟨node, there, new, wanted, holder, parent, entries, old, moved, same, rfl⟩ :=
              asked
            obtain ⟨bound, other⟩ :=
              (agree.entryMoved?_iff distinct there).mp ⟨parent, entries, moved⟩
            exact .writeMetadata stat answer there (same ▸ bound) wanted other
        | _ => cases asked
  · intro rebinds
    cases rebinds with
    | writeMetadata stat answer there bound wanted other =>
        obtain ⟨parent, entries, moved⟩ :=
          (agree.entryMoved?_iff distinct there).mpr ⟨bound, other⟩
        simp only [Operation.rebound?, there, wanted, moved, Option.bind_eq_bind, Option.bind_some,
          Option.pure_def]
    | _ => rfl

/-! ## Nodes in and out -/

/-- How often a directory holds a node. -/
def heldTimes (tree : Tree) (directory child : NodeRef) : Nat :=
  (tree.entriesAt directory).values.count child

/-- While entries and parent links agree, a directory holds each node once. -/
theorem LinksAgree.nodup_values (agree : tree.LinksAgree) (directory : NodeRef) :
    (tree.entriesAt directory).values.Nodup := by
  have sorted := (tree.entriesAt directory).sorted
  have apart : (tree.entriesAt directory).toList.Pairwise fun first second =>
      first.2 ≠ second.2 := by
    refine List.Pairwise.imp_of_mem ?_ sorted
    intro first second firstMember secondMember before same
    have holds : ∀ entry ∈ (tree.entriesAt directory).toList,
        tree.Holds directory entry.1 entry.2 :=
      fun entry member => holds_iff_entriesAt.mpr (Entries.mem_toList_iff.mp member)
    have sameName := agree.once directory first.1 second.1 second.2
      (same ▸ holds first firstMember) (holds second secondMember)
    exact String.lt_irrefl _ (sameName ▸ before)
  exact List.Pairwise.map Prod.snd (fun _ _ different => different) apart

theorem heldTimes_of_owns (agree : tree.LinksAgree) {directory child : NodeRef}
    (owned : tree.Owns directory child) : tree.heldTimes directory child = 1 := by
  obtain ⟨name, here⟩ := owned
  refine List.count_eq_one_of_mem (agree.nodup_values directory) ?_
  exact Entries.mem_values_iff.mpr ⟨name, holds_iff_entriesAt.mp here⟩

theorem heldTimes_of_not_owns {directory child : NodeRef} (apart : ¬ tree.Owns directory child) :
    tree.heldTimes directory child = 0 := by
  refine List.count_eq_zero_of_not_mem fun member => apart ?_
  obtain ⟨name, found⟩ := Entries.mem_values_iff.mp member
  exact ⟨name, holds_iff_entriesAt.mpr found⟩

end Tree

namespace Operation

/-- The operation created or added this node in this directory. -/
def takesIn (directory child : NodeRef) : Operation → Ending Answer → Bool
  | .create target _ _ _, .ok (.node (some made)) => target = directory && made = child
  | .add target _ graft, .ok _ => target = directory && graft = child
  | _, _ => false

/-- The operation removed this node from this directory. -/
def givesUp (tree : Tree) (directory child : NodeRef) :
    Operation → Ending Answer → Bool
  | .remove target _ name, .ok _ =>
      target = directory && (tree.entriesAt directory).find? name = some child
  | _, _ => false

variable {tree : Tree} {directory child : NodeRef} {operation : Operation}
  {ending : Ending Answer} {rebinding : Rebinding}

theorem rebinds_of_takesIn (tree : Tree) (takes : operation.takesIn directory child ending = true) :
    ∃ rebinding, operation.Rebinds tree directory ending rebinding := by
  unfold takesIn at takes
  split at takes
  · rename_i target user name requested _
    cases of_decide_eq_true (Bool.and_eq_true_iff.mp takes).1
    exact ⟨_, .create user name requested _⟩
  · rename_i target name _ answer
    cases of_decide_eq_true (Bool.and_eq_true_iff.mp takes).1
    exact ⟨_, .add name _ answer⟩
  · cases takes

theorem rebinds_of_givesUp (gives : operation.givesUp tree directory child ending = true) :
    ∃ rebinding, operation.Rebinds tree directory ending rebinding := by
  unfold givesUp at gives
  split at gives
  · rename_i target user name answer
    cases of_decide_eq_true (Bool.and_eq_true_iff.mp gives).1
    exact ⟨_, .remove user name answer⟩
  · cases gives

theorem Rebinds.takesIn (rebinds : operation.Rebinds tree directory ending rebinding)
    (child : NodeRef) :
    operation.takesIn directory child ending = true ↔ ∃ name, rebinding = .bind name child := by
  cases rebinds <;> simp [Operation.takesIn]

theorem Rebinds.givesUp (rebinds : operation.Rebinds tree directory ending rebinding)
    (child : NodeRef) :
    operation.givesUp tree directory child ending = true ↔
      ∃ name, rebinding = .unbind name ∧ (tree.entriesAt directory).find? name = some child := by
  cases rebinds <;> simp [Operation.givesUp]

end Operation

namespace Tree

section OneOperation

variable {tree : Tree} {setting : Setting} {operation : Operation} {outcome : Outcome Answer}
  {directory child : NodeRef}

theorem Effect.rebound_of_agree (effect : Effect tree setting operation outcome)
    (agree : tree.LinksAgree) :
    Rebound tree outcome.tree (operation.rebound? tree outcome.ending) outcome.events :=
  effect.rebound fun holder name child here =>
    (agree.inside holder name child here).imp fun _ there => there.1

/-- What is bound to a name is not held at that moment. -/
theorem Effect.not_holds_of_bind (effect : Effect tree setting operation outcome)
    (agree : tree.LinksAgree) (plain : operation.isPlain tree = true) {name : String}
    (rebinds : operation.Rebinds tree directory outcome.ending (.bind name child))
    (holder : NodeRef) (other : String) : ¬ tree.Holds holder other child := by
  generalize answered : outcome.ending = ending at rebinds
  cases rebinds with
  | create =>
      cases effect with
      | refused | stalled => cases answered
      | created =>
          cases answered
          exact agree.not_holds_of_missing (outline?_nextNode tree) holder other
      | readContent reads | readSnapshot reads | readFresh reads => cases reads
  | add =>
      intro here
      have linked := isLinked_iff.mpr ⟨holder, other, here⟩
      rw [Operation.isPlain, linked] at plain
      cases plain

theorem heldTimes_congr {before after : Tree} (agree : before.LinksAgree)
    (agreeAfter : after.LinksAgree)
    (same : after.Owns directory child ↔ before.Owns directory child) :
    after.heldTimes directory child = before.heldTimes directory child := by
  by_cases owned : before.Owns directory child
  · rw [heldTimes_of_owns agree owned, heldTimes_of_owns agreeAfter (same.mpr owned)]
  · rw [heldTimes_of_not_owns owned, heldTimes_of_not_owns fun later => owned (same.mp later)]

/-- An operation takes a node into a directory that does not hold it, or takes out of the directory
a node that it holds, or does neither. -/
theorem Effect.passage (effect : Effect tree setting operation outcome)
    (agree : tree.LinksAgree) (distinct : tree.IsDistinct) (plain : operation.isPlain tree = true)
    (stays : (tree.node? directory).isSome = true →
      (outcome.tree.node? directory).isSome = true) (child : NodeRef) :
    (operation.takesIn directory child outcome.ending = true ∧
        operation.givesUp tree directory child outcome.ending = false ∧
        ¬ tree.Owns directory child ∧ outcome.tree.Owns directory child) ∨
      (operation.takesIn directory child outcome.ending = false ∧
        operation.givesUp tree directory child outcome.ending = true ∧
        tree.Owns directory child ∧ ¬ outcome.tree.Owns directory child) ∨
      (operation.takesIn directory child outcome.ending = false ∧
        operation.givesUp tree directory child outcome.ending = false ∧
        (outcome.tree.Owns directory child ↔ tree.Owns directory child)) := by
  have rebound := effect.rebound_of_agree agree
  by_cases asked : ∃ rebinding, operation.Rebinds tree directory outcome.ending rebinding
  · obtain ⟨rebinding, rebinds⟩ := asked
    obtain ⟨possible, applied⟩ := rebound.here ((agree.rebound?_iff distinct).mpr rebinds) stays
    have owned : outcome.tree.Owns directory child ↔
        ∃ key, rebinding.apply (tree.entriesAt directory).find? key = some child := by
      rw [owns_iff_entriesAt, applied]
    simp only [← Bool.not_eq_true, rebinds.takesIn child, rebinds.givesUp child]
    cases rebinding with
    | bind name bound =>
        rw [Rebinding.exists_apply_bind_iff possible.2, ← owns_iff_entriesAt] at owned
        by_cases same : bound = child
        · have unowned : ¬ tree.Owns directory child := fun ⟨key, here⟩ =>
            effect.not_holds_of_bind agree plain rebinds directory key (same ▸ here)
          exact Or.inl ⟨⟨name, by rw [same]⟩, by simp, unowned, owned.mpr (Or.inr same)⟩
        · exact Or.inr (Or.inr ⟨by simp [same], by simp, owned.trans (or_iff_left same)⟩)
    | move old new =>
        obtain ⟨-, different, -, free⟩ := possible
        rw [Rebinding.exists_apply_move_iff different free, ← owns_iff_entriesAt] at owned
        exact Or.inr (Or.inr ⟨by simp, by simp, owned⟩)
    | unbind name =>
        rw [Rebinding.exists_apply_unbind_iff] at owned
        by_cases present : (tree.entriesAt directory).find? name = some child
        · have here := holds_iff_entriesAt.mpr present
          refine Or.inr (Or.inl ⟨by simp, ⟨name, rfl, present⟩, ⟨name, here⟩, ?_⟩)
          intro later
          obtain ⟨key, other, there⟩ := owned.mp later
          exact other (agree.once directory key name child (holds_iff_entriesAt.mpr there) here)
        · refine Or.inr (Or.inr ⟨by simp, by simp [present], ?_⟩)
          rw [owned, owns_iff_entriesAt]
          refine exists_congr fun key => and_iff_right_of_imp fun here => ?_
          rintro rfl
          exact present here
  · refine Or.inr (Or.inr ⟨?_, ?_, ?_⟩)
    · exact Bool.eq_false_iff.mpr fun takes => asked (Operation.rebinds_of_takesIn tree takes)
    · exact Bool.eq_false_iff.mpr fun gives => asked (Operation.rebinds_of_givesUp gives)
    · have same : outcome.tree.entriesAt directory = tree.entriesAt directory :=
        rebound.elsewhere (fun rebinding isAsked =>
          asked ⟨rebinding, (agree.rebound?_iff distinct).mp isAsked⟩) stays
      rw [owns_iff_entriesAt, owns_iff_entriesAt, same]

/-- A directory holds what it held before, with what the operation takes in and without what it
gives up. -/
theorem Effect.heldTimes_add (effect : Effect tree setting operation outcome)
    (agree : tree.LinksAgree) (distinct : tree.IsDistinct) (plain : operation.isPlain tree = true)
    (stays : (tree.node? directory).isSome = true →
      (outcome.tree.node? directory).isSome = true) (child : NodeRef) :
    outcome.tree.heldTimes directory child
        + (operation.givesUp tree directory child outcome.ending).toNat =
      tree.heldTimes directory child
        + (operation.takesIn directory child outcome.ending).toNat := by
  have agreeAfter := effect.reshaped.linksAgree plain agree
  rcases effect.passage agree distinct plain stays child with
    ⟨takes, keeps, unowned, owned⟩ | ⟨leaves, gives, owned, unowned⟩ | ⟨leaves, keeps, same⟩
  · rw [takes, keeps, heldTimes_of_not_owns unowned, heldTimes_of_owns agreeAfter owned]
    rfl
  · rw [leaves, gives, heldTimes_of_owns agree owned, heldTimes_of_not_owns unowned]
    rfl
  · rw [leaves, keeps, heldTimes_congr agree agreeAfter same]

end OneOperation

end Tree

namespace World

variable {directory child : NodeRef}

/-- How often a node was created or added in a directory in the course of a run. -/
def takenIn (directory child : NodeRef) : World → List (Clock × Operation) → Nat
  | _, [] => 0
  | world, (clock, operation) :: rest =>
      (operation.takesIn directory child (world.outcome clock operation).ending).toNat
        + takenIn directory child (world.step clock operation) rest

/-- How often a node was removed from a directory in the course of a run. -/
def givenUp (directory child : NodeRef) : World → List (Clock × Operation) → Nat
  | _, [] => 0
  | world, (clock, operation) :: rest =>
      (operation.givesUp world.tree directory child (world.outcome clock operation).ending).toNat
        + givenUp directory child (world.step clock operation) rest

/-- In a run, a directory that outlives it holds what it held before, with what was created or added
in it and without what was removed from it. -/
theorem heldTimes_run (child : NodeRef) {world : World} (wooded : world.tree.IsWooded)
    {operations : List (Clock × Operation)}
    (plain : world.Respects (fun tree operation => operation.isPlain tree = true) operations)
    (distinct : world.Respects (fun tree _ => tree.IsDistinct) operations)
    (there : ((world.run operations).tree.node? directory).isSome = true) :
    (world.run operations).tree.heldTimes directory child
        + world.givenUp directory child operations =
      world.tree.heldTimes directory child + world.takenIn directory child operations := by
  induction operations generalizing world with
  | nil => rfl
  | cons timed rest inductionHypothesis =>
      obtain ⟨clock, operation⟩ := timed
      obtain ⟨plainHere, plainLater⟩ := plain
      obtain ⟨distinctHere, distinctLater⟩ := distinct
      have later := inductionHypothesis (wooded.perform _ plainHere) plainLater distinctLater there
      have here := (world.effect_outcome clock operation).heldTimes_add wooded.agree distinctHere
        plainHere (stays_of_run there) child
      have step : (world.outcome clock operation).tree = (world.step clock operation).tree := rfl
      rw [step] at here
      rw [run_cons, givenUp, takenIn]
      omega

/-- Whatever plain operations are performed, a directory is a finite map in the order of the bytes
of its names, in which each operation changes one binding as it should or none; and it holds what was
created or added in it and has not been removed from it, each node once. -/
theorem directory_refines_finite_map (policy : Policy) (blueprint : Blueprint) (ids : IdSource)
    (start : UInt32) (operations : List (Clock × Operation))
    (plain : (fresh policy blueprint ids start).Respects
      (fun tree operation => operation.isPlain tree = true) operations)
    (distinct : (fresh policy blueprint ids start).Respects (fun tree _ => tree.IsDistinct)
      operations) :
    (∀ directory node entries, ((fresh policy blueprint ids start).run operations).tree.directory?
        directory = some (node, entries) →
      (entries.names.map Utf8.encode).Pairwise (· < ·) ∧ entries.values.Nodup ∧
      ∀ child, entries.values.count child
          + (fresh policy blueprint ids start).givenUp directory child operations =
        (fresh policy blueprint ids start).takenIn directory child operations) ∧
    ∀ front clock operation behind, operations = front ++ (clock, operation) :: behind →
      let before := (fresh policy blueprint ids start).run front
      let outcome := before.outcome clock operation
      ∀ directory node entries, outcome.tree.directory? directory = some (node, entries) →
        let earlier := before.tree.entriesAt directory
        (∀ rebinding, operation.Rebinds before.tree directory outcome.ending rebinding →
          rebinding.IsPossible before.tree earlier.find? ∧
            entries.find? = rebinding.apply earlier.find?) ∧
        ((∀ rebinding, ¬ operation.Rebinds before.tree directory outcome.ending rebinding) →
          entries = earlier) := by
  have wooded := Tree.isWooded_ofRoot blueprint ids start
  constructor
  · intro directory node entries found
    obtain ⟨outlineThere, -, same⟩ := Tree.outline?_of_directory? found
    have isEntries := (Tree.entriesAt_of_outline? outlineThere).trans same
    have agree := linksAgree_run wooded plain
    refine ⟨?_, isEntries ▸ agree.nodup_values directory, ?_⟩
    · rw [Entries.names, List.map_map]
      exact entries.sorted.map _ fun _ _ before => Utf8.encode_lt_encode before
    · intro child
      have balance := heldTimes_run child wooded plain distinct
        (Tree.isSome_of_directory? found)
      have empty : (fresh policy blueprint ids start).tree.heldTimes directory child = 0 :=
        Tree.heldTimes_of_not_owns (Tree.not_owns_ofRoot blueprint ids start directory child)
      rwa [empty, Nat.zero_add, Tree.heldTimes, isEntries] at balance
  · intro front clock operation behind split before outcome directory node entries found earlier
    rw [split] at plain distinct
    obtain ⟨plainBefore, -⟩ := respects_append_iff.mp plain
    obtain ⟨-, distinctHere, -⟩ := respects_append_iff.mp distinct
    have agree : before.tree.LinksAgree := linksAgree_run wooded plainBefore
    have rebound := (before.effect_outcome clock operation).rebound_of_agree agree
    obtain ⟨outlineThere, -, same⟩ := Tree.outline?_of_directory? found
    rw [← (Tree.entriesAt_of_outline? outlineThere).trans same]
    have stays : (before.tree.node? directory).isSome = true →
        (outcome.tree.node? directory).isSome = true := fun _ => Tree.isSome_of_directory? found
    refine ⟨fun rebinding rebinds => ?_, fun unasked => ?_⟩
    · exact rebound.here ((agree.rebound?_iff distinctHere).mpr rebinds) stays
    · exact rebound.elsewhere (fun rebinding isAsked =>
        unasked rebinding ((agree.rebound?_iff distinctHere).mp isAsked)) stays

/-- A file is created and another one added. The first gives itself another name, the directory
renames the second and removes the first. -/
def changedEntries : List (Clock × Operation) :=
  [(1, .create ⟨0⟩ "o" "f" ⟨0o644⟩), (2, .makeFile ⟨"m", ⟨0o644⟩, "o", "g"⟩ []),
    (3, .add ⟨0⟩ "k" ⟨2⟩),
    (4, .writeMetadata ⟨1⟩ ⟨0, 0, ⟨.file, 0, 0⟩, ⟨0o644⟩, 0, 0, Stat.unchangedLength, "g", "o", "g",
      ""⟩),
    (5, .rename ⟨0⟩ "o" "k" "h"), (6, .remove ⟨0⟩ "o" "g")]

theorem directory_of_changedEntries :
    let world := fresh .allowAll ⟨"", ⟨0o755⟩, "o", "g"⟩ .sequential 0
    (world.Respects (fun tree operation => operation.isPlain tree = true) changedEntries ∧
      world.Respects (fun tree _ => tree.IsDistinct) changedEntries) ∧
    ∃ node entries,
      (world.run changedEntries).tree.directory? ⟨0⟩ = some (node, entries) ∧
      entries.names = ["h"] ∧
      entries.values.count ⟨1⟩ + 1 = 1 ∧ entries.values.count ⟨2⟩ + 0 = 1 := by
  intro world
  have plain : world.Respects (fun tree operation => operation.isPlain tree = true)
      changedEntries := by decide +kernel
  have distinct : world.Respects (fun tree _ => tree.IsDistinct) changedEntries :=
    respects_isDistinct (Tree.isNumbered_ofRoot ⟨"", ⟨0o755⟩, "o", "g"⟩ 1 0) (by decide +kernel)
  have found : ((world.run changedEntries).tree.directory? ⟨0⟩).map (fun found => found.2.names) =
      some ["h"] := by decide +kernel
  obtain ⟨⟨node, entries⟩, found, names⟩ := Option.map_eq_some_iff.mp found
  obtain ⟨holds, -⟩ := directory_refines_finite_map .allowAll ⟨"", ⟨0o755⟩, "o", "g"⟩ .sequential 0
    changedEntries plain distinct
  obtain ⟨-, -, balance⟩ := holds ⟨0⟩ node entries found
  have firstCount := balance ⟨1⟩
  have secondCount := balance ⟨2⟩
  have firstOut : world.givenUp ⟨0⟩ ⟨1⟩ changedEntries = 1 := by decide +kernel
  have firstIn : world.takenIn ⟨0⟩ ⟨1⟩ changedEntries = 1 := by decide +kernel
  have secondOut : world.givenUp ⟨0⟩ ⟨2⟩ changedEntries = 0 := by decide +kernel
  have secondIn : world.takenIn ⟨0⟩ ⟨2⟩ changedEntries = 1 := by decide +kernel
  rw [firstOut, firstIn] at firstCount
  rw [secondOut, secondIn] at secondCount
  exact ⟨⟨plain, distinct⟩, node, entries, found, names, firstCount, secondCount⟩

end World

end MemFs
