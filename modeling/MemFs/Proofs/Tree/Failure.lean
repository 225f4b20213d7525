import MemFs.Proofs.Tree.Perform
import MemFs.Proofs.Tree.Run

/-!
# Operations that fail

An operation that fails leaves the whole tree as it was: nodes, sessions, owners and the source of
numbers. Only a path lookup may have done something before it fails: the directories in which it
found a name have been accessed, and nothing else has changed.
-/

namespace MemFs

theorem Outcome.error_of_map {α β : Type} {outcome : Outcome α} {change : α → β}
    {error : TreeError} (failed : (outcome.map change).ending = .error error) :
    outcome.ending = .error error := by
  obtain ⟨ending, tree, checks, events⟩ := outcome
  cases ending with
  | error other =>
      cases failed
      rfl
  | ok | never => cases failed

namespace Tree

/-- Looking these names up one after the other succeeds from a node on. It passes through these
directories, leaves a tree behind and arrives at a node. -/
inductive Walks (user : String) :
    Tree → Setting → NodeRef → List String → List NodeRef → Tree → NodeRef → Prop
  | arrived (tree : Tree) (setting : Setting) (ref : NodeRef) :
      Walks user tree setting ref [] [] tree ref
  | onward {tree later : Tree} {setting : Setting} {ref next last : NodeRef} {name : String}
      {names : List String} {passed : List NodeRef}
      (found : (tree.walk setting ref user name).ending = .ok (some next))
      (further : Walks user (tree.walk setting ref user name).tree setting.afterWalk next names
        passed later last) :
      Walks user tree setting ref (name :: names) (ref :: passed) later last

/-- A lookup that succeeds is an access to the directory. -/
theorem tree_walk_of_ok {tree : Tree} {setting : Setting} {ref : NodeRef} {user name : String}
    {found : Option NodeRef} (done : (tree.walk setting ref user name).ending = .ok found) :
    (tree.walk setting ref user name).tree =
      tree.modifyNode ref fun node => node.accessed setting.clock.now := by
  unfold walk at done ⊢
  split at done
  · cases done
  · dsimp only at done ⊢
    split at done
    · cases done
    · rename_i granted
      rw [if_neg granted]
      rfl

theorem tree_walk_of_failed {tree : Tree} {setting : Setting} {ref : NodeRef} {user name : String}
    (failed : ∀ found, (tree.walk setting ref user name).ending ≠ .ok found) :
    (tree.walk setting ref user name).tree = tree := by
  unfold walk at failed ⊢
  split
  · rfl
  · rename_i directory entries found
    simp only [found] at failed ⊢
    split
    · rfl
    · rename_i granted
      rw [if_neg granted] at failed
      exact absurd rfl (failed _)

/-- The tree that lookups leave behind. -/
theorem Walks.tree_eq {user : String} {tree later : Tree} {setting : Setting}
    {ref last : NodeRef} {names : List String} {passed : List NodeRef}
    (walks : Walks user tree setting ref names passed later last) :
    later = tree.touchAll setting.clock passed := by
  induction walks with
  | arrived tree setting ref => rfl
  | onward found further inductionHypothesis =>
      rw [inductionHypothesis, tree_walk_of_ok found]
      rfl

/-- A lookup along a path that fails has looked up the names before one of them. -/
theorem exists_walks_of_follow_error {path user : String} {components : List String} {tree : Tree}
    {setting : Setting} {ref : NodeRef} {error : TreeError}
    (failed : (follow path user components tree setting ref).ending = .error error) :
    ∃ names name rest passed last, components = names ++ name :: rest ∧
      Walks user tree setting ref names passed
        (follow path user components tree setting ref).tree last := by
  induction components generalizing tree setting ref with
  | nil => cases failed
  | cons component rest inductionHypothesis =>
      have here : ∀ after, after = tree →
          ∃ names name others passed last, component :: rest = names ++ name :: others ∧
            Walks user tree setting ref names passed after last := by
        intro after same
        subst same
        exact ⟨[], component, rest, [], ref, rfl, Walks.arrived after setting ref⟩
      unfold follow at failed ⊢
      split at failed
      · exact here _ rfl
      · dsimp only at failed ⊢
        split at failed
        · rename_i next found
          obtain ⟨names, name, others, passed, last, same, further⟩ := inductionHypothesis failed
          refine ⟨component :: names, name, others, ref :: passed, last, ?_, ?_⟩
          · rw [same, List.cons_append]
          · exact Walks.onward found further
        · exact here _ (tree_walk_of_failed fun found done => by rw [done] at failed; cases failed)

/-- Apart from a path lookup, an operation that fails leaves the tree as it was. -/
theorem Effect.tree_of_error {tree : Tree} {setting : Setting} {operation : Operation}
    {outcome : Outcome Answer} (effect : Effect tree setting operation outcome) {error : TreeError}
    (failed : outcome.ending = .error error)
    (noLookup : ∀ user path, operation ≠ .resolve user path) : outcome.tree = tree := by
  cases effect with
  | refused => rfl
  | resolved user path => exact absurd rfl (noLookup user path)
  | _ => cases failed

end Tree

namespace World

/-- An operation that fails leaves the tree as it was. A path lookup that fails leaves it as the
successful lookups of the names before left it, which have accessed the directories on the way. -/
theorem tree_step_of_error {world : World} {clock : Clock} {operation : Operation}
    {error : TreeError} (failed : (world.outcome clock operation).ending = .error error) :
    ((∀ user path, operation ≠ .resolve user path) → (world.step clock operation).tree = world.tree) ∧
    ∀ user path, operation = .resolve user path →
      ∃ names name rest passed last, Name.components path = names ++ name :: rest ∧
        Tree.Walks user world.tree ⟨world.policy, world.asked, clock⟩ world.tree.root names passed
          (world.step clock operation).tree last ∧
        (world.step clock operation).tree = world.tree.touchAll clock passed := by
  constructor
  · intro noLookup
    exact (Tree.effect_perform _ _ operation).tree_of_error failed noLookup
  · intro user path isLookup
    subst isLookup
    obtain ⟨names, name, rest, passed, last, split, walks⟩ :=
      Tree.exists_walks_of_follow_error (Outcome.error_of_map failed)
    exact ⟨names, name, rest, passed, last, split, walks, walks.tree_eq⟩

/-- A directory with a file, beside another directory. -/
def fileInDirectory : World :=
  (fresh .ownerOther ⟨"", ⟨0o755⟩, "o", "g"⟩ .sequential 0).run
    [(1, .create ⟨0⟩ "o" "d" (.ofDirectory 0o755)), (2, .create ⟨1⟩ "o" "f" ⟨0o644⟩),
      (3, .create ⟨0⟩ "o" "e" (.ofDirectory 0o755))]

/-- Metadata with the name of the first directory. -/
def takenName : Stat :=
  ⟨0, 0, ⟨.directory, 0, 0⟩, ⟨0o700⟩, 0, 0, 0, "d", "v", "h", ""⟩

/-- A metadata write to a name that is taken, and a path that leads through a file. -/
theorem tree_step_of_fileInDirectory :
    ((fileInDirectory.outcome 4 (.writeMetadata ⟨3⟩ takenName)).ending = .error .nameConflict ∧
        (fileInDirectory.step 4 (.writeMetadata ⟨3⟩ takenName)).tree = fileInDirectory.tree) ∧
      (fileInDirectory.outcome 5 (.resolve "u" "d/f/x")).ending = .error .notADirectory ∧
        ∃ names name rest passed last, Name.components "d/f/x" = names ++ name :: rest ∧
          Tree.Walks "u" fileInDirectory.tree ⟨fileInDirectory.policy, fileInDirectory.asked, 5⟩
            fileInDirectory.tree.root names passed
            (fileInDirectory.step 5 (.resolve "u" "d/f/x")).tree last ∧
          (fileInDirectory.step 5 (.resolve "u" "d/f/x")).tree =
            fileInDirectory.tree.touchAll 5 passed := by
  have conflict : (fileInDirectory.outcome 4 (.writeMetadata ⟨3⟩ takenName)).ending =
      .error .nameConflict := rfl
  have through : (fileInDirectory.outcome 5 (.resolve "u" "d/f/x")).ending =
      .error .notADirectory := rfl
  refine ⟨⟨conflict, (tree_step_of_error conflict).1 ?_⟩, through, ?_⟩
  · intro user path same
    cases same
  · exact (tree_step_of_error through).2 "u" "d/f/x" rfl

end World

end MemFs
