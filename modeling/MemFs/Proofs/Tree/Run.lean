import MemFs.Tree.Operation

/-!
# Runs

A run starts in a fresh world and performs operations one after the other. What every operation
preserves holds after every run.
-/

namespace MemFs

namespace Operation

/-- An operation other than setting a parent link directly. -/
def isRegular : Operation → Bool
  | .attach _ _ => false
  | _ => true

end Operation

namespace World

/-- A policy and a new root, before anything was asked. -/
def fresh (policy : Policy) (blueprint : Blueprint) (ids : IdSource) (now : UInt32) : World :=
  ⟨policy, Tree.ofRoot blueprint ids now, 0⟩

/-- Each operation meets a condition in the tree in which it is performed. -/
def Respects (condition : Tree → Operation → Prop) :
    World → List (Clock × Operation) → Prop
  | _, [] => True
  | world, (clock, operation) :: rest =>
      condition world.tree operation ∧ Respects condition (world.step clock operation) rest

variable {condition : Tree → Operation → Prop}

instance decidableRespects [∀ tree operation, Decidable (condition tree operation)] :
    (world : World) → (operations : List (Clock × Operation)) →
      Decidable (world.Respects condition operations)
  | _, [] => isTrue trivial
  | world, (clock, operation) :: rest =>
      have := decidableRespects (world.step clock operation) rest
      inferInstanceAs (Decidable (_ ∧ _))

theorem run_cons (world : World) (clock : Clock) (operation : Operation)
    (rest : List (Clock × Operation)) :
    world.run ((clock, operation) :: rest) = (world.step clock operation).run rest := rfl

theorem run_append (world : World) (first second : List (Clock × Operation)) :
    world.run (first ++ second) = (world.run first).run second :=
  List.foldl_append

theorem run_concat (world : World) (operations : List (Clock × Operation)) (clock : Clock)
    (operation : Operation) :
    world.run (operations ++ [(clock, operation)]) = (world.run operations).step clock operation := by
  rw [run_append]
  rfl

theorem outcomes_append (world : World) (first second : List (Clock × Operation)) :
    world.outcomes (first ++ second) =
      world.outcomes first ++ (world.run first).outcomes second := by
  induction first generalizing world with
  | nil => rfl
  | cons timed rest inductionHypothesis =>
      exact congrArg (world.outcome timed.1 timed.2 :: ·) (inductionHypothesis _)

theorem respects_of_forall_mem {operations : List (Clock × Operation)}
    (always : ∀ timed ∈ operations, ∀ tree, condition tree timed.2) (world : World) :
    world.Respects condition operations := by
  induction operations generalizing world with
  | nil => exact trivial
  | cons timed rest inductionHypothesis =>
      obtain ⟨here, later⟩ := List.forall_mem_cons.mp always
      exact ⟨here world.tree, inductionHypothesis later (world.step timed.1 timed.2)⟩

theorem respects_of_forall (always : ∀ tree operation, condition tree operation) (world : World)
    (operations : List (Clock × Operation)) : world.Respects condition operations :=
  respects_of_forall_mem (fun timed _ tree => always tree timed.2) world

theorem respects_of_prefixes {world : World} {operations : List (Clock × Operation)}
    (always : ∀ front clock operation behind, operations = front ++ (clock, operation) :: behind →
      condition (world.run front).tree operation) : world.Respects condition operations := by
  induction operations generalizing world with
  | nil => exact trivial
  | cons timed rest inductionHypothesis =>
      refine ⟨always [] timed.1 timed.2 rest rfl, inductionHypothesis ?_⟩
      intro front clock operation behind split
      exact always (timed :: front) clock operation behind (by rw [split, List.cons_append])

theorem respects_append_iff {world : World} {first second : List (Clock × Operation)} :
    world.Respects condition (first ++ second) ↔
      world.Respects condition first ∧ (world.run first).Respects condition second := by
  induction first generalizing world with
  | nil => exact (and_iff_right trivial).symm
  | cons timed rest inductionHypothesis =>
      rw [List.cons_append, run_cons, Respects, Respects, inductionHypothesis, and_assoc]

/-- What each operation under the condition preserves holds after each run under it. -/
theorem run_induction (invariant : Tree → Prop)
    (preserved : ∀ tree setting operation, invariant tree → condition tree operation →
      invariant (tree.perform setting operation).tree)
    {world : World} {operations : List (Clock × Operation)} (initially : invariant world.tree)
    (respected : world.Respects condition operations) : invariant (world.run operations).tree := by
  induction operations generalizing world with
  | nil => exact initially
  | cons timed rest inductionHypothesis =>
      obtain ⟨allowed, further⟩ := respected
      rw [run_cons]
      refine inductionHypothesis ?_ further
      exact preserved world.tree _ timed.2 initially allowed

end World

end MemFs
