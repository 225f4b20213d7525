import MemFs.Proofs.Tree.Naming
import Mathlib.Data.List.Induction

/-!
# Looking back on a run

Much about a node is decided by the latest operation of some kind. `latest?` is what the latest of
some items tells of those that tell anything, where what an item tells may depend on those before
it.
-/

namespace MemFs

section Latest

variable {α β : Type} {tells : List β → β → Option α} {items : List β}

/-- What the latest of some items tells that come after others. -/
def latestAfter? (tells : List β → β → Option α) : List β → List β → Option α
  | _, [] => none
  | front, item :: rest => (latestAfter? tells (front ++ [item]) rest).or (tells front item)

/-- What the latest of some items tells of those that tell anything. -/
def latest? (tells : List β → β → Option α) (items : List β) : Option α :=
  latestAfter? tells [] items

theorem latestAfter?_concat (front : List β) (item : β) :
    latestAfter? tells front (items ++ [item]) =
      (tells (front ++ items) item).or (latestAfter? tells front items) := by
  induction items generalizing front with
  | nil => simp [latestAfter?]
  | cons first rest inductionHypothesis =>
      rw [List.cons_append, latestAfter?, inductionHypothesis, latestAfter?, Option.or_assoc,
        List.append_assoc, List.singleton_append]

theorem latest?_concat (item : β) :
    latest? tells (items ++ [item]) = (tells items item).or (latest? tells items) :=
  latestAfter?_concat [] item

/-- What is told last was told by an item behind which no item tells anything. -/
theorem exists_of_latest? {value : α} (told : latest? tells items = some value) :
    ∃ front item behind, items = front ++ item :: behind ∧ tells front item = some value ∧
      ∀ middle next rest, behind = middle ++ next :: rest →
        tells (front ++ item :: middle) next = none := by
  induction items using List.reverseRecOn with
  | nil => cases told
  | append_singleton items last inductionHypothesis =>
      rw [latest?_concat] at told
      cases here : tells items last with
      | some latest =>
          rw [here, Option.some_or] at told
          cases told
          refine ⟨items, last, [], rfl, here, fun middle next rest split => ?_⟩
          exact absurd split.symm (List.append_ne_nil_of_right_ne_nil middle (by simp))
      | none =>
          rw [here, Option.none_or] at told
          obtain ⟨front, item, behind, rfl, telling, silent⟩ := inductionHypothesis told
          refine ⟨front, item, behind ++ [last], by simp, telling, ?_⟩
          intro middle next rest split
          rcases List.eq_nil_or_concat rest with rfl | ⟨others, final, rfl⟩
          · obtain ⟨rfl, same⟩ := List.append_inj' split rfl
            cases same
            exact here
          · rw [List.concat_eq_append, ← List.cons_append, ← List.append_assoc] at split
            exact silent middle next others (List.append_inj' split rfl).1

theorem latest?_eq_none (silent : ∀ front item behind, items = front ++ item :: behind →
    tells front item = none) : latest? tells items = none := by
  by_contra heard
  obtain ⟨value, told⟩ := Option.ne_none_iff_exists'.mp heard
  obtain ⟨front, item, behind, split, telling, -⟩ := exists_of_latest? told
  cases (silent front item behind split).symm.trans telling

end Latest

/-- A new node is in a place that was not used before. -/
theorem Tree.Reshaped.size_le_place {before after : Tree} {operation : Operation} {ref : NodeRef}
    {node : Node} (reshaped : Reshaped before after operation) (missing : before.node? ref = none)
    (there : after.node? ref = some node) : before.nodes.size ≤ ref.place := by
  by_contra used
  obtain ⟨earlier, earlierThere⟩ := reshaped.exists_earlier there (Nat.lt_of_not_le used)
  cases missing.symm.trans earlierThere

/-- A node that is made after a run was not there at any time before. -/
theorem World.missing_before {world : World} {front behind : List (Clock × Operation)}
    {ref : NodeRef} (unused : (world.run (front ++ behind)).tree.nodes.size ≤ ref.place) :
    (world.run front).tree.node? ref = none := by
  by_contra known
  obtain ⟨node, there⟩ := Option.ne_none_iff_exists'.mp known
  have used := Tree.place_lt_size there
  rw [run_append] at unused
  have more := size_le_run (world.run front) behind
  omega

end MemFs
