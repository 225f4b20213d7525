import MemFs.Proofs.Tree.Lookup
import Mathlib.Data.Fintype.Card
import Mathlib.Logic.Relation

/-!
# The way up

`Ascends` is the relation of the live parent links, and `search` decides its reflexive and
transitive closure: the first time that a way up meets its end, it has met no node twice, so it
has no more steps than there are places. For the same reason every way up ends where no node is
above itself, and a search is endless only if the way up is.
-/

namespace MemFs.Tree

/-- The parent link of the lower node leads to the upper one. -/
def Ascends (tree : Tree) (lower upper : NodeRef) : Prop :=
  tree.parent? lower = some upper

/-- The node met after this many parent links. -/
def ascend (tree : Tree) : Nat → NodeRef → Option NodeRef
  | 0, ref => some ref
  | steps + 1, ref => (tree.parent? ref).bind (tree.ascend steps)

variable {tree : Tree}

theorem ascend_add (first second : Nat) (ref : NodeRef) :
    tree.ascend (first + second) ref = (tree.ascend first ref).bind (tree.ascend second) := by
  induction first generalizing ref with
  | zero => simp [ascend]
  | succ first inductionHypothesis =>
      rw [Nat.succ_add, ascend, ascend, Option.bind_assoc]
      exact congrArg (Option.bind (tree.parent? ref)) (funext inductionHypothesis)

theorem exists_ascend_iff {ref ancestor : NodeRef} :
    (∃ steps, tree.ascend steps ref = some ancestor) ↔
      Relation.ReflTransGen tree.Ascends ref ancestor := by
  constructor
  · intro met
    obtain ⟨steps, there⟩ := met
    induction steps generalizing ref with
    | zero =>
        cases there
        exact Relation.ReflTransGen.refl
    | succ steps inductionHypothesis =>
        obtain ⟨parent, link, further⟩ := Option.bind_eq_some_iff.mp there
        exact Relation.ReflTransGen.head link (inductionHypothesis further)
  · intro chain
    induction chain using Relation.ReflTransGen.head_induction_on with
    | refl => exact ⟨0, rfl⟩
    | head link _ inductionHypothesis =>
        obtain ⟨steps, there⟩ := inductionHypothesis
        exact ⟨steps + 1, by rw [ascend, link, Option.bind_some, there]⟩

theorem climb_eq_found_iff {ref ancestor : NodeRef} {limit : Nat} :
    tree.climb ancestor limit ref = .found ↔
      ∃ steps, steps < limit ∧ tree.ascend steps ref = some ancestor := by
  induction limit generalizing ref with
  | zero => simp [climb]
  | succ limit inductionHypothesis =>
      unfold climb
      by_cases arrived : ref = ancestor
      · simp only [if_pos arrived, true_iff]
        exact ⟨0, Nat.succ_pos limit, congrArg some arrived⟩
      · rw [if_neg arrived]
        constructor
        · intro met
          cases link : tree.parent? ref with
          | none => simp [link] at met
          | some parent =>
              rw [link] at met
              obtain ⟨steps, few, there⟩ := inductionHypothesis.mp met
              exact ⟨steps + 1, Nat.succ_lt_succ few, by rw [ascend, link, Option.bind_some, there]⟩
        · intro met
          obtain ⟨steps, few, there⟩ := met
          cases steps with
          | zero => exact absurd (Option.some.inj there) arrived
          | succ steps =>
              obtain ⟨parent, link, further⟩ := Option.bind_eq_some_iff.mp there
              rw [link]
              exact inductionHypothesis.mpr ⟨steps, Nat.lt_of_succ_lt_succ few, further⟩

/-- A search gives up only if the way up goes beyond its limit. -/
theorem climb_eq_endless_iff {ref ancestor : NodeRef} {limit : Nat} :
    tree.climb ancestor limit ref = .endless ↔
      (tree.ascend limit ref).isSome = true ∧
        ∀ steps, steps < limit → tree.ascend steps ref ≠ some ancestor := by
  induction limit generalizing ref with
  | zero => simp [climb, ascend]
  | succ limit inductionHypothesis =>
      unfold climb
      by_cases arrived : ref = ancestor
      · rw [if_pos arrived]
        refine iff_of_false nofun fun beyond => ?_
        exact beyond.2 0 (Nat.succ_pos limit) (congrArg some arrived)
      · rw [if_neg arrived]
        cases link : tree.parent? ref with
        | none => simp [ascend, link]
        | some parent =>
            refine inductionHypothesis.trans ?_
            rw [ascend, link, Option.bind_some]
            refine and_congr_right fun _ => ⟨fun unmet steps few => ?_, fun unmet steps few => ?_⟩
            · cases steps with
              | zero => exact fun same => arrived (Option.some.inj same)
              | succ steps =>
                  rw [ascend, link, Option.bind_some]
                  exact unmet steps (Nat.lt_of_succ_lt_succ few)
            · have later := unmet (steps + 1) (Nat.succ_lt_succ few)
              rwa [ascend, link, Option.bind_some] at later

private theorem place_lt_of_ascend {ref : NodeRef} {node : Node} (there : tree.node? ref = some node)
    {steps : Nat} {upper : NodeRef} (met : tree.ascend steps ref = some upper) :
    upper.place < tree.nodes.size := by
  cases steps with
  | zero =>
      cases met
      exact place_lt_size there
  | succ steps =>
      rw [ascend_add] at met
      obtain ⟨lower, -, last⟩ := Option.bind_eq_some_iff.mp met
      obtain ⟨parent, link, same⟩ := Option.bind_eq_some_iff.mp last
      cases same
      obtain ⟨-, above, found⟩ := parent?_eq_some_iff.mp link
      obtain ⟨upperNode, upperThere, -⟩ := Option.map_eq_some_iff.mp found
      exact place_lt_size upperThere

private theorem exists_ascend_of_le {ref top : NodeRef} {steps last : Nat} (few : steps ≤ last)
    (arrives : tree.ascend last ref = some top) : ∃ upper, tree.ascend steps ref = some upper := by
  rw [← Nat.add_sub_of_le few, ascend_add] at arrives
  obtain ⟨upper, here, -⟩ := Option.bind_eq_some_iff.mp arrives
  exact ⟨upper, here⟩

/-- A way up that meets no node twice has fewer steps than there are places. -/
private theorem lt_size_of_distinct {ref top : NodeRef} {node : Node}
    (there : tree.node? ref = some node) {last : Nat} (arrives : tree.ascend last ref = some top)
    (distinct : ∀ first second, first < second → second ≤ last →
      tree.ascend first ref ≠ tree.ascend second ref) : last < tree.nodes.size := by
  choose upper here using fun steps : Fin (last + 1) =>
    exists_ascend_of_le (Nat.le_of_lt_succ steps.isLt) arrives
  let place : Fin (last + 1) → Fin tree.nodes.size := fun steps =>
    ⟨(upper steps).place, place_lt_of_ascend there (here steps)⟩
  have injective : Function.Injective place := by
    intro first second same
    have sameUpper : upper first = upper second := by
      have samePlace := Fin.mk.inj same
      cases atFirst : upper first
      cases atSecond : upper second
      rw [atFirst, atSecond] at samePlace
      exact congrArg NodeRef.mk samePlace
    have sameWay : tree.ascend first.val ref = tree.ascend second.val ref := by
      rw [here first, here second, sameUpper]
    rcases Nat.lt_trichotomy first.val second.val with before | equal | behind
    · exact absurd sameWay (distinct _ _ before (Nat.le_of_lt_succ second.isLt))
    · exact Fin.ext equal
    · exact absurd sameWay.symm (distinct _ _ behind (Nat.le_of_lt_succ first.isLt))
  have bound := Fintype.card_le_of_injective place injective
  rw [Fintype.card_fin, Fintype.card_fin] at bound
  omega

/-- A node that is met at all is met within as many steps as there are places. -/
private theorem exists_ascend_lt_size {ref ancestor : NodeRef} {node : Node}
    (there : tree.node? ref = some node)
    (met : ∃ steps, tree.ascend steps ref = some ancestor) :
    ∃ steps, steps < tree.nodes.size ∧ tree.ascend steps ref = some ancestor := by
  have arrives := Nat.find_spec met
  have earliest := fun steps => Nat.find_min met (m := steps)
  generalize Nat.find met = least at arrives earliest
  refine ⟨least, lt_size_of_distinct there arrives ?_, arrives⟩
  -- Two equal nodes on the way would give a shorter way.
  intro first second before few same
  have shorter : tree.ascend (first + (least - second)) ref = some ancestor := by
    rw [ascend_add, same, ← ascend_add, Nat.add_sub_of_le few, arrives]
  exact earliest (first + (least - second)) (by omega) shorter

/-- A way up that ends at all ends within as many steps as there are places. -/
theorem ascend_size_eq_none_of_ended {ref : NodeRef} {node : Node}
    (there : tree.node? ref = some node) (ended : ∃ steps, tree.ascend steps ref = none) :
    tree.ascend tree.nodes.size ref = none := by
  have ends := Nat.find_spec ended
  have earliest := fun steps => Nat.find_min ended (m := steps)
  generalize Nat.find ended = least at ends earliest
  cases least with
  | zero => cases ends
  | succ last =>
      obtain ⟨top, arrives⟩ := Option.ne_none_iff_exists'.mp (earliest last (Nat.lt_succ_self last))
      have short : last < tree.nodes.size := by
        refine lt_size_of_distinct there arrives ?_
        -- From the first of two equal nodes on the way, it would have ended earlier.
        intro first second before few same
        have shorter : tree.ascend (first + (last + 1 - second)) ref = none := by
          rw [ascend_add, same, ← ascend_add, Nat.add_sub_of_le (Nat.le_succ_of_le few), ends]
        exact earliest (first + (last + 1 - second)) (by omega) shorter
      rw [← Nat.add_sub_of_le short, ascend_add, ends, Option.bind_none]

/-- Where no node is above itself, every way up ends. -/
theorem ascend_size_eq_none {ref : NodeRef} {node : Node} (there : tree.node? ref = some node)
    (circleFree : ∀ lower, ¬ Relation.TransGen tree.Ascends lower lower) :
    tree.ascend tree.nodes.size ref = none := by
  cases arrives : tree.ascend tree.nodes.size ref with
  | none => rfl
  | some top =>
      refine absurd (lt_size_of_distinct there arrives ?_) (Nat.lt_irrefl _)
      -- From the first of two equal nodes on the way, the links lead back to it.
      intro first second before few same
      obtain ⟨lower, here⟩ := exists_ascend_of_le (Nat.le_trans (Nat.le_of_lt before) few) arrives
      have around : tree.ascend (second - first - 1 + 1) lower = some lower := by
        have further : tree.ascend second ref = tree.ascend (second - first) lower := by
          rw [← Nat.add_sub_of_le (Nat.le_of_lt before), ascend_add, here, Option.bind_some,
            Nat.add_sub_cancel_left]
        rw [Nat.sub_add_cancel (by omega), ← further, ← same, here]
      obtain ⟨parent, link, back⟩ := Option.bind_eq_some_iff.mp around
      exact circleFree lower (Relation.TransGen.head' link (exists_ascend_iff.mp ⟨_, back⟩))

/-- The search for an ancestor finds exactly the nodes on the way up. -/
theorem search_eq_found_iff {ref ancestor : NodeRef} {node : Node}
    (there : tree.node? ref = some node) :
    tree.search ref ancestor = .found ↔ Relation.ReflTransGen tree.Ascends ref ancestor := by
  rw [search, climb_eq_found_iff, ← exists_ascend_iff]
  constructor
  · intro met
    obtain ⟨steps, -, arrives⟩ := met
    exact ⟨steps, arrives⟩
  · exact exists_ascend_lt_size there

/-- The search for an ancestor does not end exactly if the way up does not and the ancestor is not
on it. -/
theorem search_eq_endless_iff {ref ancestor : NodeRef} {node : Node}
    (there : tree.node? ref = some node) :
    tree.search ref ancestor = .endless ↔
      (∀ steps, (tree.ascend steps ref).isSome = true) ∧
        ¬ Relation.ReflTransGen tree.Ascends ref ancestor := by
  constructor
  · intro endless
    constructor
    · intro steps
      by_contra ended
      have none := ascend_size_eq_none_of_ended there
        ⟨steps, Option.not_isSome_iff_eq_none.mp ended⟩
      have beyond := (climb_eq_endless_iff.mp endless).1
      rw [none] at beyond
      cases beyond
    · intro chain
      cases endless.symm.trans ((search_eq_found_iff there).mpr chain)
  · intro beyond
    refine climb_eq_endless_iff.mpr ⟨beyond.1 _, fun steps _ arrives => ?_⟩
    exact beyond.2 (exists_ascend_iff.mp ⟨steps, arrives⟩)

end MemFs.Tree
