import MemFs.Proofs.Tree.Run
import Mathlib.Algebra.BigOperators.Group.Finset.Piecewise

/-!
# Interleavings

Several parties take turns at a tree. What one of them does, read off the turns of all, is a list of
its own; the turns interleave the lists that the parties do on their own.
-/

namespace MemFs

/-- One party does something at some time. -/
structure Turn (ι α : Type) where
  party : ι
  clock : Clock
  action : α

variable {ι α : Type} [DecidableEq ι]

/-- What one party does in these turns, in its order. -/
def actionsOf (party : ι) (turns : List (Turn ι α)) : List α :=
  (turns.filter fun turn => turn.party = party).map Turn.action

/-- Each party does what its list says, in the order of the list. -/
def Interleaves (turns : List (Turn ι α)) (parts : ι → List α) : Prop :=
  ∀ party, actionsOf party turns = parts party

/-- The operations of the turns, at their times. -/
def schedule (operation : ι → α → Operation) (turns : List (Turn ι α)) :
    List (Clock × Operation) :=
  turns.map fun turn => (turn.clock, operation turn.party turn.action)

variable {party : ι} {turn : Turn ι α} {turns : List (Turn ι α)} {parts : ι → List α}

theorem actionsOf_cons :
    actionsOf party (turn :: turns) =
      if turn.party = party then turn.action :: actionsOf party turns
      else actionsOf party turns := by
  rw [actionsOf, List.filter_cons]
  by_cases own : turn.party = party <;> simp [own, actionsOf]

theorem actionsOf_cons_self :
    actionsOf turn.party (turn :: turns) = turn.action :: actionsOf turn.party turns := by
  rw [actionsOf_cons, if_pos rfl]

theorem actionsOf_cons_of_ne (other : turn.party ≠ party) :
    actionsOf party (turn :: turns) = actionsOf party turns := by
  rw [actionsOf_cons, if_neg other]

theorem mem_actionsOf {action : α} :
    action ∈ actionsOf party turns ↔ ∃ turn ∈ turns, turn.party = party ∧ turn.action = action := by
  simp [actionsOf, and_assoc]

/-- What is done in a turn is in the list of its party. -/
theorem Interleaves.mem (interleaves : Interleaves turns parts) (member : turn ∈ turns) :
    turn.action ∈ parts turn.party := by
  rw [← interleaves turn.party]
  exact mem_actionsOf.mpr ⟨turn, member, rfl, rfl⟩

/-- Every turn counts for one party. -/
theorem countP_eq_sum [Fintype ι] (counts : α → Bool) (turns : List (Turn ι α)) :
    turns.countP (fun turn => counts turn.action) =
      ∑ party, (actionsOf party turns).countP counts := by
  induction turns with
  | nil => simp [actionsOf]
  | cons turn rest inductionHypothesis =>
      have apart : ∀ party, (actionsOf party (turn :: rest)).countP counts =
          (if turn.party = party then (if counts turn.action then 1 else 0) else 0) +
            (actionsOf party rest).countP counts := by
        intro party
        rw [actionsOf_cons]
        split
        · rw [List.countP_cons, Nat.add_comm]
        · rw [Nat.zero_add]
      rw [List.countP_cons, inductionHypothesis, Finset.sum_congr rfl fun party _ => apart party,
        Finset.sum_add_distrib, Finset.sum_ite_eq, if_pos (Finset.mem_univ _), Nat.add_comm]

end MemFs
