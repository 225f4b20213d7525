import MemFs.Proofs.Tree.Lookup
import Mathlib.Logic.Relation

/-!
# What a sweep keeps

A sweep drops nodes and changes nothing else. It keeps what the entries of the kept directories
refer to, and it keeps every set of nodes whose members each have an owner: the root, a client, an
open session, or a directory of the set itself. Nodes that own each other in a circle are such a
set, so they stay for ever.
-/

namespace MemFs.Tree

/-- Something owns the node in this place, and if it is a directory, that is a member. -/
def IsSupported (tree : Tree) (members : NodeRef → Prop) (ref : NodeRef) : Prop :=
  ref = tree.root ∨ ref ∈ tree.held ∨
    (∃ place session, tree.session? place = some session ∧ session.node = some ref) ∨
    ∃ directory, members directory ∧ tree.Owns directory ref

theorem isOwned_iff {tree : Tree} {ref : NodeRef} :
    tree.isOwned ref = true ↔ tree.IsSupported (fun _ => True) ref := by
  have sessions : (tree.sessions.values.any fun session => session.node = some ref) = true ↔
      ∃ place session, tree.session? place = some session ∧ session.node = some ref := by
    simp only [List.any_eq_true, Arena.mem_values_iff, decide_eq_true_eq]
    constructor
    · rintro ⟨session, ⟨place, found⟩, onNode⟩
      exact ⟨⟨place⟩, session, found, onNode⟩
    · rintro ⟨place, session, found, onNode⟩
      exact ⟨session, ⟨place.place, found⟩, onNode⟩
  have entries : tree.isLinked ref = true ↔ ∃ directory name, tree.Holds directory name ref :=
    isLinked_iff
  rw [isLinked] at entries
  simp only [isOwned, IsSupported, Bool.or_eq_true, sessions, entries, decide_eq_true_eq,
    List.contains_iff_mem, true_and, Owns, or_assoc]

/-- Nodes without an owner in an earlier tree are missing in a later one, and no others. -/
structure Thinned (before after : Tree) : Prop where
  root : after.root = before.root
  ids : after.ids = before.ids
  size : after.nodes.size = before.nodes.size
  node : ∀ ref, after.node? ref = before.node? ref ∨ after.node? ref = none
  child : ∀ directory name child, after.Holds directory name child →
    after.node? child = before.node? child
  supported : ∀ members : NodeRef → Prop,
    (∀ ref, members ref → before.IsSupported members ref) →
      ∀ ref, members ref → after.node? ref = before.node? ref
  session : ∀ ref session, after.session? ref = some session → before.session? ref = some session

/-- The later tree differs in nothing else. -/
structure Swept (before after : Tree) : Prop extends Thinned before after where
  sessions : after.sessions = before.sessions
  held : after.held = before.held

theorem holds_congr_node {first second : Tree} {directory : NodeRef}
    (same : second.node? directory = first.node? directory) (name : String) (child : NodeRef) :
    second.Holds directory name child ↔ first.Holds directory name child := by
  simp only [Holds, directory?, same]

namespace Thinned

variable {before after : Tree}

theorem node?_eq (thinned : Thinned before after) {ref : NodeRef} {node : Node}
    (found : after.node? ref = some node) : before.node? ref = some node := by
  rcases thinned.node ref with same | gone
  · rw [← same, found]
  · rw [found] at gone
    cases gone

theorem holds (thinned : Thinned before after) {directory child : NodeRef} {name : String}
    (here : after.Holds directory name child) : before.Holds directory name child := by
  obtain ⟨node, entries, found, bound⟩ := here
  obtain ⟨there, body⟩ := directory?_eq_some_iff.mp found
  exact ⟨node, entries, directory?_eq_some_iff.mpr ⟨thinned.node?_eq there, body⟩, bound⟩

theorem owns (thinned : Thinned before after) {directory child : NodeRef}
    (here : after.Owns directory child) : before.Owns directory child := by
  obtain ⟨name, bound⟩ := here
  exact ⟨name, thinned.holds bound⟩

/-- Circles of entries survive a sweep. -/
theorem transGen_owns (thinned : Thinned before after) {directory : NodeRef}
    (circle : Relation.TransGen before.Owns directory directory) :
    Relation.TransGen after.Owns directory directory := by
  -- What can be reached from a member of a circle is a set whose members each have an owner in it.
  have owned : ∀ ref, Relation.TransGen before.Owns directory ref →
      before.IsSupported (Relation.TransGen before.Owns directory) ref := by
    intro ref reached
    refine Or.inr (Or.inr (Or.inr ?_))
    cases reached with
    | single link => exact ⟨directory, circle, link⟩
    | tail earlier link => exact ⟨_, earlier, link⟩
  have kept := thinned.supported _ owned
  have lift : ∀ source target, Relation.TransGen before.Owns directory source →
      before.Owns source target → after.Owns source target := by
    intro source target reached link
    obtain ⟨name, here⟩ := link
    exact ⟨name, (holds_congr_node (kept source reached) name target).mpr here⟩
  have walk : ∀ target, Relation.TransGen before.Owns directory target →
      Relation.TransGen after.Owns directory target := by
    intro target reached
    induction reached with
    | single link => exact Relation.TransGen.single (lift _ _ circle link)
    | tail earlier link inductionHypothesis =>
        exact inductionHypothesis.tail (lift _ _ earlier link)
  exact walk directory circle

theorem outline?_eq (thinned : Thinned before after) {ref : NodeRef} {outline : Outline}
    (found : after.outline? ref = some outline) : before.outline? ref = some outline := by
  obtain ⟨node, there, same⟩ := Option.map_eq_some_iff.mp found
  rw [outline?, thinned.node?_eq there, Option.map_some, same]

/-- What a directory holds stays. -/
theorem outline?_of_holds (thinned : Thinned before after) {directory child : NodeRef}
    {name : String} (here : after.Holds directory name child) :
    after.outline? child = before.outline? child := by
  rw [outline?, outline?, thinned.child _ _ _ here]

/-- A node on which a session is open stays. -/
theorem outline?_of_session (thinned : Thinned before after) {ref : SessionRef} {session : Session}
    {nodeRef : NodeRef} (kept : after.session? ref = some session)
    (onNode : session.node = some nodeRef) :
    after.outline? nodeRef = before.outline? nodeRef := by
  have owned : ∀ other, other = nodeRef →
      before.IsSupported (fun other => other = nodeRef) other := by
    intro other same
    subst same
    exact Or.inr (Or.inr (Or.inl ⟨ref, session, thinned.session ref session kept, onNode⟩))
  rw [outline?, outline?, thinned.supported _ owned nodeRef rfl]

end Thinned

namespace Swept

variable {before middle after : Tree}

theorem refl (tree : Tree) : Swept tree tree where
  root := rfl
  ids := rfl
  size := rfl
  node _ := Or.inl rfl
  child _ _ _ _ := rfl
  supported _ _ _ _ := rfl
  session _ _ kept := kept
  sessions := rfl
  held := rfl

theorem isSupported (swept : Swept before after) {members : NodeRef → Prop} {ref : NodeRef}
    (kept : ∀ directory, members directory → after.node? directory = before.node? directory)
    (owned : before.IsSupported members ref) : after.IsSupported members ref := by
  rcases owned with isRoot | isHeld | onSession | ⟨directory, member, name, here⟩
  · exact Or.inl (isRoot.trans swept.root.symm)
  · exact Or.inr (Or.inl (swept.held ▸ isHeld))
  · refine Or.inr (Or.inr (Or.inl ?_))
    simpa only [session?, swept.sessions] using onSession
  · refine Or.inr (Or.inr (Or.inr ⟨directory, member, name, ?_⟩))
    exact (holds_congr_node (kept directory member) name ref).mpr here

theorem trans (first : Swept before middle) (second : Swept middle after) :
    Swept before after where
  root := second.root.trans first.root
  ids := second.ids.trans first.ids
  size := second.size.trans first.size
  node ref := by
    rcases second.node ref with same | gone
    · rw [same]
      exact first.node ref
    · exact Or.inr gone
  child directory name child here := by
    rw [second.child directory name child here, first.child directory name child (second.holds here)]
  supported members owned ref member := by
    have kept := first.supported members owned
    rw [second.supported members (fun other inside => first.isSupported kept (owned other inside))
      ref member, kept ref member]
  session ref session kept := first.session ref session (second.session ref session kept)
  sessions := second.sessions.trans first.sessions
  held := second.held.trans first.held

end Swept

theorem swept_dropUnowned (tree : Tree) : Swept tree tree.dropUnowned := by
  have node?_dropUnowned : ∀ ref, tree.dropUnowned.node? ref =
      if tree.isOwned ref then tree.node? ref else none :=
    fun ref => Arena.get?_keep tree.nodes _ ref.place
  have kept : ∀ ref, tree.IsSupported (fun _ => True) ref →
      tree.dropUnowned.node? ref = tree.node? ref := by
    intro ref owned
    rw [node?_dropUnowned, if_pos (isOwned_iff.mpr owned)]
  have holds : ∀ directory name child, tree.dropUnowned.Holds directory name child →
      tree.Holds directory name child := by
    intro directory name child here
    obtain ⟨node, entries, found, bound⟩ := here
    obtain ⟨there, body⟩ := directory?_eq_some_iff.mp found
    rw [node?_dropUnowned] at there
    split at there
    · exact ⟨node, entries, directory?_eq_some_iff.mpr ⟨there, body⟩, bound⟩
    · cases there
  exact
    { sessions := rfl
      held := rfl
      root := rfl
      ids := rfl
      size := Arena.size_keep tree.nodes _
      node := by
        intro ref
        rw [node?_dropUnowned]
        split
        · exact Or.inl rfl
        · exact Or.inr rfl
      child := by
        intro directory name child here
        exact kept child
          (Or.inr (Or.inr (Or.inr ⟨directory, trivial, name, holds directory name child here⟩)))
      supported := by
        intro members owned ref member
        refine kept ref ?_
        rcases owned ref member with isRoot | isHeld | onSession | ⟨directory, -, here⟩
        · exact Or.inl isRoot
        · exact Or.inr (Or.inl isHeld)
        · exact Or.inr (Or.inr (Or.inl onSession))
        · exact Or.inr (Or.inr (Or.inr ⟨directory, trivial, here⟩))
      session := fun _ _ same => same }

theorem swept_sweepUpTo (passes : Nat) (tree : Tree) : Swept tree (sweepUpTo passes tree) := by
  induction passes generalizing tree with
  | zero => exact Swept.refl tree
  | succ passes inductionHypothesis =>
      unfold sweepUpTo
      split
      · exact Swept.refl tree
      · exact (swept_dropUnowned tree).trans (inductionHypothesis tree.dropUnowned)

/-- A sweep is what its name says. -/
theorem swept_sweep (tree : Tree) : Swept tree tree.sweep :=
  swept_sweepUpTo tree.nodes.size tree

end MemFs.Tree
