import MemFs.Proofs.Tree.Resolution

/-!
# Addresses

The address of a node is made of the names that the nodes on its way up to the root are called. A
path is made of the names under which directories hold nodes on the way down. While nothing but
creating, renaming and metadata writes gives nodes and entries their names, both are the same.
-/

namespace MemFs

namespace Operation

/-- An operation that gives no node another parent link. -/
def keepsParents : Operation → Bool
  | .attach _ _ => false
  | .add _ _ _ => false
  | _ => true

theorem isPlainBelow_of_keepsParents {operation : Operation}
    (keeps : operation.keepsParents = true) (tree : Tree) :
    operation.isPlainBelow tree = true := by
  cases operation with
  | attach node parent => cases keeps
  | add directory name graft => cases keeps
  | _ => rfl

end Operation

namespace Tree

variable {tree : Tree} {ref : NodeRef} {names : List String}

/-- The names that the nodes on the way up from a node are called, from below the root down to the
node. -/
inductive Address (tree : Tree) : NodeRef → List String → Prop
  | root : Address tree tree.root []
  | beneath {ref parent : NodeRef} {node : Node} {names : List String} (notRoot : ref ≠ tree.root)
      (there : tree.node? ref = some node) (above : tree.parent? ref = some parent)
      (address : Address tree parent names) : Address tree ref (names ++ [node.name])

/-- A node has one address at most. -/
theorem Address.unique {other : List String} (address : tree.Address ref names)
    (otherAddress : tree.Address ref other) : names = other := by
  induction address generalizing other with
  | root =>
      cases otherAddress with
      | root => rfl
      | beneath notRoot => exact absurd rfl notRoot
  | beneath notRoot there above _ inductionHypothesis =>
      cases otherAddress with
      | root => exact absurd rfl notRoot
      | beneath _ otherThere otherAbove otherAddress =>
          cases there.symm.trans otherThere
          cases above.symm.trans otherAbove
          rw [inductionHypothesis otherAddress]

theorem Address.iff_eq (address : tree.Address ref names) (other : List String) :
    tree.Address ref other ↔ other = names := by
  constructor
  · exact fun otherAddress => otherAddress.unique address
  · intro same
    rw [same]
    exact address

/-- Directories hold every node under the name that it is called. -/
def CalledAsHeld (tree : Tree) : Prop :=
  ∀ directory name child own, tree.HoldsAs directory name child own → own = name

namespace Descends

/-- The way down to a node is its way up. -/
theorem address (descends : tree.Descends names ref) (rooted : tree.IsRooted)
    (called : tree.CalledAsHeld) : tree.Address ref names := by
  induction descends with
  | root => exact Address.root
  | into above here inductionHypothesis =>
      obtain ⟨outline, outlineThere, -⟩ := rooted.agree.inside _ _ _ here
      obtain ⟨node, there, -⟩ := Option.map_eq_some_iff.mp outlineThere
      have sameName : node.name = _ := called _ _ _ node.name
        ⟨here, node.outline, by rw [outline?, there, Option.map_some], rfl⟩
      rw [← sameName]
      exact Address.beneath (rooted.ne_root here) there (rooted.parent?_of_holds here)
        inductionHypothesis

theorem reached (descends : tree.Descends names ref) :
    Relation.ReflTransGen tree.Owns tree.root ref := by
  induction descends with
  | root => exact Relation.ReflTransGen.refl
  | into above here inductionHypothesis => exact inductionHypothesis.tail ⟨_, here⟩

theorem exists_of_reached (reached : Relation.ReflTransGen tree.Owns tree.root ref) :
    ∃ names, tree.Descends names ref := by
  induction reached with
  | refl => exact ⟨[], Descends.root⟩
  | tail _ link inductionHypothesis =>
      obtain ⟨names, above⟩ := inductionHypothesis
      obtain ⟨name, here⟩ := link
      exact ⟨names ++ [name], above.into here⟩

/-- Entries that are followed one after the other end at one node at most. -/
theorem unique {other : NodeRef} (rooted : tree.IsRooted) (descends : tree.Descends names ref)
    (otherDescends : tree.Descends names other) : ref = other := by
  have same := (descends.look rooted).symm.trans (otherDescends.look rooted)
  exact Option.some.inj (Except.ok.inj same)

end Descends

end Tree

namespace World

/-- While nothing is added, directories hold every node under the name that it is called. -/
theorem calledAsHeld_run (policy : Policy) (blueprint : Blueprint) (first : UInt64)
    (start : UInt32) {operations : List (Clock × Operation)}
    (keeps : ∀ timed ∈ operations, timed.2.keepsParents = true)
    (few : ((fresh policy blueprint (.counting first) start).run operations).tree.nodes.size <
      UInt64.size) :
    ((fresh policy blueprint (.counting first) start).run operations).tree.CalledAsHeld := by
  intro directory name child own holdsAs
  by_contra apart
  have plain : (fresh policy blueprint (.counting first) start).Respects
      (fun tree operation => operation.isPlain tree = true) operations :=
    respects_of_forall_mem (fun timed member tree => Operation.isPlain_of_isPlainBelow
      (Operation.isPlainBelow_of_keepsParents (keeps timed member) tree)) _
  have bare : ∀ directory name child,
      ¬ (fresh policy blueprint (.counting first) start).tree.Holds directory name child :=
    fun directory name child here =>
      Tree.not_owns_ofRoot blueprint (.counting first) start directory child ⟨name, here⟩
  have distinct : (fresh policy blueprint (.counting first) start).Respects
      (fun tree _ => tree.IsDistinct) operations :=
    respects_isDistinct (Tree.isNumbered_ofRoot blueprint first start) few
  have addedAs := (holdsAs_iff_addedAs (Tree.isWooded_ofRoot blueprint (.counting first) start) bare
    plain distinct apart).mp holdsAs
  obtain ⟨before, clock, behind, split, -⟩ := addedAs
  have isAdd := keeps (clock, .add directory name child) (by simp [split])
  cases isAdd

/-- Addresses and paths are the same. What the root reaches has an address, to which the path with
these components leads. A path without `.` and `..` leads to a node with its components as the
address, so that two such paths lead to one node exactly if they have the same components. -/
theorem paths_correspond (policy : Policy) (blueprint : Blueprint) (first : UInt64)
    (start : UInt32) (operations : List (Clock × Operation))
    (keeps : ∀ timed ∈ operations, timed.2.keepsParents = true)
    (few : ((fresh policy blueprint (.counting first) start).run operations).tree.nodes.size <
      UInt64.size) {user : String}
    (allowed : ((fresh policy blueprint (.counting first) start).run operations).tree.LetsThrough
      ((fresh policy blueprint (.counting first) start).run operations).policy
      ((fresh policy blueprint (.counting first) start).run operations).asked user)
    (clock later : Clock) :
    let world := (fresh policy blueprint (.counting first) start).run operations
    (∀ ref, Relation.ReflTransGen world.tree.Owns world.tree.root ref →
      ∃ names, (∀ other, world.tree.Address ref other ↔ other = names) ∧
        (world.outcome clock (.resolve user (Name.join names))).ending = .ok (.node (some ref))) ∧
    (∀ path ref, Name.ArePlain (Name.components path) →
      (world.outcome clock (.resolve user path)).ending = .ok (.node (some ref)) →
        Relation.ReflTransGen world.tree.Owns world.tree.root ref ∧
          ∀ other, world.tree.Address ref other ↔ other = Name.components path) ∧
    ∀ path otherPath ref other, Name.ArePlain (Name.components path) →
      Name.ArePlain (Name.components otherPath) →
      (world.outcome clock (.resolve user path)).ending = .ok (.node (some ref)) →
      (world.outcome later (.resolve user otherPath)).ending = .ok (.node (some other)) →
        (ref = other ↔ Name.components path = Name.components otherPath) := by
  intro world
  have rooted : world.tree.IsRooted := isRooted_run policy blueprint (.counting first) start
    (respects_of_forall_mem (fun timed member tree =>
      Operation.isPlainBelow_of_keepsParents (keeps timed member) tree) _)
  have called : world.tree.CalledAsHeld := calledAsHeld_run policy blueprint first start keeps few
  have descends : ∀ time path ref, Name.ArePlain (Name.components path) →
      (world.outcome time (.resolve user path)).ending = .ok (.node (some ref)) →
        world.tree.Descends (Name.components path) ref := by
    intro time path ref plain resolved
    have down := Tree.descends_of_look rooted (look_of_ending_resolve allowed resolved)
    rwa [Name.simplified_of_plain plain] at down
  refine ⟨?_, ?_, ?_⟩
  · intro ref reached
    obtain ⟨names, down⟩ := Tree.Descends.exists_of_reached reached
    refine ⟨names, (down.address rooted called).iff_eq, ?_⟩
    have proper : ∀ name ∈ names, Name.IsComponent name := fun name member =>
      Name.isComponent_of_isValid (down.isValid rooted name member)
    rw [ending_resolve allowed, Name.components_join proper, down.look rooted]
    rfl
  · intro path ref plain resolved
    have down := descends clock path ref plain resolved
    exact ⟨down.reached, (down.address rooted called).iff_eq⟩
  · intro path otherPath ref other plain otherPlain resolved otherResolved
    have down := descends clock path ref plain resolved
    have otherDown := descends later otherPath other otherPlain otherResolved
    constructor
    · intro same
      subst same
      exact (down.address rooted called).unique (otherDown.address rooted called)
    · intro same
      rw [same] at down
      exact down.unique rooted otherDown

/-- A directory is renamed, a file in it gets another name by a metadata write, and another file is
removed while a client holds it. -/
def renamedBothWays : List (Clock × Operation) :=
  [(1, .create ⟨0⟩ "o" "a" (.ofDirectory 0o755)), (2, .create ⟨1⟩ "o" "f" ⟨0o644⟩),
    (3, .rename ⟨0⟩ "o" "a" "b"),
    (4, .writeMetadata ⟨2⟩ ⟨0, 0, ⟨.file, 0, 0⟩, ⟨0o644⟩, 0, 0, 0, "g", "o", "g", ""⟩),
    (5, .create ⟨1⟩ "o" "h" ⟨0o644⟩), (6, .hold ⟨3⟩), (7, .remove ⟨1⟩ "o" "h")]

/-- The first file has the address that its path has had since, and no other. -/
theorem paths_correspond_renamedBothWays :
    let world := (fresh .ownerOther ⟨"", ⟨0o755⟩, "o", "g"⟩ (.counting 1) 0).run renamedBothWays
    ((∀ timed ∈ renamedBothWays, timed.2.keepsParents = true) ∧
      world.tree.nodes.size < UInt64.size ∧
      world.tree.LetsThrough world.policy world.asked "u" ∧
      (world.outcome 8 (.resolve "u" "/b//g")).ending = .ok (.node (some ⟨2⟩))) ∧
    (∀ other, world.tree.Address ⟨2⟩ other ↔ other = ["b", "g"]) ∧
    (world.outcome 8 (.resolve "u" (Name.join ["b", "g"]))).ending = .ok (.node (some ⟨2⟩)) := by
  intro world
  have keeps : ∀ timed ∈ renamedBothWays, timed.2.keepsParents = true := by decide +kernel
  have few : world.tree.nodes.size < UInt64.size := by decide +kernel
  have allowed : world.tree.LetsThrough world.policy world.asked "u" :=
    Tree.letsThrough_of_forall_mem (by decide +kernel) world.asked
  have resolved : (world.outcome 8 (.resolve "u" "/b//g")).ending = .ok (.node (some ⟨2⟩)) := by
    decide +kernel
  have components : Name.components "/b//g" = ["b", "g"] := by decide +kernel
  have plain : Name.ArePlain (Name.components "/b//g") := by
    rw [components, Name.ArePlain]
    decide
  have correspond := paths_correspond .ownerOther ⟨"", ⟨0o755⟩, "o", "g"⟩ 1 0 renamedBothWays
    keeps few allowed 8 8
  obtain ⟨reached, address⟩ := correspond.2.1 "/b//g" ⟨2⟩ plain resolved
  rw [components] at address
  obtain ⟨names, addressed, found⟩ := correspond.1 ⟨2⟩ reached
  have same : names = ["b", "g"] := (address names).mp ((addressed names).mpr rfl)
  rw [same] at found
  exact ⟨⟨keeps, few, allowed, resolved⟩, address, found⟩

end World

end MemFs
