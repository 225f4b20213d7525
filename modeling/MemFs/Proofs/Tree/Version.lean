import MemFs.Proofs.Name
import MemFs.Proofs.Tree.Alteration
import MemFs.Proofs.Tree.Run

/-!
# Versions

The version of a node is what tells a client that its copy of the node is out of date. Whatever an
operation changes of the appearance of a node, it gives the node another version, with one
exception: a directory that gives a node another name changes the name that the node shows and keeps
its version.
-/

namespace MemFs

/-- What a client sees of a node apart from its identity and from when it was accessed. -/
structure Appearance where
  body : Body
  mode : Mode
  modifyTime : UInt32
  length : UInt64
  name : String
  owner : String
  group : String
  lastModifier : String
deriving DecidableEq

namespace Node

def appearance (node : Node) : Appearance where
  body := node.body
  mode := node.stat.mode
  modifyTime := node.stat.modifyTime
  length := node.stat.length
  name := node.stat.name
  owner := node.stat.owner
  group := node.stat.group
  lastModifier := node.stat.lastModifier

/-- A valid name is shown as it is. -/
theorem shownName_of_isValid (node : Node) {name : String} (valid : Name.isValid name = true) :
    { node with name }.shownName = name := by
  unfold shownName
  split
  · rfl
  · exact if_neg (Name.ne_empty_of_isValid valid)

/-- What a node shows in place of its name is no valid name. -/
theorem shownName_ne_of_isValid {node : Node} {name : String} (valid : Name.isValid name = true)
    (apart : node.name ≠ name) : node.shownName ≠ name := by
  unfold shownName
  split
  · exact apart
  · split
    · exact (Name.ne_slash_of_isValid valid).symm
    · exact apart

theorem appearance_renamed (node : Node) (name : String) :
    { node with name }.appearance =
      { node.appearance with name := { node with name }.shownName } := rfl

end Node

namespace Tree

/-- Something is seen to be different about a node, and its version does not tell. -/
def Unannounced (before after : Node) : Prop :=
  after.appearance ≠ before.appearance ∧ after.qid.version = before.qid.version

/-- A version that went up is another version. -/
theorem not_unannounced_of_succ {before after : Node}
    (moved : after.version = before.version + 1) : ¬ Unannounced before after := by
  rintro ⟨-, same⟩
  have unmoved : before.version + 1 = before.version := moved.symm.trans same
  exact absurd unmoved (by simp)

/-- Only a rename in a directory is unannounced to the node. -/
theorem Altered.renamed_of_unannounced {tree : Tree} {clock : Clock} {operation : Operation}
    {ending : Ending Answer} {ref : NodeRef} {before after : Node}
    (altered : Altered tree clock operation ending ref before after)
    (unannounced : Unannounced before after) :
    ∃ directory user old new, operation = .rename directory user old new ∧ ending = .ok .done ∧
      tree.Holds directory old ref ∧ ref ≠ directory ∧ before.name ≠ new := by
  cases altered with
  | kept | accessed | opened | released | takenIn => exact absurd rfl unannounced.1
  | @renamed directory user old new isRename done here apart =>
      refine ⟨directory, user, old, new, isRename, done, here, apart, ?_⟩
      intro same
      subst same
      exact unannounced.1 rfl
  | revised | relisted | relistedBy | renamedInside | emptied | written =>
      exact absurd unannounced (not_unannounced_of_succ rfl)

/-- What a rename in a directory that succeeds does to the node that it renames. -/
theorem Effect.node?_renamed {tree : Tree} {setting : Setting} {outcome : Outcome Answer}
    {directory ref : NodeRef} {user old new : String} {before after : Node}
    (effect : Effect tree setting (.rename directory user old new) outcome)
    (done : outcome.ending = .ok .done) (here : tree.Holds directory old ref)
    (apart : ref ≠ directory) (there : tree.node? ref = some before)
    (stays : outcome.tree.node? ref = some after) :
    Name.isValid new = true ∧ after = { before with name := new } := by
  cases effect with
  | refused | stalled => cases done
  | @renamed _ child _ entries _ _ _ found valid granted present free =>
      obtain ⟨node, others, same, held⟩ := here
      cases found.symm.trans same
      cases present.symm.trans held
      refine ⟨valid, ?_⟩
      rw [node?_modifyNode, if_neg apart, node?_modifyNode_of_some there, if_pos rfl] at stays
      exact (Option.some.inj stays).symm
  | readContent reads => cases reads
  | readSnapshot reads => cases reads
  | readFresh reads => cases reads

end Tree

namespace World

/-- The version of a node fails to tell that an operation has changed how the node appears exactly
if a directory other than the node itself has given it a name that it did not have. Only the name
has then changed. -/
theorem unannounced_iff_renamed {world : World} {clock : Clock} {operation : Operation}
    {ref : NodeRef} {before after : Node} (there : world.tree.node? ref = some before)
    (stays : (world.step clock operation).tree.node? ref = some after) :
    Tree.Unannounced before after ↔
      ∃ directory user old new, operation = .rename directory user old new ∧
        (world.outcome clock operation).ending = .ok .done ∧
        world.tree.Holds directory old ref ∧ ref ≠ directory ∧ before.name ≠ new ∧
        after.appearance = { before.appearance with name := new } := by
  have effect := Tree.effect_perform world.tree ⟨world.policy, world.asked, clock⟩ operation
  constructor
  · intro unannounced
    obtain ⟨directory, user, old, new, rfl, done, here, apart, other⟩ :=
      (effect.altered there stays).renamed_of_unannounced unannounced
    obtain ⟨valid, rfl⟩ := effect.node?_renamed done here apart there stays
    refine ⟨directory, user, old, new, rfl, done, here, apart, other, ?_⟩
    rw [Node.appearance_renamed, Node.shownName_of_isValid before valid]
  · rintro ⟨directory, user, old, new, rfl, done, here, apart, other, -⟩
    obtain ⟨valid, rfl⟩ := effect.node?_renamed done here apart there stays
    refine ⟨?_, rfl⟩
    intro same
    have sameName : { before with name := new }.shownName = before.shownName :=
      congrArg Appearance.name same
    rw [Node.shownName_of_isValid before valid] at sameName
    exact Node.shownName_ne_of_isValid valid other sameName.symm

/-- A root with a file. -/
def withFile : World :=
  (fresh .allowAll ⟨"", ⟨0o755⟩, "o", "g"⟩ .sequential 0).step 1 (.create ⟨0⟩ "o" "f" ⟨0o644⟩)

/-- The file gets another name, and its version stays. -/
theorem unannounced_rename :
    ∃ before after, withFile.tree.node? ⟨1⟩ = some before ∧
      (withFile.step 2 (.rename ⟨0⟩ "o" "f" "g")).tree.node? ⟨1⟩ = some after ∧
      before.stat.name = "f" ∧ after.stat.name = "g" ∧
      after.qid.version = before.qid.version := by
  refine ⟨_, _, rfl, rfl, ?_, ?_, ?_⟩ <;> rfl

/-- The version of the directory does tell. -/
theorem announced_rename :
    ∃ before after, (withFile.tree.node? ⟨0⟩ = some before ∧
        (withFile.step 2 (.rename ⟨0⟩ "o" "f" "g")).tree.node? ⟨0⟩ = some after) ∧
      after.appearance ≠ before.appearance ∧ after.qid.version ≠ before.qid.version := by
  have there : ∃ before, withFile.tree.node? ⟨0⟩ = some before ∧ before.modifyTime = 1 :=
    ⟨_, rfl, rfl⟩
  have stays : ∃ after, (withFile.step 2 (.rename ⟨0⟩ "o" "f" "g")).tree.node? ⟨0⟩ = some after ∧
      after.modifyTime = 2 := ⟨_, rfl, rfl⟩
  obtain ⟨before, beforeThere, earlier⟩ := there
  obtain ⟨after, afterThere, later⟩ := stays
  have changed : after.appearance ≠ before.appearance := by
    intro same
    have sameTime : after.modifyTime = before.modifyTime := congrArg Appearance.modifyTime same
    rw [earlier, later] at sameTime
    exact absurd sameTime (by decide)
  refine ⟨before, after, ⟨beforeThere, afterThere⟩, changed, ?_⟩
  intro sameVersion
  obtain ⟨directory, user, old, new, isRename, -, -, apart, -⟩ :=
    (unannounced_iff_renamed beforeThere afterThere).mp ⟨changed, sameVersion⟩
  cases isRename
  exact apart rfl

end World

end MemFs
