import MemFs.Proofs.Tree.Chronicle
import MemFs.Proofs.Tree.Footprint

/-!
# What decides on access to a node

The kind, the owner, the group and the mode of a node are its rights. A node gets them when it is
made. Only a metadata write of the node itself gives it another owner, group or mode, and nothing
gives it another kind.
-/

namespace MemFs

/-- What decides on access to a node. -/
structure Rights where
  kind : Kind
  owner : String
  group : String
  mode : Mode
deriving DecidableEq, Repr

def Node.rights (node : Node) : Rights :=
  ⟨node.kind, node.owner, node.group, node.mode⟩

/-- The rights of what a directory creates. -/
def Rights.ofChild (directory : Node) (name : String) (requested : Mode) : Rights :=
  let blueprint := Tree.inherited directory name requested
  if requested.isDirectory then
    ⟨.directory, directory.owner, directory.group, blueprint.mode.asDirectory⟩
  else ⟨.file, directory.owner, directory.group, blueprint.mode⟩

namespace Tree

variable {tree before after : Tree} {setting : Setting} {operation : Operation}
  {outcome : Outcome Answer} {ref : NodeRef} {node later : Node}

theorem rights_newChild (parent : NodeRef) (directory : Node) (name : String) (requested : Mode)
    (now : UInt32) (id : UInt64) :
    (newChild parent directory name requested now id).rights =
      .ofChild directory name requested := by
  unfold newChild Rights.ofChild
  split <;> rfl

/-! ## Nodes that were there before -/

/-- Only the footprint of a metadata write of the node has its owner, group and mode. -/
theorem not_mem_footprint (unwritten : ∀ stat, operation ≠ .writeMetadata ref stat)
    {facet : Facet} (isRight : facet ∈ [Facet.owner, .group, .mode]) :
    facet ∉ operation.footprint before after ref := by
  have elsewhere : facet ∉ Facet.mutatedBy ∧ facet ∉ Facet.relisted ∧
      facet ∉ [Facet.name, .parent, .accessTime, .openCount] := by
    revert isRight
    revert facet
    decide
  cases operation with
  | writeMetadata target stat =>
      have other : ref ≠ target := fun same => unwritten stat (by rw [same])
      simp [Operation.footprint, other, elsewhere]
  | _ => simp_all [Operation.footprint]

theorem rights_of_sameBut {facets : List Facet} (same : node.SameBut facets later)
    (kind : later.kind = node.kind)
    (untouched : ∀ facet ∈ [Facet.owner, .group, .mode], facet ∉ facets) :
    later.rights = node.rights := by
  have owner : later.owner = node.owner := same .owner (untouched .owner (by decide))
  have group : later.group = node.group := same .group (untouched .group (by decide))
  have mode : later.mode = node.mode := same .mode (untouched .mode (by decide))
  rw [Node.rights, kind, owner, group, mode, Node.rights]

/-- A node keeps its rights unless its metadata is written. -/
theorem rights_perform (unwritten : ∀ stat, operation ≠ .writeMetadata ref stat)
    (there : tree.node? ref = some node)
    (stays : (tree.perform setting operation).tree.node? ref = some later) :
    later.rights = node.rights := by
  have effect := effect_perform tree setting operation
  exact rights_of_sameBut (sameBut_perform tree setting operation there stays)
    (effect.altered there stays).kind_eq fun facet isRight => not_mem_footprint unwritten isRight

/-- A metadata write does nothing, or it gives a node the rights that it was asked to. -/
theorem Effect.rights_written {stat : Stat}
    (effect : Effect tree setting (.writeMetadata ref stat) outcome)
    (there : tree.node? ref = some node) (stays : outcome.tree.node? ref = some later) :
    (∀ answer, outcome.ending ≠ .ok answer) ∧ later = node ∨
      outcome.ending = .ok .done ∧
        later.rights = ⟨node.kind, stat.owner, stat.group, stat.mode⟩ := by
  have kind := (effect.altered there stays).kind_eq
  have modified := node?_modifyNode_of_some there
  cases effect with
  | refused | stalled =>
      cases there.symm.trans stays
      exact Or.inl ⟨nofun, rfl⟩
  | revised =>
      cases (modified ref _).symm.trans stays
      rw [if_pos rfl] at kind ⊢
      exact Or.inr ⟨rfl, by rw [Node.rights, kind]; rfl⟩
  | @rekeyed _ parentRef =>
      cases (node?_modifyNode_of_some (modified ref _) parentRef _).symm.trans stays
      rw [if_pos rfl] at kind ⊢
      refine Or.inr ⟨rfl, ?_⟩
      rw [Node.rights, kind]
      split <;> rfl
  | readContent reads | readSnapshot reads | readFresh reads => cases reads

/-! ## New nodes -/

theorem eq_of_node?_ofRoot {blueprint : Blueprint} {ids : IdSource} {now : UInt32}
    (there : (ofRoot blueprint ids now).node? ref = some node) :
    node = blueprint.directory ids.next.1 now := by
  rw [node?, ofRoot, Arena.get?_push] at there
  split at there
  · exact (Option.some.inj there).symm
  · cases there

/-- What a node is that an operation makes. -/
inductive Made (tree : Tree) (now : UInt32) : Operation → Node → Prop
  | file (blueprint : Blueprint) (content : List UInt8) (id : UInt64) :
      Made tree now (.makeFile blueprint content) (blueprint.file id content now)
  | directory (blueprint : Blueprint) (id : UInt64) :
      Made tree now (.makeDirectory blueprint) (blueprint.directory id now)
  | child {directory : NodeRef} {holder : Node} {entries : Entries NodeRef}
      (user name : String) (requested : Mode) (id : UInt64)
      (found : tree.directory? directory = some (holder, entries)) :
      Made tree now (.create directory user name requested)
        (newChild directory holder name requested now id)

/-- A node that was not there before is made by the operation. -/
theorem Effect.made (effect : Effect tree setting operation outcome)
    (missing : tree.node? ref = none) (there : outcome.tree.node? ref = some node) :
    Made tree setting.clock.now operation node ∧ outcome.ending = .ok (.node (some ref)) := by
  obtain ⟨makes, answer⟩ := effect.made_of_new missing (isSome_of_node? there)
  refine ⟨?_, answer⟩
  cases effect with
  | madeFile blueprint content =>
      cases answer
      rw [node?_hold, node?_addNode, if_pos rfl] at there
      cases there
      exact .file blueprint content _
  | madeDirectory blueprint =>
      cases answer
      rw [node?_hold, node?_addNode, if_pos rfl] at there
      cases there
      exact .directory blueprint _
  | @created directory holder _ user name requested found =>
      cases answer
      have added := node?_nextNode_of_added (directory?_eq_some_iff.mp found).1
      cases (added _ _).symm.trans there
      exact .child user name requested _ found
  | refused | stalled | readContent | readSnapshot | readFresh => cases answer
  | _ => cases makes

/-- What an operation answers to have made was not there before and is there afterwards. -/
theorem Effect.new_of_made (effect : Effect tree setting operation outcome)
    (makes : operation.makes = true) (answer : outcome.ending = .ok (.node (some ref))) :
    tree.node? ref = none ∧ (outcome.tree.node? ref).isSome = true := by
  cases effect with
  | madeFile | madeDirectory =>
      cases answer
      refine ⟨node?_nextNode tree, ?_⟩
      rw [node?_hold, node?_addNode, if_pos rfl, Option.isSome_some]
  | created =>
      cases answer
      refine ⟨node?_nextNode tree, ?_⟩
      rw [isSome_node?_modifyNode, node?_addNode, if_pos rfl, Option.isSome_some]
  | refused | stalled | readContent | readSnapshot | readFresh => cases answer
  | _ => cases makes

/-- A node that was there before is not what an operation answers to have made. -/
theorem Effect.unmade_of_there (effect : Effect tree setting operation outcome)
    (there : tree.node? ref = some node) (makes : operation.makes = true) :
    outcome.ending ≠ .ok (.node (some ref)) := by
  intro answer
  obtain ⟨missing, -⟩ := effect.new_of_made makes answer
  cases there.symm.trans missing

end Tree

end MemFs
