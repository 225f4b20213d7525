import MemFs.Proofs.Path
import MemFs.Proofs.Tree.Naming

/-!
# Path lookups

For a user who may look names up in every directory, a path lookup is a way through the entries that
depends on the components of the path and on the outlines of the nodes only (`look`). While the root
is in no directory and parent links lead to where the entries are, `..` leads back over the entry
that was followed last, so that a path leads where the names lead that are left of it.
-/

namespace MemFs

namespace Operation

/-- A plain operation that does not add the root to a directory. -/
def isPlainBelow (tree : Tree) : Operation → Bool
  | .attach _ _ => false
  | .add _ _ graft => !tree.isLinked graft && graft != tree.root
  | _ => true

theorem isPlain_of_isPlainBelow {tree : Tree} {operation : Operation}
    (plain : operation.isPlainBelow tree = true) : operation.isPlain tree = true := by
  cases operation with
  | add directory name graft => exact (Bool.and_eq_true_iff.mp plain).1
  | _ => exact plain

end Operation

namespace Tree

variable {tree before after : Tree}

/-! ## Lookups by a user who is refused nowhere -/

/-- Every directory lets this user look names up, whatever the policy was asked since. -/
def LetsThrough (tree : Tree) (policy : Policy) (asked : Nat) (user : String) : Prop :=
  ∀ ref node entries, tree.directory? ref = some (node, entries) → ∀ later, asked ≤ later →
    policy.allows later ⟨node.owner = user, node.mode, .execute⟩ = true

/-- A policy that answers each query by itself lets through whom it allows into every directory. -/
theorem letsThrough_of_forall_mem {decision : Query → Bool} {user : String}
    (all : ∀ node ∈ tree.nodes.values, node.kind = .directory →
      decision ⟨node.owner = user, node.mode, .execute⟩ = true) (asked : Nat) :
    tree.LetsThrough (.stateless decision) asked user := by
  intro ref node entries found later _
  obtain ⟨there, body⟩ := directory?_eq_some_iff.mp found
  refine all node (Arena.mem_values_iff.mpr ⟨ref.place, there⟩) ?_
  rw [Node.kind, body]

theorem LetsThrough.accessed {policy : Policy} {asked : Nat} {user : String}
    (allowed : tree.LetsThrough policy asked user) (ref : NodeRef) (now : UInt32) :
    (tree.modifyNode ref fun node => node.accessed now).LetsThrough policy (asked + 1) user := by
  intro other node entries found later after
  have since : asked ≤ later := by omega
  obtain ⟨there, body⟩ := directory?_eq_some_iff.mp found
  rw [node?_modifyNode] at there
  split at there
  · obtain ⟨earlier, earlierThere, same⟩ := Option.map_eq_some_iff.mp there
    subst same
    exact allowed other earlier entries (directory?_eq_some_iff.mpr ⟨earlierThere, body⟩) later
      since
  · exact allowed other node entries (directory?_eq_some_iff.mpr ⟨there, body⟩) later since

/-- The entries of the directory in a place, if there is one. -/
def entries? (tree : Tree) (ref : NodeRef) : Option (Entries NodeRef) :=
  (tree.directory? ref).map Prod.snd

theorem entries?_eq (tree : Tree) (ref : NodeRef) :
    tree.entries? ref = (tree.outline? ref).bind fun outline =>
      if outline.kind = .directory then some outline.entries else none := by
  unfold entries? directory? outline?
  cases tree.node? ref with
  | none => rfl
  | some node => cases body : node.body <;>
      simp [Node.outline, Node.kind, Node.entries, body]

/-- Where names that are looked up one after the other lead to from a node. -/
def look (tree : Tree) : List String → NodeRef → Except TreeError (Option NodeRef)
  | [], ref => .ok (some ref)
  | name :: rest, ref =>
      match tree.entries? ref with
      | none => .error .notADirectory
      | some entries =>
          match tree.lookUp ref entries name with
          | none => .ok none
          | some next => look tree rest next

theorem parent?_congr (same : ∀ ref, after.outline? ref = before.outline? ref) (ref : NodeRef) :
    after.parent? ref = before.parent? ref := by
  refine Option.ext fun parent => ?_
  rw [parent?_eq_some_iff, parent?_eq_some_iff, same, same]

theorem lookUp_congr (same : ∀ ref, after.outline? ref = before.outline? ref) (ref : NodeRef)
    (entries : Entries NodeRef) (name : String) :
    after.lookUp ref entries name = before.lookUp ref entries name := by
  have directories : ∀ tree : Tree, tree.container? ref =
      match tree.parent? ref, tree.entries? ref with
      | some parent, _ => some parent
      | none, some _ => some ref
      | none, none => none := by
    intro tree
    unfold container? entries?
    cases tree.parent? ref <;> cases tree.directory? ref <;> rfl
  unfold lookUp
  rw [directories, directories, parent?_congr same, entries?_eq, entries?_eq, same]

/-- Where names lead to can be read off the outlines. -/
theorem look_congr (same : ∀ ref, after.outline? ref = before.outline? ref)
    (names : List String) (ref : NodeRef) : after.look names ref = before.look names ref := by
  induction names generalizing ref with
  | nil => rfl
  | cons name rest inductionHypothesis =>
      unfold look
      rw [entries?_eq, entries?_eq, same]
      split
      · rfl
      · rw [lookUp_congr same]
        split
        · rfl
        · exact inductionHypothesis _

theorem look_append (tree : Tree) (first second : List String) (ref : NodeRef) :
    tree.look (first ++ second) ref =
      match tree.look first ref with
      | .ok (some middle) => tree.look second middle
      | other => other := by
  induction first generalizing ref with
  | nil => rfl
  | cons name rest inductionHypothesis =>
      simp only [List.cons_append, look]
      cases tree.entries? ref with
      | none => rfl
      | some entries =>
          cases here : tree.lookUp ref entries name with
          | none => simp only [here]
          | some next => simp only [here, inductionHypothesis]

theorem look_singleton {ref : NodeRef} {entries : Entries NodeRef}
    (isDirectory : tree.entries? ref = some entries) (name : String) :
    tree.look [name] ref = .ok (tree.lookUp ref entries name) := by
  simp only [look, isDirectory]
  cases tree.lookUp ref entries name <;> rfl

/-- A lookup along a path leads such a user where the components lead. -/
theorem ending_follow {path user : String} {names : List String} {setting : Setting}
    {ref : NodeRef} (allowed : tree.LetsThrough setting.policy setting.asked user) :
    (follow path user names tree setting ref).ending = .returned (tree.look names ref) := by
  induction names generalizing tree setting ref with
  | nil => rfl
  | cons name rest inductionHypothesis =>
      unfold follow look entries?
      cases found : tree.directory? ref with
      | none => rfl
      | some pair =>
          obtain ⟨node, entries⟩ := pair
          have granted : (setting.check node user .execute).granted = true :=
            allowed ref node entries found setting.asked (Nat.le_refl _)
          have walked := ending_walk_of_granted found granted name
          have touched := tree_walk_of_ok walked
          simp only [Option.map_some]
          cases next? : tree.lookUp ref entries name with
          | none =>
              rw [next?] at walked
              simp only [walked, Ending.returned]
          | some next =>
              rw [next?] at walked
              simp only [walked, touched]
              rw [inductionHypothesis (allowed.accessed ref setting.clock.now)]
              refine congrArg Ending.returned (look_congr (fun other => ?_) rest next)
              refine outline?_modifyNode_of_same tree (fun node _ => ?_) other
              exact Node.outline_accessed node setting.clock.now

/-! ## Ways down from the root -/

/-- The root is there and has no parent link, and what a directory holds has a valid name and a
parent link to the directory. -/
structure IsRooted (tree : Tree) : Prop where
  agree : tree.LinksAgree
  valid : tree.NamesValid
  top : ∃ outline, tree.outline? tree.root = some outline ∧ outline.parent = none

namespace IsRooted

theorem not_linked_root (rooted : tree.IsRooted) {outline : Outline}
    (there : tree.outline? tree.root = some outline) {parent : NodeRef} :
    outline.parent ≠ some parent := by
  obtain ⟨root, rootThere, unlinked⟩ := rooted.top
  cases there.symm.trans rootThere
  rw [unlinked]
  exact nofun

theorem ne_root (rooted : tree.IsRooted) {directory child : NodeRef} {name : String}
    (here : tree.Holds directory name child) : child ≠ tree.root := by
  intro same
  subst same
  obtain ⟨outline, there, link⟩ := rooted.agree.inside _ _ _ here
  exact rooted.not_linked_root there link

theorem parent?_root (rooted : tree.IsRooted) : tree.parent? tree.root = none := by
  refine Option.eq_none_iff_forall_not_mem.mpr fun parent above => ?_
  obtain ⟨⟨outline, there, link⟩, -⟩ := parent?_eq_some_iff.mp above
  exact rooted.not_linked_root there link

theorem parent?_of_holds (rooted : tree.IsRooted) {directory child : NodeRef} {name : String}
    (here : tree.Holds directory name child) : tree.parent? child = some directory :=
  rooted.agree.ascends_of_owns ⟨name, here⟩

end IsRooted

/-- A sweep keeps the root. -/
theorem Thinned.outline?_root (thinned : Thinned before after) :
    after.outline? before.root = before.outline? before.root := by
  have owned : ∀ ref, ref = before.root → before.IsSupported (fun ref => ref = before.root) ref :=
    fun _ same => Or.inl same
  rw [outline?, outline?, thinned.supported _ owned before.root rfl]

/-- No operation but an addition of the root gives the root a parent link. -/
theorem Reshaped.top {operation : Operation} (reshaped : Reshaped before after operation)
    (plain : operation.isPlainBelow before = true)
    (top : ∃ outline, before.outline? before.root = some outline ∧ outline.parent = none) :
    ∃ outline, after.outline? after.root = some outline ∧ outline.parent = none := by
  obtain ⟨outline, there, unlinked⟩ := top
  have later : ∀ {effect : Outline → Outline} {tree : Tree},
      tree.outline? before.root = (before.outline? before.root).map effect →
        (effect outline).parent = outline.parent →
          ∃ new, tree.outline? before.root = some new ∧ new.parent = none := by
    intro effect tree outlines keeps
    obtain ⟨new, found, same⟩ := Outline.exists_later Outline.parent outlines keeps there
    exact ⟨new, found, same.trans unlinked⟩
  cases reshaped with
  | kept store outlines =>
      rw [store.root, outlines]
      exact ⟨outline, there, unlinked⟩
  | @swept _ middle store outlines thinned =>
      rw [thinned.root, thinned.outline?_root, store.root, outlines]
      exact ⟨outline, there, unlinked⟩
  | made store numbered bare orphan outlines =>
      rw [store.root, outlines, if_neg (ne_nextNode there)]
      exact ⟨outline, there, unlinked⟩
  | attached => cases plain
  | renamedAlone store valid unmoved outlines =>
      rw [store.root]
      exact later (outlines before.root) rfl
  | created store found isDirectory valid free numbered named bare inside outlines =>
      have here := outlines before.root
      rw [if_neg (ne_nextNode there)] at here
      rw [store.root]
      exact later here rfl
  | @added directory graft _ _ _ store found isDirectory graftThere valid free unmet outlines =>
      have other : before.root ≠ graft := by
        intro same
        simp [Operation.isPlainBelow, same] at plain
      rw [store.root]
      exact later (outlines before.root) (if_neg other)
  | moved store found isDirectory valid present free sameNumber outlines =>
      rw [store.root]
      exact later (outlines before.root) rfl
  | @removed _ _ _ _ _ middle store found isDirectory present removable outlines thinned =>
      rw [thinned.root, thinned.outline?_root, store.root]
      exact later (outlines before.root) rfl

theorem IsRooted.perform (rooted : tree.IsRooted) (setting : Setting) {operation : Operation}
    (plain : operation.isPlainBelow tree = true) :
    (tree.perform setting operation).tree.IsRooted := by
  have reshaped := (effect_perform tree setting operation).reshaped
  exact
    { agree := reshaped.linksAgree (Operation.isPlain_of_isPlainBelow plain) rooted.agree
      valid := reshaped.namesValid rooted.valid
      top := reshaped.top plain rooted.top }

theorem isRooted_ofRoot (blueprint : Blueprint) (ids : IdSource) (now : UInt32) :
    (ofRoot blueprint ids now).IsRooted where
  agree := (isWooded_ofRoot blueprint ids now).agree
  valid directory name child here :=
    absurd ⟨name, here⟩ (not_owns_ofRoot blueprint ids now directory child)
  top := ⟨(blueprint.directory ids.next.1 now).outline, rfl, rfl⟩

theorem holds_iff_entries? {directory child : NodeRef} {name : String} :
    tree.Holds directory name child ↔
      ∃ entries, tree.entries? directory = some entries ∧ entries.find? name = some child := by
  simp only [Holds, entries?, Option.map_eq_some_iff, Prod.exists]
  constructor
  · rintro ⟨node, entries, found, here⟩
    exact ⟨entries, ⟨node, entries, found, rfl⟩, here⟩
  · rintro ⟨entries, ⟨node, _, found, rfl⟩, here⟩
    exact ⟨node, _, found, here⟩

/-- The names of the entries that lead from the root to a node. -/
inductive Descends (tree : Tree) : List String → NodeRef → Prop
  | root : Descends tree [] tree.root
  | into {names : List String} {directory child : NodeRef} {name : String}
      (above : Descends tree names directory) (here : tree.Holds directory name child) :
      Descends tree (names ++ [name]) child

namespace Descends

variable {names : List String} {ref : NodeRef}

theorem isValid (descends : tree.Descends names ref) (rooted : tree.IsRooted) :
    ∀ name ∈ names, Name.isValid name = true := by
  induction descends with
  | root =>
      intro name member
      cases member
  | into above here inductionHypothesis =>
      intro name member
      rcases List.mem_append.mp member with earlier | last
      · exact inductionHypothesis name earlier
      · rw [List.mem_singleton.mp last]
        exact rooted.valid _ _ _ here

/-- The names of a way down lead along it. -/
theorem look (descends : tree.Descends names ref) (rooted : tree.IsRooted) :
    tree.look names tree.root = .ok (some ref) := by
  induction descends with
  | root => rfl
  | into above here inductionHypothesis =>
      obtain ⟨entries, isDirectory, found⟩ := holds_iff_entries?.mp here
      rw [look_append, inductionHypothesis]
      simp only
      rw [look_singleton isDirectory, lookUp_of_isValid (rooted.valid _ _ _ here), found]

/-- After one more lookup, the names that are left lead to where the lookup leads. -/
theorem lookUp (descends : tree.Descends names ref) (rooted : tree.IsRooted)
    {entries : Entries NodeRef} (isDirectory : tree.entries? ref = some entries)
    {component : String} {next : NodeRef}
    (found : tree.lookUp ref entries component = some next) :
    tree.Descends (Name.simplify names component) next := by
  unfold Tree.lookUp at found
  unfold Name.simplify
  split at found
  · rename_i dot
    cases found
    rw [if_pos dot]
    exact descends
  · rename_i notDot
    rw [if_neg notDot]
    split at found
    · rename_i dots
      rw [if_pos dots]
      cases descends with
      | root =>
          have self : next = tree.root := by
            simp only [container?, rooted.parent?_root] at found
            split at found
            · rename_i none
              cases none
            · exact (Option.some.inj found).symm
            · cases found
          rw [self]
          exact Descends.root
      | into above here =>
          simp only [container?, rooted.parent?_of_holds here, Option.some.injEq] at found
          rw [← found, List.dropLast_concat]
          exact above
    · rename_i notDots
      rw [if_neg notDots]
      exact descends.into (holds_iff_entries?.mpr ⟨entries, isDirectory, found⟩)

end Descends

/-- Components that lead somewhere from the root lead to where the names lead that are left of
them. -/
theorem descends_of_look (rooted : tree.IsRooted) {components : List String} {ref : NodeRef}
    (found : tree.look components tree.root = .ok (some ref)) :
    tree.Descends (Name.simplified components) ref := by
  induction components using List.reverseRecOn generalizing ref with
  | nil =>
      cases found
      exact Descends.root
  | append_singleton front last inductionHypothesis =>
      rw [look_append] at found
      split at found
      · rename_i middle reached
        have above := inductionHypothesis reached
        cases isDirectory : tree.entries? middle with
        | none => simp [Tree.look, isDirectory] at found
        | some entries =>
            rw [look_singleton isDirectory] at found
            rw [Name.simplified_concat]
            exact above.lookUp rooted isDirectory (Except.ok.inj found)
      · rename_i stopped
        exact absurd found (stopped ref)

/-- In a directory, only a name can be missing. -/
theorem plain_of_lookUp_none {ref : NodeRef} {entries : Entries NodeRef} {component : String}
    (isDirectory : tree.entries? ref = some entries)
    (missing : tree.lookUp ref entries component = none) :
    component ≠ "." ∧ component ≠ ".." := by
  obtain ⟨pair, found, -⟩ := Option.map_eq_some_iff.mp isDirectory
  constructor
  · intro dot
    rw [lookUp, if_pos dot] at missing
    cases missing
  · intro dots
    have notDot : component ≠ "." := by
      rw [dots]
      decide
    rw [lookUp, if_neg notDot, if_pos dots, container?, found] at missing
    cases above : tree.parent? ref <;> simp [above] at missing

/-- Components lead to the same as the names that are left of them, if all but the last lead to a
directory. -/
theorem look_simplified_concat (rooted : tree.IsRooted) {front : List String} {last : String}
    {ref : NodeRef} {entries : Entries NodeRef}
    (reached : tree.look front tree.root = .ok (some ref))
    (isDirectory : tree.entries? ref = some entries) :
    tree.look (Name.simplified (front ++ [last])) tree.root =
      tree.look (front ++ [last]) tree.root := by
  have above := descends_of_look rooted reached
  have found : tree.look (front ++ [last]) tree.root = .ok (tree.lookUp ref entries last) := by
    rw [look_append, reached]
    exact look_singleton isDirectory last
  rw [found, Name.simplified_concat]
  cases here : tree.lookUp ref entries last with
  | some next => exact (above.lookUp rooted isDirectory here).look rooted
  | none =>
      obtain ⟨notDot, notDots⟩ := plain_of_lookUp_none isDirectory here
      rw [Name.simplify_of_plain notDot notDots, look_append, above.look rooted]
      simp only
      rw [look_singleton isDirectory, here]

end Tree

namespace World

/-! ## Path lookups in a run -/

/-- While neither the root nor a node that a directory holds is added, every tree is rooted. -/
theorem isRooted_run (policy : Policy) (blueprint : Blueprint) (ids : IdSource) (start : UInt32)
    {operations : List (Clock × Operation)}
    (plain : (fresh policy blueprint ids start).Respects
      (fun tree operation => operation.isPlainBelow tree = true) operations) :
    ((fresh policy blueprint ids start).run operations).tree.IsRooted :=
  run_induction Tree.IsRooted (fun _ setting _ rooted plain => rooted.perform setting plain)
    (Tree.isRooted_ofRoot blueprint ids start) plain

/-- A path leads a user who is refused nowhere to where its components lead from the root. -/
theorem ending_resolve {world : World} {user : String}
    (allowed : world.tree.LetsThrough world.policy world.asked user) (clock : Clock)
    (path : String) :
    (world.outcome clock (.resolve user path)).ending =
      .returned ((world.tree.look (Name.components path) world.tree.root).map .node) := by
  rw [outcome, Tree.perform, Outcome.map, Tree.resolve]
  refine (congrArg (Ending.map Answer.node) (Tree.ending_follow allowed)).trans ?_
  cases world.tree.look (Name.components path) world.tree.root <;> rfl

theorem look_of_ending_resolve {world : World} {user : String}
    (allowed : world.tree.LetsThrough world.policy world.asked user) {clock : Clock}
    {path : String} {found : Option NodeRef}
    (resolved : (world.outcome clock (.resolve user path)).ending = .ok (.node found)) :
    world.tree.look (Name.components path) world.tree.root = .ok found := by
  rw [ending_resolve allowed] at resolved
  cases reached : world.tree.look (Name.components path) world.tree.root with
  | error error =>
      rw [reached] at resolved
      cases resolved
  | ok other =>
      rw [reached] at resolved
      cases resolved
      rfl

/-- A path leads to the same node as the names that are left of it when every `.` is dropped and
every `..` cancels the name before it. The two paths even have the same ending whenever everything
before the last component of the first leads to a directory. -/
theorem resolve_normalized (policy : Policy) (blueprint : Blueprint) (ids : IdSource)
    (start : UInt32) (operations : List (Clock × Operation))
    (plain : (fresh policy blueprint ids start).Respects
      (fun tree operation => operation.isPlainBelow tree = true) operations) {user : String}
    (allowed : ((fresh policy blueprint ids start).run operations).tree.LetsThrough
      ((fresh policy blueprint ids start).run operations).policy
      ((fresh policy blueprint ids start).run operations).asked user)
    (path : String) (clock later : Clock) :
    let world := (fresh policy blueprint ids start).run operations
    (∀ ref, (world.outcome clock (.resolve user path)).ending = .ok (.node (some ref)) →
      (world.outcome later (.resolve user (Name.normalized path))).ending =
        .ok (.node (some ref))) ∧
    ((∀ front, front <+: Name.components path → front ≠ Name.components path →
        ∃ ref node entries, world.tree.directory? ref = some (node, entries) ∧
          (world.outcome clock (.resolve user (Name.join front))).ending = .ok (.node (some ref))) →
      (world.outcome later (.resolve user (Name.normalized path))).ending =
        (world.outcome clock (.resolve user path)).ending) := by
  intro world
  have rooted : world.tree.IsRooted := isRooted_run policy blueprint ids start plain
  have leads : ∀ ref, (world.outcome clock (.resolve user path)).ending = .ok (.node (some ref)) →
      (world.outcome later (.resolve user (Name.normalized path))).ending =
        .ok (.node (some ref)) := by
    intro ref resolved
    have descends := Tree.descends_of_look rooted (look_of_ending_resolve allowed resolved)
    rw [ending_resolve allowed, Name.components_normalized, descends.look rooted]
    rfl
  refine ⟨leads, fun through => ?_⟩
  rw [ending_resolve allowed, ending_resolve allowed, Name.components_normalized]
  rcases List.eq_nil_or_concat (Name.components path) with none | ⟨front, last, split⟩
  · rw [none]
    rfl
  · rw [List.concat_eq_append] at split
    have shorter : front ≠ Name.components path := by
      intro same
      simpa [← same] using congrArg List.length split
    obtain ⟨ref, node, entries, found, resolved⟩ :=
      through front (split ▸ List.prefix_append front [last]) shorter
    have proper : ∀ name ∈ front, Name.IsComponent name := by
      intro name member
      exact Name.isComponent_of_mem_components (split ▸ List.mem_append_left [last] member)
    have reached := look_of_ending_resolve allowed resolved
    rw [Name.components_join proper] at reached
    have isDirectory : world.tree.entries? ref = some entries := by
      rw [Tree.entries?, found, Option.map_some]
    rw [split, Tree.look_simplified_concat rooted reached isDirectory]

/-- A directory is removed from one directory and added to another, and a file is created in it. -/
def addedElsewhere : List (Clock × Operation) :=
  [(1, .create ⟨0⟩ "o" "a" (.ofDirectory 0o755)), (2, .create ⟨1⟩ "o" "b" (.ofDirectory 0o755)),
    (3, .hold ⟨2⟩), (4, .remove ⟨1⟩ "o" "b"), (5, .add ⟨0⟩ "c" ⟨2⟩),
    (6, .create ⟨2⟩ "o" "f" ⟨0o644⟩)]

/-- One path with detours leads to the file, and another one to nothing, as they do without. -/
theorem resolve_normalized_addedElsewhere :
    let start := fresh .ownerOther ⟨"", ⟨0o755⟩, "o", "g"⟩ .sequential 0
    let world := start.run addedElsewhere
    (start.Respects (fun tree operation => operation.isPlainBelow tree = true) addedElsewhere ∧
      world.tree.LetsThrough world.policy world.asked "u" ∧
      (world.outcome 7 (.resolve "u" "/../c/.././a/..//c/f")).ending = .ok (.node (some ⟨3⟩)) ∧
      ∀ front, front <+: Name.components "c/../x" → front ≠ Name.components "c/../x" →
        ∃ ref node entries, world.tree.directory? ref = some (node, entries) ∧
          (world.outcome 7 (.resolve "u" (Name.join front))).ending = .ok (.node (some ref))) ∧
    (Name.normalized "/../c/.././a/..//c/f" = "c/f" ∧
      (world.outcome 8 (.resolve "u" "c/f")).ending = .ok (.node (some ⟨3⟩))) ∧
    Name.normalized "c/../x" = "x" ∧
      (world.outcome 8 (.resolve "u" "x")).ending =
        (world.outcome 7 (.resolve "u" "c/../x")).ending := by
  intro start world
  have plain : start.Respects (fun tree operation => operation.isPlainBelow tree = true)
      addedElsewhere := by decide +kernel
  have allowed : world.tree.LetsThrough world.policy world.asked "u" :=
    Tree.letsThrough_of_forall_mem (by decide +kernel) world.asked
  have resolved : (world.outcome 7 (.resolve "u" "/../c/.././a/..//c/f")).ending =
      .ok (.node (some ⟨3⟩)) := by decide +kernel
  have through : ∀ front, front <+: Name.components "c/../x" →
      front ≠ Name.components "c/../x" →
        ∃ ref node entries, world.tree.directory? ref = some (node, entries) ∧
          (world.outcome 7 (.resolve "u" (Name.join front))).ending = .ok (.node (some ref)) := by
    have directory : ∀ ref : NodeRef, (world.tree.directory? ref).isSome = true →
        ∃ node entries, world.tree.directory? ref = some (node, entries) := by
      intro ref isSome
      obtain ⟨⟨node, entries⟩, found⟩ := Option.isSome_iff_exists.mp isSome
      exact ⟨node, entries, found⟩
    obtain ⟨root, rootEntries, rootFound⟩ := directory ⟨0⟩ (by decide +kernel)
    obtain ⟨moved, movedEntries, movedFound⟩ := directory ⟨2⟩ (by decide +kernel)
    have components : Name.components "c/../x" = ["c", "..", "x"] := by decide +kernel
    intro front isPrefix shorter
    rw [components, ← List.mem_inits] at isPrefix
    rw [components] at shorter
    simp only [List.inits, List.map_cons, List.map_nil, List.mem_cons, List.not_mem_nil,
      or_false] at isPrefix
    rcases isPrefix with same | same | same | same <;> subst same
    · exact ⟨⟨0⟩, root, rootEntries, rootFound, by decide +kernel⟩
    · exact ⟨⟨2⟩, moved, movedEntries, movedFound, by decide +kernel⟩
    · exact ⟨⟨0⟩, root, rootEntries, rootFound, by decide +kernel⟩
    · exact absurd rfl shorter
  have short : Name.normalized "/../c/.././a/..//c/f" = "c/f" := by decide +kernel
  have single : Name.normalized "c/../x" = "x" := by decide +kernel
  refine ⟨⟨plain, allowed, resolved, through⟩, ⟨short, ?_⟩, single, ?_⟩
  · rw [← short]
    exact (resolve_normalized .ownerOther ⟨"", ⟨0o755⟩, "o", "g"⟩ .sequential 0 addedElsewhere
      plain allowed "/../c/.././a/..//c/f" 7 8).1 ⟨3⟩ resolved
  · rw [← single]
    exact (resolve_normalized .ownerOther ⟨"", ⟨0o755⟩, "o", "g"⟩ .sequential 0 addedElsewhere
      plain allowed "c/../x" 7 8).2 through

end World

end MemFs
