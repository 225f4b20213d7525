import MemFs.Proofs.Access.Rights
import MemFs.Proofs.Session.Grant
import MemFs.Proofs.Tree.Retrospect

/-!
# Who modified a node last

A node keeps the user who modified it last: a file the one who wrote or emptied it, a directory the
one who created, renamed or removed something in it. A session writes for the user who opened it,
however long ago. Until a node is modified, its owner at the time when it was made stands in for
that user, also after the node has got another owner.
-/

namespace MemFs

namespace Operation

/-- Whether an operation is one of those that modify a node for a user. -/
def isModification : Operation → Bool
  | .create _ _ _ _ | .rename _ _ _ _ | .remove _ _ _ | .write _ _ => true
  | .openSession _ _ request => request.truncates && request.wantsWrite
  | _ => false

/-- The node on which an operation with this ending opened a session, and the user for whom. -/
def opening? (ref : SessionRef) (operation : Operation) (ending : Ending Answer) :
    Option (NodeRef × String) :=
  match operation, ending with
  | .openSession node user _, .ok (.session opened) =>
      if opened = ref then some (node, user) else none
  | _, _ => none

/-- The user for whom an operation with this ending modified a node. -/
def modifier? (tree : Tree) (opener? : SessionRef → Option (NodeRef × String)) (ref : NodeRef)
    (operation : Operation) (ending : Ending Answer) : Option String :=
  match operation, ending with
  | .create directory user _ _, .ok _ | .rename directory user _ _, .ok _
  | .remove directory user _, .ok _ => if ref = directory then some user else none
  | .openSession node user request, .ok _ =>
      if ref = node ∧ request.truncates ∧ request.wantsWrite ∧
          (tree.node? ref).any (·.kind = .file) then some user
      else none
  | .write session _, .ok _ =>
      (opener? session).bind fun (node, user) => if ref = node then some user else none
  | _, _ => none

/-- The owner of a node that an operation with this ending made: the one that was asked for, or the
one of the directory in which the node was created. -/
def ownerGiven? (tree : Tree) (ref : NodeRef) (operation : Operation)
    (ending : Ending Answer) : Option String :=
  match operation, ending with
  | .makeFile blueprint _, .ok (.node made) | .makeDirectory blueprint, .ok (.node made) =>
      if made = some ref then some blueprint.owner else none
  | .create directory _ _ _, .ok (.node made) =>
      if made = some ref then (tree.node? directory).map Node.owner else none
  | _, _ => none

/-- A session is opened by the operation that answers it. -/
theorem ending_of_opening? {operation : Operation} {ref : SessionRef}
    {ending : Ending Answer} {opening : NodeRef × String}
    (opened : operation.opening? ref ending = some opening) : ending = .ok (.session ref) := by
  unfold opening? at opened
  split at opened
  · obtain ⟨same, -⟩ := Option.ite_none_right_eq_some.mp opened
    rw [same]
  · cases opened

theorem modifier?_of_failed {tree : Tree} {opener? : SessionRef → Option (NodeRef × String)}
    (operation : Operation) (ref : NodeRef) {ending : Ending Answer}
    (failed : ∀ answer, ending ≠ .ok answer) :
    operation.modifier? tree opener? ref ending = none := by
  cases ending with
  | ok answer => exact absurd rfl (failed answer)
  | error | never => cases operation <;> rfl

theorem modifier?_eq_none {tree : Tree} {opener? : SessionRef → Option (NodeRef × String)}
    {operation : Operation} (other : operation.isModification = false) (ref : NodeRef)
    (ending : Ending Answer) : operation.modifier? tree opener? ref ending = none := by
  cases operation with
  | create | rename | remove | write => cases other
  | openSession node user request =>
      cases ending with
      | error | never => exact modifier?_of_failed _ ref nofun
      | ok answer =>
          refine if_neg fun asked => ?_
          rw [isModification, asked.2.1, asked.2.2.1] at other
          cases other
  | _ => cases ending <;> rfl

/-- Only making a node gives it an owner in this sense. -/
theorem ownerGiven?_eq_none {tree : Tree} {operation : Operation} {ref : NodeRef}
    {ending : Ending Answer}
    (unmade : operation.makes = true → ending ≠ .ok (.node (some ref))) :
    operation.ownerGiven? tree ref ending = none := by
  unfold ownerGiven?
  split
  · exact if_neg fun same => unmade rfl (by rw [same])
  · exact if_neg fun same => unmade rfl (by rw [same])
  · exact if_neg fun same => unmade rfl (by rw [same])
  · rfl

end Operation

namespace Tree

variable {tree : Tree} {setting : Setting} {operation : Operation} {outcome : Outcome Answer}
  {opener? : SessionRef → Option (NodeRef × String)} {ref : NodeRef} {node later : Node}

/-- It is known of every open file session who opened it on which node. -/
def KnowsOpeners (tree : Tree) (opener? : SessionRef → Option (NodeRef × String)) : Prop :=
  ∀ ref session nodeRef user, tree.session? ref = some session → session.node = some nodeRef →
    session.stream = .file user → opener? ref = some (nodeRef, user)

/-! ## One operation -/

/-- Other operations have the user who modified a node last in no footprint. -/
theorem lastModifier_not_mem_footprint (other : operation.isModification = false)
    (after : Tree) : Facet.lastModifier ∉ operation.footprint tree after ref := by
  cases operation with
  | create | rename | remove | write => cases other
  | openSession target user request =>
      have kept : ¬ (request.truncates = true ∧ request.wantsWrite = true) := by
        rintro ⟨truncates, wantsWrite⟩
        rw [Operation.isModification, truncates, wantsWrite] at other
        cases other
      simp only [Operation.footprint]
      rw [if_neg fun asked => kept ⟨asked.2.1, asked.2.2.1⟩]
      split <;> decide
  | writeMetadata target stat =>
      have outside : Facet.lastModifier ∉ Facet.revised ∧ Facet.lastModifier ∉ Facet.relisted := by
        decide
      simp [Operation.footprint, outside]
  | add directory name graft =>
      have outside : Facet.lastModifier ∉ Facet.relisted := by decide
      simp [Operation.footprint, outside]
  | _ => simp [Operation.footprint]

/-- A change that happens only under a condition makes its user the one who modified last. -/
private theorem lastModifier_ite {happens : Prop} [Decidable happens] {changed : Node}
    {user : String} (byUser : changed.lastModifier = user)
    (kept : later.lastModifier = node.lastModifier) :
    (if happens then changed else later).lastModifier =
      (if happens then some user else none).getD node.lastModifier := by
  split
  · exact byUser
  · exact kept

/-- A node that outlives an operation was modified last by the user for whom the operation modified
it, or by the same user as before. -/
theorem Effect.lastModifier (effect : Effect tree setting operation outcome)
    (known : tree.KnowsOpeners opener?) (modifies : operation.isModification = true)
    (there : tree.node? ref = some node) (stays : outcome.tree.node? ref = some later) :
    later.lastModifier =
      (operation.modifier? tree opener? ref outcome.ending).getD node.lastModifier := by
  have modified := node?_modifyNode_of_some there
  have grown := node?_addNode_of_some there
  cases effect with
  | refused | stalled =>
      cases there.symm.trans stays
      rw [Operation.modifier?_of_failed operation ref ?_, Option.getD_none]
      nofun
  | @created directory _ _ user name requested found =>
      cases (node?_modifyNode_of_some (grown _) directory _).symm.trans stays
      exact lastModifier_ite rfl rfl
  | @renamed directory child _ _ user old new found =>
      cases (node?_modifyNode_of_some (modified child _) directory _).symm.trans stays
      refine lastModifier_ite rfl ?_
      split <;> rfl
  | @removed directory child _ _ user name found =>
      cases (modified directory _).symm.trans (node?_of_sweep stays)
      exact lastModifier_ite rfl rfl
  | @openedFile target _ _ user request targetThere isFile =>
      cases (modified target _).symm.trans stays
      by_cases here : ref = target
      · subst here
        have asked : request.truncates = true ∧ request.wantsWrite = true := by
          simpa [Operation.isModification] using modifies
        have file : (tree.node? ref).any (·.kind = .file) = true := by
          rw [targetThere, Option.any_some, Node.kind, isFile]
          rfl
        rw [if_pos rfl, if_pos (by simpa using asked), Operation.modifier?,
          if_pos ⟨rfl, asked.1, asked.2, file⟩]
        rfl
      · rw [if_neg here, Operation.modifier?, if_neg fun asked => here asked.1, Option.getD_none]
  | @openedDirectory target _ _ user request targetThere isDirectory =>
      cases (modified target _).symm.trans stays
      have notFile : ¬ (ref = target ∧ request.truncates = true ∧ request.wantsWrite = true ∧
          (tree.node? ref).any (·.kind = .file) = true) := by
        rintro ⟨rfl, -, -, isFile⟩
        rw [targetThere, Option.any_some, Node.kind, isDirectory] at isFile
        cases isFile
      rw [Operation.modifier?, if_neg notFile, Option.getD_none]
      split <;> rfl
  | @written sessionRef session nodeRef _ _ user data isOpen isFile ofUser =>
      cases (modified nodeRef _).symm.trans stays
      have opener := known sessionRef session nodeRef user isOpen.kept isOpen.onNode ofUser
      rw [Operation.modifier?, opener, Option.bind_some]
      exact lastModifier_ite rfl rfl
  | readContent reads | readSnapshot reads | readFresh reads =>
      cases operation with
      | read | readAll => cases modifies
      | _ => cases reads
  | _ => cases modifies

theorem lastModifier_perform (known : tree.KnowsOpeners opener?)
    (there : tree.node? ref = some node)
    (stays : (tree.perform setting operation).tree.node? ref = some later) :
    later.lastModifier = (operation.modifier? tree opener? ref
      (tree.perform setting operation).ending).getD node.lastModifier := by
  cases kind : operation.isModification with
  | true => exact (effect_perform tree setting operation).lastModifier known kind there stays
  | false =>
      rw [Operation.modifier?_eq_none kind, Option.getD_none]
      exact sameBut_perform tree setting operation there stays .lastModifier
        (lastModifier_not_mem_footprint kind _)

/-- No operation modifies a node that is not there. -/
theorem Effect.modifier?_of_missing (effect : Effect tree setting operation outcome)
    (known : tree.KnowsOpeners opener?) (missing : tree.node? ref = none) :
    operation.modifier? tree opener? ref outcome.ending = none := by
  have apart : ∀ {other : NodeRef} {node : Node}, tree.node? other = some node → ref ≠ other := by
    rintro other node there rfl
    cases missing.symm.trans there
  cases effect with
  | refused | stalled => exact Operation.modifier?_of_failed operation ref nofun
  | created user name requested found | renamed user old new found | removed user name found =>
      exact if_neg (apart (directory?_eq_some_iff.mp found).1)
  | openedFile user request there | openedDirectory user request there =>
      exact if_neg fun asked => apart there asked.1
  | @written sessionRef session nodeRef node _ user data isOpen isFile ofUser =>
      have opener := known sessionRef session nodeRef user isOpen.kept isOpen.onNode ofUser
      rw [Operation.modifier?, opener, Option.bind_some]
      exact if_neg (apart isOpen.there)
  | readContent reads | readSnapshot reads | readFresh reads =>
      cases operation with
      | read | readAll => rfl
      | _ => cases reads
  | resolved user path ending => cases ending <;> rfl
  | _ => rfl

/-- A node that is made has its owner for the user who modified it last. -/
theorem Made.ownerGiven? {now : UInt32} (made : Made tree now operation node) :
    operation.ownerGiven? tree ref (.ok (.node (some ref))) = some node.lastModifier := by
  cases made with
  | file | directory => exact if_pos rfl
  | @child directory holder entries user name requested id found =>
      have inherited : (newChild directory holder name requested now id).lastModifier =
          holder.owner := by
        unfold newChild
        split <;> rfl
      rw [Operation.ownerGiven?, if_pos rfl, (directory?_eq_some_iff.mp found).1, inherited]
      rfl

end Tree

namespace World

variable {world : World} {operations : List (Clock × Operation)} {ref : NodeRef}

/-- The node on which a run opened a session, and the user for whom. -/
def opener? (world : World) (operations : List (Clock × Operation)) (ref : SessionRef) :
    Option (NodeRef × String) :=
  latest? (fun front (clock, operation) =>
    operation.opening? ref ((world.run front).outcome clock operation).ending) operations

/-- The user for whom an operation modifies a node after a run. -/
def modification? (world : World) (ref : NodeRef) (front : List (Clock × Operation)) :
    Clock × Operation → Option String :=
  fun (clock, operation) => operation.modifier? (world.run front).tree (world.opener? front) ref
    ((world.run front).outcome clock operation).ending

/-- The user for whom a run modified a node last, if it modified it. -/
def modifier? (world : World) (ref : NodeRef) (operations : List (Clock × Operation)) :
    Option String :=
  latest? (world.modification? ref) operations

/-- The owner that a run gave to a node that it made. -/
def ownerGiven? (world : World) (ref : NodeRef) (operations : List (Clock × Operation)) :
    Option String :=
  latest? (fun front (clock, operation) => operation.ownerGiven? (world.run front).tree ref
    ((world.run front).outcome clock operation).ending) operations

/-- If there were no sessions before a run, it is known of all open ones who opened them. -/
theorem knowsOpeners_run (unopened : ∀ ref, world.tree.session? ref = none)
    (operations : List (Clock × Operation)) :
    (world.run operations).tree.KnowsOpeners (world.opener? operations) := by
  induction operations using List.reverseRecOn with
  | nil =>
      intro ref session nodeRef user kept
      cases (unopened ref).symm.trans kept
  | append_singleton operations timed known =>
      obtain ⟨clock, operation⟩ := timed
      intro ref session nodeRef user kept onNode ofUser
      rw [run_concat] at kept
      rw [opener?, latest?_concat]
      have effect := (world.run operations).effect_outcome clock operation
      rcases (effect.served ref).fileSession kept ofUser with
        rfl | ⟨earlier, keptEarlier, ofSameUser, sameNode⟩
      · obtain ⟨opened, request, _, rfl, _, _, _, done, onOpened⟩ :=
          effect.opening_of_new kept ofUser
        cases onNode.symm.trans onOpened
        dsimp only
        rw [done, Operation.opening?, if_pos rfl, Option.some_or]
      · have onEarlier : earlier.node = some nodeRef := by
          rcases sameNode with same | closed
          · exact same.symm.trans onNode
          · cases closed.symm.trans onNode
        have unanswered : operation.opening? ref
            ((world.run operations).outcome clock operation).ending = none := by
          by_contra answered
          obtain ⟨opening, opened⟩ := Option.ne_none_iff_exists'.mp answered
          obtain ⟨missing, -⟩ := ((world.run operations).tree.opened_perform_iff _ operation
            ref).mpr (Operation.ending_of_opening? opened)
          cases missing.symm.trans keptEarlier
        dsimp only
        rw [unanswered, Option.none_or]
        exact known ref earlier nodeRef user keptEarlier onEarlier ofSameUser

/-- A node that is made after a run was not modified by the run. -/
theorem modifier?_of_unused (unopened : ∀ ref, world.tree.session? ref = none)
    (unused : (world.run operations).tree.nodes.size ≤ ref.place) :
    world.modifier? ref operations = none := by
  refine latest?_eq_none fun front timed behind split => ?_
  subst split
  exact ((world.run front).effect_outcome timed.1 timed.2).modifier?_of_missing
    (knowsOpeners_run unopened front) (missing_before unused)

/-- After a run a node was modified last by the user for whom the run modified it last. If the run
did not modify it, its owner stands in when it was made by the run, and otherwise nothing has
changed. -/
theorem lastModifier_run (unopened : ∀ ref, world.tree.session? ref = none) {user : String}
    (initially : ∀ node, world.tree.node? ref = some node → node.lastModifier = user)
    (operations : List (Clock × Operation)) {node : Node}
    (there : (world.run operations).tree.node? ref = some node) :
    node.lastModifier =
      (world.modifier? ref operations).getD ((world.ownerGiven? ref operations).getD user) := by
  induction operations using List.reverseRecOn generalizing node with
  | nil => exact initially node there
  | append_singleton operations timed inductionHypothesis =>
      obtain ⟨clock, operation⟩ := timed
      rw [run_concat] at there
      have effect := (world.run operations).effect_outcome clock operation
      have known := knowsOpeners_run unopened operations
      rw [modifier?, ownerGiven?, latest?_concat, latest?_concat]
      dsimp only [modification?]
      cases before : (world.run operations).tree.node? ref with
      | none =>
          obtain ⟨made, answer⟩ := effect.made before there
          have unmodified := modifier?_of_unused unopened
            (effect.reshaped.size_le_place before there)
          rw [modifier?] at unmodified
          rw [unmodified, effect.modifier?_of_missing known before, answer, made.ownerGiven?]
          rfl
      | some earlier =>
          have same := Tree.lastModifier_perform known before there
          rw [same, Operation.ownerGiven?_eq_none (effect.unmade_of_there before),
            Option.none_or, inductionHypothesis before, Option.getD_or]
          rfl

/-- After a run, a node was modified last by the user of the latest operation that modified it: a
write by the user who opened the session, whatever it wrote, an opening that emptied the file, or a
create, rename or remove in the directory. If there was none, it is the owner with which the node
was made. No other operation and none that fails changes this. -/
theorem lastModifier_eq_modifier (policy : Policy) (blueprint : Blueprint) (ids : IdSource)
    (start : UInt32) (operations : List (Clock × Operation)) {ref : NodeRef} {node : Node}
    (there : ((fresh policy blueprint ids start).run operations).tree.node? ref = some node) :
    let initial := fresh policy blueprint ids start
    node.lastModifier = (initial.modifier? ref operations).getD
        ((initial.ownerGiven? ref operations).getD blueprint.owner) ∧
      ∀ clock operation later,
        ((initial.run operations).step clock operation).tree.node? ref = some later →
          later.lastModifier =
              (initial.modification? ref operations (clock, operation)).getD node.lastModifier ∧
            (operation.isModification = false ∨
                (∃ error, ((initial.run operations).outcome clock operation).ending =
                  .error error) →
              later.lastModifier = node.lastModifier) := by
  intro initial
  have unopened : ∀ session, initial.tree.session? session = none := fun _ => rfl
  constructor
  · refine lastModifier_run unopened (fun root rootThere => ?_) operations there
    rw [Tree.eq_of_node?_ofRoot rootThere]
    rfl
  · intro clock operation later stays
    have same := Tree.lastModifier_perform (knowsOpeners_run unopened operations) there stays
    refine ⟨same, ?_⟩
    rintro (other | ⟨error, failed⟩)
    · rw [same, Operation.modifier?_eq_none other, Option.getD_none]
    · have answer : ((initial.run operations).tree.perform ⟨(initial.run operations).policy,
          (initial.run operations).asked, clock⟩ operation).ending = .error error := failed
      rw [same, Operation.modifier?_of_failed _ _ (by rw [answer]; nofun), Option.getD_none]

/-- A file gets another owner after a user has opened it, who then writes nothing to it. Another
file is added to the root and gets another owner and another name. A removal fails. -/
def attributed : List (Clock × Operation) :=
  [(1, .create ⟨0⟩ "a" "f" ⟨0o644⟩), (2, .openSession ⟨1⟩ "b" .write),
    (3, .writeMetadata ⟨1⟩ ⟨0, 0, ⟨.file, 0, 0⟩, ⟨0o644⟩, 0, 0, Stat.unchangedLength, "f", "c", "g",
      ""⟩),
    (4, .write ⟨0⟩ []), (5, .makeFile ⟨"m", ⟨0o644⟩, "e", "g"⟩ []), (6, .add ⟨0⟩ "m" ⟨2⟩),
    (7, .writeMetadata ⟨2⟩ ⟨0, 0, ⟨.file, 0, 0⟩, ⟨0o644⟩, 0, 0, Stat.unchangedLength, "n", "c", "g",
      ""⟩),
    (8, .remove ⟨0⟩ "z" "m")]

theorem lastModifier_of_attributed :
    let initial := fresh .allowAll ⟨"", ⟨0o755⟩, "o", "g"⟩ .sequential 0
    let world := initial.run attributed
    ∃ root written added, (world.tree.node? ⟨0⟩ = some root ∧ world.tree.node? ⟨1⟩ = some written ∧
        world.tree.node? ⟨2⟩ = some added) ∧ (written.owner = "c" ∧ added.owner = "c") ∧
      root.lastModifier = "a" ∧ written.lastModifier = "b" ∧ added.lastModifier = "e" := by
  intro initial world
  have shown : (world.tree.node? ⟨0⟩).isSome = true ∧
      (world.tree.node? ⟨1⟩).map Node.owner = some "c" ∧
      (world.tree.node? ⟨2⟩).map Node.owner = some "c" := by decide +kernel
  obtain ⟨root, there⟩ := Option.isSome_iff_exists.mp shown.1
  obtain ⟨written, there₁, owner₁⟩ := Option.map_eq_some_iff.mp shown.2.1
  obtain ⟨added, there₂, owner₂⟩ := Option.map_eq_some_iff.mp shown.2.2
  obtain ⟨rootLast, -⟩ := lastModifier_eq_modifier .allowAll ⟨"", ⟨0o755⟩, "o", "g"⟩ .sequential 0
    attributed there
  obtain ⟨writtenLast, -⟩ := lastModifier_eq_modifier .allowAll ⟨"", ⟨0o755⟩, "o", "g"⟩
    .sequential 0 attributed there₁
  obtain ⟨addedLast, -⟩ := lastModifier_eq_modifier .allowAll ⟨"", ⟨0o755⟩, "o", "g"⟩
    .sequential 0 attributed there₂
  have told : initial.modifier? ⟨0⟩ attributed = some "a" ∧
      initial.modifier? ⟨1⟩ attributed = some "b" ∧ initial.modifier? ⟨2⟩ attributed = none ∧
      initial.ownerGiven? ⟨2⟩ attributed = some "e" := by decide +kernel
  obtain ⟨ofRoot, ofWritten, ofAdded, owner⟩ := told
  rw [ofRoot] at rootLast
  rw [ofWritten] at writtenLast
  rw [ofAdded, owner] at addedLast
  exact ⟨root, written, added, ⟨there, there₁, there₂⟩, ⟨owner₁, owner₂⟩, rootLast, writtenLast,
    addedLast⟩

end World

end MemFs
