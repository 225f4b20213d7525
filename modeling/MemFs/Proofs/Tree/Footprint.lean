import MemFs.Proofs.Tree.Resolution
import MemFs.Proofs.Tree.Upkeep

/-!
# What an operation leaves alone

The footprint of an operation says for each node which of its values the operation may change.
Everything else stays as it is: the other values of the node, all other nodes and all sessions but
the one that the operation is about.
-/

namespace MemFs

/-- What a node has. -/
inductive Facet where
  | id
  | name
  | owner
  | group
  | lastModifier
  | mode
  | version
  | accessTime
  | modifyTime
  | openCount
  | parent
  | body
deriving DecidableEq, Repr

namespace Facet

/-- What changes with the entries of a directory. -/
def relisted : List Facet :=
  [body, version, modifyTime, accessTime]

/-- What changes with a mutation on behalf of a user. -/
def mutatedBy : List Facet :=
  lastModifier :: relisted

/-- What a metadata write changes. -/
def revised : List Facet :=
  [name, owner, group, mode] ++ relisted

end Facet

namespace Node

/-- Two nodes have the same of something. -/
def AgreesOn (first second : Node) : Facet → Prop
  | .id => first.id = second.id
  | .name => first.name = second.name
  | .owner => first.owner = second.owner
  | .group => first.group = second.group
  | .lastModifier => first.lastModifier = second.lastModifier
  | .mode => first.mode = second.mode
  | .version => first.version = second.version
  | .accessTime => first.accessTime = second.accessTime
  | .modifyTime => first.modifyTime = second.modifyTime
  | .openCount => first.openCount = second.openCount
  | .parent => first.parent = second.parent
  | .body => first.body = second.body

/-- A node differs from an earlier one in these values at most. -/
def SameBut (facets : List Facet) (before after : Node) : Prop :=
  ∀ facet, facet ∉ facets → after.AgreesOn before facet

variable {facets more : List Facet} {before middle after : Node}

/-- A node that differs in nothing is the same. -/
theorem sameBut_nil_iff : SameBut [] before after ↔ after = before := by
  constructor
  · intro same
    have all : ∀ facet, after.AgreesOn before facet := fun facet => same facet List.not_mem_nil
    obtain ⟨id, name, owner, group, lastModifier, mode, version, accessTime, modifyTime, openCount,
      parent, body⟩ := after
    cases all .id
    cases all .name
    cases all .owner
    cases all .group
    cases all .lastModifier
    cases all .mode
    cases all .version
    cases all .accessTime
    cases all .modifyTime
    cases all .openCount
    cases all .parent
    cases all .body
    rfl
  · rintro rfl facet -
    cases facet <;> rfl

theorem SameBut.refl (node : Node) : SameBut [] node node :=
  sameBut_nil_iff.mpr rfl

theorem SameBut.mono (same : SameBut facets before after) (fewer : facets ⊆ more) :
    SameBut more before after :=
  fun facet outside => same facet fun inside => outside (fewer inside)

theorem SameBut.trans (first : SameBut facets before middle) (second : SameBut more middle after) :
    SameBut (facets ++ more) before after := by
  intro facet outside
  have here := first facet fun inside => outside (List.mem_append_left more inside)
  have there := second facet fun inside => outside (List.mem_append_right facets inside)
  cases facet <;> exact Eq.trans there here

/-- A change that happens only under a condition. -/
theorem SameBut.ite (condition : Prop) {happens : Prop} [Decidable condition] [Decidable happens]
    (only : happens → condition) (changed : SameBut facets before after) :
    SameBut (if condition then facets else []) before (if happens then after else before) := by
  by_cases here : happens
  · rw [if_pos here, if_pos (only here)]
    exact changed
  · rw [if_neg here]
    exact (SameBut.refl before).mono (List.nil_subset _)

section Changes

variable (node : Node) (clock : Clock)

theorem sameBut_accessed (now : UInt32) : SameBut [.accessTime] node (node.accessed now) := by
  intro facet outside
  cases facet <;> first | rfl | simp at outside

theorem sameBut_opened (now : UInt32) :
    SameBut [.openCount, .accessTime] node (node.opened now) := by
  intro facet outside
  cases facet <;> first | rfl | simp at outside

theorem sameBut_released : SameBut [.openCount] node node.released := by
  intro facet outside
  cases facet <;> first | rfl | simp at outside

theorem sameBut_within (parent : NodeRef) : SameBut [.parent] node (node.within parent) := by
  intro facet outside
  cases facet <;> first | rfl | simp at outside

theorem sameBut_renamed (name : String) : SameBut [.name] node { node with name } := by
  intro facet outside
  cases facet <;> first | rfl | simp at outside

theorem sameBut_relisted (entries : Entries NodeRef) :
    SameBut Facet.relisted node ((node.withEntries entries).mutated clock) := by
  intro facet outside
  cases facet <;> first | rfl | simp [Facet.relisted] at outside

theorem sameBut_relistedBy (entries : Entries NodeRef) (user : String) :
    SameBut Facet.mutatedBy node ((node.withEntries entries).mutatedBy user clock) := by
  intro facet outside
  cases facet <;> first | rfl | simp [Facet.mutatedBy, Facet.relisted] at outside

theorem sameBut_rewritten (content : List UInt8) (user : String) :
    SameBut Facet.mutatedBy node ((node.withContent content).mutatedBy user clock) := by
  intro facet outside
  cases facet <;> first | rfl | simp [Facet.mutatedBy, Facet.relisted] at outside

/-- A file that is opened may be emptied before. -/
theorem sameBut_openedFile (empties : Bool) (user : String) :
    SameBut ((if empties = true then Facet.mutatedBy else []) ++ [.openCount, .accessTime]) node
      (if empties then ((node.withContent []).mutatedBy user clock).opened clock.now
        else node.opened clock.now) := by
  cases empties with
  | false => exact sameBut_opened node clock.now
  | true => exact (sameBut_rewritten node clock [] user).trans (sameBut_opened _ clock.now)

theorem sameBut_revised (stat : Stat) (newName : Option String) :
    SameBut Facet.revised node (node.revised stat newName clock) := by
  intro facet outside
  cases facet <;> first | rfl | simp [Facet.revised, Facet.relisted] at outside

end Changes

end Node

namespace Tree

variable {tree before after : Tree}

/-! ## Directories on the way of a path -/

/-- The directories in which names are looked up one after the other, from a node on. -/
def passed (tree : Tree) : List String → NodeRef → List NodeRef
  | [], _ => []
  | name :: rest, ref =>
      match tree.entries? ref with
      | none => []
      | some entries =>
          ref ::
            match tree.lookUp ref entries name with
            | none => []
            | some next => passed tree rest next

theorem passed_congr (same : ∀ ref, after.outline? ref = before.outline? ref)
    (names : List String) (ref : NodeRef) : after.passed names ref = before.passed names ref := by
  induction names generalizing ref with
  | nil => rfl
  | cons name rest inductionHypothesis =>
      unfold passed
      rw [entries?_eq, entries?_eq, same]
      split
      · rfl
      · rw [lookUp_congr same]
        split
        · rfl
        · rw [inductionHypothesis]

theorem lookUp_of_walk {setting : Setting} {ref : NodeRef} {user name : String}
    {directory : Node} {entries : Entries NodeRef} {next : Option NodeRef}
    (found : tree.directory? ref = some (directory, entries))
    (done : (tree.walk setting ref user name).ending = .ok next) :
    tree.lookUp ref entries name = next := by
  simp only [walk, found] at done
  split at done
  · cases done
  · exact Ending.ok.inj done

/-- A path lookup accesses no node but directories on the way. -/
theorem follow_within_passed {path user : String} (names : List String) (tree : Tree)
    (setting : Setting) (ref : NodeRef) :
    ∃ walked, walked ⊆ tree.passed names ref ∧
      (follow path user names tree setting ref).tree = tree.touchAll setting.clock walked := by
  induction names generalizing tree setting ref with
  | nil => exact ⟨[], List.Subset.refl _, rfl⟩
  | cons name rest inductionHypothesis =>
      unfold follow
      cases found : tree.directory? ref with
      | none => exact ⟨[], List.nil_subset _, rfl⟩
      | some pair =>
          obtain ⟨directory, entries⟩ := pair
          have isDirectory : tree.entries? ref = some entries := by
            rw [entries?, found, Option.map_some]
          dsimp only
          cases answer : (tree.walk setting ref user name).ending with
          | error | never =>
              have failed : ∀ next, (tree.walk setting ref user name).ending ≠ .ok next :=
                fun next done => by cases answer.symm.trans done
              exact ⟨[], List.nil_subset _, tree_walk_of_failed failed⟩
          | ok next =>
              have touched := tree_walk_of_ok answer
              have looked := lookUp_of_walk found answer
              cases next with
              | none =>
                  refine ⟨[ref], ?_, touched⟩
                  rw [passed, isDirectory]
                  exact List.cons_subset_cons ref (List.nil_subset _)
              | some next =>
                  obtain ⟨later, within, restTree⟩ := inductionHypothesis
                    (tree.walk setting ref user name).tree setting.afterWalk next
                  refine ⟨ref :: later, ?_, ?_⟩
                  · have same : (tree.walk setting ref user name).tree.passed rest next =
                        tree.passed rest next := by
                      rw [touched]
                      refine passed_congr (fun other => ?_) rest next
                      exact outline?_modifyNode_of_same tree
                        (fun node _ => Node.outline_accessed node setting.clock.now) other
                    rw [passed, isDirectory]
                    simp only [looked]
                    exact List.cons_subset_cons ref (same ▸ within)
                  · rw [restTree, touched]
                    rfl

end Tree

/-! ## Footprints -/

namespace Operation

/-- The session that an operation is about. -/
def sessionUsed? : Operation → Option SessionRef
  | .seek session _ _ | .read session _ | .readAll session _ | .write session _ | .close session
  | .dropSession session => some session
  | _ => none

/-- What an operation between two trees may change of the node in a place. A directory is changed by
a metadata write of a node when it finds the entry of the node under another name afterwards. -/
def footprint (before after : Tree) (ref : NodeRef) : Operation → List Facet
  | .create directory _ _ _ | .remove directory _ _ =>
      if ref = directory then Facet.mutatedBy else []
  | .add directory _ graft =>
      (if ref = graft then [.parent] else [])
        ++ if ref = directory then Facet.relisted else []
  | .rename directory _ old _ =>
      (if (before.entriesAt directory).find? old = some ref then [.name] else [])
        ++ if ref = directory then Facet.mutatedBy else []
  | .writeMetadata target _ =>
      (if ref = target then Facet.revised else [])
        ++ if before.parent? target = some ref ∧
            after.nameIn? ref target ≠ before.nameIn? ref target then Facet.relisted else []
  | .openSession target _ request =>
      (if ref = target ∧ request.truncates ∧ request.wantsWrite ∧
          (before.node? target).any (·.kind = .file) then Facet.mutatedBy else [])
        ++ if ref = target then [.openCount, .accessTime] else []
  | .seek session _ _ | .read session _ | .readAll session _ =>
      if before.nodeOf? session = some ref then [.accessTime] else []
  | .write session _ => if before.nodeOf? session = some ref then Facet.mutatedBy else []
  | .close session | .dropSession session =>
      if before.nodeOf? session = some ref then [.openCount] else []
  | .walk directory _ _ => if ref = directory then [.accessTime] else []
  | .resolve _ path =>
      if ref ∈ before.passed (Name.components path) before.root then [.accessTime] else []
  | .attach target _ => if ref = target then [.parent] else []
  | .makeFile _ _ | .makeDirectory _ | .hold _ | .letGo _ => []

theorem footprint_of_portion? {tree after : Tree} {operation : Operation} {session : SessionRef}
    {count : Nat} (reads : operation.portion? tree = some (session, count)) (ref : NodeRef) :
    operation.footprint tree after ref =
      if tree.nodeOf? session = some ref then [.accessTime] else [] := by
  cases operation with
  | read | readAll =>
      cases reads
      rfl
  | _ => cases reads

theorem sessionUsed?_of_portion? {tree : Tree} {operation : Operation} {session : SessionRef}
    {count : Nat} (reads : operation.portion? tree = some (session, count)) :
    operation.sessionUsed? = some session := by
  cases operation with
  | read | readAll =>
      cases reads
      rfl
  | _ => cases reads

end Operation

namespace Tree

section OneOperation

variable {tree : Tree} {setting : Setting} {operation : Operation} {outcome : Outcome Answer}

/-- A node that outlives an operation is changed within the footprint of the operation. -/
theorem Effect.sameBut_footprint (effect : Effect tree setting operation outcome)
    (noLookup : ∀ user path, operation ≠ .resolve user path) {ref : NodeRef}
    {before after : Node} (there : tree.node? ref = some before)
    (stays : outcome.tree.node? ref = some after) :
    before.SameBut (operation.footprint tree outcome.tree ref) after := by
  have modified := node?_modifyNode_of_some there
  have grown := node?_addNode_of_some there
  cases effect with
  | refused | stalled =>
      cases there.symm.trans stays
      exact (Node.SameBut.refl before).mono (List.nil_subset _)
  | madeFile | madeDirectory =>
      rw [node?_hold] at stays
      cases (grown _).symm.trans stays
      exact Node.SameBut.refl before
  | held =>
      rw [node?_hold] at stays
      cases there.symm.trans stays
      exact Node.SameBut.refl before
  | letGo node =>
      have thinned := (swept_sweep { tree with held := tree.held.erase node }).toThinned
      have earlier := thinned.node?_eq stays
      cases there.symm.trans earlier
      exact Node.SameBut.refl before
  | attached target parent =>
      unfold attach at stays
      split at stays
      · cases (modified _ _).symm.trans stays
        exact Node.SameBut.ite _ id (Node.sameBut_within before parent)
      · cases there.symm.trans stays
        exact (Node.SameBut.refl before).mono (List.nil_subset _)
  | @created directory _ entries user name requested found valid granted free =>
      cases (node?_modifyNode_of_some (grown _) directory _).symm.trans stays
      exact Node.SameBut.ite _ id (Node.sameBut_relistedBy before _ _ user)
  | @added directory graft _ node entries name found graftThere valid unmet free =>
      cases (node?_modifyNode_of_some (modified graft _) directory _).symm.trans stays
      refine Node.SameBut.trans (Node.SameBut.ite _ id (Node.sameBut_within before directory)) ?_
      exact Node.SameBut.ite _ id (Node.sameBut_relisted _ _ _)
  | @renamed directory child _ entries user old new found valid granted present free =>
      cases (node?_modifyNode_of_some (modified child _) directory _).symm.trans stays
      have isChild : ref = child → (tree.entriesAt directory).find? old = some ref := by
        rintro rfl
        rw [entriesAt_of_directory? found, present]
      refine Node.SameBut.trans
        (Node.SameBut.ite _ isChild (Node.sameBut_renamed before new)) ?_
      · exact Node.SameBut.ite _ id (Node.sameBut_relistedBy _ _ _ user)
  | @removed directory child _ entries user name found granted present removable =>
      cases (modified directory _).symm.trans (node?_of_sweep stays)
      exact Node.SameBut.ite _ id (Node.sameBut_relistedBy before _ _ user)
  | walked user name found granted =>
      cases (modified _ _).symm.trans stays
      exact Node.SameBut.ite _ id (Node.sameBut_accessed before _)
  | resolved user path => exact absurd rfl (noLookup user path)
  | @revised target _ newName stat targetThere wanted fits unmoved =>
      cases (modified target _).symm.trans stays
      have revised := Node.SameBut.ite (ref = target) id
        (Node.sameBut_revised before setting.clock stat newName)
      exact revised.mono (List.subset_append_left _ _)
  | @rekeyed target parentRef _ _ _ _ newName stat targetThere wanted fits moved free =>
      obtain ⟨above, found, -⟩ := entryMoved?_eq_some moved
      cases (node?_modifyNode_of_some (modified target _) parentRef _).symm.trans stays
      refine Node.SameBut.trans
        (Node.SameBut.ite _ id (Node.sameBut_revised before setting.clock stat (some newName))) ?_
      refine Node.SameBut.ite _ ?_ (Node.sameBut_relisted _ _ _)
      rintro rfl
      refine ⟨above, fun same => ?_⟩
      exact (nameIn?_rekeyed stat _ _ (some newName) targetThere moved _).mp same rfl
  | @openedFile target node content user request targetThere isFile granted =>
      cases (modified target _).symm.trans stays
      by_cases here : ref = target
      · subst here
        have file : (tree.node? ref).any (·.kind = .file) = true := by
          rw [targetThere, Option.any_some, Node.kind, isFile]
          rfl
        have opened := before.sameBut_openedFile setting.clock
          (request.truncates && request.wantsWrite) user
        simpa only [Operation.footprint, file, true_and, and_true, if_true,
          Bool.and_eq_true] using opened
      · rw [if_neg here]
        exact (Node.SameBut.refl before).mono (List.nil_subset _)
  | @openedDirectory target _ _ user request targetThere isDirectory granted =>
      cases (modified target _).symm.trans stays
      have opened := Node.SameBut.ite (ref = target) id
        (Node.sameBut_opened before setting.clock.now)
      exact opened.mono (List.subset_append_right _ _)
  | soughtFile offset origin isOpen | rewound offset origin isOpen | stayed offset origin isOpen =>
      cases (modified _ _).symm.trans stays
      refine Node.SameBut.ite _ ?_ (Node.sameBut_accessed before _)
      rintro rfl
      exact isOpen.nodeOf?
  | readContent reads isOpen | readSnapshot reads isOpen | readFresh reads isOpen =>
      cases (modified _ _).symm.trans stays
      rw [Operation.footprint_of_portion? reads]
      refine Node.SameBut.ite _ ?_ (Node.sameBut_accessed before _)
      rintro rfl
      exact isOpen.nodeOf?
  | @written sessionRef session nodeRef _ _ user data isOpen isFile ofUser =>
      cases (modified nodeRef _).symm.trans stays
      refine Node.SameBut.ite _ ?_ (Node.sameBut_rewritten before _ _ user)
      rintro rfl
      exact isOpen.nodeOf?
  | closed isOpen | droppedOpen isOpen =>
      rw [node?_of_release there stays]
      refine Node.SameBut.ite _ ?_ (Node.sameBut_released before)
      rintro rfl
      exact isOpen.nodeOf?
  | droppedClosed =>
      cases there.symm.trans stays
      exact (Node.SameBut.refl before).mono (List.nil_subset _)

/-- The entry that a metadata write moves is one of the node itself where numbers are distinct. -/
theorem Effect.entry_moved (effect : Effect tree setting operation outcome) (sound : tree.IsSound)
    (distinct : tree.IsDistinct) {target directory : NodeRef} {stat : Stat}
    (isWrite : operation = .writeMetadata target stat)
    (changed : outcome.tree.nameIn? directory target ≠ tree.nameIn? directory target) :
    ∃ old new, tree.Holds directory old target ∧ outcome.tree.Holds directory new target ∧
      ¬ outcome.tree.Holds directory old target := by
  have rebound := effect.rebound sound.child
  cases effect with
  | refused | stalled => exact absurd rfl changed
  | revised =>
      cases isWrite
      exact absurd (nameIn?_revised directory target) changed
  | @rekeyed _ parentRef node parent entries old new stat there wanted fits moved free =>
      cases isWrite
      have here : directory = parentRef := by
        by_contra apart
        exact changed
          ((nameIn?_rekeyed stat _ _ (some new) there moved directory).mpr apart)
      subst here
      obtain ⟨-, found, child, childNode, present, childThere, sameNumber⟩ :=
        entryMoved?_eq_some moved
      cases eq_of_sameNumber distinct childThere there sameNumber
      have asked := rebound?_writeMetadata there wanted .done
      rw [Option.bind_some, moved, Option.map_some] at asked
      obtain ⟨⟨-, different, -, -⟩, applied⟩ := rebound.here asked fun known => by
        rwa [isSome_node?_modifyNode, isSome_node?_modifyNode]
      dsimp only at different applied
      have bound : (tree.entriesAt directory).find? old = some target := by
        rw [entriesAt_of_directory? found, present]
      refine ⟨old, new, holds_iff_entriesAt.mpr bound, ?_, ?_⟩
      · rw [holds_iff_entriesAt, applied, Rebinding.apply, Function.update_self, bound]
      · rw [holds_iff_entriesAt, applied, Rebinding.apply, Function.update_of_ne different,
          Function.update_self]
        intro stillBound
        cases stillBound
  | readContent reads | readSnapshot reads | readFresh reads =>
      rw [isWrite] at reads
      cases reads
  | _ => cases isWrite

/-! ## Sessions -/

/-- An operation leaves all sessions alone but the one that it is about and one that it opens. -/
theorem Effect.session?_cases (effect : Effect tree setting operation outcome) (ref : SessionRef) :
    outcome.tree.session? ref = tree.session? ref ∨
      ((tree.session? ref).isSome = true ∧ operation.sessionUsed? = some ref) ∨
      (ref = tree.nextSession ∧ outcome.ending = .ok (.session ref)) := by
  have apart : ∀ {used : SessionRef} {session : Session}, tree.session? used = some session →
      operation.sessionUsed? = some used →
        (ref ≠ used → outcome.tree.session? ref = tree.session? ref) →
          outcome.tree.session? ref = tree.session? ref ∨
            ((tree.session? ref).isSome = true ∧ operation.sessionUsed? = some ref) ∨
            (ref = tree.nextSession ∧ outcome.ending = .ok (.session ref)) := by
    intro used session kept isUsed others
    by_cases here : ref = used
    · subst here
      exact Or.inr (Or.inl ⟨by rw [kept, Option.isSome_some], isUsed⟩)
    · exact Or.inl (others here)
  cases effect with
  | refused | stalled | created | added | renamed | walked | revised | rekeyed | stayed =>
      exact Or.inl rfl
  | madeFile | madeDirectory | held => exact Or.inl (session?_hold _ _ ref)
  | letGo | removed => exact Or.inl (session?_sweep _ ref)
  | attached => exact Or.inl (session?_attach tree _ _ ref)
  | resolved => exact Or.inl (session?_touchAll tree _ _ ref)
  | openedFile | openedDirectory =>
      by_cases here : ref = tree.nextSession
      · exact Or.inr (Or.inr ⟨here, by rw [here]⟩)
      · exact Or.inl ((session?_addSession _ _ ref).trans (if_neg here))
  | soughtFile offset origin isOpen | rewound offset origin isOpen =>
      refine apart isOpen.kept rfl fun other => ?_
      exact (session?_modifySession _ _ ref _).trans (if_neg other)
  | written data isOpen =>
      refine apart isOpen.kept rfl fun other => ?_
      exact (session?_modifySession _ _ ref _).trans (if_neg other)
  | readContent reads isOpen | readSnapshot reads isOpen =>
      refine apart isOpen.kept (Operation.sessionUsed?_of_portion? reads) fun other => ?_
      exact (session?_modifySession _ _ ref _).trans (if_neg other)
  | readFresh reads isOpen =>
      refine apart isOpen.kept (Operation.sessionUsed?_of_portion? reads) fun other => ?_
      refine ((session?_modifySession _ _ ref _).trans (if_neg other)).trans ?_
      exact (session?_modifySession _ _ ref _).trans (if_neg other)
  | closed isOpen =>
      refine apart isOpen.kept rfl fun other => ?_
      exact (session?_release tree _ ref _).trans (if_neg other)
  | droppedOpen isOpen =>
      refine apart isOpen.kept rfl fun other => ?_
      refine ((session?_forget _ _ ref).trans (if_neg other)).trans ?_
      exact (session?_release tree _ ref _).trans (if_neg other)
  | droppedClosed dropped =>
      cases kept : tree.session? dropped with
      | some session =>
          exact apart kept rfl fun other => (session?_forget tree _ ref).trans (if_neg other)
      | none =>
          refine Or.inl ((session?_forget tree dropped ref).trans ?_)
          split
          · rename_i here
            rw [here, kept]
          · rfl

theorem Effect.opened_of_answer (effect : Effect tree setting operation outcome)
    (noLookup : ∀ user path, operation ≠ .resolve user path) {ref : SessionRef}
    (answer : outcome.ending = .ok (.session ref)) :
    tree.session? ref = none ∧ (outcome.tree.session? ref).isSome = true := by
  cases effect with
  | openedFile | openedDirectory =>
      cases answer
      refine ⟨Arena.get?_eq_none_of_size_le (Nat.le_refl _), ?_⟩
      exact congrArg Option.isSome ((session?_addSession _ _ _).trans (if_pos rfl))
  | resolved user path => exact absurd rfl (noLookup user path)
  | _ => cases answer

end OneOperation

/-- A node that outlives an operation is changed within the footprint of the operation. -/
theorem sameBut_perform (tree : Tree) (setting : Setting) (operation : Operation) {ref : NodeRef}
    {before after : Node} (there : tree.node? ref = some before)
    (stays : (tree.perform setting operation).tree.node? ref = some after) :
    before.SameBut (operation.footprint tree (tree.perform setting operation).tree ref) after := by
  by_cases lookup : ∃ user path, operation = .resolve user path
  · obtain ⟨user, path, rfl⟩ := lookup
    obtain ⟨walked, within, same⟩ :=
      follow_within_passed (Name.components path) tree setting tree.root
    have treeAfter : (tree.perform setting (.resolve user path)).tree =
        tree.touchAll setting.clock walked := same
    rw [treeAfter] at stays
    rcases node?_touchAll_of_some there setting.clock walked with kept | ⟨member, index, accessed⟩
    · cases kept.symm.trans stays
      exact (Node.SameBut.refl before).mono (List.nil_subset _)
    · cases accessed.symm.trans stays
      rw [Operation.footprint, if_pos (within member)]
      exact Node.sameBut_accessed before _
  · refine (effect_perform tree setting operation).sameBut_footprint ?_ there stays
    exact fun user path isLookup => lookup ⟨user, path, isLookup⟩

/-- The session that an operation adds is the one that it answers. -/
theorem opened_perform_iff (tree : Tree) (setting : Setting) (operation : Operation)
    (ref : SessionRef) :
    tree.session? ref = none ∧ ((tree.perform setting operation).tree.session? ref).isSome = true ↔
      (tree.perform setting operation).ending = .ok (.session ref) := by
  have effect := effect_perform tree setting operation
  constructor
  · rintro ⟨missing, there⟩
    rcases effect.session?_cases ref with same | ⟨old, -⟩ | ⟨-, answer⟩
    · rw [same, missing] at there
      cases there
    · rw [missing] at old
      cases old
    · exact answer
  · intro answer
    refine effect.opened_of_answer ?_ answer
    rintro user path rfl
    rw [perform, Outcome.map] at answer
    cases ending : (tree.resolve setting user path).ending with
    | error | never =>
        rw [ending] at answer
        cases answer
    | ok found =>
        rw [ending] at answer
        cases answer

/-- An operation with this ending changes nothing but what it should. -/
structure Confined (before after : Tree) (operation : Operation)
    (ending : Ending Answer) : Prop where
  /-- A node that stays is changed within the footprint. -/
  nodes : ∀ ref node later, before.node? ref = some node → after.node? ref = some later →
    node.SameBut (operation.footprint before after ref) later
  /-- A new node is the one that was made and is answered. -/
  made : ∀ ref, before.node? ref = none → (after.node? ref).isSome = true →
    operation.makes = true ∧ ending = .ok (.node (some ref))
  /-- A node goes exactly if nothing owns it any more. -/
  dropped : ∀ ref, (before.node? ref).isSome = true →
    ((after.node? ref).isSome = true ↔ after.isOwned ref = true)
  /-- That can happen only when an owner was given up. -/
  lasting : operation.mayDrop = false → ∀ ref, (before.node? ref).isSome = true →
    (after.node? ref).isSome = true
  /-- All sessions stay as they are but the one that the operation is about. -/
  sessions : ∀ ref session, before.session? ref = some session →
    operation.sessionUsed? ≠ some ref → after.session? ref = some session
  /-- A new session is the one that was opened and is answered. -/
  opened : ∀ ref, before.session? ref = none ∧ (after.session? ref).isSome = true ↔
    ending = .ok (.session ref)
  /-- The entry that a metadata write moves is one of the node where numbers are distinct. -/
  moved : before.IsDistinct → ∀ target stat, operation = .writeMetadata target stat →
    ∀ directory, after.nameIn? directory target ≠ before.nameIn? directory target →
      ∃ old new, before.Holds directory old target ∧ after.Holds directory new target ∧
        ¬ after.Holds directory old target

end Tree

namespace World

/-- In every tree of a run, every operation changes nothing but what it should. -/
theorem confined_outcome (policy : Policy) (blueprint : Blueprint) (ids : IdSource)
    (start : UInt32) (operations : List (Clock × Operation)) (clock : Clock)
    (operation : Operation) :
    let world := (fresh policy blueprint ids start).run operations
    let outcome := world.outcome clock operation
    Tree.Confined world.tree outcome.tree operation outcome.ending := by
  intro world outcome
  have sound : world.tree.IsSound := isSound_run policy blueprint ids start operations
  have tended : world.tree.IsTended := isTended_run (Tree.isSound_ofRoot blueprint ids start)
    (Tree.isTended_ofRoot blueprint ids start) operations
  have effect := world.effect_outcome clock operation
  constructor
  · intro ref node later there stays
    exact world.tree.sameBut_perform _ operation there stays
  · exact fun ref missing there => effect.made_of_new missing there
  · exact fun ref there => effect.isSome_node?_iff sound tended there
  · exact fun lasting ref there => effect.stays lasting there
  · intro ref session kept unused
    rcases effect.session?_cases ref with same | ⟨-, used⟩ | ⟨fresh, -⟩
    · exact same.trans kept
    · exact absurd used unused
    · rw [fresh] at kept
      exact absurd (Tree.sessionPlace_lt_size kept) (Nat.lt_irrefl _)
  · exact world.tree.opened_perform_iff _ operation
  · intro distinct target stat isWrite directory changed
    exact effect.entry_moved sound distinct isWrite changed

/-- One of two files is given another name by a metadata write, which moves its entry. -/
example :
    let world := (fresh .allowAll ⟨"", ⟨0o755⟩, "o", "g"⟩ .sequential 0).run
      [(1, .create ⟨0⟩ "o" "f" ⟨0o644⟩), (2, .create ⟨0⟩ "o" "k" ⟨0o644⟩)]
    let operation := Operation.writeMetadata ⟨1⟩
      ⟨0, 0, ⟨.file, 0, 0⟩, ⟨0o644⟩, 0, 0, Stat.unchangedLength, "g", "o", "g", ""⟩
    let after := (world.outcome 3 operation).tree
    operation.footprint world.tree after ⟨0⟩ = Facet.relisted ∧
      operation.footprint world.tree after ⟨1⟩ = Facet.revised ∧
      operation.footprint world.tree after ⟨2⟩ = [] := by
  decide +kernel

end World

end MemFs
