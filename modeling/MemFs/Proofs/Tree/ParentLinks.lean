import MemFs.Proofs.Tree.Chronicle
import MemFs.Proofs.Tree.Circle

/-!
# The end of the way up

Live parent links lead up and never back, however often a node is taken in: an addition to a
directory looks for the node on the way up before it sets the link. So the search for an ancestor
ends without any limit on the number of nodes that it looks at.
-/

namespace MemFs.Tree

/-- The search for `ancestor` from a node up the parent links, with no limit on the nodes that it
looks at, ends with this answer. -/
inductive SearchEnds (tree : Tree) (ancestor : NodeRef) : NodeRef → Bool → Prop
  | met : SearchEnds tree ancestor ancestor true
  | unmet {ref : NodeRef} (apart : ref ≠ ancestor) (top : tree.parent? ref = none) :
      SearchEnds tree ancestor ref false
  | further {ref parent : NodeRef} {answer : Bool} (apart : ref ≠ ancestor)
      (link : tree.parent? ref = some parent) (later : SearchEnds tree ancestor parent answer) :
      SearchEnds tree ancestor ref answer

namespace SearchEnds

variable {tree : Tree} {ancestor ref : NodeRef}

theorem unique {first second : Bool} (ends : tree.SearchEnds ancestor ref first)
    (again : tree.SearchEnds ancestor ref second) : first = second := by
  induction ends with
  | met =>
      cases again with
      | met => rfl
      | unmet apart => exact absurd rfl apart
      | further apart => exact absurd rfl apart
  | unmet apart top =>
      cases again with
      | met => exact absurd rfl apart
      | unmet => rfl
      | further _ link => cases top.symm.trans link
  | further apart link _ inductionHypothesis =>
      cases again with
      | met => exact absurd rfl apart
      | unmet _ top => cases top.symm.trans link
      | further _ otherLink later =>
          cases link.symm.trans otherLink
          exact inductionHypothesis later

/-- The answer is whether the ancestor is the node itself or on the way up from it. -/
theorem answer_iff {answer : Bool} (ends : tree.SearchEnds ancestor ref answer) :
    answer = true ↔ Relation.ReflTransGen tree.Ascends ref ancestor := by
  induction ends with
  | met => exact iff_of_true rfl Relation.ReflTransGen.refl
  | unmet apart top =>
      refine iff_of_false Bool.false_ne_true fun chain => ?_
      rcases Relation.ReflTransGen.cases_head chain with same | ⟨parent, link, -⟩
      · exact apart same
      · cases top.symm.trans link
  | further apart link _ inductionHypothesis =>
      rw [inductionHypothesis]
      constructor
      · exact Relation.ReflTransGen.head link
      · intro chain
        rcases Relation.ReflTransGen.cases_head chain with same | ⟨parent, otherLink, above⟩
        · exact absurd same apart
        · cases link.symm.trans otherLink
          exact above

/-- A search that meets nothing comes to the end of the way up. -/
theorem exists_ascend_eq_none {answer : Bool} (ends : tree.SearchEnds ancestor ref answer)
    (missed : answer = false) : ∃ steps, tree.ascend steps ref = none := by
  induction ends with
  | met => cases missed
  | unmet apart top => exact ⟨1, by rw [ascend, top, Option.bind_none]⟩
  | further apart link _ inductionHypothesis =>
      obtain ⟨steps, ended⟩ := inductionHypothesis missed
      exact ⟨steps + 1, by rw [ascend, link, Option.bind_some, ended]⟩

theorem of_climb {limit : Nat} :
    (tree.climb ancestor limit ref = .found → tree.SearchEnds ancestor ref true) ∧
      (tree.climb ancestor limit ref = .missed → tree.SearchEnds ancestor ref false) := by
  induction limit generalizing ref with
  | zero =>
      constructor
      · intro climbed
        cases climbed
      · intro climbed
        cases climbed
  | succ limit inductionHypothesis =>
      unfold climb
      by_cases arrived : ref = ancestor
      · rw [if_pos arrived]
        exact ⟨fun _ => arrived ▸ met, fun climbed => (by cases climbed)⟩
      · rw [if_neg arrived]
        cases link : tree.parent? ref with
        | none =>
            exact ⟨fun climbed => (by cases climbed), fun _ => unmet arrived link⟩
        | some parent =>
            exact ⟨fun climbed => further arrived link (inductionHypothesis.1 climbed),
              fun climbed => further arrived link (inductionHypothesis.2 climbed)⟩

end SearchEnds

/-- The search within the limit tells how the one without a limit ends, and whether it does. -/
theorem search_eq_iff {tree : Tree} {ref : NodeRef} {node : Node}
    (there : tree.node? ref = some node) (ancestor : NodeRef) :
    (∀ answer, tree.search ref ancestor = (if answer then .found else .missed) ↔
      tree.SearchEnds ancestor ref answer) ∧
    (tree.search ref ancestor = .endless ↔ ∀ answer, ¬ tree.SearchEnds ancestor ref answer) := by
  cases searched : tree.search ref ancestor with
  | found =>
      have ends := SearchEnds.of_climb.1 searched
      refine ⟨fun answer => ?_, iff_of_false nofun fun never => never true ends⟩
      cases answer with
      | true => exact iff_of_true rfl ends
      | false => exact iff_of_false nofun fun other => nomatch ends.unique other
  | missed =>
      have ends := SearchEnds.of_climb.2 searched
      refine ⟨fun answer => ?_, iff_of_false nofun fun never => never false ends⟩
      cases answer with
      | true => exact iff_of_false nofun fun other => nomatch ends.unique other
      | false => exact iff_of_true rfl ends
  | endless =>
      obtain ⟨onward, unmet⟩ := (search_eq_endless_iff there).mp searched
      have never : ∀ answer, ¬ tree.SearchEnds ancestor ref answer := by
        intro answer ends
        cases answer with
        | true => exact unmet (ends.answer_iff.mp rfl)
        | false =>
            obtain ⟨steps, ended⟩ := ends.exists_ascend_eq_none rfl
            have further := onward steps
            rw [ended] at further
            cases further
      refine ⟨fun answer => iff_of_false ?_ (never answer), iff_of_true rfl never⟩
      cases answer <;> nofun

/-! ## What an operation does to parent links -/

/-- The parent link of the lower node names the upper place, whatever is there. -/
def Links (tree : Tree) (lower upper : NodeRef) : Prop :=
  ∃ outline, tree.outline? lower = some outline ∧ outline.parent = some upper

/-- Parent links name places that were used, lead to directories, and never lead back. -/
structure LeadsUp (tree : Tree) : Prop where
  used : ∀ lower upper, tree.Links lower upper → upper.place < tree.nodes.size
  toDirectory : ∀ lower upper outline, tree.Links lower upper →
    tree.outline? upper = some outline → outline.kind = .directory
  circleFree : ∀ ref, ¬ Relation.TransGen tree.Ascends ref ref

/-- A directory may take in a node: either there is no such node yet, or no directory is put beneath
itself. -/
structure MayTakeIn (tree : Tree) (directory node : NodeRef) : Prop where
  toDirectory : ∃ outline, tree.outline? directory = some outline ∧ outline.kind = .directory
  unmet : ∀ outline, tree.outline? node = some outline → outline.kind = .directory →
    tree.search directory node = .missed

variable {before after : Tree}

theorem ascends_iff {tree : Tree} {lower upper : NodeRef} :
    tree.Ascends lower upper ↔ tree.Links lower upper ∧ ∃ above, tree.outline? upper = some above :=
  parent?_eq_some_iff

private theorem links_of_earlier {ref : NodeRef}
    (same : ∀ outline, after.outline? ref = some outline →
      ∃ earlier, before.outline? ref = some earlier ∧ outline.parent = earlier.parent)
    {upper : NodeRef} (link : after.Links ref upper) : before.Links ref upper := by
  obtain ⟨outline, found, leads⟩ := link
  obtain ⟨earlier, there, sameParent⟩ := same outline found
  exact ⟨earlier, there, sameParent.symm.trans leads⟩

/-- A regular operation sets one parent link at most, for a node that a directory takes in. -/
theorem Reshaped.links {operation : Operation} (reshaped : Reshaped before after operation)
    (regular : operation.isRegular = true) :
    (∀ lower upper, after.Links lower upper → before.Links lower upper) ∨
      ∃ directory node, before.MayTakeIn directory node ∧
        ∀ lower upper, after.Links lower upper →
          before.Links lower upper ∨ (lower = node ∧ upper = directory) := by
  cases reshaped with
  | kept store outlines =>
      refine Or.inl fun lower upper => links_of_earlier fun outline found => ?_
      exact ⟨outline, outlines lower ▸ found, rfl⟩
  | swept store outlines thinned =>
      refine Or.inl fun lower upper => links_of_earlier fun outline found => ?_
      exact ⟨outline, outlines lower ▸ thinned.outline?_eq found, rfl⟩
  | made store numbered bare orphan outlines =>
      refine Or.inl fun lower upper link => ?_
      obtain ⟨outline, found, leads⟩ := link
      rw [outlines] at found
      split at found
      · cases found
        cases orphan.symm.trans leads
      · exact ⟨outline, found, leads⟩
  | attached => cases regular
  | renamedAlone store valid unmoved outlines =>
      refine Or.inl fun lower upper => links_of_earlier fun outline => ?_
      exact Outline.exists_earlier Outline.parent (outlines lower) fun _ => rfl
  | @created directory outer _ _ _ _ store found isDirectory valid free numbered named bare inside
      outlines =>
      refine Or.inr ⟨directory, before.nextNode, ⟨⟨outer, found, isDirectory⟩, ?_⟩, ?_⟩
      · intro outline there
        rw [outline?_nextNode] at there
        cases there
      · intro lower upper link
        by_cases new : lower = before.nextNode
        · obtain ⟨outline, foundNew, leads⟩ := link
          rw [outlines, if_pos new] at foundNew
          cases foundNew
          cases inside.symm.trans leads
          exact Or.inr ⟨new, rfl⟩
        · have later := outlines lower
          rw [if_neg new] at later
          exact Or.inl (links_of_earlier
            (fun outline => Outline.exists_earlier Outline.parent later fun _ => rfl) link)
  | @added directory graft outer node _ store found isDirectory there valid free unmet outlines =>
      refine Or.inr ⟨directory, graft, ⟨⟨outer, found, isDirectory⟩, ?_⟩, ?_⟩
      · intro outline graftThere kind
        cases there.symm.trans graftThere
        exact unmet kind
      · intro lower upper link
        obtain ⟨outline, foundAfter, leads⟩ := link
        rw [outlines] at foundAfter
        obtain ⟨earlier, foundBefore, same⟩ := Option.map_eq_some_iff.mp foundAfter
        cases same
        by_cases atGraft : lower = graft
        · rw [if_pos atGraft] at leads
          cases leads
          exact Or.inr ⟨atGraft, rfl⟩
        · rw [if_neg atGraft] at leads
          exact Or.inl ⟨earlier, foundBefore, leads⟩
  | moved store found isDirectory valid present free sameNumber outlines =>
      refine Or.inl fun lower upper => links_of_earlier fun outline => ?_
      exact Outline.exists_earlier Outline.parent (outlines lower) fun _ => rfl
  | removed store found isDirectory present removable outlines thinned =>
      refine Or.inl fun lower upper => links_of_earlier fun outline there => ?_
      exact Outline.exists_earlier Outline.parent (outlines lower) (fun _ => rfl)
        (thinned.outline?_eq there)

/-- A node in a place that was used has the kind that it had before. -/
theorem Effect.kind_earlier {setting : Setting} {operation : Operation} {outcome : Outcome Answer}
    (effect : Effect before setting operation outcome) {ref : NodeRef} {outline : Outline}
    (found : outcome.tree.outline? ref = some outline) (used : ref.place < before.nodes.size) :
    ∃ earlier, before.outline? ref = some earlier ∧ earlier.kind = outline.kind := by
  obtain ⟨later, laterThere, same⟩ := Option.map_eq_some_iff.mp found
  obtain ⟨node, there⟩ := effect.reshaped.exists_earlier laterThere used
  refine ⟨node.outline, by rw [outline?, there, Option.map_some], ?_⟩
  rw [← same]
  exact (effect.altered there laterThere).kind_eq.symm

namespace LeadsUp

/-- What may be taken in is not on the way up: a directory would have been found there, and a file
is nobody's parent. -/
theorem not_above {tree : Tree} (leadsUp : tree.LeadsUp) {directory node : NodeRef}
    (may : tree.MayTakeIn directory node) :
    ¬ Relation.ReflTransGen tree.Ascends directory node := by
  intro chain
  obtain ⟨outer, found, outerKind⟩ := may.toDirectory
  have isDirectory : ∃ outline, tree.outline? node = some outline ∧ outline.kind = .directory := by
    rcases Relation.ReflTransGen.cases_tail chain with same | ⟨lower, -, link⟩
    · exact ⟨outer, same ▸ found, outerKind⟩
    · obtain ⟨names, outline, there⟩ := ascends_iff.mp link
      exact ⟨outline, there, leadsUp.toDirectory lower node outline names there⟩
  obtain ⟨outline, there, kind⟩ := isDirectory
  obtain ⟨outerNode, outerThere, -⟩ := Option.map_eq_some_iff.mp found
  have met := (search_eq_found_iff outerThere).mpr chain
  cases met.symm.trans (may.unmet outline there kind)

theorem perform {tree : Tree} (leadsUp : tree.LeadsUp) (setting : Setting) {operation : Operation}
    (regular : operation.isRegular = true) : (tree.perform setting operation).tree.LeadsUp := by
  have effect := effect_perform tree setting operation
  have links := effect.reshaped.links regular
  have grows := effect.reshaped.size_le
  generalize tree.perform setting operation = outcome at effect links grows
  -- A link that the operation set leads to a directory that was there before.
  have toEarlier : ∀ lower upper, outcome.tree.Links lower upper →
      upper.place < tree.nodes.size ∧
        ∀ outline, tree.outline? upper = some outline → outline.kind = .directory := by
    intro lower upper link
    have old : tree.Links lower upper → upper.place < tree.nodes.size ∧
        ∀ outline, tree.outline? upper = some outline → outline.kind = .directory :=
      fun earlier => ⟨leadsUp.used lower upper earlier,
        fun outline there => leadsUp.toDirectory lower upper outline earlier there⟩
    rcases links with fewer | ⟨directory, node, may, one⟩
    · exact old (fewer lower upper link)
    · rcases one lower upper link with earlier | ⟨-, atDirectory⟩
      · exact old earlier
      · subst atDirectory
        obtain ⟨outer, found, kind⟩ := may.toDirectory
        obtain ⟨outerNode, outerThere, -⟩ := Option.map_eq_some_iff.mp found
        refine ⟨place_lt_size outerThere, fun outline there => ?_⟩
        cases found.symm.trans there
        exact kind
  -- A live link to a node was live before, or it is the one that the operation set.
  have live : ∀ lower upper, outcome.tree.Ascends lower upper →
      outcome.tree.Links lower upper ∧ ∃ earlier, tree.outline? upper = some earlier := by
    intro lower upper ascends
    obtain ⟨link, outline, there⟩ := ascends_iff.mp ascends
    obtain ⟨earlier, earlierThere, -⟩ := effect.kind_earlier there (toEarlier lower upper link).1
    exact ⟨link, earlier, earlierThere⟩
  constructor
  · intro lower upper link
    exact Nat.lt_of_lt_of_le (toEarlier lower upper link).1 grows
  · intro lower upper outline link there
    obtain ⟨used, isDirectory⟩ := toEarlier lower upper link
    obtain ⟨earlier, earlierThere, same⟩ := effect.kind_earlier there used
    exact same.symm.trans (isDirectory earlier earlierThere)
  · intro ref around
    rcases links with fewer | ⟨directory, node, may, one⟩
    · refine leadsUp.circleFree ref (Relation.TransGen.mono ?_ _ _ around)
      intro lower upper ascends
      obtain ⟨link, there⟩ := live lower upper ascends
      exact ascends_iff.mpr ⟨fewer lower upper link, there⟩
    · have withLink : ∀ lower upper, outcome.tree.Ascends lower upper →
          tree.Ascends lower upper ∨ (lower = node ∧ upper = directory) := by
        intro lower upper ascends
        obtain ⟨link, there⟩ := live lower upper ascends
        exact (one lower upper link).imp_left fun earlier => ascends_iff.mpr ⟨earlier, there⟩
      have closes := (exists_transGen_iff_of_link fun _ _ => Iff.rfl).mp
        ⟨ref, Relation.TransGen.mono withLink _ _ around⟩
      rcases closes with ⟨start, circle⟩ | way
      · exact leadsUp.circleFree start circle
      · exact leadsUp.not_above may way

theorem search_ne_endless {tree : Tree} (leadsUp : tree.LeadsUp) {ref : NodeRef} {node : Node}
    (there : tree.node? ref = some node) (ancestor : NodeRef) :
    tree.search ref ancestor ≠ .endless := by
  intro endless
  have onward := ((search_eq_endless_iff there).mp endless).1 tree.nodes.size
  rw [ascend_size_eq_none there leadsUp.circleFree] at onward
  cases onward

/-- No operation waits for itself or searches without end. -/
theorem not_stalls {tree : Tree} (leadsUp : tree.LeadsUp) (operation : Operation) :
    ¬ tree.Stalls operation := by
  intro stalls
  cases stalls with
  | searching name found there valid isDirectory endless =>
      exact leadsUp.search_ne_endless (directory?_eq_some_iff.mp found).1 _ endless
  | waiting stat there wanted own => exact leadsUp.circleFree _ (.single own.1)

theorem returns {tree : Tree} (leadsUp : tree.LeadsUp) (setting : Setting)
    (operation : Operation) : (tree.perform setting operation).ending ≠ .never := by
  have effect := effect_perform tree setting operation
  generalize tree.perform setting operation = outcome at effect
  cases effect with
  | stalled stalls => exact absurd stalls (leadsUp.not_stalls operation)
  | resolved user path ending walked checks events returns => exact returns
  | _ => exact nofun

end LeadsUp

theorem leadsUp_ofRoot (blueprint : Blueprint) (ids : IdSource) (now : UInt32) :
    (ofRoot blueprint ids now).LeadsUp := by
  have unlinked : ∀ lower upper, ¬ (ofRoot blueprint ids now).Links lower upper := by
    intro lower upper link
    obtain ⟨outline, found, leads⟩ := link
    rw [outline?, node?, ofRoot, Arena.get?_push] at found
    split at found
    · cases found
      cases leads
    · cases found
  constructor
  · intro lower upper link
    exact absurd link (unlinked lower upper)
  · intro lower upper outline link
    exact absurd link (unlinked lower upper)
  · intro ref around
    obtain ⟨upper, ascends, -⟩ := Relation.TransGen.head'_iff.mp around
    exact unlinked ref upper (ascends_iff.mp ascends).1

end MemFs.Tree

namespace MemFs.World

theorem leadsUp_run (policy : Policy) (blueprint : Blueprint) (ids : IdSource) (start : UInt32)
    {operations : List (Clock × Operation)}
    (regular : ∀ timed ∈ operations, timed.2.isRegular = true) :
    ((fresh policy blueprint ids start).run operations).tree.LeadsUp := by
  have respected : (fresh policy blueprint ids start).Respects
      (fun _ operation => operation.isRegular = true) operations :=
    respects_of_forall_mem (fun timed member _ => regular timed member) _
  refine run_induction Tree.LeadsUp ?_ (Tree.leadsUp_ofRoot blueprint ids start) respected
  intro tree setting operation leadsUp allowed
  exact leadsUp.perform setting allowed

/-- However nodes were taken in, removed and freed, no node is above itself, and the search for an
ancestor ends by itself, with the answer that a limited search gives: whether the ancestor is the
node or on the way up from it. So every operation returns. -/
theorem search_ends (policy : Policy) (blueprint : Blueprint) (ids : IdSource) (start : UInt32)
    {operations : List (Clock × Operation)}
    (regular : ∀ timed ∈ operations, timed.2.isRegular = true) :
    let tree := ((fresh policy blueprint ids start).run operations).tree
    (∀ ref, ¬ Relation.TransGen tree.Ascends ref ref) ∧
      (∀ ref node ancestor, tree.node? ref = some node →
        ∃ answer, tree.SearchEnds ancestor ref answer ∧
          (∀ other, tree.SearchEnds ancestor ref other → other = answer) ∧
          tree.search ref ancestor = (if answer then .found else .missed) ∧
          (answer = true ↔ Relation.ReflTransGen tree.Ascends ref ancestor)) ∧
      ∀ setting operation, (tree.perform setting operation).ending ≠ .never := by
  intro tree
  have leadsUp : tree.LeadsUp := leadsUp_run policy blueprint ids start regular
  refine ⟨leadsUp.circleFree, ?_, leadsUp.returns⟩
  intro ref node ancestor there
  obtain ⟨limited, endless⟩ := Tree.search_eq_iff there ancestor
  obtain ⟨answer, ends⟩ : ∃ answer, tree.SearchEnds ancestor ref answer := by
    by_contra never
    exact leadsUp.search_ne_endless there ancestor (endless.mpr (not_exists.mp never))
  exact ⟨answer, ends, fun other again => again.unique ends, (limited answer).mpr ends,
    ends.answer_iff⟩

/-- A directory is taken in by the root and by another one, which gives it up, and the root is taken
in by it. Then the other one goes, and the first one keeps a parent link that leads nowhere. -/
def linkedAround : List (Clock × Operation) :=
  [(1, .makeDirectory ⟨"x", ⟨0o755⟩, "o", "g"⟩), (2, .makeDirectory ⟨"b", ⟨0o755⟩, "o", "g"⟩),
    (3, .add ⟨0⟩ "x" ⟨1⟩), (4, .add ⟨2⟩ "x" ⟨1⟩), (5, .remove ⟨2⟩ "o" "x"),
    (6, .add ⟨1⟩ "r" ⟨0⟩), (7, .letGo ⟨2⟩)]

/-- The root and the directory hold each other, but only the root is beneath the other. -/
theorem search_ends_linkedAround :
    let tree := ((fresh .allowAll ⟨"", ⟨0o755⟩, "o", "g"⟩ .sequential 0).run linkedAround).tree
    (∀ timed ∈ linkedAround, timed.2.isRegular = true) ∧
      tree.Owns ⟨0⟩ ⟨1⟩ ∧ tree.Owns ⟨1⟩ ⟨0⟩ ∧ tree.node? ⟨2⟩ = none ∧
      tree.SearchEnds ⟨1⟩ ⟨0⟩ true ∧ tree.SearchEnds ⟨0⟩ ⟨1⟩ false ∧
      ∀ ref, ¬ Relation.TransGen tree.Ascends ref ref := by
  intro tree
  have regular : ∀ timed ∈ linkedAround, timed.2.isRegular = true := by decide
  have owns : tree.Owns ⟨0⟩ ⟨1⟩ := ⟨"x", _, _, rfl, rfl⟩
  have ownsBack : tree.Owns ⟨1⟩ ⟨0⟩ := ⟨"r", _, _, rfl, rfl⟩
  have gone : tree.node? ⟨2⟩ = none := rfl
  obtain ⟨circleFree, searches, -⟩ :=
    search_ends .allowAll ⟨"", ⟨0o755⟩, "o", "g"⟩ .sequential 0 regular
  obtain ⟨first, firstEnds, -, firstAnswer, -⟩ := searches ⟨0⟩ _ ⟨1⟩ rfl
  obtain ⟨second, secondEnds, -, secondAnswer, -⟩ := searches ⟨1⟩ _ ⟨0⟩ rfl
  have found : first = true := by
    cases first with
    | true => rfl
    | false => cases firstAnswer
  have missed : second = false := by
    cases second with
    | true => cases secondAnswer
    | false => rfl
  exact ⟨regular, owns, ownsBack, gone, found ▸ firstEnds, missed ▸ secondEnds, circleFree⟩

end MemFs.World
