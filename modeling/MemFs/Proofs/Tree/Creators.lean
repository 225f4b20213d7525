import MemFs.Proofs.Interleaving
import MemFs.Proofs.Tree.Chronicle

/-!
# Racing creators

Clients that may write to a directory ask it for new names, each in its own order, and nothing says
whose turn it is. The first request for a name that is free gets it; every other request for the
name is refused and leaves nothing behind, not even a gap in the numbers of the nodes.
-/

namespace MemFs

/-- A request for a new entry of a directory. -/
structure NameRequest where
  name : String
  mode : Mode
deriving DecidableEq, Repr

def NameRequest.operation (directory : NodeRef) (user : String) (request : NameRequest) :
    Operation :=
  .create directory user request.name request.mode

/-- The node that an operation answered with. -/
def Outcome.node? (outcome : Outcome Answer) : Option NodeRef :=
  match outcome.ending with
  | .ok (.node child) => child
  | _ => none

/-- The number of the node in this place. -/
def Tree.number? (tree : Tree) (ref : NodeRef) : Option UInt64 :=
  (tree.node? ref).map Node.id

/-! ## One request -/

namespace Tree

section Request

variable {tree : Tree} {setting : Setting} {directory : NodeRef} {node : Node}
  {entries : Entries NodeRef} {user name : String} (requested : Mode)
  (found : tree.directory? directory = some (node, entries))
  (valid : Name.isValid name = true)
  (granted : (setting.check node user .write).granted = true)

include found valid granted

/-- A name that is taken is refused. -/
theorem create_of_taken (taken : (entries.find? name).isSome = true) :
    tree.create setting directory user name requested =
      (tree.refuse .nameConflict [.createConflict node.id name]).afterCheck
        (setting.check node user .write) := by
  have isTaken : entries.contains name = true := taken
  simp [create, found, valid, granted, isTaken]

/-- A name that is free is given to a new node. -/
theorem create_of_free (free : entries.find? name = none) :
    tree.create setting directory user name requested =
      (((tree.addNode (newChild directory node name requested setting.clock.now)).modifyNode directory
        fun node => (node.withEntries (entries.insert name tree.nextNode)).mutatedBy user
          (setting.clock.after 1)).accept
        tree.nextNode [.created node.id tree.ids.next.1 name user]).afterCheck
          (setting.check node user .write) := by
  have isFree : entries.contains name = false := Entries.contains_eq_false_iff.mpr free
  simp [create, found, valid, granted, isFree]

end Request

theorem id_newChild (parent : NodeRef) (directory : Node) (name : String) (requested : Mode)
    (now : UInt32) (id : UInt64) : (newChild parent directory name requested now id).id = id := by
  unfold newChild
  split <;> rfl

/-- The later tree has what the earlier one had: what the directory held it holds, and all nodes are
there with their numbers. -/
structure Grows (directory : NodeRef) (before after : Tree) : Prop where
  holds : ∀ name child, before.Holds directory name child → after.Holds directory name child
  number : ∀ ref number, before.number? ref = some number → after.number? ref = some number

theorem Grows.refl (directory : NodeRef) (tree : Tree) : Grows directory tree tree where
  holds _ _ here := here
  number _ _ there := there

theorem Grows.trans {directory : NodeRef} {before middle after : Tree}
    (first : Grows directory before middle) (second : Grows directory middle after) :
    Grows directory before after where
  holds name child here := second.holds name child (first.holds name child here)
  number ref number there := second.number ref number (first.number ref number there)

theorem Grows.map_number? {directory : NodeRef} {before after : Tree}
    (grows : Grows directory before after) {refs : List NodeRef} {numbers : List UInt64}
    (numbered : refs.map before.number? = numbers.map some) :
    refs.map after.number? = numbers.map some := by
  rw [← numbered]
  refine List.map_congr_left fun ref member => ?_
  have known : before.number? ref ∈ numbers.map some := numbered ▸ List.mem_map_of_mem member
  obtain ⟨number, -, same⟩ := List.mem_map.mp known
  rw [← same, grows.number ref number same.symm]

theorem directory?_created {tree : Tree} {directory : NodeRef} {node : Node}
    {entries : Entries NodeRef} (found : tree.directory? directory = some (node, entries))
    (make : UInt64 → Node) (held : Entries NodeRef) (user : String) (clock : Clock) :
    ((tree.addNode make).modifyNode directory
      fun node => (node.withEntries held).mutatedBy user clock).directory? directory =
        some ((node.withEntries held).mutatedBy user clock, held) := by
  have there := node?_addNode_of_some (directory?_eq_some_iff.mp found).1 make
  have changed := node?_modifyNode_of_some there directory
    fun node => (node.withEntries held).mutatedBy user clock
  rw [if_pos rfl] at changed
  exact directory?_eq_some_iff.mpr ⟨changed, rfl⟩

/-- Creating takes nothing away. -/
theorem grows_create (tree : Tree) (setting : Setting) (directory : NodeRef) (user name : String)
    (requested : Mode) :
    Grows directory tree
      (tree.perform setting (.create directory user name requested)).tree := by
  have effect := effect_perform tree setting (.create directory user name requested)
  generalize tree.perform setting (.create directory user name requested) = outcome at effect
  constructor
  · intro key child here
    cases effect with
    | refused | stalled => exact here
    | created _ _ _ found valid granted free =>
        obtain ⟨_, _, again, bound⟩ := here
        cases found.symm.trans again
        refine ⟨_, _, directory?_created found _ _ user (setting.clock.after 1), ?_⟩
        rw [Entries.find?_insert]
        split
        · rename_i same
          rw [same, free] at bound
          cases bound
        · exact bound
    | readContent reads | readSnapshot reads | readFresh reads => cases reads
  · intro ref number numbered
    obtain ⟨node, there, rfl⟩ := Option.map_eq_some_iff.mp numbered
    have stays := effect.stays rfl (isSome_of_node? there)
    obtain ⟨later, laterThere⟩ := Option.isSome_iff_exists.mp stays
    rw [number?, laterThere, Option.map_some, (effect.altered there laterThere).id_eq]

end Tree

/-! ## Names that are new -/

section NewNames

variable {entries : Entries NodeRef} {names : List String} {name : String}

/-- The names among these that entries do not have. -/
def newNames (entries : Entries NodeRef) (names : List String) : Finset String :=
  names.toFinset \ entries.names.toFinset

theorem mem_newNames_iff : name ∈ newNames entries names ↔ name ∈ names ∧ name ∉ entries.names := by
  simp [newNames]

theorem newNames_concat_of_taken (taken : name ∈ entries.names ∨ name ∈ names) :
    newNames entries (names ++ [name]) = newNames entries names := by
  ext other
  rw [mem_newNames_iff, mem_newNames_iff, List.mem_append, List.mem_singleton]
  constructor
  · rintro ⟨old | rfl, new⟩
    · exact ⟨old, new⟩
    · exact ⟨taken.resolve_left new, new⟩
  · exact fun ⟨old, new⟩ => ⟨Or.inl old, new⟩

theorem card_newNames_concat_of_free (free : ¬ (name ∈ entries.names ∨ name ∈ names)) :
    (newNames entries (names ++ [name])).card = (newNames entries names).card + 1 := by
  obtain ⟨new, unasked⟩ := not_or.mp free
  have grown : newNames entries (names ++ [name]) = insert name (newNames entries names) := by
    ext other
    rw [Finset.mem_insert, mem_newNames_iff, mem_newNames_iff, List.mem_append,
      List.mem_singleton]
    constructor
    · rintro ⟨old | rfl, other⟩
      · exact Or.inr ⟨old, other⟩
      · exact Or.inl rfl
    · rintro (rfl | ⟨old, other⟩)
      · exact ⟨Or.inr rfl, new⟩
      · exact ⟨Or.inl old, other⟩
  rw [grown, Finset.card_insert_of_notMem fun member => unasked (mem_newNames_iff.mp member).1]

end NewNames

namespace World

/-! ## Requests one after the other -/

/-- The nodes that the operations answer with. -/
def answeredNodes (world : World) (operations : List (Clock × Operation)) : List NodeRef :=
  (world.outcomes operations).filterMap Outcome.node?

theorem answeredNodes_concat (world : World) (operations : List (Clock × Operation))
    (clock : Clock) (operation : Operation) :
    world.answeredNodes (operations ++ [(clock, operation)]) =
      world.answeredNodes operations ++
        ((world.run operations).outcome clock operation).node?.toList := by
  rw [answeredNodes, outcomes_append, List.filterMap_append, answeredNodes, outcomes, outcomes,
    List.filterMap_cons, List.filterMap_nil]
  cases ((world.run operations).outcome clock operation).node? <;> rfl

/-- The numbers from one number on. -/
def numbersFrom (first : UInt64) (count : Nat) : List UInt64 :=
  (List.range count).map fun index => first + .ofNat index

theorem numbersFrom_succ (first : UInt64) (count : Nat) :
    numbersFrom first (count + 1) = numbersFrom first count ++ [first + .ofNat count] := by
  rw [numbersFrom, List.range_succ, List.map_append]
  rfl

theorem nodup_numbersFrom (first : UInt64) {count : Nat} (few : count ≤ UInt64.size) :
    (numbersFrom first count).Nodup := by
  refine (List.nodup_map_iff_inj_on List.nodup_range).mpr ?_
  intro index member other otherMember same
  have small := Nat.lt_of_lt_of_le (List.mem_range.mp member) few
  have otherSmall := Nat.lt_of_lt_of_le (List.mem_range.mp otherMember) few
  have values := congrArg UInt64.toNat ((UInt64.add_right_inj first).mp same)
  rwa [UInt64.toNat_ofNat_of_lt' small, UInt64.toNat_ofNat_of_lt' otherSmall] at values

/-- What has come of requests for these names to a directory that had these entries, when these
nodes were given. -/
structure Raced (world : World) (directory : NodeRef) (node : Node) (entries : Entries NodeRef)
    (next : UInt64) (names : List String) (given : List NodeRef) (later : World) : Prop where
  policy : later.policy = world.policy
  asked : later.asked = world.asked + names.length
  ids : later.tree.ids = .counting (next + .ofNat (newNames entries names).card)
  numbers : given.map later.tree.number? =
    (numbersFrom next (newNames entries names).card).map some
  found : ∃ changed held, later.tree.directory? directory = some (changed, held) ∧
    changed.owner = node.owner ∧ changed.mode = node.mode ∧
    changed.version = node.version + .ofNat (newNames entries names).card ∧
    ∀ name, name ∈ held.names ↔ name ∈ entries.names ∨ name ∈ names

section OneRequest

variable {world before : World} {directory : NodeRef} {node : Node} {entries : Entries NodeRef}
  {next : UInt64} {names : List String} {given : List NodeRef} {name user : String}

/-- The policy lets one more request pass. -/
theorem Raced.granted (raced : Raced world directory node entries next names given before)
    (allowed : world.policy.allows (world.asked + names.length)
      ⟨node.owner = user, node.mode, .write⟩ = true) (clock : Clock) {changed : Node}
    (owner : changed.owner = node.owner) (mode : changed.mode = node.mode) :
    (Setting.check ⟨before.policy, before.asked, clock⟩ changed user .write).granted = true := by
  rw [← raced.policy, ← raced.asked, ← owner, ← mode] at allowed
  exact allowed

theorem Raced.asked_concat (raced : Raced world directory node entries next names given before)
    {outcome : Outcome Answer} (once : outcome.checks.length = 1) :
    before.asked + outcome.checks.length = world.asked + (names ++ [name]).length := by
  rw [raced.asked, once, List.length_append, List.length_singleton, Nat.add_assoc]

variable (raced : Raced world directory node entries next names given before)
  (valid : Name.isValid name = true)
  (allowed : world.policy.allows (world.asked + names.length)
    ⟨node.owner = user, node.mode, .write⟩ = true) (clock : Clock) (requested : Mode)

include raced valid allowed

/-- One more request for a name that is taken is refused, and nothing else happens. -/
theorem Raced.refused (taken : name ∈ entries.names ∨ name ∈ names) :
    let outcome := before.outcome clock (.create directory user name requested)
    Raced world directory node entries next (names ++ [name]) given
        (before.step clock (.create directory user name requested)) ∧
      outcome.ending = .error .nameConflict ∧ outcome.tree = before.tree := by
  intro outcome
  obtain ⟨changed, held, found, owner, mode, version, listed⟩ := raced.found
  have granted := raced.granted allowed clock owner mode
  have bound := Entries.mem_names_iff.mp ((listed name).mpr taken)
  have performed := congrArg (Outcome.map · fun child => Answer.node (some child))
    (Tree.create_of_taken requested found valid granted bound)
  have same : outcome.tree = before.tree := congrArg Outcome.tree performed
  have once : outcome.checks.length = 1 := congrArg (·.checks.length) performed
  have unchanged := newNames_concat_of_taken taken
  refine ⟨⟨raced.policy, raced.asked_concat once, ?_, ?_, changed, held, ?_, owner, mode, ?_, ?_⟩,
    congrArg Outcome.ending performed, same⟩
  · rw [unchanged, ← raced.ids]
    exact congrArg Tree.ids same
  · rw [unchanged, ← raced.numbers]
    exact congrArg (fun tree => given.map tree.number?) same
  · rw [← found]
    exact congrArg (·.directory? directory) same
  · rw [unchanged, version]
  · intro other
    rw [listed, List.mem_append, List.mem_singleton]
    constructor
    · exact Or.imp_right Or.inl
    · rintro (old | old | rfl)
      · exact Or.inl old
      · exact Or.inr old
      · exact taken

/-- One more request for a name that is free gets it, for a node with the next number. -/
theorem Raced.accepted (free : ¬ (name ∈ entries.names ∨ name ∈ names)) :
    let outcome := before.outcome clock (.create directory user name requested)
    ∃ child, outcome.ending = .ok (.node (some child)) ∧
      outcome.tree.Holds directory name child ∧
      Raced world directory node entries next (names ++ [name]) (given ++ [child])
        (before.step clock (.create directory user name requested)) := by
  intro outcome
  obtain ⟨changed, held, found, owner, mode, version, listed⟩ := raced.found
  have granted := raced.granted allowed clock owner mode
  have unbound : held.find? name = none := by
    by_contra bound
    exact free ((listed name).mp (Entries.mem_names_iff.mpr (Option.isSome_iff_ne_none.mpr bound)))
  have performed := congrArg (Outcome.map · fun child => Answer.node (some child))
    (Tree.create_of_free requested found valid granted unbound)
  have grown : outcome.tree =
      (before.tree.addNode (Tree.newChild directory changed name requested clock.now)).modifyNode
        directory fun node =>
          (node.withEntries (held.insert name before.tree.nextNode)).mutatedBy user
            (clock.after 1) :=
    congrArg Outcome.tree performed
  have once : outcome.checks.length = 1 := congrArg (·.checks.length) performed
  have card := card_newNames_concat_of_free free
  have after := Tree.directory?_created found
    (Tree.newChild directory changed name requested clock.now)
    (held.insert name before.tree.nextNode) user (clock.after 1)
  rw [← grown] at after
  refine ⟨before.tree.nextNode, congrArg Outcome.ending performed,
    ⟨_, _, after, (Entries.find?_insert _ _ _ _).trans (if_pos rfl)⟩, raced.policy,
    raced.asked_concat once, ?_, ?_, ?_⟩
  · have spent : outcome.tree.ids = before.tree.ids.next.2 := congrArg Tree.ids grown
    refine spent.trans ?_
    rw [raced.ids, card, UInt64.ofNat_add, ← UInt64.add_assoc]
    rfl
  · have there := (Tree.directory?_eq_some_iff.mp found).1
    have number : outcome.tree.number? before.tree.nextNode =
        some (next + .ofNat (newNames entries names).card) := by
      rw [grown, Tree.number?, Tree.node?_nextNode_of_added there, Option.map_some,
        Tree.id_newChild, raced.ids]
      rfl
    have grows := Tree.grows_create before.tree ⟨before.policy, before.asked, clock⟩ directory user
      name requested
    have older := grows.map_number? raced.numbers
    rw [card, numbersFrom_succ, List.map_append, List.map_append]
    exact congrArg₂ List.append older (congrArg (fun number => [number]) number)
  · refine ⟨(changed.withEntries (held.insert name before.tree.nextNode)).mutatedBy user
        (clock.after 1), held.insert name before.tree.nextNode, after, owner, mode, ?_, ?_⟩
    · rw [card, UInt32.ofNat_add, ← UInt32.add_assoc, ← version]
      rfl
    · intro other
      rw [Entries.mem_names_iff, Entries.find?_insert, List.mem_append, List.mem_singleton]
      by_cases here : other = name
      · simp [here]
      · rw [if_neg here, ← Entries.mem_names_iff, listed]
        simp [here]

/-- After one more request all is as it should be. -/
theorem Raced.step :
    Raced world directory node entries next (names ++ [name])
      (given ++ (before.outcome clock (.create directory user name requested)).node?.toList)
      (before.step clock (.create directory user name requested)) := by
  by_cases taken : name ∈ entries.names ∨ name ∈ names
  · obtain ⟨racedLater, refused, -⟩ := raced.refused valid allowed clock requested taken
    rw [Outcome.node?, refused, Option.toList_none, List.append_nil]
    exact racedLater
  · obtain ⟨child, answered, -, racedLater⟩ :=
      raced.accepted valid allowed clock requested taken
    rw [Outcome.node?, answered]
    exact racedLater

end OneRequest

/-! ## All requests -/

variable {ι : Type}

/-- The names that the turns ask for. -/
def askedNames (turns : List (Turn ι NameRequest)) : List String :=
  turns.map fun turn => turn.action.name

theorem askedNames_concat (front : List (Turn ι NameRequest)) (turn : Turn ι NameRequest) :
    askedNames (front ++ [turn]) = askedNames front ++ [turn.action.name] := by
  rw [askedNames, List.map_append]
  rfl

/-- The operations of the turns of several creators. -/
def creating (directory : NodeRef) (user : ι → String) (turns : List (Turn ι NameRequest)) :
    List (Clock × Operation) :=
  schedule (fun client request => request.operation directory (user client)) turns

/-- What comes of the request of a turn that is taken after these turns. -/
def outcomeAfter (world : World) (directory : NodeRef) (user : ι → String)
    (front : List (Turn ι NameRequest)) (turn : Turn ι NameRequest) : Outcome Answer :=
  (world.run (creating directory user front)).outcome turn.clock
    (turn.action.operation directory (user turn.party))

section Run

variable {world : World} {directory : NodeRef} {node : Node} {entries : Entries NodeRef}
  {next : UInt64} {user : ι → String} {turns : List (Turn ι NameRequest)}

theorem grows_creating (world : World) (directory : NodeRef) (user : ι → String)
    (turns : List (Turn ι NameRequest)) :
    Tree.Grows directory world.tree (world.run (creating directory user turns)).tree := by
  induction turns generalizing world with
  | nil => exact Tree.Grows.refl directory world.tree
  | cons turn rest inductionHypothesis =>
      let later := world.step turn.clock (turn.action.operation directory (user turn.party))
      exact (Tree.grows_create world.tree ⟨world.policy, world.asked, turn.clock⟩ directory
        (user turn.party) turn.action.name turn.action.mode).trans (inductionHypothesis later)

theorem creating_append (directory : NodeRef) (user : ι → String)
    (front behind : List (Turn ι NameRequest)) :
    creating directory user (front ++ behind) =
      creating directory user front ++ creating directory user behind :=
  List.map_append

/-- No request was made yet. -/
theorem raced_nil (found : world.tree.directory? directory = some (node, entries))
    (counting : world.tree.ids = .counting next) :
    Raced world directory node entries next [] [] world where
  policy := rfl
  asked := rfl
  ids := by simpa [newNames] using counting
  numbers := by simp [newNames, numbersFrom]
  found := ⟨node, entries, found, rfl, rfl, by simp [newNames], by simp⟩

variable (found : world.tree.directory? directory = some (node, entries))
  (counting : world.tree.ids = .counting next)
  (valid : ∀ turn ∈ turns, Name.isValid turn.action.name = true)
  (allowed : ∀ client count, count < turns.length →
    world.policy.allows (world.asked + count) ⟨node.owner = user client, node.mode, .write⟩ = true)

include found counting valid allowed

/-- After any turns the names that were asked for are there. -/
theorem raced_creating :
    Raced world directory node entries next (askedNames turns)
      (world.answeredNodes (creating directory user turns))
      (world.run (creating directory user turns)) := by
  induction turns using List.reverseRecOn with
  | nil => exact raced_nil found counting
  | append_singleton front turn inductionHypothesis =>
      have raced := inductionHypothesis
        (fun earlier member => valid earlier (List.mem_append_left _ member))
        fun client count below => allowed client count (by simp; omega)
      have here : creating directory user [turn] =
          [(turn.clock, turn.action.operation directory (user turn.party))] := rfl
      rw [creating_append, here, run_concat, answeredNodes_concat, askedNames_concat]
      refine raced.step (valid turn (by simp)) ?_ turn.clock turn.action.mode
      exact allowed turn.party _ (by simp [askedNames])

/-- A turn for a name that is taken comes to nothing. A turn for a name that is free gives the name
to a node that has it in the end. -/
theorem outcomeAfter_cases {front behind : List (Turn ι NameRequest)} {turn : Turn ι NameRequest}
    (split : turns = front ++ turn :: behind) :
    let outcome := world.outcomeAfter directory user front turn
    if turn.action.name ∈ entries.names ∨ turn.action.name ∈ askedNames front then
      outcome.ending = .error .nameConflict ∧
        outcome.tree = (world.run (creating directory user front)).tree
    else
      ∃ child, outcome.ending = .ok (.node (some child)) ∧
        (world.run (creating directory user turns)).tree.Holds directory turn.action.name
          child := by
  intro outcome
  subst split
  have raced := raced_creating found counting
    (fun earlier member => valid earlier (List.mem_append_left _ member))
    fun client count below => allowed client count (by simp; omega)
  have validHere := valid turn (by simp)
  have allowedHere := allowed turn.party (askedNames front).length (by simp [askedNames])
  split
  · rename_i taken
    exact (raced.refused validHere allowedHere turn.clock turn.action.mode taken).2
  · rename_i free
    obtain ⟨child, answered, holds, -⟩ :=
      raced.accepted validHere allowedHere turn.clock turn.action.mode free
    refine ⟨child, answered, ?_⟩
    have later := grows_creating ((world.run (creating directory user front)).step turn.clock
      (turn.action.operation directory (user turn.party))) directory user behind
    rw [creating_append, run_append]
    exact later.holds turn.action.name child holds

end Run

theorem mem_askedNames_iff [DecidableEq ι] {requests : ι → List NameRequest}
    {turns : List (Turn ι NameRequest)} (interleaves : Interleaves turns requests) {name : String} :
    name ∈ askedNames turns ↔ ∃ client, ∃ request ∈ requests client, request.name = name := by
  rw [askedNames, List.mem_map]
  constructor
  · rintro ⟨turn, member, rfl⟩
    exact ⟨turn.party, turn.action, interleaves.mem member, rfl⟩
  · rintro ⟨client, request, member, rfl⟩
    rw [← interleaves client] at member
    obtain ⟨turn, turnMember, -, rfl⟩ := mem_actionsOf.mp member
    exact ⟨turn, turnMember, rfl⟩

/-- Only one request for a name is the first one. -/
theorem eq_of_first {front other behind otherBehind : List (Turn ι NameRequest)}
    {turn otherTurn : Turn ι NameRequest}
    (same : front ++ turn :: behind = other ++ otherTurn :: otherBehind)
    (sameName : turn.action.name = otherTurn.action.name)
    (first : turn.action.name ∉ askedNames front)
    (otherFirst : otherTurn.action.name ∉ askedNames other) : front = other := by
  wlog shorter : front.length ≤ other.length generalizing front other behind otherBehind turn
    otherTurn
  · exact (this same.symm sameName.symm otherFirst first (Nat.le_of_not_le shorter)).symm
  obtain ⟨between, rfl⟩ := List.prefix_of_prefix_length_le ⟨_, same⟩ ⟨_, rfl⟩ shorter
  cases between with
  | nil => exact (List.append_nil front).symm
  | cons head tail =>
      rw [List.append_assoc, List.append_cancel_left_eq] at same
      obtain ⟨rfl, -⟩ := List.cons.inj same
      rw [← sameName] at otherFirst
      simp [askedNames] at otherFirst

/-- A name that is asked for is asked for a first time. -/
theorem exists_first {name : String} {turns : List (Turn ι NameRequest)}
    (asked : name ∈ askedNames turns) :
    ∃ front turn behind, turns = front ++ turn :: behind ∧ turn.action.name = name ∧
      name ∉ askedNames front := by
  obtain ⟨earlier, later, split, first⟩ := List.eq_append_cons_of_mem asked
  obtain ⟨front, rest, rfl, rfl, restNames⟩ := List.map_eq_append_iff.mp split
  obtain ⟨turn, behind, rfl, rfl, -⟩ := List.map_eq_cons_iff.mp restNames
  exact ⟨front, turn, behind, rfl, rfl, first⟩

/-- Clients ask a directory that they may write to for new names. However their requests are
interleaved, the first request for a name that was not there gets it, for a node that stays, and all
other requests end in a name conflict and change nothing. The nodes are numbered without gaps in the
order in which they were made. The version of the directory goes up by the number of new names, and
which names there are in the end does not depend on whose turn it was when. -/
theorem creators_race [DecidableEq ι] {world : World} {directory : NodeRef} {node : Node}
    {entries : Entries NodeRef} {next : UInt64}
    (found : world.tree.directory? directory = some (node, entries))
    (counting : world.tree.ids = .counting next) (user : ι → String)
    {requests : ι → List NameRequest}
    (valid : ∀ client, ∀ request ∈ requests client, Name.isValid request.name = true)
    {turns : List (Turn ι NameRequest)} (interleaves : Interleaves turns requests)
    (allowed : ∀ client count, count < turns.length →
      world.policy.allows (world.asked + count) ⟨node.owner = user client, node.mode, .write⟩ =
        true) :
    let final := world.run (creating directory user turns)
    ∃ new : Finset String,
      (∀ name, name ∈ new ↔
        name ∉ entries.names ∧ ∃ client, ∃ request ∈ requests client, request.name = name) ∧
      (∀ front turn behind, turns = front ++ turn :: behind →
        let outcome := world.outcomeAfter directory user front turn
        if turn.action.name ∈ entries.names ∨ turn.action.name ∈ askedNames front then
          outcome.ending = .error .nameConflict ∧
            outcome.tree = (world.run (creating directory user front)).tree
        else
          ∃ child, outcome.ending = .ok (.node (some child)) ∧
            final.tree.Holds directory turn.action.name child) ∧
      (∀ name ∈ new, ∃! front, ∃ turn behind, turns = front ++ turn :: behind ∧
        turn.action.name = name ∧
        ∃ answer, (world.outcomeAfter directory user front turn).ending = .ok answer) ∧
      (world.answeredNodes (creating directory user turns)).map final.tree.number? =
        (numbersFrom next new.card).map some ∧
      (new.card < UInt64.size → (numbersFrom next new.card).Nodup) ∧
      final.tree.ids = .counting (next + .ofNat new.card) ∧
      ∃ changed held, final.tree.directory? directory = some (changed, held) ∧
        changed.version = node.version + .ofNat new.card ∧
        ∀ name, name ∈ held.names ↔ name ∈ entries.names ∨ name ∈ new := by
  intro final
  have validTurn : ∀ turn ∈ turns, Name.isValid turn.action.name = true :=
    fun turn member => valid turn.party turn.action (interleaves.mem member)
  have raced := raced_creating found counting validTurn allowed
  obtain ⟨changed, held, there, -, -, version, listed⟩ := raced.found
  refine ⟨newNames entries (askedNames turns), ?_,
    fun _ _ _ split => outcomeAfter_cases found counting validTurn allowed split, ?_, raced.numbers,
    fun few => nodup_numbersFrom next few.le, raced.ids, changed, held, there, version, ?_⟩
  · intro name
    rw [mem_newNames_iff, mem_askedNames_iff interleaves, and_comm]
  · intro name isNew
    obtain ⟨asked, new⟩ := mem_newNames_iff.mp isNew
    obtain ⟨front, turn, behind, split, rfl, first⟩ := exists_first asked
    have given := outcomeAfter_cases found counting validTurn allowed split
    rw [if_neg (not_or.mpr ⟨new, first⟩)] at given
    obtain ⟨child, answered, -⟩ := given
    refine ⟨front, ⟨turn, behind, split, rfl, _, answered⟩, ?_⟩
    rintro other ⟨otherTurn, otherBehind, otherSplit, sameName, answer, done⟩
    refine eq_of_first (otherSplit.symm.trans split) sameName ?_ first
    intro askedBefore
    have refused := outcomeAfter_cases found counting validTurn allowed otherSplit
    rw [if_pos (Or.inr askedBefore), done] at refused
    cases refused.1
  · intro name
    rw [listed, mem_newNames_iff]
    tauto

/-- Two clients ask for the same name, and one of them also for a name that is there already. -/
def rivals : Bool → List NameRequest
  | false => [⟨"x", ⟨0o644⟩⟩, ⟨"y", ⟨0o644⟩⟩, ⟨"x", ⟨0o600⟩⟩]
  | true => [⟨"x", ⟨0o644⟩⟩, ⟨"z", ⟨0o644⟩⟩]

def contested : List (Turn Bool NameRequest) :=
  [⟨true, 2, ⟨"x", ⟨0o644⟩⟩⟩, ⟨false, 3, ⟨"x", ⟨0o644⟩⟩⟩, ⟨false, 4, ⟨"y", ⟨0o644⟩⟩⟩,
    ⟨true, 5, ⟨"z", ⟨0o644⟩⟩⟩, ⟨false, 6, ⟨"x", ⟨0o600⟩⟩⟩]

theorem creators_race_contested :
    let world := (fresh .allowAll ⟨"", ⟨0o755⟩, "o", "g"⟩ .sequential 0).step 1
      (.create ⟨0⟩ "o" "z" ⟨0o644⟩)
    let operations := creating ⟨0⟩ (fun _ => "o") contested
    (world.answeredNodes operations).map (world.run operations).tree.number? = [some 3, some 4] ∧
    (world.run operations).tree.ids = .counting 5 := by
  intro world operations
  have directory : ∃ node entries, world.tree.directory? ⟨0⟩ = some (node, entries) ∧
      entries.names = ["z"] := ⟨_, _, rfl, rfl⟩
  obtain ⟨node, entries, found, names⟩ := directory
  have valid : ∀ client, ∀ request ∈ rivals client, Name.isValid request.name = true := by
    decide
  have interleaves : Interleaves contested rivals := by
    intro client
    cases client <;> rfl
  obtain ⟨new, isNew, -, -, numbers, -, ids, -⟩ := creators_race found rfl (fun _ => "o") valid
    interleaves fun _ _ _ => rfl
  have newNames : new = {"x", "y"} := by
    ext name
    rw [isNew, names, Bool.exists_bool]
    simp only [rivals, List.exists_mem_cons_iff, List.mem_singleton, Finset.mem_insert,
      Finset.mem_singleton]
    grind
  rw [newNames] at numbers ids
  exact ⟨numbers, ids⟩

end World

end MemFs
