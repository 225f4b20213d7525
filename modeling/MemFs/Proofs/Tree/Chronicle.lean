import MemFs.Proofs.Access.Denial
import MemFs.Proofs.Tree.Upkeep

/-!
# Events as an audit log of names

What a directory holds can be told from the events about it, read off their messages and particulars
alone. As long as no number is given twice, those that carry the number of a directory give its
names at any moment, and each goes with one change of its entries.
-/

namespace MemFs

/-- A number of a node that was written down is read back. -/
theorem Datum.uint64?_ofNat (number : UInt64) : (ofNat number.toNat).uint64? = some number := by
  have below : (ofNat number.toNat).natBelow? UInt64.size = some number.toNat := by
    rw [ofNat, natBelow?, if_pos ⟨Int.natCast_nonneg _, Int.ofNat_lt.mpr number.toNat_lt_size⟩,
      Int.toNat_natCast]
  rw [uint64?, below, Option.map_some, UInt64.ofNat_toNat]

namespace Event

/-- The text under this name among the particulars. -/
def text? (event : Event) (field : String) : Option String :=
  (event.fields.lookup field).bind Datum.text?

/-- The number of the directory that an event is about. -/
def directory? (event : Event) : Option UInt64 :=
  (event.fields.lookup "dir").bind Datum.uint64?

/-- The names in a directory after what an event about it says. -/
def replay (names : Finset String) (event : Event) : Finset String :=
  match event.message, event.text? "name", event.text? "old", event.text? "new" with
  | "created", some name, _, _ | "added", some name, _, _ => insert name names
  | "removed", some name, _, _ => names.erase name
  | "renamed", _, some old, some new | "renamed by metadata write", _, some old, some new =>
      insert new (names.erase old)
  | _, _, _, _ => names

/-- A change of the names in the directory with this number was noted. -/
def isNamingOf (number : UInt64) (event : Event) : Bool :=
  event.isNaming && event.directory? == some number

/-- The names in the directory with this number after what all events about it say. -/
def told (number : UInt64) (names : Finset String) (events : List Event) : Finset String :=
  (events.filter (isNamingOf number)).foldl replay names

variable {number : UInt64} {rebinding : Rebinding} {event : Event} {names : Finset String}

theorem Tells.directory? (told : event.Tells number rebinding) :
    event.directory? = some number := by
  have carried : event.fields.lookup "dir" = some (.ofNat number.toNat) := by
    cases told <;> rfl
  rw [Event.directory?, carried, Option.bind_some, Datum.uint64?_ofNat]

/-- The event about a change says what becomes of the names. -/
theorem Tells.replay (told : event.Tells number rebinding) (names : Finset String) :
    event.replay names = rebinding.rename names := by
  cases told <;> rfl

theorem told_append (first second : List Event) :
    told number names (first ++ second) = told number (told number names first) second := by
  rw [told, List.filter_append, List.foldl_append]
  rfl

theorem told_of_untold {events : List Event} (untold : ∀ event ∈ events, event.isNaming = false)
    (number : UInt64) (names : Finset String) :
    told number names events = names ∧ events.countP (isNamingOf number) = 0 := by
  have silent : events.filter (isNamingOf number) = [] := by
    refine List.filter_eq_nil_iff.mpr fun event member => ?_
    simp [isNamingOf, untold event member]
  rw [told, List.countP_eq_length_filter, silent]
  exact ⟨rfl, rfl⟩

theorem Tells.isNamingOf_iff (told : event.Tells number rebinding) (other : UInt64) :
    event.isNamingOf other = true ↔ number = other := by
  simp [isNamingOf, told.isNaming, told.directory?]

end Event

namespace Tree

variable {before after : Tree} {asked : Option (NodeRef × Rebinding)} {events : List Event}
  {ref : NodeRef} {number : UInt64}

/-- The names in a directory. There are none where there is no directory. -/
def namesAt (tree : Tree) (ref : NodeRef) : Finset String :=
  (tree.entriesAt ref).names.toFinset

theorem mem_namesAt_iff {tree : Tree} {name : String} :
    name ∈ tree.namesAt ref ↔ ((tree.entriesAt ref).find? name).isSome = true := by
  rw [namesAt, List.mem_toFinset, Entries.mem_names_iff]

theorem namesAt_of_directory? {tree : Tree} {node : Node} {entries : Entries NodeRef}
    (found : tree.directory? ref = some (node, entries)) :
    tree.namesAt ref = entries.names.toFinset := by
  rw [namesAt, entriesAt_of_directory? found]

/-- A new tree has no names. -/
theorem namesAt_ofRoot (blueprint : Blueprint) (ids : IdSource) (now : UInt32) :
    (ofRoot blueprint ids now).namesAt ref = ∅ := by
  have bare : (ofRoot blueprint ids now).entriesAt ref = .empty :=
    (entriesAt_eq _ ref).trans (valueAt_ofRoot blueprint ids now fun _ => rfl)
  rw [namesAt, bare]
  rfl

/-- No node but the one in this place has this number. -/
def OwnsNumber (ref : NodeRef) (number : UInt64) (tree : Tree) : Prop :=
  ∀ other node, tree.node? other = some node → (node.id = number ↔ other = ref)

/-- The events of an operation with the number of a directory tell what becomes of its names, and
there is one of them exactly if its entries change. -/
theorem Rebound.told (rebound : Rebound before after asked events)
    (own : before.OwnsNumber ref number)
    (stays : (before.node? ref).isSome = true → (after.node? ref).isSome = true) :
    Event.told number (before.namesAt ref) events = after.namesAt ref ∧
      events.countP (Event.isNamingOf number) =
        if after.entriesAt ref = before.entriesAt ref then 0 else 1 := by
  have whole := rebound
  cases rebound with
  | kept untold same =>
      have kept : after.entriesAt ref = before.entriesAt ref := whole.elsewhere nofun stays
      obtain ⟨names, count⟩ := Event.told_of_untold untold number (before.namesAt ref)
      rw [names, count, if_pos kept, namesAt, namesAt, kept]
      exact ⟨rfl, rfl⟩
  | @changed directory node entries rebinding event found possible told here elsewhere =>
      have numbered := own directory node (directory?_eq_some_iff.mp found).1
      by_cases atRef : directory = ref
      · subst atRef
        have noted := (told.isNamingOf_iff number).mpr (numbered.mpr rfl)
        obtain ⟨possible, applied⟩ := whole.here rfl stays
        have changed : after.entriesAt directory ≠ before.entriesAt directory := by
          intro same
          rw [same] at applied
          exact Rebinding.apply_ne possible applied.symm
        rw [if_neg changed, List.countP_singleton, if_pos noted, Event.told,
          List.filter_cons_of_pos noted, List.filter_nil, List.foldl_cons, List.foldl_nil,
          told.replay]
        refine ⟨Finset.ext fun name => ?_, rfl⟩
        rw [Rebinding.mem_rename_iff possible fun name => mem_namesAt_iff, mem_namesAt_iff, applied]
      · have unnoted : ¬ event.isNamingOf number = true := fun noted =>
          atRef (numbered.mp ((told.isNamingOf_iff number).mp noted))
        have kept : after.entriesAt ref = before.entriesAt ref := by
          refine whole.elsewhere (fun rebinding same => ?_) stays
          cases same
          exact atRef rfl
        rw [if_pos kept, List.countP_singleton, if_neg unnoted, Event.told,
          List.filter_cons_of_neg unnoted, namesAt, namesAt, kept]
        exact ⟨rfl, rfl⟩

/-- An event about names is about a directory that is there. -/
theorem Rebound.exists_directory (rebound : Rebound before after asked events) {event : Event}
    (member : event ∈ events) (naming : event.isNaming = true) :
    ∃ directory rebinding node entries, asked = some (directory, rebinding) ∧
      before.directory? directory = some (node, entries) ∧ event.directory? = some node.id := by
  cases rebound with
  | kept untold same =>
      rw [untold event member] at naming
      cases naming
  | @changed directory node entries rebinding _ found possible told here elsewhere =>
      cases List.mem_singleton.mp member
      exact ⟨directory, rebinding, node, entries, rfl, found, told.directory?⟩

section OneNode

variable {tree : Tree} {clock : Clock} {operation : Operation} {ending : Ending Answer}
  {node later : Node}

/-- No operation gives a node another number. -/
theorem Altered.id_eq (altered : Altered tree clock operation ending ref node later) :
    later.id = node.id := by
  cases altered <;> rfl

/-- No operation makes a file of a directory or a directory of a file. -/
theorem Altered.kind_eq (altered : Altered tree clock operation ending ref node later) :
    later.kind = node.kind := by
  cases altered with
  | kept | accessed | opened | released | takenIn | renamed => rfl
  | @revised stat newName =>
      exact congrArg Outline.kind (Node.outline_revised node stat newName clock)
  | relisted isDirectory | relistedBy user isDirectory | renamedInside user name isDirectory =>
      exact isDirectory.symm
  | emptied isOpening empties done isFile => exact isFile.symm
  | written isWrite done isOpen isFile => exact isFile.symm

end OneNode

/-- A directory that is there after an operation is a directory then and has its number. -/
theorem Effect.directory?_later {tree : Tree} {setting : Setting} {operation : Operation}
    {outcome : Outcome Answer} (effect : Effect tree setting operation outcome) {node : Node}
    {entries : Entries NodeRef} (found : tree.directory? ref = some (node, entries))
    (stays : (outcome.tree.node? ref).isSome = true) :
    ∃ later held, outcome.tree.directory? ref = some (later, held) ∧ later.id = node.id := by
  obtain ⟨there, isDirectory⟩ := directory?_eq_some_iff.mp found
  obtain ⟨later, laterThere⟩ := Option.isSome_iff_exists.mp stays
  have altered := effect.altered there laterThere
  have kind : later.kind = .directory := by rw [altered.kind_eq, Node.kind, isDirectory]
  obtain ⟨held, body⟩ := Node.exists_entries_of_kind kind
  exact ⟨later, held, directory?_eq_some_iff.mpr ⟨laterThere, body⟩, altered.id_eq⟩

end Tree

namespace World

variable {world : World} {operations : List (Clock × Operation)} {ref : NodeRef}

/-- No two nodes of a run have the same number, not even one after the other. -/
def NumbersApart (world : World) (operations : List (Clock × Operation)) : Prop :=
  ∀ first second, first <+: operations → second <+: operations →
    ∀ ref other node otherNode, (world.run first).tree.node? ref = some node →
      (world.run second).tree.node? other = some otherNode → node.id = otherNode.id → ref = other

/-- A node keeps its number. -/
theorem id_of_run {node later : Node} (there : world.tree.node? ref = some node)
    (laterThere : (world.run operations).tree.node? ref = some later) : later.id = node.id := by
  induction operations generalizing world node with
  | nil =>
      cases there.symm.trans laterThere
      rfl
  | cons timed rest inductionHypothesis =>
      have stays := stays_of_run (Tree.isSome_of_node? laterThere) (Tree.isSome_of_node? there)
      obtain ⟨next, nextThere⟩ := Option.isSome_iff_exists.mp stays
      have altered := (world.effect_outcome timed.1 timed.2).altered there nextThere
      exact (inductionHypothesis nextThere laterThere).trans altered.id_eq

/-- As long as the numbers of a counting source do not wrap around, none is given twice in a run. -/
theorem numbersApart_of_few {first : UInt64} (numbered : world.tree.IsNumbered first)
    (few : (world.run operations).tree.nodes.size < UInt64.size) :
    world.NumbersApart operations := by
  have onTheWay : ∀ front, front <+: operations →
      (world.run front).tree.IsNumbered first ∧
        (world.run front).tree.nodes.size < UInt64.size := by
    rintro front ⟨behind, rfl⟩
    rw [run, List.foldl_append, ← run, ← run] at few
    refine ⟨?_, Nat.lt_of_le_of_lt (size_le_run _ behind) few⟩
    exact run_induction (Tree.IsNumbered first) (fun tree setting operation numbered (_ : True) =>
      (Tree.effect_perform tree setting operation).reshaped.isNumbered numbered) numbered
      (respects_of_forall (fun _ _ => trivial) world front)
  intro early late earlyPart latePart ref other node otherNode there otherThere same
  obtain ⟨numbered, few⟩ := onTheWay early earlyPart
  obtain ⟨laterNumbered, laterFew⟩ := onTheWay late latePart
  exact numbered.apart few laterNumbered laterFew there otherThere same

theorem NumbersApart.of_prefix (apart : world.NumbersApart operations)
    {front : List (Clock × Operation)} (part : front <+: operations) :
    world.NumbersApart front :=
  fun first second firstPart secondPart =>
    apart first second (firstPart.trans part) (secondPart.trans part)

/-- In a run in which no number is given twice, only the node in one place has its number. -/
theorem NumbersApart.respects (apart : world.NumbersApart operations) {node : Node}
    (there : (world.run operations).tree.node? ref = some node) :
    world.Respects (fun tree _ => tree.OwnsNumber ref node.id) operations := by
  refine respects_of_prefixes fun front clock operation behind split other otherNode otherThere => ?_
  constructor
  · intro same
    exact apart front operations ⟨(clock, operation) :: behind, split.symm⟩ (List.prefix_refl _)
      other ref otherNode node otherThere there same
  · rintro rfl
    rw [split, run, List.foldl_append, ← run, ← run] at there
    exact (id_of_run otherThere there).symm

/-- The events of a run with the number of a directory that outlives it tell what becomes of its
names. -/
theorem told_run {number : UInt64} (sound : world.tree.IsSound)
    (own : world.Respects (fun tree _ => tree.OwnsNumber ref number) operations)
    (there : ((world.run operations).tree.node? ref).isSome = true) :
    Event.told number (world.tree.namesAt ref) (world.events operations) =
      (world.run operations).tree.namesAt ref := by
  induction operations generalizing world with
  | nil => rfl
  | cons timed rest inductionHypothesis =>
      obtain ⟨clock, operation⟩ := timed
      obtain ⟨ownHere, ownLater⟩ := own
      have rebound := (world.effect_outcome clock operation).rebound sound.child
      have here :
          Event.told number (world.tree.namesAt ref) (world.outcome clock operation).events =
            (world.step clock operation).tree.namesAt ref :=
        (rebound.told ownHere (stays_of_run there)).1
      have later := inductionHypothesis (sound.perform _ operation) ownLater there
      rw [run_cons, ← later, events_cons, Event.told_append, here]

/-- In a run in which no number is given twice, the events with the number of a directory give its
names at any moment. Each goes with one change of the entries of one directory, and the denials
among the events are as many as the refusals of the policy. -/
theorem names_told_by_events (policy : Policy) (blueprint : Blueprint) (ids : IdSource)
    (start : UInt32) (operations : List (Clock × Operation))
    (apart : (fresh policy blueprint ids start).NumbersApart operations) :
    let world := fresh policy blueprint ids start
    (∀ front behind, operations = front ++ behind →
      ∀ directory node entries,
        (world.run front).tree.directory? directory = some (node, entries) →
          Event.told node.id ∅ (world.events front) = entries.names.toFinset) ∧
    (∀ front clock operation behind, operations = front ++ (clock, operation) :: behind →
      let before := world.run front
      let outcome := before.outcome clock operation
      (∀ event ∈ outcome.events, event.isNaming = true →
        ∃ directory node entries, outcome.tree.directory? directory = some (node, entries) ∧
          event.directory? = some node.id) ∧
      ∀ directory node entries, outcome.tree.directory? directory = some (node, entries) →
        outcome.events.countP (Event.isNamingOf node.id) =
          if entries = before.tree.entriesAt directory then 0 else 1) ∧
    (∀ index check, (world.checks operations)[index]? = some check →
      check.granted = policy.allows index check.query) ∧
    (world.events operations).countP Event.isDenial =
      (world.checks operations).countP fun check => !check.granted := by
  intro world
  have answered := answered_run world operations
  refine ⟨?_, ?_, ?_, answered.countP_eq⟩
  · rintro front behind rfl directory node entries found
    have there := (Tree.directory?_eq_some_iff.mp found).1
    have own := (apart.of_prefix ⟨behind, rfl⟩).respects there
    have told := told_run (Tree.isSound_ofRoot blueprint ids start) own (Tree.isSome_of_node? there)
    have bare : world.tree.namesAt directory = ∅ := Tree.namesAt_ofRoot blueprint ids start
    rwa [Tree.namesAt_of_directory? found, bare] at told
  · intro front clock operation behind split before outcome
    have sound : before.tree.IsSound := isSound_run policy blueprint ids start front
    have tended : before.tree.IsTended := isTended_run (Tree.isSound_ofRoot blueprint ids start)
      (Tree.isTended_ofRoot blueprint ids start) front
    have effect := before.effect_outcome clock operation
    have rebound := effect.rebound sound.child
    constructor
    · intro event member naming
      obtain ⟨directory, rebinding, node, entries, asked, found, number⟩ :=
        rebound.exists_directory member naming
      have stays := effect.directory_stays tended asked (Tree.isSome_of_directory? found)
      obtain ⟨later, held, laterFound, sameNumber⟩ := effect.directory?_later found stays
      exact ⟨directory, later, held, laterFound, sameNumber ▸ number⟩
    · intro directory node entries found
      have there := (Tree.directory?_eq_some_iff.mp found).1
      have part : front ++ [(clock, operation)] <+: operations :=
        ⟨behind, by rw [split, List.append_assoc, List.singleton_append]⟩
      have thereThen : (world.run (front ++ [(clock, operation)])).tree.node? directory =
          some node := by rw [run_concat]; exact there
      have own := (apart.of_prefix part).respects thereThen
      have ownHere := (respects_append_iff.mp own).2.1
      obtain ⟨-, count⟩ := rebound.told ownHere fun _ => Tree.isSome_of_node? there
      rwa [Tree.entriesAt_of_directory? found] at count
  · intro index check listed
    have answer := answered.answers index check listed
    rwa [show world.asked = 0 from rfl, Nat.zero_add] at answer

/-- A file is created in a new directory and removed from it. Another file is added to the root,
gets other names from itself and from the root, and is removed after it was not allowed to be. -/
def chronicled : List (Clock × Operation) :=
  [(1, .create ⟨0⟩ "o" "d" (.ofDirectory 0o755)), (2, .create ⟨1⟩ "o" "x" ⟨0o644⟩),
    (3, .makeFile ⟨"m", ⟨0o644⟩, "o", "g"⟩ []), (4, .add ⟨0⟩ "k" ⟨3⟩),
    (5, .writeMetadata ⟨3⟩ ⟨0, 0, ⟨.file, 0, 0⟩, ⟨0o644⟩, 0, 0, Stat.unchangedLength, "g", "o", "g",
      ""⟩),
    (6, .rename ⟨0⟩ "o" "g" "h"), (7, .remove ⟨1⟩ "o" "x"), (8, .remove ⟨0⟩ "u" "h"),
    (9, .remove ⟨0⟩ "o" "h")]

theorem names_told_of_chronicled :
    let world := fresh (.scripted [true, true, true, true, false]) ⟨"", ⟨0o755⟩, "o", "g"⟩
      .sequential 0
    world.NumbersApart chronicled ∧
    Event.told 1 ∅ (world.events chronicled) = {"d"} ∧
      ((world.events chronicled).countP fun event => event.isNaming) = 7 ∧
      (world.events chronicled).countP Event.isDenial = 1 := by
  intro world
  have apart : world.NumbersApart chronicled :=
    numbersApart_of_few (Tree.isNumbered_ofRoot ⟨"", ⟨0o755⟩, "o", "g"⟩ 1 0) (by decide +kernel)
  obtain ⟨told, -, -, denied⟩ := names_told_by_events (.scripted [true, true, true, true, false])
    ⟨"", ⟨0o755⟩, "o", "g"⟩ .sequential 0 chronicled apart
  have found : ((world.run chronicled).tree.directory? ⟨0⟩).map
      (fun found => (found.1.id, found.2.names)) = some (1, ["d"]) := by decide +kernel
  obtain ⟨⟨node, entries⟩, found, shown⟩ := Option.map_eq_some_iff.mp found
  have number : node.id = 1 := congrArg Prod.fst shown
  have listed : entries.names = ["d"] := congrArg Prod.snd shown
  have names := told chronicled [] (List.append_nil _).symm ⟨0⟩ node entries found
  rw [number, listed] at names
  have refused : ((world.checks chronicled).countP fun check => !check.granted) = 1 := by
    decide +kernel
  have naming : ((world.events chronicled).countP fun event => event.isNaming) = 7 := by
    decide +kernel
  exact ⟨apart, names, naming, denied.trans refused⟩

end World

end MemFs
