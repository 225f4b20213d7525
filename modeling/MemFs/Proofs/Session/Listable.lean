import MemFs.Config
import MemFs.Proofs.Session.Snapshot
import Mathlib.Data.List.Induction

/-!
# Directories that can be listed

The names, owners, groups and users that operations bring into a tree may be of any length, and a
record has room for so many bytes of them. A directory can be listed as long as no child has more.
Texts within limits stay within them, since no operation makes a text longer.
-/

namespace MemFs

/-! ## Records and their texts -/

namespace Stat

/-- The number of bytes of the texts of a record. -/
def textLength (stat : Stat) : Nat :=
  stat.name.utf8ByteSize + stat.owner.utf8ByteSize + stat.group.utf8ByteSize
    + stat.lastModifier.utf8ByteSize

/-- The number of bytes that the texts of a record may have. -/
def textLimit : Nat := 65488

theorem bodyLength_eq (stat : Stat) : stat.bodyLength = 47 + stat.textLength := by
  simp only [bodyLength, encodedLength, fixedLength, textLength]
  omega

theorem bodyLength_le_iff (stat : Stat) :
    stat.bodyLength ≤ greatestShort ↔ stat.textLength ≤ textLimit := by
  rw [bodyLength_eq, greatestShort, textLimit]
  omega

theorem exists_encode_iff {stat : Stat} :
    (∃ bytes, stat.encode = .ok bytes) ↔ stat.textLength ≤ textLimit := by
  rw [← bodyLength_le_iff]
  constructor
  · rintro ⟨bytes, encoded⟩
    exact (encode_eq_ok_iff.mp encoded).1
  · intro short
    exact ⟨stat.bytes, encode_eq_ok_iff.mpr ⟨short, rfl⟩⟩

theorem encode_of_long {stat : Stat} (long : textLimit < stat.textLength) :
    stat.encode = .error (.recordTooLong (47 + stat.textLength)) := by
  rw [encode_eq_error_iff, bodyLength_le_iff, bodyLength_eq]
  exact ⟨Nat.not_le_of_lt long, rfl⟩

/-- The first record without an encoding is the one that a sequence is refused for. -/
theorem encodeAll_append_of_error {front behind : List Stat} {stat : Stat} {error : RecordError}
    (encodable : ∀ earlier ∈ front, ∃ bytes, earlier.encode = .ok bytes)
    (refused : stat.encode = .error error) :
    encodeAll (front ++ stat :: behind) = .error error := by
  induction front with
  | nil =>
      rw [List.nil_append, encodeAll, refused]
      rfl
  | cons first rest inductionHypothesis =>
      obtain ⟨⟨bytes, encoded⟩, others⟩ := List.forall_mem_cons.mp encodable
      rw [List.cons_append, encodeAll, encoded, inductionHypothesis others]
      rfl

end Stat

/-! ## Limits -/

/-- How many bytes a name may have, and an owner, a group or a user. -/
structure TextLimits where
  names : Nat
  users : Nat

/-- A record has room for all texts within the limits. An unnamed directory shows a slash. -/
def TextLimits.AreRecordable (limits : TextLimits) : Prop :=
  max limits.names 1 + 3 * limits.users ≤ Stat.textLimit

variable {limits : TextLimits}

def Blueprint.IsLimited (limits : TextLimits) (blueprint : Blueprint) : Prop :=
  blueprint.name.utf8ByteSize ≤ limits.names ∧ blueprint.owner.utf8ByteSize ≤ limits.users ∧
    blueprint.group.utf8ByteSize ≤ limits.users

/-- The texts that an operation may bring into a tree are within the limits. -/
def Operation.IsLimited (limits : TextLimits) : Operation → Prop
  | .makeFile blueprint _ | .makeDirectory blueprint => blueprint.IsLimited limits
  | .create _ user name _ | .rename _ user _ name =>
      user.utf8ByteSize ≤ limits.users ∧ name.utf8ByteSize ≤ limits.names
  | .remove _ user _ | .openSession _ user _ => user.utf8ByteSize ≤ limits.users
  | .writeMetadata _ stat =>
      stat.name.utf8ByteSize ≤ limits.names ∧ stat.owner.utf8ByteSize ≤ limits.users ∧
        stat.group.utf8ByteSize ≤ limits.users
  | _ => True

namespace Node

def IsLimited (limits : TextLimits) (node : Node) : Prop :=
  node.name.utf8ByteSize ≤ limits.names ∧ node.owner.utf8ByteSize ≤ limits.users ∧
    node.group.utf8ByteSize ≤ limits.users ∧ node.lastModifier.utf8ByteSize ≤ limits.users

variable {node : Node} {user name : String}

theorem IsLimited.mutatedBy (limited : node.IsLimited limits)
    (short : user.utf8ByteSize ≤ limits.users) (clock : Clock) :
    (node.mutatedBy user clock).IsLimited limits :=
  ⟨limited.1, limited.2.1, limited.2.2.1, short⟩

theorem IsLimited.renamed (limited : node.IsLimited limits)
    (short : name.utf8ByteSize ≤ limits.names) : { node with name }.IsLimited limits :=
  ⟨short, limited.2⟩

/-- A metadata write gives a node the name that was asked for, if it gives it one at all. -/
theorem IsLimited.revised (limited : node.IsLimited limits) {stat : Stat}
    {newName : Option String} (shown : String)
    (wanted : Name.replacement? node.name shown stat.name = .ok newName)
    (short : stat.name.utf8ByteSize ≤ limits.names ∧ stat.owner.utf8ByteSize ≤ limits.users ∧
      stat.group.utf8ByteSize ≤ limits.users) (clock : Clock) :
    (node.revised stat newName clock).IsLimited limits := by
  refine ⟨?_, short.2.1, short.2.2, limited.2.2.2⟩
  cases newName with
  | none => exact limited.1
  | some name =>
      have asked : name = stat.name := Name.eq_of_replacement? wanted
      rw [asked]
      exact short.1

theorem isLimited_blueprint {blueprint : Blueprint} (limited : blueprint.IsLimited limits)
    (id : UInt64) (content : List UInt8) (now : UInt32) :
    (blueprint.file id content now).IsLimited limits ∧
      (blueprint.directory id now).IsLimited limits :=
  ⟨⟨limited.1, limited.2.1, limited.2.2, limited.2.1⟩,
    ⟨limited.1, limited.2.1, limited.2.2, limited.2.1⟩⟩

theorem isLimited_newChild {directory : Node} (limited : directory.IsLimited limits)
    (short : name.utf8ByteSize ≤ limits.names) (parent : NodeRef) (requested : Mode) (now : UInt32)
    (id : UInt64) : (Tree.newChild parent directory name requested now id).IsLimited limits := by
  have inherited : (Tree.inherited directory name requested).IsLimited limits :=
    ⟨short, limited.2.1, limited.2.2.1⟩
  obtain ⟨file, newDirectory⟩ := isLimited_blueprint inherited id [] now
  unfold Tree.newChild
  split
  · exact newDirectory
  · exact file

/-- The record of a node has room for texts within the limits. -/
theorem IsLimited.textLength_le (limited : node.IsLimited limits)
    (recordable : limits.AreRecordable) : node.stat.textLength ≤ Stat.textLimit := by
  obtain ⟨name, owner, group, lastModifier⟩ := limited
  have shown : node.shownName.utf8ByteSize ≤ max limits.names 1 := by
    have stored : node.name.utf8ByteSize ≤ max limits.names 1 :=
      Nat.le_trans name (Nat.le_max_left _ _)
    unfold shownName
    split
    · exact stored
    · split
      · exact Nat.le_max_right _ _
      · exact stored
  rw [TextLimits.AreRecordable] at recordable
  simp only [Stat.textLength, Node.stat]
  omega

end Node

namespace Tree

/-- All texts of a tree are within the limits. -/
structure IsLimited (limits : TextLimits) (tree : Tree) : Prop where
  node : ∀ ref node, tree.node? ref = some node → node.IsLimited limits
  user : ∀ ref session user, tree.session? ref = some session → session.stream = .file user →
    user.utf8ByteSize ≤ limits.users

namespace IsLimited

variable {tree : Tree}

/-! ## Elementary changes -/

/-- What stays as it was stays within the limits. -/
theorem of_kept {after : Tree} (limited : tree.IsLimited limits)
    (nodes : ∀ ref node, after.node? ref = some node → tree.node? ref = some node)
    (sessions : ∀ ref session, after.session? ref = some session →
      tree.session? ref = some session) : after.IsLimited limits :=
  ⟨fun ref node there => limited.node ref node (nodes ref node there),
    fun ref session user kept => limited.user ref session user (sessions ref session kept)⟩

theorem thin {after : Tree} (limited : tree.IsLimited limits) (thinned : Thinned tree after) :
    after.IsLimited limits :=
  limited.of_kept (fun _ _ => thinned.node?_eq) thinned.session

theorem sweep (limited : tree.IsLimited limits) : tree.sweep.IsLimited limits :=
  limited.thin (swept_sweep tree).toThinned

theorem hold (limited : tree.IsLimited limits) (ref : NodeRef) :
    (tree.hold ref).IsLimited limits :=
  limited.of_kept (fun other _ there => (node?_hold tree ref other).symm.trans there)
    (fun other _ kept => (session?_hold tree ref other).symm.trans kept)

theorem forget (limited : tree.IsLimited limits) (ref : SessionRef) :
    (tree.forget ref).IsLimited limits := by
  refine limited.of_kept (fun _ _ there => there) ?_
  intro other session kept
  rw [session?_forget] at kept
  split at kept
  · cases kept
  · exact kept

theorem modifyNode (limited : tree.IsLimited limits) {ref : NodeRef} {change : Node → Node}
    (keeps : ∀ node, tree.node? ref = some node → node.IsLimited limits →
      (change node).IsLimited limits) : (tree.modifyNode ref change).IsLimited limits := by
  refine ⟨?_, limited.user⟩
  intro other node there
  rw [node?_modifyNode] at there
  split at there
  · rename_i here
    subst here
    obtain ⟨earlier, earlierThere, changed⟩ := Option.map_eq_some_iff.mp there
    subst changed
    exact keeps earlier earlierThere (limited.node other earlier earlierThere)
  · exact limited.node other node there

theorem addNode (limited : tree.IsLimited limits) {make : UInt64 → Node}
    (made : ∀ id, (make id).IsLimited limits) : (tree.addNode make).IsLimited limits := by
  refine ⟨?_, limited.user⟩
  intro other node there
  rw [node?_addNode] at there
  split at there
  · cases there
    exact made _
  · exact limited.node other node there

theorem modifySession (limited : tree.IsLimited limits) {ref : SessionRef}
    {change : Session → Session}
    (keeps : ∀ session user, (change session).stream = .file user → session.stream = .file user) :
    (tree.modifySession ref change).IsLimited limits := by
  refine ⟨limited.node, ?_⟩
  intro other session user kept ofUser
  rw [session?_modifySession] at kept
  split at kept
  · obtain ⟨earlier, earlierKept, changed⟩ := Option.map_eq_some_iff.mp kept
    subst changed
    exact limited.user other earlier user earlierKept (keeps earlier user ofUser)
  · exact limited.user other session user kept ofUser

theorem addSession (limited : tree.IsLimited limits) {session : Session}
    (short : ∀ user, session.stream = .file user → user.utf8ByteSize ≤ limits.users) :
    (tree.addSession session).IsLimited limits := by
  refine ⟨limited.node, ?_⟩
  intro other added user kept ofUser
  rw [session?_addSession] at kept
  split at kept
  · cases kept
    exact short user ofUser
  · exact limited.user other added user kept ofUser

theorem touchAll (limited : tree.IsLimited limits) (clock : Clock) (walked : List NodeRef) :
    (tree.touchAll clock walked).IsLimited limits := by
  induction walked generalizing tree clock with
  | nil => exact limited
  | cons first rest inductionHypothesis =>
      refine inductionHypothesis ?_ (clock.after 1)
      exact limited.modifyNode fun _ _ kept => kept

theorem attach (limited : tree.IsLimited limits) (ref parent : NodeRef) :
    (tree.attach ref parent).IsLimited limits := by
  unfold Tree.attach
  split
  · exact limited.modifyNode fun _ _ kept => kept
  · exact limited

theorem readFrom (limited : tree.IsLimited limits) (now : UInt32) (ref : SessionRef)
    (session : Session) (nodeRef : NodeRef) (bytes : List UInt8) (count : Nat) :
    (tree.readFrom now ref session nodeRef bytes count).tree.IsLimited limits := by
  refine IsLimited.modifySession ?_ fun _ _ ofUser => ofUser
  exact limited.modifyNode fun _ _ kept => kept

theorem release (limited : tree.IsLimited limits) (ref : SessionRef) (nodeRef : NodeRef) :
    (tree.release ref nodeRef).IsLimited limits := by
  refine IsLimited.sweep (IsLimited.modifySession ?_ fun _ _ ofUser => ofUser)
  exact limited.modifyNode fun _ _ kept => kept

end IsLimited

/-! ## Operations -/

/-- An operation whose texts are within the limits keeps the tree within them. -/
theorem Effect.isLimited {tree : Tree} {setting : Setting} {operation : Operation}
    {outcome : Outcome Answer} (effect : Effect tree setting operation outcome)
    (limited : tree.IsLimited limits) (given : operation.IsLimited limits) :
    outcome.tree.IsLimited limits := by
  cases effect with
  | refused | stalled => exact limited
  | madeFile blueprint content =>
      exact (limited.addNode fun id => (Node.isLimited_blueprint given id content _).1).hold _
  | madeDirectory blueprint =>
      exact (limited.addNode fun id => (Node.isLimited_blueprint given id [] _).2).hold _
  | held ref => exact limited.hold ref
  | letGo ref =>
      have fewer : Tree.IsLimited limits { tree with held := tree.held.erase ref } :=
        limited.of_kept (fun _ _ there => there) (fun _ _ kept => kept)
      exact fewer.sweep
  | attached ref parent => exact limited.attach ref parent
  | @created ref directory _ user name requested found =>
      have there := (directory?_eq_some_iff.mp found).1
      have grown := limited.addNode (Node.isLimited_newChild (limited.node ref directory there)
        given.2 ref requested setting.clock.now)
      exact grown.modifyNode fun node _ kept => Node.IsLimited.mutatedBy kept given.1 setting.clock
  | added =>
      refine IsLimited.modifyNode ?_ fun _ _ kept => kept
      exact limited.modifyNode fun _ _ kept => kept
  | renamed user old new =>
      refine IsLimited.modifyNode ?_ fun node _ kept =>
        Node.IsLimited.mutatedBy kept given.1 setting.clock
      exact limited.modifyNode fun node _ kept => Node.IsLimited.renamed kept given.2
  | removed user name =>
      refine IsLimited.sweep (limited.modifyNode fun node _ kept => ?_)
      exact Node.IsLimited.mutatedBy kept given setting.clock
  | walked => exact limited.modifyNode fun _ _ kept => kept
  | resolved user path ending walked => exact limited.touchAll setting.clock walked
  | revised stat there wanted =>
      refine limited.modifyNode fun node found kept => ?_
      cases there.symm.trans found
      exact kept.revised _ wanted given setting.clock
  | rekeyed stat there wanted =>
      refine IsLimited.modifyNode (limited.modifyNode fun node found kept => ?_)
        fun _ _ kept => kept
      cases there.symm.trans found
      exact kept.revised _ wanted given setting.clock
  | openedFile user request =>
      refine IsLimited.addSession (limited.modifyNode fun node _ kept => ?_) ?_
      · split
        · exact Node.IsLimited.mutatedBy kept given setting.clock
        · exact kept
      · intro opener ofUser
        cases ofUser
        exact given
  | openedDirectory =>
      refine IsLimited.addSession ?_ fun _ ofUser => by cases ofUser
      exact limited.modifyNode fun _ _ kept => kept
  | soughtFile =>
      refine IsLimited.modifySession ?_ fun _ _ ofUser => ofUser
      exact limited.modifyNode fun _ _ kept => kept
  | rewound =>
      refine IsLimited.modifySession ?_ fun _ _ ofUser => by cases ofUser
      exact limited.modifyNode fun _ _ kept => kept
  | stayed => exact limited.modifyNode fun _ _ kept => kept
  | readContent => exact limited.readFrom _ _ _ _ _ _
  | readSnapshot => exact limited.readFrom _ _ _ _ _ _
  | readFresh =>
      refine IsLimited.readFrom ?_ _ _ _ _ _ _
      exact limited.modifySession fun _ _ ofUser => by cases ofUser
  | @written ref session _ _ _ user data isOpen isFile ofUser =>
      have short := limited.user ref session user isOpen.kept ofUser
      refine IsLimited.modifySession (limited.modifyNode fun node _ kept => ?_)
        fun _ _ ofUser => ofUser
      exact Node.IsLimited.mutatedBy kept short setting.clock
  | closed => exact limited.release _ _
  | droppedOpen => exact (limited.release _ _).forget _
  | droppedClosed => exact limited.forget _

theorem isLimited_ofRoot {blueprint : Blueprint} (limited : blueprint.IsLimited limits)
    (ids : IdSource) (now : UInt32) : (ofRoot blueprint ids now).IsLimited limits := by
  constructor
  · intro ref node there
    rw [node?, ofRoot, Arena.get?_push] at there
    split at there
    · cases there
      exact (Node.isLimited_blueprint limited _ [] now).2
    · cases there
  · intro ref session user kept
    cases kept

/-! ## Listings -/

section Listings

variable {tree : Tree} {entries : Entries NodeRef}

theorem exists_listing_iff :
    (∃ bytes, tree.listing entries = .ok bytes) ↔
      ∀ entry ∈ tree.listed entries, entry.2.textLength ≤ Stat.textLimit := by
  rw [listing_eq_encodeAll]
  constructor
  · rintro ⟨bytes, success⟩ entry member
    obtain ⟨pieces, encodings, -⟩ := Stat.exists_encodings_of_encodeAll_ok success
    exact Stat.exists_encode_iff.mp
      (Stat.exists_encode_of_encodings encodings (List.mem_map_of_mem member))
  · intro short
    have encodable : ∀ stat ∈ (tree.listed entries).map Prod.snd,
        ∃ bytes, stat.encode = .ok bytes := by
      intro stat member
      obtain ⟨entry, inside, isStat⟩ := List.mem_map.mp member
      exact Stat.exists_encode_iff.mpr (isStat ▸ short entry inside)
    obtain ⟨pieces, encodings⟩ := Stat.exists_encodings encodable
    exact ⟨pieces.flatten, Stat.encodeAll_of_encodings encodings⟩

theorem listing_of_long {front behind : List (String × Stat)} {entry : String × Stat}
    (split : tree.listed entries = front ++ entry :: behind)
    (short : ∀ earlier ∈ front, earlier.2.textLength ≤ Stat.textLimit)
    (long : Stat.textLimit < entry.2.textLength) :
    tree.listing entries = .error (.recordTooLong (47 + entry.2.textLength)) := by
  have encodable : ∀ stat ∈ front.map Prod.snd, ∃ bytes, stat.encode = .ok bytes := by
    intro stat member
    obtain ⟨earlier, inside, isStat⟩ := List.mem_map.mp member
    exact Stat.exists_encode_iff.mpr (isStat ▸ short earlier inside)
  rw [listing_eq_encodeAll, split, List.map_append, List.map_cons]
  exact Stat.encodeAll_append_of_error encodable (Stat.encode_of_long long)

end Listings

end Tree

namespace World

theorem isLimited_run (policy : Policy) {blueprint : Blueprint} (ids : IdSource) (start : UInt32)
    {operations : List (Clock × Operation)} (root : blueprint.IsLimited limits)
    (given : ∀ timed ∈ operations, timed.2.IsLimited limits) :
    ((fresh policy blueprint ids start).run operations).tree.IsLimited limits := by
  induction operations using List.reverseRecOn with
  | nil => exact Tree.isLimited_ofRoot root ids start
  | append_singleton operations timed inductionHypothesis =>
      obtain ⟨clock, operation⟩ := timed
      have earlier := inductionHypothesis fun other member =>
        given other (List.mem_append_left _ member)
      have last := given (clock, operation) (List.mem_append_right _ List.mem_cons_self)
      rw [run_concat]
      exact (Tree.effect_perform _ _ operation).isLimited earlier last

/-- Taking the listing of a directory works exactly if the texts of each child fit in a record.
Otherwise it fails for the first child whose texts do not, and nothing else happens. Where a record
has room for all texts that are brought in, it always works. -/
theorem snapshot_taken_iff_short (policy : Policy) (blueprint : Blueprint) (ids : IdSource)
    (start : UInt32) (before : List (Clock × Operation)) {ref : SessionRef} {session : Session}
    {directory : NodeRef} {node : Node}
    (isOpen : ((fresh policy blueprint ids start).run before).tree.OpenOn ref session directory node)
    (isDirectory : node.kind = .directory) (clock : Clock) {operation : Operation}
    (takes : ((fresh policy blueprint ids start).run before).tree.TakesSnapshot ref operation) :
    let world := (fresh policy blueprint ids start).run before
    let outcome := world.outcome clock operation
    ∃ listed, world.tree.Lists directory listed ∧
      ((∃ answer, outcome.ending = .ok answer) ↔
        ∀ entry ∈ listed, entry.2.textLength ≤ Stat.textLimit) ∧
      (∀ front entry behind, listed = front ++ entry :: behind →
        (∀ earlier ∈ front, earlier.2.textLength ≤ Stat.textLimit) →
        Stat.textLimit < entry.2.textLength →
          outcome.ending = .error (.encoding (.recordTooLong (47 + entry.2.textLength))) ∧
            outcome.tree = world.tree) ∧
      ∀ limits : TextLimits, limits.AreRecordable → blueprint.IsLimited limits →
        (∀ timed ∈ before, timed.2.IsLimited limits) → ∃ answer, outcome.ending = .ok answer := by
  intro world outcome
  have sound := isSound_run policy blueprint ids start before
  obtain ⟨entries, body⟩ := Node.exists_entries_of_kind isDirectory
  have lists := sound.lists (Tree.directory?_eq_some_iff.mpr ⟨isOpen.there, body⟩)
  have taken : (∃ answer, outcome.ending = .ok answer) ↔
      ∀ entry ∈ world.tree.listed entries, entry.2.textLength ≤ Stat.textLimit := by
    rw [← Tree.exists_listing_iff]
    constructor
    · rintro ⟨answer, done⟩
      cases listing : world.tree.listing entries with
      | ok bytes => exact ⟨bytes, rfl⟩
      | error error =>
          have refused := Tree.perform_of_unlistable isOpen body takes
            ⟨world.policy, world.asked, clock⟩ listing
          cases refused.1.symm.trans done
    · rintro ⟨bytes, success⟩
      exact (Tree.perform_of_listable isOpen body takes _ sound success).1
  refine ⟨world.tree.listed entries, lists, taken, ?_, ?_⟩
  · intro front entry behind split short long
    have failure := Tree.listing_of_long split short long
    exact Tree.perform_of_unlistable isOpen body takes _ failure
  · intro limits recordable root given
    refine taken.mpr fun entry member => ?_
    obtain ⟨child, childNode, -, there, isStat⟩ := (lists.mem_iff entry.1 entry.2).mp member
    have limited := (isLimited_run policy ids start root given).node child childNode there
    rw [isStat]
    exact limited.textLength_le recordable

/-- A file is created in the root and given to this owner, and the root is opened. -/
def givenTo (owner : String) : List (Clock × Operation) :=
  [(1, .create ⟨0⟩ "root" "f" ⟨0o644⟩),
    (2, .writeMetadata ⟨1⟩
      ⟨0, 0, ⟨.file, 0, 0⟩, ⟨0o644⟩, 0, 0, Stat.unchangedLength, "f", owner, "root", ""⟩),
    (3, .openSession ⟨0⟩ "root" ⟨0⟩)]

theorem listed_givenTo (owner : String) :
    let world := (({} : Config).world 0).run (givenTo owner)
    ∃ node entries stat, world.tree.OpenOn ⟨0⟩ ⟨some ⟨0⟩, 0, .directory none⟩ ⟨0⟩ node ∧
      node.body = .directory entries ∧ world.tree.listed entries = [("f", stat)] ∧
      stat.textLength = owner.utf8ByteSize + 9 := by
  refine ⟨_, _, _, ⟨rfl, rfl, rfl⟩, rfl, rfl, ?_⟩
  change 1 + owner.utf8ByteSize + 4 + 4 = owner.utf8ByteSize + 9
  omega

theorem utf8ByteSize_replicate (count : Nat) :
    (String.ofList (List.replicate count 'a')).utf8ByteSize = count := by
  have single : (String.utf8EncodeChar 'a').length = 1 := rfl
  rw [← Utf8.length_encode, Utf8.encode_eq_flatMap, String.toList_ofList, List.length_flatMap,
    List.map_replicate, single, List.sum_replicate_nat, Nat.mul_one]

/-- The owner is longer than a record has room for, and the root cannot be listed any more. -/
theorem unlistable_of_long_owner :
    let world := (({} : Config).world 0).run (givenTo (String.ofList (List.replicate 65536 'a')))
    (∃ node, world.tree.OpenOn ⟨0⟩ ⟨some ⟨0⟩, 0, .directory none⟩ ⟨0⟩ node ∧
        node.kind = .directory) ∧
      (world.outcome 4 (.seek ⟨0⟩ 0 .start)).ending = .error (.encoding (.recordTooLong 65592)) ∧
      (world.outcome 4 (.read ⟨0⟩ 10)).ending = .error (.encoding (.recordTooLong 65592)) := by
  intro world
  obtain ⟨node, entries, stat, isOpen, body, listed, length⟩ :=
    listed_givenTo (String.ofList (List.replicate 65536 'a'))
  rw [utf8ByteSize_replicate] at length
  have long : Stat.textLimit < stat.textLength := by
    rw [length]
    decide
  have first : world.tree.listed entries = [] ++ ("f", stat) :: [] := listed
  have failure := Tree.listing_of_long first (fun _ absent => by cases absent) long
  rw [length] at failure
  have seeks : world.tree.TakesSnapshot ⟨0⟩ (.seek ⟨0⟩ 0 .start) := ⟨rfl, _, isOpen.kept, rfl⟩
  have reads : world.tree.TakesSnapshot ⟨0⟩ (.read ⟨0⟩ 10) := ⟨rfl, _, isOpen.kept, rfl⟩
  refine ⟨⟨node, isOpen, by rw [Node.kind, body]⟩, ?_, ?_⟩
  · exact (Tree.perform_of_unlistable isOpen body seeks _ failure).1
  · exact (Tree.perform_of_unlistable isOpen body reads _ failure).1

/-- The owner has one byte, and the root can be listed. -/
theorem snapshot_taken_of_short_owner :
    let world := (fresh .ownerOther ⟨"", ⟨0o755⟩, "root", "root"⟩ .sequential 0).run (givenTo "u")
    (∃ node, world.tree.OpenOn ⟨0⟩ ⟨some ⟨0⟩, 0, .directory none⟩ ⟨0⟩ node ∧
        node.kind = .directory ∧ world.tree.TakesSnapshot ⟨0⟩ (.seek ⟨0⟩ 0 .start)) ∧
      ∃ answer, (world.outcome 4 (.seek ⟨0⟩ 0 .start)).ending = .ok answer := by
  intro world
  have opened : ∃ node, world.tree.OpenOn ⟨0⟩ ⟨some ⟨0⟩, 0, .directory none⟩ ⟨0⟩ node ∧
      node.kind = .directory := ⟨_, ⟨rfl, rfl, rfl⟩, rfl⟩
  obtain ⟨node, isOpen, isDirectory⟩ := opened
  have seeks : world.tree.TakesSnapshot ⟨0⟩ (.seek ⟨0⟩ 0 .start) := ⟨rfl, _, isOpen.kept, rfl⟩
  obtain ⟨listed, -, -, -, within⟩ := snapshot_taken_iff_short .ownerOther
    ⟨"", ⟨0o755⟩, "root", "root"⟩ .sequential 0 (givenTo "u") isOpen isDirectory 4 seeks
  have given : ∀ timed ∈ givenTo "u", timed.2.IsLimited ⟨1, 4⟩ := by
    intro timed member
    simp only [givenTo, List.mem_cons, List.not_mem_nil, or_false] at member
    rcases member with created | written | opened
    · rw [created]
      exact ⟨by decide, by decide⟩
    · rw [written]
      exact ⟨by decide, by decide, by decide⟩
    · rw [opened]
      exact Nat.le_refl 4
  have recordable : TextLimits.AreRecordable ⟨1, 4⟩ := by
    unfold TextLimits.AreRecordable
    decide
  have root : Blueprint.IsLimited ⟨1, 4⟩ ⟨"", ⟨0o755⟩, "root", "root"⟩ :=
    ⟨by decide, by decide, by decide⟩
  exact ⟨⟨node, isOpen, isDirectory, seeks⟩, within ⟨1, 4⟩ recordable root given⟩

end World

end MemFs
