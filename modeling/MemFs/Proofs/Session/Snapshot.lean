import MemFs.Proofs.Session.Listing

/-!
# Snapshots

From a snapshot to the next, a session gives the bytes of the listing as it was when the snapshot
was taken: none twice, none left out, whatever else happens to the tree and in whatever portions
the bytes are read.
-/

namespace MemFs

namespace World

/-- The bytes that the operations of a run read from a session, one after the other. -/
def delivered (ref : SessionRef) : World → List (Clock × Operation) → List UInt8
  | _, [] => []
  | world, (clock, operation) :: rest =>
      (operation.bytesFrom? ref (world.outcome clock operation).ending).getD []
        ++ delivered ref (world.step clock operation) rest

/-- No operation of a run moves a session to the start. -/
def KeepsSnapshot (ref : SessionRef) : World → List (Clock × Operation) → Prop
  | _, [] => True
  | world, (clock, operation) :: rest =>
      operation.rewinds ref (world.outcome clock operation).ending = false ∧
        KeepsSnapshot ref (world.step clock operation) rest

/-- The operations of a run read a session as if it held nothing but these bytes. -/
structure ReadsSnapshot (world : World) (ref : SessionRef) (snapshot : List UInt8)
    (operations : List (Clock × Operation)) : Prop where
  isPrefix : world.delivered ref operations <+: snapshot
  /-- A read of the session answers while the session is open. -/
  answers : ∀ first clock reading rest size, operations = first ++ (clock, reading) :: rest →
    reading.reads? = some (ref, size) → size ≠ 0 →
      (∃ session nodeRef, (world.run first).tree.session? ref = some session ∧
        session.node = some nodeRef) →
          ∃ bytes, ((world.run first).outcome clock reading).ending = .ok (.bytes bytes)
  /-- A read with some room gives nothing exactly if everything was given before. -/
  ending : ∀ first clock reading rest size, operations = first ++ (clock, reading) :: rest →
    reading.reads? = some (ref, size) → size ≠ 0 →
      ∀ bytes, ((world.run first).outcome clock reading).ending = .ok (.bytes bytes) →
        (bytes = [] ↔ world.delivered ref first = snapshot)

variable {ref : SessionRef}

theorem keepsSnapshot_of_append {world : World} {first second : List (Clock × Operation)}
    (keeps : world.KeepsSnapshot ref (first ++ second)) : world.KeepsSnapshot ref first := by
  induction first generalizing world with
  | nil => exact trivial
  | cons timed rest inductionHypothesis =>
      exact ⟨keeps.1, inductionHypothesis keeps.2⟩

end World

namespace Tree

/-- A session has given these bytes of its snapshot, and its cursor is behind them. -/
structure Delivers (tree : Tree) (ref : SessionRef) (snapshot given : List UInt8) : Prop where
  used : ref.place < tree.sessions.size
  isPrefix : given <+: snapshot
  position : ∀ session, tree.session? ref = some session →
    session.stream = .directory (some snapshot) ∧ session.cursor = given.length

variable {tree : Tree} {ref : SessionRef} {snapshot given : List UInt8}

theorem drop_of_isPrefix (isPrefix : given <+: snapshot) :
    given ++ snapshot.drop given.length = snapshot := by
  obtain ⟨rest, same⟩ := isPrefix
  rw [← same, List.drop_left]

theorem isPrefix_append_portion (isPrefix : given <+: snapshot) (count : Nat) :
    given ++ (snapshot.drop given.length).take count <+: snapshot := by
  have whole := drop_of_isPrefix isPrefix
  refine ⟨(snapshot.drop given.length).drop count, ?_⟩
  rw [List.append_assoc, List.take_append_drop, whole]

/-- A portion with room for something is empty only at the end. -/
theorem portion_eq_nil_iff (isPrefix : given <+: snapshot) {count : Nat}
    (room : count ≠ 0 ∨ snapshot.length = 0) :
    (snapshot.drop given.length).take count = [] ↔ given = snapshot := by
  have whole := drop_of_isPrefix isPrefix
  have atEnd : snapshot.drop given.length = [] ↔ given = snapshot := by
    constructor
    · intro nothing
      rw [nothing, List.append_nil] at whole
      exact whole
    · intro same
      rw [same, List.drop_length]
  rw [← atEnd, List.take_eq_nil_iff]
  rcases room with asked | empty
  · exact or_iff_right asked
  · have nothing : snapshot = [] := List.eq_nil_of_length_eq_zero empty
    rw [nothing]
    simp

/-- What an operation preserves that does not move the session to the start. -/
theorem Delivers.served {operation : Operation} {outcome : Outcome Answer}
    (delivers : tree.Delivers ref snapshot given) (sound : tree.IsSound)
    (grows : tree.sessions.size ≤ outcome.tree.sessions.size)
    (served : Served tree ref operation outcome)
    (keeps : operation.rewinds ref outcome.ending = false) :
    outcome.tree.Delivers ref snapshot
      (given ++ (operation.bytesFrom? ref outcome.ending).getD []) := by
  have used := Nat.lt_of_lt_of_le delivers.used grows
  cases served with
  | apart same silent =>
      rw [silent, Option.getD_none, List.append_nil]
      exact ⟨used, delivers.isPrefix, fun session kept => delivers.position session (same ▸ kept)⟩
  | opened new =>
      have taken := delivers.used
      rw [new] at taken
      exact absurd taken (Nat.lt_irrefl _)
  | onFile isOpen isFile now =>
      have kind := sound.kind isOpen
      rw [(delivers.position _ isOpen.kept).1, Node.kind, isFile] at kind
      cases kind
  | rewound isOpen isDirectory rewinds now =>
      rw [keeps] at rewinds
      cases rewinds
  | readOn isOpen isDirectory taken portion now =>
      obtain ⟨stream, cursor⟩ := delivers.position _ isOpen.kept
      cases taken.symm.trans stream
      rw [portion, Option.getD_some, cursor]
      refine ⟨used, isPrefix_append_portion delivers.isPrefix _, ?_⟩
      intro session kept
      cases now.symm.trans kept
      refine ⟨stream, ?_⟩
      rw [List.length_append, cursor]
      rfl
  | readFirst isOpen isDirectory untaken now =>
      exact absurd (delivers.position _ isOpen.kept).1 (untaken snapshot)
  | @closed earlier _ _ isOpen now silent =>
      rw [silent, Option.getD_none, List.append_nil]
      refine ⟨used, delivers.isPrefix, ?_⟩
      intro session kept
      cases now.symm.trans kept
      exact delivers.position earlier isOpen.kept
  | dropped gone silent =>
      rw [silent, Option.getD_none, List.append_nil]
      refine ⟨used, delivers.isPrefix, ?_⟩
      intro session kept
      rw [gone] at kept
      cases kept

/-- A read with some room gives nothing exactly if everything was given before, and it does give
something or nothing as long as the session is open. -/
theorem Delivers.read {setting : Setting} {operation : Operation} {size : Nat}
    (delivers : tree.Delivers ref snapshot given) (sound : tree.IsSound)
    (reads : operation.reads? = some (ref, size)) (asked : size ≠ 0) :
    ((∃ session nodeRef, tree.session? ref = some session ∧ session.node = some nodeRef) →
      ∃ bytes, (tree.perform setting operation).ending = .ok (.bytes bytes)) ∧
    ∀ bytes, (tree.perform setting operation).ending = .ok (.bytes bytes) →
      (bytes = [] ↔ given = snapshot) := by
  obtain ⟨now, count, performed, room⟩ := perform_of_reads tree setting reads
  rw [performed]
  by_cases opened : ∃ session nodeRef, tree.session? ref = some session ∧
      session.node = some nodeRef
  · obtain ⟨session, nodeRef, kept, onNode⟩ := opened
    obtain ⟨outline, there, kind⟩ := sound.onNode ref session nodeRef kept onNode
    obtain ⟨stream, cursor⟩ := delivers.position session kept
    obtain ⟨node, nodeThere, same⟩ := Option.map_eq_some_iff.mp there
    have isOpen : tree.OpenOn ref session nodeRef node := ⟨kept, onNode, nodeThere⟩
    obtain ⟨entries, isDirectory⟩ : ∃ entries, node.body = .directory entries := by
      rw [← same, stream] at kind
      cases body : node.body with
      | file content =>
          rw [Node.outline, Node.kind, body] at kind
          cases kind
      | directory entries => exact ⟨entries, rfl⟩
    rw [streamLength_of_snapshot isOpen isDirectory stream] at room
    rw [read_of_snapshot isOpen isDirectory stream]
    refine ⟨fun _ => ⟨_, rfl⟩, ?_⟩
    intro bytes same
    cases same
    rw [cursor]
    exact portion_eq_nil_iff delivers.isPrefix (room asked)
  · refine ⟨fun isOpen => absurd isOpen opened, ?_⟩
    intro bytes same
    have refused : (tree.read now ref count).ending = .error .notOpen := by
      unfold Tree.read
      cases kept : tree.session? ref with
      | none => rfl
      | some session =>
          cases onNode : session.node with
          | none => simp [openNode?, onNode, refuse]
          | some nodeRef => exact absurd ⟨session, nodeRef, kept, onNode⟩ opened
    rw [Outcome.map, refused] at same
    cases same

/-- What a run preserves that does not move the session to the start. -/
theorem Delivers.run {world : World} {operations : List (Clock × Operation)}
    (delivers : world.tree.Delivers ref snapshot given) (sound : world.tree.IsSound)
    (keeps : world.KeepsSnapshot ref operations) :
    (world.run operations).tree.Delivers ref snapshot
      (given ++ world.delivered ref operations) := by
  induction operations generalizing world given with
  | nil => simpa [World.run, World.delivered] using delivers
  | cons timed rest inductionHypothesis =>
      obtain ⟨clock, operation⟩ := timed
      obtain ⟨kept, further⟩ := keeps
      have effect := effect_perform world.tree ⟨world.policy, world.asked, clock⟩ operation
      have next := delivers.served sound effect.size_sessions_le (effect.served ref) kept
      rw [World.run_cons, World.delivered, ← List.append_assoc]
      exact inductionHypothesis next (sound.perform _ operation) further

/-! ## Taking a snapshot -/

section Taking

variable {session : Session} {nodeRef : NodeRef} {node : Node} {entries : Entries NodeRef}
  {operation : Operation} (isOpen : tree.OpenOn ref session nodeRef node)

include isOpen

theorem TakesSnapshot.reads_or_seeks (takes : tree.TakesSnapshot ref operation) :
    (∃ size, operation.reads? = some (ref, size) ∧ session.stream = .directory none) ∨
      ∃ offset origin, operation = .seek ref offset origin ∧
        session.target? session.snapshotBytes.length offset origin = some 0 := by
  cases operation with
  | read other count =>
      obtain ⟨rfl, _, kept, untaken⟩ := takes
      cases isOpen.kept.symm.trans kept
      exact Or.inl ⟨count, rfl, untaken⟩
  | readAll other portion =>
      obtain ⟨rfl, _, kept, untaken⟩ := takes
      cases isOpen.kept.symm.trans kept
      exact Or.inl ⟨portion, rfl, untaken⟩
  | seek other offset origin =>
      obtain ⟨rfl, _, kept, leads⟩ := takes
      cases isOpen.kept.symm.trans kept
      exact Or.inr ⟨offset, origin, rfl, leads⟩
  | _ => exact absurd takes id

variable (isDirectory : node.body = .directory entries) (takes : tree.TakesSnapshot ref operation)
  (setting : Setting)

include isDirectory takes

/-- A snapshot that cannot be taken leaves everything as it was. -/
theorem perform_of_unlistable {error : RecordError} (failure : tree.listing entries = .error error) :
    (tree.perform setting operation).ending = .error (.encoding error) ∧
      (tree.perform setting operation).tree = tree := by
  rcases takes.reads_or_seeks isOpen with
    ⟨size, reads, untaken⟩ | ⟨offset, origin, isSeek, leads⟩
  · obtain ⟨now, count, performed, -⟩ := perform_of_reads tree setting reads
    rw [performed, read_of_unlistable isOpen isDirectory untaken failure]
    exact ⟨rfl, rfl⟩
  · rw [isSeek, perform, seek_of_unlistable isOpen isDirectory leads failure]
    exact ⟨rfl, rfl⟩

/-- After a snapshot was taken, what the operation gave is a part of it from the start. -/
theorem perform_of_listable (sound : tree.IsSound) (success : tree.listing entries = .ok snapshot) :
    (∃ answer, (tree.perform setting operation).ending = .ok answer) ∧
    (tree.perform setting operation).tree.Delivers ref snapshot
      ((operation.bytesFrom? ref (tree.perform setting operation).ending).getD []) ∧
    ∀ size, operation.reads? = some (ref, size) → size ≠ 0 →
      ∃ bytes, (tree.perform setting operation).ending = .ok (.bytes bytes) ∧
        (bytes = [] ↔ [] = snapshot) := by
  have used := Nat.lt_of_lt_of_le (sessionPlace_lt_size isOpen.kept)
    (effect_perform tree setting operation).size_sessions_le
  rcases takes.reads_or_seeks isOpen with
    ⟨size, reads, untaken⟩ | ⟨offset, origin, isSeek, leads⟩
  · obtain ⟨now, count, performed, room⟩ := perform_of_reads tree setting reads
    rw [streamLength_of_listable isOpen isDirectory untaken success] at room
    have atStart : session.cursor = 0 := by
      have placed := sound.placed ref session isOpen.kept
      rwa [Session.IsPlaced, untaken] at placed
    have snapshotKept := session?_modifySession tree ref ref fun session =>
      session.withSnapshot snapshot
    rw [if_pos rfl, isOpen.kept, Option.map_some] at snapshotKept
    have after := session?_readFrom _ snapshotKept session now nodeRef snapshot count ref
    have given := Operation.bytesFrom?_eq_some reads ((snapshot.drop session.cursor).take count)
    rw [if_pos rfl, atStart] at after
    rw [atStart, List.drop_zero] at given
    have done : (tree.perform setting operation).ending = .ok (.bytes (snapshot.take count)) := by
      rw [performed, read_of_listable isOpen isDirectory untaken success, readFrom, atStart]
      rfl
    rw [done, given, Option.getD_some]
    refine ⟨⟨_, rfl⟩, ⟨used, List.take_prefix count snapshot, ?_⟩, ?_⟩
    · intro later kept
      rw [performed, read_of_listable isOpen isDirectory untaken success] at kept
      cases after.symm.trans kept
      refine ⟨rfl, ?_⟩
      change session.cursor + ((snapshot.drop 0).take count).length = _
      rw [atStart, Nat.zero_add, List.drop_zero]
    · intro otherSize otherReads asked
      cases reads.symm.trans otherReads
      exact ⟨_, rfl, portion_eq_nil_iff List.nil_prefix (room asked)⟩
  · have after := session?_moved tree isOpen.kept nodeRef
      (fun node => node.accessed setting.clock.now)
      (fun session => (session.withSnapshot snapshot).movedTo 0) ref
    rw [if_pos rfl] at after
    subst isSeek
    have performed := seek_of_listable isOpen isDirectory leads success setting.clock.now
    refine ⟨⟨.position 0, by rw [perform, performed]; rfl⟩, ⟨used, List.nil_prefix, ?_⟩, ?_⟩
    · intro later kept
      rw [perform, performed] at kept
      cases after.symm.trans kept
      exact ⟨rfl, rfl⟩
    · intro size reads
      cases reads

end Taking

end Tree

namespace World

/-- A run that begins with taking a snapshot reads the snapshot. -/
theorem readsSnapshot_of_takesSnapshot {world : World} {ref : SessionRef} {session : Session}
    {directory : NodeRef} {node : Node} {entries : Entries NodeRef} {operation : Operation}
    {snapshot : List UInt8} (sound : world.tree.IsSound)
    (isOpen : world.tree.OpenOn ref session directory node)
    (isDirectory : node.body = .directory entries)
    (takes : world.tree.TakesSnapshot ref operation)
    (success : world.tree.listing entries = .ok snapshot) (clock : Clock)
    {segment : List (Clock × Operation)}
    (keeps : (world.step clock operation).KeepsSnapshot ref segment) :
    world.ReadsSnapshot ref snapshot ((clock, operation) :: segment) := by
  obtain ⟨-, delivers, initially⟩ := Tree.perform_of_listable isOpen isDirectory takes
    ⟨world.policy, world.asked, clock⟩ sound success
  have soundAfter : (world.step clock operation).tree.IsSound := sound.perform _ operation
  have readings : ∀ first later reading rest size,
      (clock, operation) :: segment = first ++ (later, reading) :: rest →
      reading.reads? = some (ref, size) → size ≠ 0 →
        ((∃ session nodeRef, (world.run first).tree.session? ref = some session ∧
          session.node = some nodeRef) →
            ∃ bytes, ((world.run first).outcome later reading).ending = .ok (.bytes bytes)) ∧
        ∀ bytes, ((world.run first).outcome later reading).ending = .ok (.bytes bytes) →
          (bytes = [] ↔ world.delivered ref first = snapshot) := by
    intro first later reading rest size split reads asked
    cases first with
    | nil =>
        cases split
        obtain ⟨bytes, answer, ending⟩ := initially size reads asked
        refine ⟨fun _ => ⟨bytes, answer⟩, ?_⟩
        intro others same
        cases answer.symm.trans same
        exact ending
    | cons timed first =>
        cases split
        have reached := delivers.run soundAfter (keepsSnapshot_of_append keeps)
        exact reached.read (soundAfter.run first) reads asked
  constructor
  · exact (delivers.run soundAfter keeps).isPrefix
  · intro first later reading rest size split reads asked
    exact (readings first later reading rest size split reads asked).1
  · intro first later reading rest size split reads asked
    exact (readings first later reading rest size split reads asked).2

/-- From one snapshot to the next, a session gives the listing of its directory as it was when the
snapshot was taken, whatever is done to the tree and to other sessions in the meantime. -/
theorem readsSnapshot_of_run (policy : Policy) (blueprint : Blueprint) (ids : IdSource)
    (start : UInt32) (before : List (Clock × Operation)) {ref : SessionRef} {session : Session}
    {directory : NodeRef} {node : Node}
    (isOpen : ((fresh policy blueprint ids start).run before).tree.OpenOn ref session directory node)
    (isDirectory : node.kind = .directory) (clock : Clock) {operation : Operation}
    (takes : ((fresh policy blueprint ids start).run before).tree.TakesSnapshot ref operation) :
    let world := (fresh policy blueprint ids start).run before
    let outcome := world.outcome clock operation
    ∃ listed, world.tree.Lists directory listed ∧
      ((∃ entry ∈ listed, ∀ bytes, entry.2.encode ≠ .ok bytes) →
        ∃ error, (∃ entry ∈ listed, entry.2.encode = .error error) ∧
          outcome.ending = .error (.encoding error) ∧ outcome.tree = world.tree) ∧
      ∀ pieces, Stat.Encodings (listed.map Prod.snd) pieces →
        (∃ answer, outcome.ending = .ok answer) ∧
        Stat.decodeAll pieces.flatten = .ok (listed.map Prod.snd) ∧
        ∀ segment, (world.step clock operation).KeepsSnapshot ref segment →
          world.ReadsSnapshot ref pieces.flatten ((clock, operation) :: segment) := by
  intro world outcome
  have sound := isSound_run policy blueprint ids start before
  obtain ⟨entries, body⟩ := Node.exists_entries_of_kind isDirectory
  have lists := sound.lists (Tree.directory?_eq_some_iff.mpr ⟨isOpen.there, body⟩)
  refine ⟨world.tree.listed entries, lists, ?_, ?_⟩
  · intro unencodable
    obtain ⟨entry, member, refused⟩ := unencodable
    cases listing : world.tree.listing entries with
    | ok bytes =>
        rw [Tree.listing_eq_encodeAll] at listing
        obtain ⟨pieces, encodings, -⟩ := Stat.exists_encodings_of_encodeAll_ok listing
        obtain ⟨bytes, encoded⟩ := Stat.exists_encode_of_encodings encodings
          (List.mem_map_of_mem member)
        exact absurd encoded (refused bytes)
    | error error =>
        refine ⟨error, ?_, Tree.perform_of_unlistable isOpen body takes _ listing⟩
        rw [Tree.listing_eq_encodeAll] at listing
        obtain ⟨stat, listed, fault⟩ := Stat.exists_encode_of_encodeAll_error listing
        obtain ⟨culprit, inside, same⟩ := List.mem_map.mp listed
        exact ⟨culprit, inside, same ▸ fault⟩
  · intro pieces encodings
    have success : world.tree.listing entries = .ok pieces.flatten := by
      rw [Tree.listing_eq_encodeAll]
      exact Stat.encodeAll_of_encodings encodings
    refine ⟨?_, Stat.decodeAll_of_encodings encodings, ?_⟩
    · exact (Tree.perform_of_listable isOpen body takes _ sound success).1
    · intro segment keeps
      exact readsSnapshot_of_takesSnapshot sound isOpen body takes success clock keeps

/-- A session is opened on a directory with one file. -/
def openedListing : List (Clock × Operation) :=
  [(1, .create ⟨0⟩ "u" "a" ⟨0o644⟩), (2, .openSession ⟨0⟩ "u" ⟨0⟩)]

theorem readsSnapshot_of_openedListing :
    let world := (fresh .allowAll ⟨"", ⟨0o755⟩, "o", "g"⟩ .sequential 0).run openedListing
    world.tree.TakesSnapshot ⟨0⟩ (.read ⟨0⟩ 10) ∧
      ∃ listed, world.tree.Lists ⟨0⟩ listed ∧
        ∀ pieces, Stat.Encodings (listed.map Prod.snd) pieces →
          ∀ segment, (world.step 3 (.read ⟨0⟩ 10)).KeepsSnapshot ⟨0⟩ segment →
            world.ReadsSnapshot ⟨0⟩ pieces.flatten ((3, .read ⟨0⟩ 10) :: segment) := by
  intro world
  have takes : world.tree.TakesSnapshot ⟨0⟩ (.read ⟨0⟩ 10) := ⟨rfl, _, rfl, rfl⟩
  obtain ⟨listed, lists, -, encodable⟩ := readsSnapshot_of_run .allowAll ⟨"", ⟨0o755⟩, "o", "g"⟩
    .sequential 0 openedListing ⟨rfl, rfl, rfl⟩ rfl 3 takes
  refine ⟨takes, listed, lists, ?_⟩
  intro pieces encodings
  exact (encodable pieces encodings).2.2

end World

end MemFs
