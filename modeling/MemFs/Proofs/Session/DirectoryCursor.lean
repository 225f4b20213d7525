import MemFs.Proofs.Session.Listable
import MemFs.Proofs.Session.Word

/-!
# The cursor of a directory session

The cursor of a directory session lies in the snapshot that the session holds, whatever happens to
the directory, so no read takes a part that goes beyond it. Seeks lead to where the cursor is and
leave it there, or to the start, where a new snapshot takes the place of the one that is held.
-/

namespace MemFs

namespace Tree

/-- Everything in a directory has a record. -/
def IsListable (tree : Tree) (directory : NodeRef) : Prop :=
  ∀ name child node, tree.Holds directory name child → tree.node? child = some node →
    ∃ bytes, node.stat.encode = .ok bytes

/-- These bytes are the records of what is in a directory, in the order of the names. -/
def ListsAs (tree : Tree) (directory : NodeRef) (bytes : List UInt8) : Prop :=
  ∃ listed pieces, tree.Lists directory listed ∧
    Stat.Encodings (listed.map Prod.snd) pieces ∧ bytes = pieces.flatten

/-- How a seek of a directory session to a place, which need not be a position, comes out. -/
structure SeeksInListing (tree : Tree) (ref : SessionRef) (session : Session) (directory : NodeRef)
    (place : Int) (outcome : Outcome Answer) : Prop where
  stays : place = session.cursor → place ≠ 0 →
    outcome.ending = .ok (.position session.cursor) ∧ outcome.tree.session? ref = some session
  rewinds : place = 0 → tree.IsListable directory →
    outcome.ending = .ok (.position 0) ∧
      ∃ bytes, tree.ListsAs directory bytes ∧
        outcome.tree.session? ref = some ((session.withSnapshot bytes).movedTo 0)
  unlistable : place = 0 → ¬ tree.IsListable directory →
    (∃ error, outcome.ending = .error (.encoding error)) ∧ outcome.tree = tree
  refused : place ≠ 0 → place ≠ session.cursor →
    outcome.ending = .error .invalidSeek ∧ outcome.tree = tree

theorem SeeksInListing.succeeds_iff {tree : Tree} {ref : SessionRef} {session : Session}
    {directory : NodeRef} {place : Int} {outcome : Outcome Answer}
    (seeks : tree.SeeksInListing ref session directory place outcome) :
    (∃ answer, outcome.ending = .ok answer) ↔
      (place = session.cursor ∧ place ≠ 0) ∨ (place = 0 ∧ tree.IsListable directory) := by
  constructor
  · intro success
    obtain ⟨answer, done⟩ := success
    by_cases atStart : place = 0
    · refine Or.inr ⟨atStart, ?_⟩
      by_contra unlistable
      obtain ⟨error, failure⟩ := (seeks.unlistable atStart unlistable).1
      cases failure.symm.trans done
    · refine Or.inl ⟨?_, atStart⟩
      by_contra away
      cases (seeks.refused atStart away).1.symm.trans done
  · intro allowed
    rcases allowed with ⟨atCursor, beyond⟩ | ⟨atStart, listable⟩
    · exact ⟨_, (seeks.stays atCursor beyond).1⟩
    · exact ⟨_, (seeks.rewinds atStart listable).1⟩

section Directory

variable {tree : Tree} (sound : tree.IsSound) {directory : NodeRef} {node : Node}
  {entries : Entries NodeRef} (found : tree.directory? directory = some (node, entries))

include sound found

theorem exists_listing_iff_isListable :
    (∃ bytes, tree.listing entries = .ok bytes) ↔ tree.IsListable directory := by
  have lists := sound.lists found
  rw [exists_listing_iff]
  constructor
  · intro short name child childNode here there
    exact Stat.exists_encode_iff.mpr (short (name, childNode.stat)
      ((lists.mem_iff name childNode.stat).mpr ⟨child, childNode, here, there, rfl⟩))
  · intro listable entry member
    obtain ⟨child, childNode, here, there, same⟩ := (lists.mem_iff entry.1 entry.2).mp member
    rw [same]
    exact Stat.exists_encode_iff.mp (listable entry.1 child childNode here there)

theorem listsAs_of_listing {bytes : List UInt8} (success : tree.listing entries = .ok bytes) :
    tree.ListsAs directory bytes := by
  rw [listing_eq_encodeAll] at success
  obtain ⟨pieces, encodings, same⟩ := Stat.exists_encodings_of_encodeAll_ok success
  exact ⟨tree.listed entries, pieces, sound.lists found, encodings, same⟩

end Directory

section OnDirectory

variable {tree : Tree} {ref : SessionRef} {session : Session} {directory : NodeRef} {node : Node}
  {entries : Entries NodeRef} (isOpen : tree.OpenOn ref session directory node)
  (isDirectory : node.body = .directory entries)

include isOpen isDirectory

theorem seek_to_cursor {offset : Int} {origin : Origin}
    (leads : session.target? session.snapshotBytes.length offset origin = some session.cursor)
    (beyond : session.cursor ≠ 0) (now : UInt32) :
    tree.seek now ref offset origin =
      (tree.modifyNode directory fun node => node.accessed now).accept session.cursor [] := by
  simp only [seek, isOpen.kept, isOpen.openNode?, isDirectory, seekDirectory, leads,
    if_neg beyond, if_pos]

theorem seek_elsewhere {offset : Int} {origin : Origin}
    (elsewhere : ∀ position,
      session.target? session.snapshotBytes.length offset origin = some position →
        position ≠ 0 ∧ position ≠ session.cursor) (now : UInt32) :
    ∃ events, tree.seek now ref offset origin = tree.refuse .invalidSeek events := by
  simp only [seek, isOpen.kept, isOpen.openNode?, isDirectory, seekDirectory]
  cases leads : session.target? session.snapshotBytes.length offset origin with
  | none => exact ⟨_, rfl⟩
  | some position =>
      obtain ⟨beyond, away⟩ := elsewhere position leads
      refine ⟨[.seekRejected node.id position session.cursor], ?_⟩
      simp only [if_neg beyond, if_neg away]

/-- A session with its cursor in what it holds of the listing of its directory moves by the rule
for directories. -/
theorem seeksInListing (sound : tree.IsSound)
    (within : session.cursor ≤ session.snapshotBytes.length)
    (fits : session.snapshotBytes.length < Word.memoryLimit) (setting : Setting) (offset : Int)
    (origin : Origin) :
    tree.SeeksInListing ref session directory
      (session.base session.snapshotBytes.length origin + offset)
      (tree.perform setting (.seek ref offset origin)) := by
  have found := directory?_eq_some_iff.mpr ⟨isOpen.there, isDirectory⟩
  have listable := exists_listing_iff_isListable sound found
  have performed : tree.perform setting (.seek ref offset origin) =
    (tree.seek setting.clock.now ref offset origin).map .position := rfl
  rw [performed]
  refine ⟨?_, ?_, ?_, ?_⟩
  · intro atCursor beyond
    have leads := Session.target?_eq_some_iff.mpr ⟨atCursor, Nat.lt_of_le_of_lt within fits⟩
    rw [seek_to_cursor isOpen isDirectory leads (by omega)]
    exact ⟨rfl, (session?_modifyNode tree _ _ _).trans isOpen.kept⟩
  · intro atStart isListable
    have leads := Session.target?_eq_some_iff.mpr ⟨atStart, Nat.two_pow_pos 63⟩
    obtain ⟨bytes, success⟩ := listable.mpr isListable
    rw [seek_of_listable isOpen isDirectory leads success]
    refine ⟨rfl, bytes, listsAs_of_listing sound found success, ?_⟩
    exact (session?_moved tree isOpen.kept directory _ _ ref).trans (if_pos rfl)
  · intro atStart unlistable
    have leads := Session.target?_eq_some_iff.mpr ⟨atStart, Nat.two_pow_pos 63⟩
    cases listing : tree.listing entries with
    | ok bytes => exact absurd (listable.mp ⟨bytes, listing⟩) unlistable
    | error error =>
        rw [seek_of_unlistable isOpen isDirectory leads listing]
        exact ⟨⟨error, rfl⟩, rfl⟩
  · intro beyond away
    have elsewhere : ∀ position,
        session.target? session.snapshotBytes.length offset origin = some position →
          position ≠ 0 ∧ position ≠ session.cursor := by
      intro position leads
      obtain ⟨same, -⟩ := Session.target?_eq_some_iff.mp leads
      omega
    obtain ⟨events, refused⟩ := seek_elsewhere isOpen isDirectory elsewhere setting.clock.now
    rw [refused]
    exact ⟨rfl, rfl⟩

end OnDirectory

end Tree

theorem Session.withSnapshot_of_taken {session : Session} {bytes : List UInt8}
    (taken : session.stream = .directory (some bytes)) : session.withSnapshot bytes = session := by
  rw [withSnapshot, ← taken]

theorem Session.IsPlaced.cursor_le {session : Session} (placed : session.IsPlaced)
    {snapshot : Option (List UInt8)} (ofDirectory : session.stream = .directory snapshot) :
    session.cursor ≤ session.snapshotBytes.length := by
  rw [IsPlaced, ofDirectory] at placed
  rw [snapshotBytes, ofDirectory]
  cases snapshot with
  | none => exact Nat.le_of_eq placed
  | some bytes => exact placed

namespace World

/-- Each read on a directory session with its cursor in these bytes, which it holds from then on, is
done in words without a step that fails, and gives the part of the bytes that comes next. -/
def ReadsInWords (world : World) (ref : SessionRef) (session : Session) (cursor : Int64)
    (bytes : List UInt8) : Prop :=
  ∀ clock (buffer : List UInt8), buffer.length < Word.memoryLimit →
    let outcome := world.outcome clock (.read ref buffer.length)
    ∃ reading portion, Word.readSnapshot? cursor bytes buffer = some reading ∧
      reading.Gives session.cursor portion buffer ∧
      session.cursor + portion.length ≤ bytes.length ∧
      outcome.ending = .ok (.bytes portion) ∧
      outcome.tree.session? ref =
        some ((session.withSnapshot bytes).movedTo (session.cursor + portion.length))

section Reading

variable {world : World} {ref : SessionRef} {session : Session} {directory : NodeRef} {node : Node}
  {entries : Entries NodeRef} {cursor : Int64} {bytes : List UInt8}
  (isOpen : world.tree.OpenOn ref session directory node)
  (isDirectory : node.body = .directory entries) (isCursor : cursor.toInt = session.cursor)
  (within : session.cursor ≤ bytes.length) (fits : bytes.length < Word.memoryLimit)

include isOpen isDirectory isCursor within fits

theorem readsInWords_of_snapshot (taken : session.stream = .directory (some bytes)) :
    world.ReadsInWords ref session cursor bytes := by
  intro clock buffer bufferFits outcome
  obtain ⟨reading, done, gives⟩ := Word.yields_readSnapshot? isCursor fits bufferFits within
  have performed : outcome = (world.tree.read clock.now ref buffer.length).map .bytes := rfl
  rw [performed, Tree.read_of_snapshot isOpen isDirectory taken,
    Session.withSnapshot_of_taken taken]
  refine ⟨reading, _, done, gives, Tree.cursor_add_portion_le within, rfl, ?_⟩
  exact (Tree.session?_readFrom world.tree isOpen.kept session clock.now directory bytes _
    ref).trans (if_pos rfl)

theorem readsInWords_of_listing (untaken : session.stream = .directory none)
    (success : world.tree.listing entries = .ok bytes) :
    world.ReadsInWords ref session cursor bytes := by
  intro clock buffer bufferFits outcome
  obtain ⟨reading, done, gives⟩ := Word.yields_readSnapshot? isCursor fits bufferFits within
  have performed : outcome = (world.tree.read clock.now ref buffer.length).map .bytes := rfl
  have held := Tree.session?_modifySession world.tree ref ref fun session =>
    session.withSnapshot bytes
  rw [if_pos rfl, isOpen.kept, Option.map_some] at held
  rw [performed, Tree.read_of_listable isOpen isDirectory untaken success]
  refine ⟨reading, _, done, gives, Tree.cursor_add_portion_le within, rfl, ?_⟩
  exact (Tree.session?_readFrom _ held session clock.now directory bytes _ ref).trans (if_pos rfl)

end Reading

/-- After any run, the cursor of a directory session is at the start if nothing was read yet, and
otherwise in the snapshot that the session holds. While the session is open, a read of the snapshot,
or of the new listing if there is none, never fails in words. A seek leads to where the cursor is,
or to the start if everything in the directory has a record; all others change nothing. -/
theorem directoryCursor_run (policy : Policy) (blueprint : Blueprint) (ids : IdSource)
    (start : UInt32) (operations : List (Clock × Operation)) {ref : SessionRef}
    {session : Session} {snapshot : Option (List UInt8)}
    (kept : ((fresh policy blueprint ids start).run operations).tree.session? ref = some session)
    (ofDirectory : session.stream = .directory snapshot) :
    let world := (fresh policy blueprint ids start).run operations
    (snapshot = none → session.cursor = 0) ∧
    (∀ bytes, snapshot = some bytes → session.cursor ≤ bytes.length) ∧
    ∀ directory, session.node = some directory →
      session.snapshotBytes.length < Word.memoryLimit →
      ∃ cursor : Int64, cursor.toInt = session.cursor ∧
        (∀ bytes, snapshot = some bytes → world.ReadsInWords ref session cursor bytes) ∧
        (snapshot = none → world.tree.IsListable directory →
          ∃ bytes, world.tree.ListsAs directory bytes ∧
            (bytes.length < Word.memoryLimit → world.ReadsInWords ref session cursor bytes)) ∧
        ∀ clock (offset : Int64) origin,
          let place := session.base session.snapshotBytes.length origin + offset.toInt
          let outcome := world.outcome clock (.seek ref offset.toInt origin)
          Word.Yields (Word.seekSnapshot? cursor session.snapshotBytes offset origin)
            (fun sought => sought.map (fun position => position.toInt) =
              Word.directoryTarget session.cursor place) ∧
          ((∃ answer, outcome.ending = .ok answer) ↔
            (place = session.cursor ∧ place ≠ 0) ∨
              (place = 0 ∧ world.tree.IsListable directory)) ∧
          world.tree.SeeksInListing ref session directory place outcome := by
  intro world
  have sound := isSound_run policy blueprint ids start operations
  have placed := sound.placed ref session kept
  have atStart : snapshot = none → session.cursor = 0 := by
    intro untaken
    rwa [Session.IsPlaced, ofDirectory, untaken] at placed
  have inSnapshot : ∀ bytes, snapshot = some bytes → session.cursor ≤ bytes.length := by
    intro bytes taken
    rwa [Session.IsPlaced, ofDirectory, taken] at placed
  refine ⟨atStart, inSnapshot, ?_⟩
  intro directory onNode fits
  have within := placed.cursor_le ofDirectory
  obtain ⟨node, isOpen, kind⟩ := sound.openOn kept onNode
  rw [ofDirectory, Stream.kind] at kind
  obtain ⟨entries, body⟩ := Node.exists_entries_of_kind kind.symm
  have found := Tree.directory?_eq_some_iff.mpr ⟨isOpen.there, body⟩
  obtain ⟨cursor, isCursor⟩ := Word.exists_position (Nat.lt_of_le_of_lt within fits)
  refine ⟨cursor, isCursor, ?_, ?_, ?_⟩
  · intro bytes taken
    have held : session.stream = .directory (some bytes) := by rw [ofDirectory, taken]
    rw [Session.snapshotBytes, held] at fits
    exact readsInWords_of_snapshot isOpen body isCursor (inSnapshot bytes taken) fits held
  · intro untaken listable
    obtain ⟨bytes, success⟩ := (Tree.exists_listing_iff_isListable sound found).mpr listable
    refine ⟨bytes, Tree.listsAs_of_listing sound found success, ?_⟩
    intro bytesFit
    refine readsInWords_of_listing isOpen body isCursor ?_ bytesFit ?_ success
    · rw [atStart untaken]
      exact Nat.zero_le _
    · rw [ofDirectory, untaken]
  · intro clock offset origin place outcome
    have seeks := Tree.seeksInListing isOpen body sound within fits
      ⟨world.policy, world.asked, clock⟩ offset.toInt origin
    exact ⟨Word.yields_seekSnapshot? isCursor fits offset origin, seeks.succeeds_iff, seeks⟩

/-- The only file in a directory is removed while the listing is read. -/
def emptiedWhileRead : List (Clock × Operation) :=
  [(1, .create ⟨0⟩ "u" "a" ⟨0o644⟩), (2, .openSession ⟨0⟩ "u" ⟨0⟩), (3, .read ⟨0⟩ 4),
    (4, .remove ⟨0⟩ "u" "a")]

/-- The session goes on with what it holds, and what it would hold after a seek to the start is
shorter than where its cursor is. -/
theorem directoryCursor_emptiedWhileRead :
    let world := (fresh .allowAll ⟨"", ⟨0o755⟩, "o", "g"⟩ .sequential 0).run emptiedWhileRead
    ∃ session bytes, (world.tree.session? ⟨0⟩ = some session ∧
        session.stream = .directory (some bytes) ∧ session.node = some ⟨0⟩ ∧
        bytes.length < Word.memoryLimit) ∧
      session.cursor = 4 ∧ 4 ≤ bytes.length ∧
      (world.outcome 5 (.seek ⟨0⟩ 0 .current)).ending = .ok (.position 4) ∧
      (world.outcome 5 (.seek ⟨0⟩ (-2) .current)).ending = .error .invalidSeek ∧
      ∃ reading portion, Word.readSnapshot? 4 bytes [0, 0, 0] = some reading ∧
        (world.outcome 5 (.read ⟨0⟩ 3)).ending = .ok (.bytes portion) ∧
        reading.buffer = portion ++ [0, 0, 0].drop portion.length := by
  intro world
  have opened : ∃ session bytes, world.tree.session? ⟨0⟩ = some session ∧
      session.stream = .directory (some bytes) ∧ session.node = some ⟨0⟩ ∧ session.cursor = 4 ∧
        bytes.length = 53 := ⟨_, _, rfl, rfl, rfl, rfl, rfl⟩
  obtain ⟨session, bytes, kept, ofDirectory, onNode, atFour, length⟩ := opened
  obtain ⟨-, within, seeks⟩ := directoryCursor_run .allowAll ⟨"", ⟨0o755⟩, "o", "g"⟩ .sequential 0
    emptiedWhileRead kept ofDirectory
  have fits : bytes.length < Word.memoryLimit := by
    rw [length]
    decide
  have held : session.snapshotBytes = bytes := by rw [Session.snapshotBytes, ofDirectory]
  obtain ⟨cursor, isCursor, reads, -, moves⟩ := seeks ⟨0⟩ onNode (held ▸ fits)
  obtain rfl : cursor = 4 := by
    rw [atFour] at isCursor
    exact Int64.toInt_inj.mp isCursor
  have here : session.base session.snapshotBytes.length .current = 4 := congrArg Nat.cast atFour
  have stays := (moves 5 0 .current).2.2.stays
  have refused := (moves 5 (-2) .current).2.2.refused
  rw [here, atFour] at stays refused
  obtain ⟨reading, portion, done, gives, -, answer, -⟩ := reads bytes rfl 5 [0, 0, 0] (by decide)
  refine ⟨session, bytes, ⟨kept, ofDirectory, onNode, fits⟩, atFour, ?_,
    (stays (by decide) (by decide)).1, (refused (by decide) (by decide)).1, reading, portion, done,
    answer, gives.buffer⟩
  rw [← atFour]
  exact within bytes rfl

end World

end MemFs
