import MemFs.Proofs.Session.Grant
import MemFs.Proofs.Session.Word
import MemFs.Proofs.Tree.Footprint
import MemFs.Proofs.Tree.Value

/-!
# The cursor of a file session

The cursor of a file session can be past the end of the content, when others cut the file. It is
never past the greatest length that the content had since the session was opened. So in words of
64 bits no step of a seek, a read or a write fails while contents are shorter than 2 ^ 63 bytes.
-/

namespace MemFs

namespace Tree

/-- The number of bytes in the file in a place. -/
def contentLength (tree : Tree) (ref : NodeRef) : Nat :=
  valueAt (fun node => node.content.length) 0 tree ref

/-- How a seek of a file session to a place, which need not be a position, comes out. -/
structure SeeksInContent (tree : Tree) (ref : SessionRef) (session : Session) (length : Nat)
    (place : Int) (outcome : Outcome Answer) : Prop where
  succeeds_iff : (∃ answer, outcome.ending = .ok answer) ↔ 0 ≤ place ∧ place ≤ length
  pastEnd_iff : outcome.ending = .error .seekPastEnd ↔ length < place ∧ place ≤ 2 ^ 63 - 1
  invalid_iff : outcome.ending = .error .invalidSeek ↔ place < 0 ∨ 2 ^ 63 - 1 < place
  moves : ∀ answer, outcome.ending = .ok answer → answer = .position place.toNat ∧
    outcome.tree.session? ref = some (session.movedTo place.toNat)
  stays : ∀ error, outcome.ending = .error error → outcome.tree = tree

/-! ## One operation -/

section OneOperation

variable {tree : Tree} {setting : Setting} {operation : Operation} {outcome : Outcome Answer}
  {ref : SessionRef} {session earlier : Session} {user : String}

theorem OpenOn.contentLength {nodeRef : NodeRef} {node : Node} {content : List UInt8}
    (isOpen : tree.OpenOn ref session nodeRef node) (isFile : node.body = .file content) :
    tree.contentLength nodeRef = content.length := by
  rw [Tree.contentLength, valueAt_of_node? isOpen.there, Node.content, isFile]

/-- What there is after an open session moved and its node changed. -/
theorem OpenOn.after_moved {nodeRef : NodeRef} {node : Node} {content : List UInt8}
    (isOpen : tree.OpenOn ref earlier nodeRef node) {change : Node → Node}
    {moves : Session → Session} (sameNode : (moves earlier).node = earlier.node)
    (kept : ((tree.modifyNode nodeRef change).modifySession ref moves).session? ref = some session)
    (isFile : (change node).body = .file content) :
    session = moves earlier ∧
      ((tree.modifyNode nodeRef change).modifySession ref moves).contentLength nodeRef =
        content.length := by
  have moved := isOpen.moved change sameNode
  exact ⟨Option.some.inj (kept.symm.trans moved.kept), moved.contentLength isFile⟩

/-- An operation leaves the cursor of a file session where it was, or moves it to a place in the
content of the file as it is then. -/
theorem Effect.cursor_cases (effect : Effect tree setting operation outcome)
    (keptEarlier : tree.session? ref = some earlier)
    (kept : outcome.tree.session? ref = some session) (ofUser : session.stream = .file user) :
    session.cursor = earlier.cursor ∨
      ∃ nodeRef, earlier.node = some nodeRef ∧
        session.cursor ≤ outcome.tree.contentLength nodeRef := by
  rcases effect.session?_cases ref with same | ⟨-, used⟩ | ⟨new, -⟩
  · cases (same.trans keptEarlier).symm.trans kept
    exact Or.inl rfl
  · cases effect with
    | refused | stalled | stayed =>
        cases keptEarlier.symm.trans kept
        exact Or.inl rfl
    | soughtFile offset origin isOpen isFile leads within =>
        cases used
        cases isOpen.kept.symm.trans keptEarlier
        obtain ⟨rfl, length⟩ := isOpen.after_moved rfl kept isFile
        exact Or.inr ⟨_, isOpen.onNode, length ▸ within⟩
    | rewound offset origin isOpen =>
        cases used
        cases ((session?_moved tree isOpen.kept _ _ _ ref).trans (if_pos rfl)).symm.trans kept
        cases ofUser
    | @readContent _ _ _ _ _ _ content reads isOpen isFile =>
        cases used.symm.trans (Operation.sessionUsed?_of_portion? reads)
        cases isOpen.kept.symm.trans keptEarlier
        obtain ⟨rfl, length⟩ := isOpen.after_moved rfl kept isFile
        by_cases inside : earlier.cursor ≤ content.length
        · exact Or.inr ⟨_, isOpen.onNode, length ▸ cursor_add_portion_le inside⟩
        · refine Or.inl ?_
          rw [List.drop_of_length_le (Nat.le_of_not_le inside), List.take_nil]
          rfl
    | readSnapshot reads isOpen isDirectory taken =>
        cases used.symm.trans (Operation.sessionUsed?_of_portion? reads)
        cases ((session?_readFrom tree isOpen.kept _ _ _ _ _ ref).trans
          (if_pos rfl)).symm.trans kept
        cases taken.symm.trans ofUser
    | @readFresh _ _ _ _ _ _ _ bytes reads isOpen =>
        cases used.symm.trans (Operation.sessionUsed?_of_portion? reads)
        have held := session?_modifySession tree ref ref fun session => session.withSnapshot bytes
        rw [if_pos rfl, isOpen.kept, Option.map_some] at held
        cases ((session?_readFrom _ held _ _ _ _ _ ref).trans (if_pos rfl)).symm.trans kept
        cases ofUser
    | written data isOpen isFile =>
        cases used
        cases isOpen.kept.symm.trans keptEarlier
        obtain ⟨rfl, length⟩ := isOpen.after_moved rfl kept rfl
        refine Or.inr ⟨_, isOpen.onNode, ?_⟩
        rw [length, Edit.length_overwrite]
        exact Nat.le_max_right _ _
    | @closed _ _ nodeRef _ isOpen =>
        cases used
        cases isOpen.kept.symm.trans keptEarlier
        have closed := session?_release tree ref ref nodeRef
        rw [if_pos rfl, isOpen.kept, Option.map_some] at closed
        cases closed.symm.trans kept
        exact Or.inl rfl
    | droppedOpen isOpen =>
        cases used
        cases ((session?_forget _ ref ref).trans (if_pos rfl)).symm.trans kept
    | droppedClosed dropped =>
        cases used
        cases ((session?_forget tree ref ref).trans (if_pos rfl)).symm.trans kept
    | _ => cases used
  · have used := sessionPlace_lt_size keptEarlier
    rw [new] at used
    exact absurd used (Nat.lt_irrefl _)

/-- What opening a session answers is a session at the start. -/
theorem Effect.session?_of_opening {nodeRef : NodeRef} {request : Request}
    (effect : Effect tree setting (.openSession nodeRef user request) outcome)
    (opened : outcome.ending = .ok (.session ref)) :
    ∃ stream, outcome.tree.session? ref = some ⟨some nodeRef, 0, stream⟩ := by
  have isThere := (effect.opened_of_answer (fun _ _ same => by cases same) opened)
  rcases effect.opening_cases with same | ⟨_, stream, -, -, answer, pushed, -⟩
  · rw [same, isThere.1] at isThere
    cases isThere.2
  · cases answer.symm.trans opened
    refine ⟨stream, ?_⟩
    rw [session?, pushed, Arena.get?_push, nextSession, if_pos rfl]

end OneOperation

section OnFile

variable {tree : Tree} {ref : SessionRef} {session : Session} {nodeRef : NodeRef} {node : Node}
  {content : List UInt8} (isOpen : tree.OpenOn ref session nodeRef node)
  (isFile : node.body = .file content)

include isOpen isFile

/-- A seek leads to a place in the content or to its end, or it changes nothing. -/
theorem seek_cases (now : UInt32) (offset : Int) (origin : Origin) :
    let place := session.base content.length origin + offset
    (0 ≤ place ∧ place ≤ content.length ∧
      tree.seek now ref offset origin =
        ((tree.modifyNode nodeRef fun node => node.accessed now).modifySession ref fun session =>
          session.movedTo place.toNat).accept place.toNat []) ∨
    (content.length < place ∧ place < 2 ^ 63 ∧
      tree.seek now ref offset origin = tree.refuse .seekPastEnd []) ∨
    ((place < 0 ∨ 2 ^ 63 ≤ place) ∧
      tree.seek now ref offset origin = tree.refuse .invalidSeek []) := by
  intro place
  have opened : tree.seek now ref offset origin =
      tree.seekFile now ref session nodeRef content offset origin := by
    simp only [seek, isOpen.kept, isOpen.openNode?, isFile]
  cases leads : session.target? content.length offset origin with
  | none =>
      refine Or.inr (Or.inr ⟨Session.target?_eq_none_iff.mp leads, ?_⟩)
      rw [opened, seekFile, leads]
  | some position =>
      obtain ⟨same, small⟩ := Session.target?_eq_some_iff.mp leads
      have isPlace : place = position := same
      by_cases past : content.length < position
      · refine Or.inr (Or.inl ⟨by omega, by omega, ?_⟩)
        simp only [opened, seekFile, leads, if_pos past]
      · refine Or.inl ⟨by omega, by omega, ?_⟩
        rw [isPlace, Int.toNat_natCast]
        exact seek_of_file isOpen isFile leads (Nat.le_of_not_lt past) now

theorem ending_seek_of_file (fits : content.length < Word.memoryLimit) (setting : Setting)
    (offset : Int) (origin : Origin) :
    (tree.perform setting (.seek ref offset origin)).ending =
      .returned ((Word.fileTarget content.length (session.base content.length origin + offset)).map
        fun target => .position target.toNat) := by
  have performed : tree.perform setting (.seek ref offset origin) =
    (tree.seek setting.clock.now ref offset origin).map .position := rfl
  rw [performed, Word.fileTarget]
  rw [Word.memoryLimit] at fits
  rcases seek_cases isOpen isFile setting.clock.now offset origin with
    ⟨positive, within, done⟩ | ⟨past, small, done⟩ | ⟨invalid, done⟩
  · rw [done, if_neg (by omega), if_neg (by omega)]
    rfl
  · rw [done, if_neg (by omega), if_pos past]
    rfl
  · rw [done, if_pos invalid]
    rfl

theorem seeksInContent (fits : content.length < Word.memoryLimit) (setting : Setting)
    (offset : Int) (origin : Origin) :
    tree.SeeksInContent ref session content.length (session.base content.length origin + offset)
      (tree.perform setting (.seek ref offset origin)) := by
  have performed : tree.perform setting (.seek ref offset origin) =
    (tree.seek setting.clock.now ref offset origin).map .position := rfl
  rw [performed]
  rw [Word.memoryLimit] at fits
  rcases seek_cases isOpen isFile setting.clock.now offset origin with
    ⟨positive, within, done⟩ | ⟨past, small, done⟩ | ⟨invalid, done⟩
  · rw [done]
    constructor
    · exact iff_of_true ⟨_, rfl⟩ ⟨positive, within⟩
    · exact iff_of_false (fun failure => by cases failure) (by omega)
    · exact iff_of_false (fun failure => by cases failure) (by omega)
    · intro answer success
      cases success
      exact ⟨rfl, (session?_moved tree isOpen.kept nodeRef _ _ ref).trans (if_pos rfl)⟩
    · intro error failure
      cases failure
  · rw [done]
    constructor
    · exact iff_of_false (fun success => by cases success.choose_spec) (by omega)
    · exact iff_of_true rfl (by omega)
    · exact iff_of_false (fun failure => by cases failure) (by omega)
    · intro answer success
      cases success
    · exact fun _ _ => rfl
  · rw [done]
    constructor
    · exact iff_of_false (fun success => by cases success.choose_spec) (by omega)
    · exact iff_of_false (fun failure => by cases failure) (by omega)
    · exact iff_of_true rfl (by omega)
    · intro answer success
      cases success
    · exact fun _ _ => rfl

end OnFile

end Tree

namespace World

/-! ## All operations since the opening -/

/-- The greatest length of a file in the states of a run, the first and the last included. -/
def peakLength (ref : NodeRef) : World → List (Clock × Operation) → Nat
  | world, [] => world.tree.contentLength ref
  | world, (clock, operation) :: rest =>
      max (world.tree.contentLength ref) (peakLength ref (world.step clock operation) rest)

section Peak

variable {world : World} {ref : NodeRef} {operations : List (Clock × Operation)}

theorem peakLength_concat (clock : Clock) (operation : Operation) :
    world.peakLength ref (operations ++ [(clock, operation)]) =
      max (world.peakLength ref operations)
        (((world.run operations).step clock operation).tree.contentLength ref) := by
  induction operations generalizing world with
  | nil => rfl
  | cons timed rest inductionHypothesis =>
      rw [List.cons_append, peakLength, peakLength, inductionHypothesis, run_cons, Nat.max_assoc]

theorem contentLength_le_peakLength :
    (world.run operations).tree.contentLength ref ≤ world.peakLength ref operations := by
  induction operations generalizing world with
  | nil => exact Nat.le_refl _
  | cons timed rest inductionHypothesis =>
      exact Nat.le_trans inductionHypothesis (Nat.le_max_right _ _)

end Peak

theorem size_sessions_le_run (world : World) (operations : List (Clock × Operation)) :
    world.tree.sessions.size ≤ (world.run operations).tree.sessions.size := by
  induction operations generalizing world with
  | nil => exact Nat.le_refl _
  | cons timed rest inductionHypothesis =>
      have grows := (world.effect_outcome timed.1 timed.2).size_sessions_le
      exact Nat.le_trans grows (inductionHypothesis (world.step timed.1 timed.2))

/-- From a state on in which a session is at the start, its cursor is never past the greatest length
of its file since. -/
theorem cursor_le_peakLength {world : World} {ref : SessionRef} {nodeRef : NodeRef}
    {stream : Stream} (atStart : world.tree.session? ref = some ⟨some nodeRef, 0, stream⟩)
    (operations : List (Clock × Operation)) {session : Session} {user : String}
    (kept : (world.run operations).tree.session? ref = some session)
    (ofUser : session.stream = .file user) :
    session.cursor ≤ world.peakLength nodeRef operations ∧
      (session.node = some nodeRef ∨ session.node = none) := by
  induction operations using List.reverseRecOn generalizing session with
  | nil =>
      cases atStart.symm.trans kept
      exact ⟨Nat.zero_le _, Or.inl rfl⟩
  | append_singleton operations timed inductionHypothesis =>
      obtain ⟨clock, operation⟩ := timed
      rw [run_concat] at kept
      rw [peakLength_concat]
      have effect := (world.run operations).effect_outcome clock operation
      rcases (effect.served ref).fileSession kept ofUser with
        new | ⟨earlier, keptEarlier, ofSameUser, sameNode⟩
      · have used := Nat.lt_of_lt_of_le (Tree.sessionPlace_lt_size atStart)
          (size_sessions_le_run world operations)
        rw [new] at used
        exact absurd used (Nat.lt_irrefl _)
      · obtain ⟨below, onNode⟩ := inductionHypothesis keptEarlier ofSameUser
        constructor
        · rcases effect.cursor_cases keptEarlier kept ofUser with same | ⟨other, onOther, within⟩
          · rw [same]
            exact Nat.le_trans below (Nat.le_max_left _ _)
          · rcases onNode with here | closed
            · cases here.symm.trans onOther
              exact Nat.le_trans within (Nat.le_max_right _ _)
            · cases closed.symm.trans onOther
        · rcases sameNode with same | closed
          · rw [same]
            exact onNode
          · exact Or.inr closed

/-! ## What an open session does -/

/-- What is done through an open file session is done in words without a step that fails, and comes
out as with unbounded numbers. -/
structure ExactInWords (world : World) (ref : SessionRef) (session : Session) (nodeRef : NodeRef)
    (cursor : Int64) (content : List UInt8) : Prop where
  seeks : ∀ clock (offset : Int64) origin,
    Word.Yields (Word.seekFile? cursor content offset origin) fun sought =>
      (world.outcome clock (.seek ref offset.toInt origin)).ending =
        .returned (sought.map fun target => .position target.toInt.toNat)
  reads : ∀ clock (buffer : List UInt8), buffer.length < Word.memoryLimit →
    let outcome := world.outcome clock (.read ref buffer.length)
    ∃ reading portion, Word.readFile? cursor content buffer = some reading ∧
      reading.Gives session.cursor portion buffer ∧
      outcome.ending = .ok (.bytes portion) ∧
      outcome.tree.session? ref = some (session.movedTo (session.cursor + portion.length))
  writes : ∀ clock data,
    let outcome := world.outcome clock (.write ref data)
    outcome.tree.contentLength nodeRef < Word.memoryLimit →
      ∃ moved written later, Word.writeFile? cursor content data = some (moved, written) ∧
        moved.toInt = session.cursor + data.length ∧
        outcome.ending = .ok (.count data.length) ∧
        outcome.tree.session? ref = some (session.movedTo (session.cursor + data.length)) ∧
        outcome.tree.node? nodeRef = some later ∧ later.body = .file written

theorem exactInWords {world : World} {ref : SessionRef} {session : Session} {nodeRef : NodeRef}
    {node : Node} {content : List UInt8} {user : String} {cursor : Int64}
    (isOpen : world.tree.OpenOn ref session nodeRef node) (isFile : node.body = .file content)
    (ofUser : session.stream = .file user) (isCursor : cursor.toInt = session.cursor)
    (cursorFits : session.cursor < Word.memoryLimit)
    (contentFits : content.length < Word.memoryLimit) :
    world.ExactInWords ref session nodeRef cursor content := by
  have sameContent : node.content = content := by rw [Node.content, isFile]
  constructor
  · intro clock offset origin
    obtain ⟨sought, done, same⟩ := Word.yields_seekFile? isCursor contentFits offset origin
    have ending := Tree.ending_seek_of_file isOpen isFile contentFits
      ⟨world.policy, world.asked, clock⟩ offset.toInt origin
    rw [← same] at ending
    refine ⟨sought, done, ending.trans ?_⟩
    cases sought <;> rfl
  · intro clock buffer bufferFits outcome
    obtain ⟨reading, done, gives⟩ :=
      Word.yields_readFile? isCursor contentFits bufferFits cursorFits
    have performed : outcome = (world.tree.read clock.now ref buffer.length).map .bytes := rfl
    rw [performed, Tree.read_of_file isOpen isFile]
    refine ⟨reading, _, done, gives, rfl, ?_⟩
    exact (Tree.session?_readFrom world.tree isOpen.kept session clock.now nodeRef content _
      ref).trans (if_pos rfl)
  · intro clock data outcome fits
    have after := openOn_write isOpen isFile ofUser clock data
    have length := after.contentLength rfl
    rw [sameContent, Edit.length_overwrite] at length
    have stepped : outcome.tree = (world.step clock (.write ref data)).tree := rfl
    rw [stepped, length] at fits
    obtain ⟨⟨moved, written⟩, done, isMoved, isWritten⟩ :=
      Word.yields_writeFile? isCursor contentFits (Nat.lt_of_le_of_lt (Nat.le_max_right _ _) fits)
    refine ⟨moved, written, _, done, isMoved, ?_, after.kept, after.there, ?_⟩
    · have performed : outcome = (world.tree.write clock ref data).map .count := rfl
      rw [performed, Tree.write_of_file isOpen isFile ofUser]
      rfl
    · have same : written = Tree.overwrite content session.cursor data := isWritten
      rw [same, ← sameContent]
      rfl

/-- After any run, the cursor of a file session is not past the greatest length of the content since
the session was opened. If that is less than 2 ^ 63, and while the session is open, seeks lead to
places in the content and to its end, and no step of a seek, a read or a write fails in words. -/
theorem fileCursor_run (policy : Policy) (blueprint : Blueprint) (ids : IdSource) (start : UInt32)
    (operations : List (Clock × Operation)) {ref : SessionRef} {session : Session} {user : String}
    (kept : ((fresh policy blueprint ids start).run operations).tree.session? ref = some session)
    (ofUser : session.stream = .file user) :
    let world := (fresh policy blueprint ids start).run operations
    (∃ nodeRef request,
      (fresh policy blueprint ids start).Opens operations ref nodeRef user request) ∧
    ∀ before clock nodeRef opener request behind,
      operations = before ++ (clock, .openSession nodeRef opener request) :: behind →
      let earlier := (fresh policy blueprint ids start).run before
      (earlier.outcome clock (.openSession nodeRef opener request)).ending = .ok (.session ref) →
      let peak := (earlier.step clock (.openSession nodeRef opener request)).peakLength nodeRef behind
      session.cursor ≤ peak ∧
      (peak < Word.memoryLimit → session.node ≠ none →
        ∃ node content, ∃ cursor : Int64, world.tree.OpenOn ref session nodeRef node ∧
          node.body = .file content ∧ cursor.toInt = session.cursor ∧
          (∀ clock (offset : Int64) origin,
            world.tree.SeeksInContent ref session content.length
              (session.base content.length origin + offset.toInt)
              (world.outcome clock (.seek ref offset.toInt origin))) ∧
          world.ExactInWords ref session nodeRef cursor content) := by
  intro world
  obtain ⟨openedNode, request, opens, -⟩ := opens_of_session (fun _ => rfl) operations kept ofUser
  refine ⟨⟨openedNode, request, opens⟩, ?_⟩
  intro before clock nodeRef opener request behind split earlier opened peak
  have effect := earlier.effect_outcome clock (.openSession nodeRef opener request)
  obtain ⟨stream, atStart⟩ := effect.session?_of_opening opened
  have reached : world = (earlier.step clock (.openSession nodeRef opener request)).run behind := by
    rw [← run_cons, ← run_append, ← split]
  have keptBehind : ((earlier.step clock (.openSession nodeRef opener request)).run
      behind).tree.session? ref = some session := reached ▸ kept
  obtain ⟨below, onNode⟩ := cursor_le_peakLength atStart behind keptBehind ofUser
  refine ⟨below, ?_⟩
  intro fits stillOpen
  obtain ⟨node, isOpen, kind⟩ := (isSound_run policy blueprint ids start operations).openOn kept
    (onNode.resolve_right stillOpen)
  rw [ofUser, Stream.kind] at kind
  obtain ⟨content, isFile⟩ := Node.exists_content_of_kind kind.symm
  have contentFits : content.length < Word.memoryLimit := by
    rw [← isOpen.contentLength isFile]
    refine Nat.lt_of_le_of_lt ?_ fits
    change world.tree.contentLength nodeRef ≤ peak
    rw [reached]
    exact contentLength_le_peakLength
  have cursorFits := Nat.lt_of_le_of_lt below fits
  obtain ⟨cursor, isCursor⟩ := Word.exists_position cursorFits
  refine ⟨node, content, cursor, isOpen, isFile, isCursor, ?_,
    exactInWords isOpen isFile ofUser isCursor cursorFits contentFits⟩
  intro clock offset origin
  exact Tree.seeksInContent isOpen isFile contentFits ⟨world.policy, world.asked, clock⟩
    offset.toInt origin

/-- A file is opened, written at its end, and cut to what it was. -/
def cutBehindSession : List (Clock × Operation) :=
  [(1, .makeFile ⟨"f", ⟨0o644⟩, "o", "g"⟩ [97, 98, 99]), (2, .openSession ⟨1⟩ "o" ⟨2⟩),
    (3, .seek ⟨0⟩ 0 .ending), (4, .write ⟨0⟩ [122, 122]),
    (5, .writeMetadata ⟨1⟩ ⟨0, 0, ⟨.file, 0, 0⟩, ⟨0o644⟩, 0, 0, 3, "f", "o", "g", ""⟩)]

/-- The cursor is where the content ended when it was longest. It may go back into the content, but
not stay where it is. -/
theorem fileCursor_cutBehindSession :
    let world := (fresh .allowAll ⟨"", ⟨0o755⟩, "o", "g"⟩ .sequential 0).run cutBehindSession
    ∃ session, (world.tree.session? ⟨0⟩ = some session ∧ session.stream = .file "o") ∧
      session.cursor = 5 ∧ world.tree.contentLength ⟨1⟩ = 3 ∧
      (world.outcome 6 (.seek ⟨0⟩ (-2) .current)).ending = .ok (.position 3) ∧
      (world.outcome 6 (.seek ⟨0⟩ 0 .current)).ending = .error .seekPastEnd ∧
      (world.outcome 6 (.seek ⟨0⟩ 9223372036854775807 .start)).ending = .error .seekPastEnd ∧
      (world.outcome 6 (.seek ⟨0⟩ 9223372036854775807 .ending)).ending = .error .invalidSeek ∧
      (∃ reading, Word.readFile? 5 [97, 98, 99] [0, 0] = some reading ∧
        reading.Gives 5 [] [0, 0]) ∧
      ∃ moved, Word.writeFile? 5 [97, 98, 99] [89] = some (moved, [97, 98, 99, 0, 0, 89]) := by
  intro world
  have kept : world.tree.session? ⟨0⟩ = some ⟨some ⟨1⟩, 5, .file "o"⟩ := rfl
  obtain ⟨-, since⟩ := fileCursor_run .allowAll ⟨"", ⟨0o755⟩, "o", "g"⟩ .sequential 0
    cutBehindSession kept rfl
  obtain ⟨-, moves⟩ := since (cutBehindSession.take 1) 2 ⟨1⟩ "o" ⟨2⟩ (cutBehindSession.drop 2)
    rfl rfl
  obtain ⟨node, content, cursor, isOpen, isFile, isCursor, seeks, inWords⟩ :=
    moves (by decide) (by decide)
  obtain rfl : cursor = 5 := Int64.toInt_inj.mp isCursor
  have there : ∃ other, world.tree.node? ⟨1⟩ = some other ∧ other.body = .file [97, 98, 99] :=
    ⟨_, rfl, rfl⟩
  obtain ⟨other, otherThere, body⟩ := there
  cases isOpen.there.symm.trans otherThere
  cases isFile.symm.trans body
  obtain ⟨answer, goesBack⟩ := (seeks 6 (-2) .current).succeeds_iff.mpr (by decide)
  obtain ⟨rfl, -⟩ := (seeks 6 (-2) .current).moves answer goesBack
  have past := (seeks 6 0 .current).pastEnd_iff.mpr (by decide)
  have greatest := (seeks 6 9223372036854775807 .start).pastEnd_iff.mpr (by decide)
  have beyond := (seeks 6 9223372036854775807 .ending).invalid_iff.mpr (by decide)
  obtain ⟨reading, portion, read, gives, answer, -⟩ := inWords.reads 6 [0, 0] (by decide)
  obtain ⟨moved, written, later, wrote, -, -, -, laterThere, laterBody⟩ :=
    inWords.writes 6 [89] (by decide)
  have nothing : (world.outcome 6 (.read ⟨0⟩ 2)).ending = .ok (.bytes []) := rfl
  cases nothing.symm.trans answer
  have filled : ∃ other, (world.step 6 (.write ⟨0⟩ [89])).tree.node? ⟨1⟩ = some other ∧
      other.body = .file [97, 98, 99, 0, 0, 89] := ⟨_, rfl, rfl⟩
  obtain ⟨other, otherThere, otherBody⟩ := filled
  cases laterThere.symm.trans otherThere
  cases laterBody.symm.trans otherBody
  exact ⟨_, ⟨kept, rfl⟩, rfl, rfl, goesBack, past, greatest, beyond, ⟨reading, read, gives⟩, moved,
    wrote⟩

end World

end MemFs
