import MemFs.Proofs.Content.History
import MemFs.Proofs.Session.Listing

/-!
# What the opening of a file session granted

The policy is asked once, when a session is opened. Every file session comes from an opening that
the policy granted to the user for whom the session writes. After that the session does not go by
what was asked for: each session writes, and each session reads what there is.
-/

namespace MemFs

namespace Request

/-- Something that an operation did through a session, with this ending, was not asked for: bytes
were written without a request to write, or given without a request to read or to execute. -/
def IsExceededBy (request : Request) (ref : SessionRef) (operation : Operation)
    (ending : Ending Answer) : Prop :=
  (request.wantsWrite = false ∧
      ∃ data count, operation = .write ref data ∧ ending = .ok (.count count)) ∨
    (request.wantsRead = false ∧ request.wantsExecute = false ∧
      ∃ bytes, operation.bytesFrom? ref ending = some bytes ∧ bytes ≠ [])

theorem not_isExceededBy_of_readWrite {request : Request} (both : request.access = .readWrite)
    (ref : SessionRef) (operation : Operation) (ending : Ending Answer) :
    ¬ request.IsExceededBy ref operation ending := by
  rintro (⟨unwritten, -⟩ | ⟨unread, -⟩)
  · rw [wantsWrite, both] at unwritten
    cases unwritten
  · rw [wantsRead, both] at unread
    cases unread

/-- A request for less than reading and writing leaves out one of them. -/
theorem cases_of_ne_readWrite {request : Request} (less : request.access ≠ .readWrite) :
    request.wantsWrite = false ∨ request.wantsRead = false ∧ request.wantsExecute = false := by
  cases access : request.access with
  | read => exact Or.inl (by rw [wantsWrite, access])
  | write => exact Or.inr ⟨by rw [wantsRead, access], by rw [wantsExecute, access]; rfl⟩
  | readWrite => exact absurd access less
  | execute => exact Or.inl (by rw [wantsWrite, access])

end Request

namespace Tree

/-! ## Operations on an open file session -/

section OnFile

variable {tree : Tree} {ref : SessionRef} {session : Session} {nodeRef : NodeRef} {node : Node}
  {content : List UInt8} {user : String}

/-- A session stays open when it moves and its node changes. -/
theorem OpenOn.moved (isOpen : tree.OpenOn ref session nodeRef node) (change : Node → Node)
    {moves : Session → Session} (sameNode : (moves session).node = session.node) :
    ((tree.modifyNode nodeRef change).modifySession ref moves).OpenOn ref (moves session) nodeRef
      (change node) where
  kept := (session?_moved tree isOpen.kept nodeRef change moves ref).trans (if_pos rfl)
  onNode := sameNode.trans isOpen.onNode
  there := (node?_modifyNode_of_some isOpen.there nodeRef change).trans (by rw [if_pos rfl])

theorem write_of_file (isOpen : tree.OpenOn ref session nodeRef node)
    (isFile : node.body = .file content) (ofUser : session.stream = .file user) (clock : Clock)
    (data : List UInt8) :
    tree.write clock ref data =
      ((tree.modifyNode nodeRef fun node =>
        (node.withContent (overwrite node.content session.cursor data)).mutatedBy user
          clock).modifySession ref fun session =>
        session.movedTo (session.cursor + data.length)).accept data.length [] := by
  simp only [write, isOpen.kept, isOpen.openNode?, isFile, ofUser]

/-- A seek within the content leads where it should. -/
theorem seek_of_file (isOpen : tree.OpenOn ref session nodeRef node)
    (isFile : node.body = .file content) {offset : Int} {origin : Origin} {position : Nat}
    (leads : session.target? content.length offset origin = some position)
    (within : position ≤ content.length) (now : UInt32) :
    tree.seek now ref offset origin =
      ((tree.modifyNode nodeRef fun node => node.accessed now).modifySession ref fun session =>
        session.movedTo position).accept position [] := by
  simp only [seek, isOpen.kept, isOpen.openNode?, isFile, seekFile, leads,
    if_neg (Nat.not_lt_of_le within)]

/-- Going back to the start of a file always works. -/
theorem seek_start_of_file (isOpen : tree.OpenOn ref session nodeRef node)
    (isFile : node.body = .file content) (now : UInt32) :
    tree.seek now ref 0 .start =
      ((tree.modifyNode nodeRef fun node => node.accessed now).modifySession ref fun session =>
        session.movedTo 0).accept 0 [] := by
  refine seek_of_file isOpen isFile ?_ (Nat.zero_le content.length) now
  simp [Session.target?, Session.greatestPosition]

theorem streamLength_of_file (isOpen : tree.OpenOn ref session nodeRef node)
    (isFile : node.body = .file content) : tree.streamLength ref = content.length := by
  simp only [streamLength, isOpen.kept, Option.bind_some, isOpen.openNode?, Option.map_some,
    isFile]

/-- A reading operation on a file gives something, if something is asked for and is there. -/
theorem bytes_of_reads (isOpen : tree.OpenOn ref session nodeRef node)
    (isFile : node.body = .file content) {operation : Operation} {size : Nat}
    (reads : operation.reads? = some (ref, size)) (setting : Setting) :
    ∃ bytes, (tree.perform setting operation).ending = .ok (.bytes bytes) ∧
      (bytes ≠ [] ↔ size ≠ 0 ∧ session.cursor < content.length) := by
  have nonempty : ∀ count, (content.drop session.cursor).take count ≠ [] ↔
      count ≠ 0 ∧ session.cursor < content.length := by
    intro count
    rw [Ne, List.take_eq_nil_iff, List.drop_eq_nil_iff]
    omega
  cases operation with
  | read other count =>
      cases reads
      refine ⟨(content.drop session.cursor).take size, ?_, nonempty size⟩
      rw [perform, read_of_file isOpen isFile]
      rfl
  | readAll other portion =>
      cases reads
      refine ⟨(content.drop session.cursor).take (if size = 0 then 0 else content.length), ?_, ?_⟩
      · rw [perform, readAll, streamLength_of_file isOpen isFile, read_of_file isOpen isFile]
        rfl
      · rw [nonempty]
        split <;> omega
  | _ => cases reads

end OnFile

/-! ## Sessions have to be open -/

section Effects

variable {tree : Tree} {setting : Setting} {outcome : Outcome Answer} {ref : SessionRef}

theorem Effect.openOn_of_write {data : List UInt8} {answer : Answer}
    (effect : Effect tree setting (.write ref data) outcome) (done : outcome.ending = .ok answer) :
    ∃ session nodeRef node, tree.OpenOn ref session nodeRef node := by
  cases effect with
  | refused | stalled => cases done
  | written data isOpen => exact ⟨_, _, _, isOpen⟩
  | readContent reads => cases reads
  | readSnapshot reads => cases reads
  | readFresh reads => cases reads

theorem Effect.openOn_of_portion {operation : Operation} {count : Nat} {answer : Answer}
    (effect : Effect tree setting operation outcome)
    (portion : operation.portion? tree = some (ref, count)) (done : outcome.ending = .ok answer) :
    ∃ session nodeRef node, tree.OpenOn ref session nodeRef node := by
  cases effect with
  | refused | stalled => cases done
  | readContent reads isOpen =>
      cases portion.symm.trans reads
      exact ⟨_, _, _, isOpen⟩
  | readSnapshot reads isOpen =>
      cases portion.symm.trans reads
      exact ⟨_, _, _, isOpen⟩
  | readFresh reads isOpen =>
      cases portion.symm.trans reads
      exact ⟨_, _, _, isOpen⟩
  | _ => cases portion

end Effects

/-! ## Where file sessions come from -/

/-- After an operation, a file session is new, or was there before as a session of the same user,
on the same node if it still has one. -/
theorem Served.fileSession {tree : Tree} {ref : SessionRef} {operation : Operation}
    {outcome : Outcome Answer} (served : Served tree ref operation outcome) {session : Session}
    {user : String} (kept : outcome.tree.session? ref = some session)
    (ofUser : session.stream = .file user) :
    ref = tree.nextSession ∨
      ∃ earlier, tree.session? ref = some earlier ∧ earlier.stream = .file user ∧
        (session.node = earlier.node ∨ session.node = none) := by
  cases served with
  | apart same => exact Or.inr ⟨session, same ▸ kept, ofUser, Or.inl rfl⟩
  | opened new => exact Or.inl new
  | onFile isOpen isFile after =>
      cases after.symm.trans kept
      exact Or.inr ⟨_, isOpen.kept, ofUser, Or.inl rfl⟩
  | rewound isOpen isDirectory rewinds after =>
      cases after.symm.trans kept
      cases ofUser
  | readOn isOpen isDirectory taken given after =>
      cases after.symm.trans kept
      cases taken.symm.trans ofUser
  | readFirst isOpen isDirectory untaken after =>
      cases after.symm.trans kept
      cases ofUser
  | closed isOpen after =>
      cases after.symm.trans kept
      exact Or.inr ⟨_, isOpen.kept, ofUser, Or.inr rfl⟩
  | dropped gone => cases gone.symm.trans kept

/-- A file session that an operation made was opened by it, with the leave of the policy. -/
theorem Effect.opening_of_new {tree : Tree} {setting : Setting} {operation : Operation}
    {outcome : Outcome Answer} (effect : Effect tree setting operation outcome) {session : Session}
    {user : String} (kept : outcome.tree.session? tree.nextSession = some session)
    (ofUser : session.stream = .file user) :
    ∃ nodeRef request node, operation = .openSession nodeRef user request ∧
      tree.node? nodeRef = some node ∧ node.kind = .file ∧
      (setting.check node user request).granted = true ∧
      outcome.ending = .ok (.session tree.nextSession) ∧ session.node = some nodeRef := by
  have grown : tree.sessions.size < outcome.tree.sessions.size := sessionPlace_lt_size kept
  by_cases opening : ∃ nodeRef opener request, operation = .openSession nodeRef opener request
  · obtain ⟨nodeRef, opener, request, rfl⟩ := opening
    rcases effect.opening_cases with same | ⟨node, stream, there, granted, done, pushed, kinds⟩
    · exact absurd (congrArg (Arena.size ∘ Tree.sessions) same) (Nat.ne_of_gt grown)
    · have opened : outcome.tree.session? tree.nextSession = some ⟨some nodeRef, 0, stream⟩ := by
        rw [session?, pushed, Arena.get?_push, nextSession, if_pos rfl]
      cases opened.symm.trans kept
      rcases kinds with ⟨isStream, isFile⟩ | ⟨isStream, -⟩
      · cases isStream.symm.trans ofUser
        exact ⟨nodeRef, request, node, rfl, there, isFile, granted, done, rfl⟩
      · cases isStream.symm.trans ofUser
  · refine absurd (effect.size_sessions_eq ?_) (Nat.ne_of_gt grown)
    intro nodeRef opener request same
    exact opening ⟨nodeRef, opener, request, same⟩

end Tree

namespace World

/-! ## What a session does beyond a request -/

section Exceeding

variable {world : World} {ref : SessionRef} {session : Session} {nodeRef : NodeRef} {node : Node}
  {content : List UInt8} {user : String}

/-- Nothing goes beyond a request through a session that is not open. -/
theorem openOn_of_isExceededBy {request : Request} {clock : Clock} {operation : Operation}
    (exceeds : request.IsExceededBy ref operation (world.outcome clock operation).ending) :
    ∃ session nodeRef node, world.tree.OpenOn ref session nodeRef node := by
  have effect := Tree.effect_perform world.tree ⟨world.policy, world.asked, clock⟩ operation
  rcases exceeds with ⟨-, data, count, isWrite, done⟩ | ⟨-, -, bytes, given, -⟩
  · subst isWrite
    exact effect.openOn_of_write done
  · obtain ⟨size, reads, answer⟩ := Operation.reads?_of_bytesFrom? given
    obtain ⟨count, portion⟩ := Operation.portion?_of_reads? reads world.tree
    exact effect.openOn_of_portion portion answer

/-- An operation on a file session goes beyond a request exactly if it writes, or gives bytes that
are there, and the request did not ask for that. -/
theorem isExceededBy_iff (isOpen : world.tree.OpenOn ref session nodeRef node)
    (isFile : node.body = .file content) (ofUser : session.stream = .file user)
    (request : Request) (clock : Clock) (operation : Operation) :
    request.IsExceededBy ref operation (world.outcome clock operation).ending ↔
      (request.wantsWrite = false ∧ ∃ data, operation = .write ref data) ∨
        (request.wantsRead = false ∧ request.wantsExecute = false ∧
          session.cursor < content.length ∧
            ∃ size, size ≠ 0 ∧ operation.reads? = some (ref, size)) := by
  constructor
  · rintro (⟨unwritten, data, count, isWrite, -⟩ | ⟨unread, unexecuted, bytes, given, nonempty⟩)
    · exact Or.inl ⟨unwritten, data, isWrite⟩
    · obtain ⟨size, reads, answer⟩ := Operation.reads?_of_bytesFrom? given
      obtain ⟨others, sameAnswer, asked⟩ :=
        Tree.bytes_of_reads isOpen isFile reads ⟨world.policy, world.asked, clock⟩
      cases answer.symm.trans sameAnswer
      obtain ⟨room, before⟩ := asked.mp nonempty
      exact Or.inr ⟨unread, unexecuted, before, size, room, reads⟩
  · rintro (⟨unwritten, data, isWrite⟩ | ⟨unread, unexecuted, before, size, room, reads⟩)
    · subst isWrite
      refine Or.inl ⟨unwritten, data, data.length, rfl, ?_⟩
      rw [outcome, Tree.perform, Tree.write_of_file isOpen isFile ofUser]
      rfl
    · obtain ⟨bytes, answer, asked⟩ :=
        Tree.bytes_of_reads isOpen isFile reads ⟨world.policy, world.asked, clock⟩
      refine Or.inr ⟨unread, unexecuted, bytes, ?_, asked.mpr ⟨room, before⟩⟩
      rw [outcome, answer]
      exact Operation.bytesFrom?_eq_some reads bytes

theorem openOn_write (isOpen : world.tree.OpenOn ref session nodeRef node)
    (isFile : node.body = .file content) (ofUser : session.stream = .file user) (clock : Clock)
    (data : List UInt8) :
    (world.step clock (.write ref data)).tree.OpenOn ref
      (session.movedTo (session.cursor + data.length)) nodeRef
      ((node.withContent (Tree.overwrite node.content session.cursor data)).mutatedBy user
        clock) := by
  have performed :
      (world.step clock (.write ref data)).tree = (world.tree.write clock ref data).tree := rfl
  rw [performed, Tree.write_of_file isOpen isFile ofUser]
  exact isOpen.moved (fun node =>
    (node.withContent (Tree.overwrite node.content session.cursor data)).mutatedBy user clock) rfl

theorem openOn_seek_start (isOpen : world.tree.OpenOn ref session nodeRef node)
    (isFile : node.body = .file content) (clock : Clock) :
    (world.step clock (.seek ref 0 .start)).tree.OpenOn ref (session.movedTo 0) nodeRef
      (node.accessed clock.now) := by
  have performed : (world.step clock (.seek ref 0 .start)).tree =
      (world.tree.seek clock.now ref 0 .start).tree := rfl
  rw [performed, Tree.seek_start_of_file isOpen isFile]
  exact isOpen.moved (fun node => node.accessed clock.now) rfl

/-- A session can write a byte and go back to the start, where there is then something to read. -/
theorem exists_readable (isOpen : world.tree.OpenOn ref session nodeRef node)
    (isFile : node.body = .file content) (ofUser : session.stream = .file user) :
    ∃ further later bytes, (world.run further).tree.OpenOn ref (session.movedTo 0) nodeRef later ∧
      later.body = .file bytes ∧ 0 < bytes.length := by
  have written := openOn_write isOpen isFile ofUser 0 [0]
  have atStart := openOn_seek_start written rfl 0
  refine ⟨[(0, .write ref [0]), (0, .seek ref 0 .start)], _, _, atStart, rfl, ?_⟩
  rw [Edit.length_overwrite, List.length_singleton]
  omega

/-- A session goes beyond a request sooner or later, unless that is for reading and writing. -/
theorem exists_isExceededBy_iff (isOpen : world.tree.OpenOn ref session nodeRef node)
    (isFile : node.body = .file content) (ofUser : session.stream = .file user)
    (request : Request) :
    (∃ further clock operation,
        request.IsExceededBy ref operation ((world.run further).outcome clock operation).ending) ↔
      request.access ≠ .readWrite := by
  constructor
  · intro exceeded both
    obtain ⟨further, clock, operation, exceeds⟩ := exceeded
    exact Request.not_isExceededBy_of_readWrite both ref operation _ exceeds
  · intro less
    rcases Request.cases_of_ne_readWrite less with unwritten | ⟨unread, unexecuted⟩
    · refine ⟨[], 0, .write ref [], ?_⟩
      exact (isExceededBy_iff isOpen isFile ofUser request 0 _).mpr (Or.inl ⟨unwritten, [], rfl⟩)
    · obtain ⟨further, later, bytes, laterOpen, laterFile, nonempty⟩ :=
        exists_readable isOpen isFile ofUser
      refine ⟨further, 0, .read ref 1, ?_⟩
      refine (isExceededBy_iff laterOpen laterFile ofUser request 0 _).mpr (Or.inr ?_)
      exact ⟨unread, unexecuted, nonempty, 1, Nat.one_ne_zero, rfl⟩

end Exceeding

/-! ## Openings in a run -/

/-- In a run, the policy let a user open the file in one place with a request, which made the
session in another. -/
def Opens (world : World) (operations : List (Clock × Operation)) (ref : SessionRef)
    (nodeRef : NodeRef) (user : String) (request : Request) : Prop :=
  ∃ before clock behind node,
    operations = before ++ (clock, .openSession nodeRef user request) :: behind ∧
    (world.run before).tree.node? nodeRef = some node ∧ node.kind = .file ∧
    world.policy.allows (world.run before).asked ⟨node.owner = user, node.mode, request⟩ = true ∧
    ((world.run before).outcome clock (.openSession nodeRef user request)).ending =
      .ok (.session ref)

theorem policy_run (world : World) (operations : List (Clock × Operation)) :
    (world.run operations).policy = world.policy := by
  induction operations generalizing world with
  | nil => rfl
  | cons timed rest inductionHypothesis => exact inductionHypothesis (world.step timed.1 timed.2)

theorem Opens.append {world : World} {operations : List (Clock × Operation)} {ref : SessionRef}
    {nodeRef : NodeRef} {user : String} {request : Request}
    (opens : world.Opens operations ref nodeRef user request)
    (further : List (Clock × Operation)) :
    world.Opens (operations ++ further) ref nodeRef user request := by
  obtain ⟨before, clock, behind, node, split, opening⟩ := opens
  refine ⟨before, clock, behind ++ further, node, ?_, opening⟩
  rw [split, List.append_assoc, List.cons_append]

/-- If there were no sessions before a run, each file session after it comes from an opening that
the policy granted to the user for whom the session writes. -/
theorem opens_of_session {world : World} (unopened : ∀ ref, world.tree.session? ref = none)
    (operations : List (Clock × Operation)) {ref : SessionRef} {session : Session} {user : String}
    (kept : (world.run operations).tree.session? ref = some session)
    (ofUser : session.stream = .file user) :
    ∃ nodeRef request, world.Opens operations ref nodeRef user request ∧
      ∀ other, session.node = some other → other = nodeRef := by
  induction operations using List.reverseRecOn generalizing session with
  | nil => cases (unopened ref).symm.trans kept
  | append_singleton operations timed inductionHypothesis =>
      obtain ⟨clock, operation⟩ := timed
      rw [run_concat] at kept
      have effect := Tree.effect_perform (world.run operations).tree
        ⟨(world.run operations).policy, (world.run operations).asked, clock⟩ operation
      rcases (effect.served ref).fileSession kept ofUser with
        new | ⟨earlier, keptEarlier, ofSameUser, sameNode⟩
      · subst new
        obtain ⟨nodeRef, request, node, rfl, there, isFile, granted, done, onNode⟩ :=
          effect.opening_of_new kept ofUser
        have allowed := policy_run world operations ▸ granted
        refine ⟨nodeRef, request, ?_, ?_⟩
        · exact ⟨operations, clock, [], node, rfl, there, isFile, allowed, done⟩
        · intro other onOther
          exact Option.some.inj (onOther.symm.trans onNode)
      · obtain ⟨nodeRef, request, opens, unique⟩ := inductionHypothesis keptEarlier ofSameUser
        refine ⟨nodeRef, request, opens.append [(clock, operation)], ?_⟩
        intro other onOther
        rcases sameNode with same | closed
        · exact unique other (same ▸ onOther)
        · cases closed.symm.trans onOther

/-- A file session comes from an opening that the policy granted, and does not keep to what that
asked for. While it is open, it goes beyond it with each write if that was not asked for, and with
each read that gives something if that was not asked for. So an open session never does, whatever
comes, exactly if reading and writing were asked for. -/
theorem grant_isExceededBy_iff (policy : Policy) (blueprint : Blueprint) (ids : IdSource)
    (start : UInt32) (operations : List (Clock × Operation)) {ref : SessionRef}
    {session : Session} {user : String}
    (kept : ((fresh policy blueprint ids start).run operations).tree.session? ref = some session)
    (ofUser : session.stream = .file user) :
    let world := (fresh policy blueprint ids start).run operations
    ∃ nodeRef request,
      (fresh policy blueprint ids start).Opens operations ref nodeRef user request ∧
      (∀ clock operation,
        request.IsExceededBy ref operation (world.outcome clock operation).ending ↔
          ∃ node content, world.tree.OpenOn ref session nodeRef node ∧ node.body = .file content ∧
            ((request.wantsWrite = false ∧ ∃ data, operation = .write ref data) ∨
              (request.wantsRead = false ∧ request.wantsExecute = false ∧
                session.cursor < content.length ∧
                  ∃ size, size ≠ 0 ∧ operation.reads? = some (ref, size)))) ∧
      (session.node ≠ none →
        ((∀ further clock operation, ¬ request.IsExceededBy ref operation
            ((world.run further).outcome clock operation).ending) ↔
          request.access = .readWrite)) := by
  intro world
  obtain ⟨nodeRef, request, opens, unique⟩ := opens_of_session (fun _ => rfl) operations kept ofUser
  have sound := isSound_run policy blueprint ids start operations
  have isFile : ∀ other node, world.tree.OpenOn ref session other node →
      ∃ content, node.body = .file content := by
    intro other node isOpen
    refine Node.exists_content_of_kind ?_
    rw [← sound.kind isOpen, ofUser, Stream.kind]
  refine ⟨nodeRef, request, opens, ?_, ?_⟩
  · intro clock operation
    constructor
    · intro exceeds
      obtain ⟨other, otherRef, node, isOpen⟩ := openOn_of_isExceededBy exceeds
      cases kept.symm.trans isOpen.kept
      cases unique otherRef isOpen.onNode
      obtain ⟨content, body⟩ := isFile _ _ isOpen
      exact ⟨node, content, isOpen, body,
        (isExceededBy_iff isOpen body ofUser request clock operation).mp exceeds⟩
    · intro beyond
      obtain ⟨node, content, isOpen, body, reason⟩ := beyond
      exact (isExceededBy_iff isOpen body ofUser request clock operation).mpr reason
  · intro stillOpen
    obtain ⟨other, onNode⟩ := Option.ne_none_iff_exists'.mp stillOpen
    obtain ⟨outline, outlineThere, -⟩ := sound.onNode ref session other kept onNode
    obtain ⟨node, there, -⟩ := Option.map_eq_some_iff.mp outlineThere
    have isOpen : world.tree.OpenOn ref session other node := ⟨kept, onNode, there⟩
    obtain ⟨content, body⟩ := isFile other node isOpen
    have exceeded := exists_isExceededBy_iff isOpen body ofUser request
    constructor
    · intro never
      by_contra less
      obtain ⟨further, clock, operation, exceeds⟩ := exceeded.mpr less
      exact never further clock operation exceeds
    · intro both further clock operation exceeds
      exact exceeded.mp ⟨further, clock, operation, exceeds⟩ both

/-- A user opens the file of another user in order to read it. -/
def openedByOther : List (Clock × Operation) :=
  [(1, .create ⟨0⟩ "o" "f" ⟨0o644⟩), (2, .openSession ⟨1⟩ "u" ⟨0⟩)]

/-- The policy denies the user a session to write, and the content changes through the other. -/
theorem write_of_openedByOther :
    let world := (fresh .ownerOther ⟨"", ⟨0o755⟩, "o", "g"⟩ .sequential 0).run openedByOther
    (world.outcome 3 (.openSession ⟨1⟩ "u" .write)).ending = .error .accessDenied ∧
      (world.outcome 3 (.write ⟨0⟩ [104, 105])).ending = .ok (.count 2) ∧
      ∃ before after, world.tree.node? ⟨1⟩ = some before ∧
        (world.step 3 (.write ⟨0⟩ [104, 105])).tree.node? ⟨1⟩ = some after ∧
        before.content = [] ∧ after.content = [104, 105] := by
  intro world
  refine ⟨rfl, rfl, _, _, rfl, rfl, ?_, ?_⟩ <;> rfl

/-- What the user asked for was to read, which the policy granted. -/
theorem isExceededBy_of_openedByOther :
    let world := (fresh .ownerOther ⟨"", ⟨0o755⟩, "o", "g"⟩ .sequential 0).run openedByOther
    (∃ session, world.tree.session? ⟨0⟩ = some session ∧ session.stream = .file "u") ∧
      (fresh .ownerOther ⟨"", ⟨0o755⟩, "o", "g"⟩ .sequential 0).Opens openedByOther ⟨0⟩ ⟨1⟩ "u"
        ⟨0⟩ ∧
      Request.IsExceededBy ⟨0⟩ ⟨0⟩ (.write ⟨0⟩ [104])
        (world.outcome 3 (.write ⟨0⟩ [104])).ending := by
  intro world
  have kept : world.tree.session? ⟨0⟩ = some ⟨some ⟨1⟩, 0, .file "u"⟩ := rfl
  refine ⟨⟨_, kept, rfl⟩, ?_⟩
  obtain ⟨nodeRef, request, opens, exceeded, -⟩ := grant_isExceededBy_iff .ownerOther
    ⟨"", ⟨0o755⟩, "o", "g"⟩ .sequential 0 openedByOther kept rfl
  have asked : nodeRef = ⟨1⟩ ∧ request = ⟨0⟩ := by
    obtain ⟨before, clock, behind, node, split, -⟩ := opens
    have member : (clock, Operation.openSession nodeRef "u" request) ∈ openedByOther := by
      rw [split]
      exact List.mem_append_right before List.mem_cons_self
    simp only [openedByOther, List.mem_cons, List.not_mem_nil, Prod.mk.injEq,
      Operation.openSession.injEq, reduceCtorEq] at member
    tauto
  obtain ⟨rfl, rfl⟩ := asked
  have isOpen : ∃ node, world.tree.OpenOn ⟨0⟩ ⟨some ⟨1⟩, 0, .file "u"⟩ ⟨1⟩ node ∧
      node.body = .file [] := ⟨_, ⟨rfl, rfl, rfl⟩, rfl⟩
  obtain ⟨node, isOpen, body⟩ := isOpen
  refine ⟨opens, (exceeded 3 (.write ⟨0⟩ [104])).mpr ⟨node, [], isOpen, body, Or.inl ?_⟩⟩
  exact ⟨rfl, [104], rfl⟩

end World

end MemFs
