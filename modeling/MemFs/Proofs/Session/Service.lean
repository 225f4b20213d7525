import MemFs.Proofs.Tree.Perform
import MemFs.Proofs.Tree.Sweep

/-!
# What a session sees of an operation

`Served` is the view that one session has of any operation on the tree: most operations leave it
alone, and the others open it, move it, give it a snapshot, close it or give it up.
-/

namespace MemFs

namespace Operation

/-- The session that an operation reads from, and the room it has for the bytes. -/
def reads? : Operation → Option (SessionRef × Nat)
  | .read ref count => some (ref, count)
  | .readAll ref portion => some (ref, portion)
  | _ => none

/-- The bytes that an operation with this ending read from a session. -/
def bytesFrom? (operation : Operation) (ref : SessionRef) (ending : Ending Answer) :
    Option (List UInt8) :=
  match operation.reads?, ending with
  | some (other, _), .ok (.bytes bytes) => if other = ref then some bytes else none
  | _, _ => none

/-- An operation with this ending moved a session to the start. -/
def rewinds (operation : Operation) (ref : SessionRef) (ending : Ending Answer) : Bool :=
  match operation, ending with
  | .seek other _ _, .ok (.position 0) => other = ref
  | _, _ => false

theorem bytesFrom?_of_failed {ending : Ending Answer} (operation : Operation) (ref : SessionRef)
    (failed : ∀ answer, ending ≠ .ok answer) : operation.bytesFrom? ref ending = none := by
  cases ending with
  | ok answer => exact absurd rfl (failed answer)
  | error | never =>
      unfold bytesFrom?
      cases operation.reads? <;> rfl

theorem bytesFrom?_of_reads {operation : Operation} {ref other : SessionRef} {size : Nat}
    (reads : operation.reads? = some (other, size)) (bytes : List UInt8) :
    operation.bytesFrom? ref (.ok (.bytes bytes)) = if other = ref then some bytes else none := by
  simp only [bytesFrom?, reads]

theorem bytesFrom?_eq_some {operation : Operation} {ref : SessionRef} {size : Nat}
    (reads : operation.reads? = some (ref, size)) (bytes : List UInt8) :
    operation.bytesFrom? ref (.ok (.bytes bytes)) = some bytes := by
  rw [bytesFrom?_of_reads reads, if_pos rfl]

theorem reads?_of_bytesFrom? {operation : Operation} {ref : SessionRef}
    {ending : Ending Answer} {bytes : List UInt8}
    (given : operation.bytesFrom? ref ending = some bytes) :
    ∃ size, operation.reads? = some (ref, size) ∧ ending = .ok (.bytes bytes) := by
  unfold bytesFrom? at given
  split at given
  · rename_i other size answer reads
    split at given
    · rename_i same
      cases same
      cases given
      exact ⟨size, reads, rfl⟩
    · cases given
  · cases given

theorem portion?_of_reads? {operation : Operation} {ref : SessionRef} {size : Nat}
    (reads : operation.reads? = some (ref, size)) (tree : Tree) :
    ∃ count, operation.portion? tree = some (ref, count) := by
  cases operation with
  | read other count =>
      cases reads
      exact ⟨_, rfl⟩
  | readAll other portion =>
      cases reads
      exact ⟨_, rfl⟩
  | _ => cases reads

theorem reads?_of_portion? {tree : Tree} {operation : Operation} {ref : SessionRef} {count : Nat}
    (portion : operation.portion? tree = some (ref, count)) :
    ∃ size, operation.reads? = some (ref, size) := by
  cases operation with
  | read => exact ⟨_, congrArg _ (congrArg (·, _) (Prod.mk.inj (Option.some.inj portion)).1)⟩
  | readAll => exact ⟨_, congrArg _ (congrArg (·, _) (Prod.mk.inj (Option.some.inj portion)).1)⟩
  | _ => cases portion

end Operation

/-- The kind of node that a stream comes from. -/
def Stream.kind : Stream → Kind
  | .file _ => .file
  | .directory _ => .directory

namespace Tree

/-- What a session sees of an operation. -/
inductive Served (tree : Tree) (ref : SessionRef) (operation : Operation)
    (outcome : Outcome Answer) : Prop
  | apart (kept : outcome.tree.session? ref = tree.session? ref)
      (silent : operation.bytesFrom? ref outcome.ending = none)
  | opened {nodeRef : NodeRef} {node : Node} {stream : Stream} (new : ref = tree.nextSession)
      (there : tree.node? nodeRef = some node) (kind : stream.kind = node.kind)
      (unread : ∀ bytes, stream ≠ .directory (some bytes))
      (kept : outcome.tree.session? ref = some ⟨some nodeRef, 0, stream⟩)
  | onFile {session : Session} {nodeRef : NodeRef} {node : Node} {content : List UInt8}
      {position : Nat} (isOpen : tree.OpenOn ref session nodeRef node)
      (isFile : node.body = .file content)
      (kept : outcome.tree.session? ref = some (session.movedTo position))
  | rewound {session : Session} {nodeRef : NodeRef} {node : Node} {entries : Entries NodeRef}
      {bytes : List UInt8} (isOpen : tree.OpenOn ref session nodeRef node)
      (isDirectory : node.body = .directory entries)
      (rewinds : operation.rewinds ref outcome.ending = true)
      (kept : outcome.tree.session? ref = some ((session.withSnapshot bytes).movedTo 0))
  | readOn {session : Session} {nodeRef : NodeRef} {node : Node} {entries : Entries NodeRef}
      {bytes : List UInt8} {count : Nat} (isOpen : tree.OpenOn ref session nodeRef node)
      (isDirectory : node.body = .directory entries)
      (taken : session.stream = .directory (some bytes))
      (given : operation.bytesFrom? ref outcome.ending =
        some ((bytes.drop session.cursor).take count))
      (kept : outcome.tree.session? ref = some (session.movedTo
        (session.cursor + ((bytes.drop session.cursor).take count).length)))
  | readFirst {session : Session} {nodeRef : NodeRef} {node : Node} {entries : Entries NodeRef}
      {bytes : List UInt8} {count : Nat} (isOpen : tree.OpenOn ref session nodeRef node)
      (isDirectory : node.body = .directory entries)
      (untaken : ∀ bytes, session.stream ≠ .directory (some bytes))
      (kept : outcome.tree.session? ref = some ((session.withSnapshot bytes).movedTo
        (session.cursor + ((bytes.drop session.cursor).take count).length)))
  | closed {session : Session} {nodeRef : NodeRef} {node : Node}
      (isOpen : tree.OpenOn ref session nodeRef node)
      (kept : outcome.tree.session? ref = some session.closed)
      (silent : operation.bytesFrom? ref outcome.ending = none)
  | dropped (gone : outcome.tree.session? ref = none)
      (silent : operation.bytesFrom? ref outcome.ending = none)

/-! ## Sessions after elementary changes -/

variable (tree : Tree)

theorem session?_sweep (ref : SessionRef) : tree.sweep.session? ref = tree.session? ref := by
  rw [session?, (swept_sweep tree).sessions, session?]

theorem session?_touchAll (clock : Clock) (walked : List NodeRef) (ref : SessionRef) :
    (tree.touchAll clock walked).session? ref = tree.session? ref := by
  induction walked generalizing tree clock with
  | nil => rfl
  | cons first rest inductionHypothesis =>
      rw [touchAll, inductionHypothesis]
      rfl

theorem session?_release (ref other : SessionRef) (nodeRef : NodeRef) :
    (tree.release ref nodeRef).session? other =
      if other = ref then (tree.session? other).map Session.closed else tree.session? other := by
  rw [release, session?_sweep, session?_modifySession, session?_modifyNode]

theorem session?_attach (target parent : NodeRef) (ref : SessionRef) :
    (tree.attach target parent).session? ref = tree.session? ref := by
  unfold attach
  split <;> rfl

/-- An operation that moves one session leaves the others alone. -/
theorem session?_moved {other : SessionRef} {session : Session}
    (kept : tree.session? other = some session) (nodeRef : NodeRef) (change : Node → Node)
    (moves : Session → Session) (ref : SessionRef) :
    ((tree.modifyNode nodeRef change).modifySession other moves).session? ref =
      if ref = other then some (moves session) else tree.session? ref := by
  rw [session?_modifySession, session?_modifyNode]
  by_cases here : ref = other
  · rw [if_pos here, if_pos here, here, kept, Option.map_some]
  · rw [if_neg here, if_neg here]

/-- A read moves the cursor over what it gives. -/
theorem session?_readFrom {other : SessionRef} {session : Session}
    (kept : tree.session? other = some session) (reader : Session) (now : UInt32)
    (nodeRef : NodeRef) (bytes : List UInt8) (count : Nat) (ref : SessionRef) :
    (tree.readFrom now other reader nodeRef bytes count).tree.session? ref =
      if ref = other then
        some (session.movedTo
          (session.cursor + ((bytes.drop reader.cursor).take count).length))
      else tree.session? ref :=
  session?_moved tree kept nodeRef _ _ ref

private theorem silent_of_reads {operation : Operation} {ref other : SessionRef} {count : Nat}
    (reads : operation.portion? tree = some (other, count)) (apart : ref ≠ other)
    (bytes : List UInt8) : operation.bytesFrom? ref (.ok (.bytes bytes)) = none := by
  obtain ⟨size, isRead⟩ := Operation.reads?_of_portion? reads
  rw [Operation.bytesFrom?_of_reads isRead, if_neg (Ne.symm apart)]

private theorem given_of_reads {operation : Operation} {ref : SessionRef} {count : Nat}
    (reads : operation.portion? tree = some (ref, count)) (bytes : List UInt8) :
    operation.bytesFrom? ref (.ok (.bytes bytes)) = some bytes := by
  obtain ⟨size, isRead⟩ := Operation.reads?_of_portion? reads
  exact Operation.bytesFrom?_eq_some isRead bytes

theorem Effect.served {tree : Tree} {setting : Setting} {operation : Operation}
    {outcome : Outcome Answer} (effect : Effect tree setting operation outcome)
    (ref : SessionRef) : Served tree ref operation outcome := by
  cases effect with
  | refused | stalled => exact Served.apart rfl (Operation.bytesFrom?_of_failed operation ref nofun)
  | madeFile blueprint content => exact Served.apart (session?_hold _ _ ref) rfl
  | madeDirectory blueprint => exact Served.apart (session?_hold _ _ ref) rfl
  | held node => exact Served.apart (session?_hold _ _ ref) rfl
  | letGo node => exact Served.apart (session?_sweep _ ref) rfl
  | attached node parent => exact Served.apart (session?_attach tree node parent ref) rfl
  | created => exact Served.apart rfl rfl
  | added => exact Served.apart rfl rfl
  | renamed => exact Served.apart rfl rfl
  | removed => exact Served.apart (session?_sweep _ ref) rfl
  | walked => exact Served.apart rfl rfl
  | resolved user path ending walked => exact Served.apart (session?_touchAll tree _ walked ref) rfl
  | revised => exact Served.apart rfl rfl
  | rekeyed => exact Served.apart rfl rfl
  | openedFile user request there isFile granted =>
      by_cases new : ref = tree.nextSession
      · refine Served.opened new there ?_ ?_ ((session?_addSession _ _ ref).trans (if_pos new))
        · rw [Node.kind, isFile, Stream.kind]
        · intro bytes same
          cases same
      · exact Served.apart ((session?_addSession _ _ ref).trans (if_neg new)) rfl
  | openedDirectory user request there isDirectory granted =>
      by_cases new : ref = tree.nextSession
      · refine Served.opened new there ?_ ?_ ((session?_addSession _ _ ref).trans (if_pos new))
        · rw [Node.kind, isDirectory, Stream.kind]
        · intro bytes same
          cases same
      · exact Served.apart ((session?_addSession _ _ ref).trans (if_neg new)) rfl
  | @soughtFile other _ nodeRef _ _ position offset origin isOpen isFile leads within =>
      have after := session?_moved tree isOpen.kept nodeRef
        (fun node => node.accessed setting.clock.now) (fun session => session.movedTo position) ref
      by_cases here : ref = other
      · subst here
        exact Served.onFile isOpen isFile (after.trans (if_pos rfl))
      · exact Served.apart (after.trans (if_neg here)) rfl
  | @rewound other _ nodeRef _ _ bytes offset origin isOpen isDirectory leads listed =>
      have after := session?_moved tree isOpen.kept nodeRef
        (fun node => node.accessed setting.clock.now)
        (fun session => (session.withSnapshot bytes).movedTo 0) ref
      by_cases here : ref = other
      · subst here
        exact Served.rewound isOpen isDirectory (decide_eq_true rfl) (after.trans (if_pos rfl))
      · exact Served.apart (after.trans (if_neg here)) rfl
  | stayed offset origin isOpen isDirectory leads beyond => exact Served.apart rfl rfl
  | @readContent _ other count session nodeRef _ content reads isOpen isFile =>
      have after := session?_readFrom tree isOpen.kept session
        (setting.clock.reading (operation.lastReading tree)) nodeRef content count ref
      by_cases here : ref = other
      · subst here
        exact Served.onFile isOpen isFile (after.trans (if_pos rfl))
      · exact Served.apart (after.trans (if_neg here)) (silent_of_reads tree reads here _)
  | @readSnapshot _ other count session nodeRef _ _ bytes reads isOpen isDirectory taken =>
      have after := session?_readFrom tree isOpen.kept session
        (setting.clock.reading (operation.lastReading tree)) nodeRef bytes count ref
      by_cases here : ref = other
      · subst here
        exact Served.readOn isOpen isDirectory taken (given_of_reads tree reads _)
          (after.trans (if_pos rfl))
      · exact Served.apart (after.trans (if_neg here)) (silent_of_reads tree reads here _)
  | @readFresh _ other count session nodeRef _ _ bytes reads isOpen isDirectory untaken listed =>
      have snapshot := session?_modifySession tree other other fun session =>
        session.withSnapshot bytes
      rw [if_pos rfl, isOpen.kept, Option.map_some] at snapshot
      have after := session?_readFrom _ snapshot session
        (setting.clock.reading (operation.lastReading tree)) nodeRef bytes count ref
      by_cases here : ref = other
      · subst here
        exact Served.readFirst isOpen isDirectory untaken (after.trans (if_pos rfl))
      · refine Served.apart (after.trans (if_neg here) |>.trans ?_)
          (silent_of_reads tree reads here _)
        rw [session?_modifySession, if_neg here]
  | @written other session nodeRef _ _ user data isOpen isFile ofUser =>
      have after := session?_moved tree isOpen.kept nodeRef
        (fun node =>
          (node.withContent (overwrite node.content session.cursor data)).mutatedBy user
            setting.clock)
        (fun session => session.movedTo (session.cursor + data.length)) ref
      by_cases here : ref = other
      · subst here
        exact Served.onFile isOpen isFile (after.trans (if_pos rfl))
      · exact Served.apart (after.trans (if_neg here)) rfl
  | @closed other _ nodeRef _ isOpen =>
      have after := session?_release tree other ref nodeRef
      by_cases here : ref = other
      · subst here
        rw [if_pos rfl, isOpen.kept] at after
        exact Served.closed isOpen after rfl
      · exact Served.apart (after.trans (if_neg here)) rfl
  | @droppedOpen other _ nodeRef _ isOpen =>
      have after := session?_forget (tree.release other nodeRef) other ref
      by_cases here : ref = other
      · exact Served.dropped (after.trans (if_pos here)) rfl
      · refine Served.apart ((after.trans (if_neg here)).trans ?_) rfl
        rw [session?_release, if_neg here]
  | droppedClosed other notOpen =>
      have after := session?_forget tree other ref
      by_cases here : ref = other
      · exact Served.dropped (after.trans (if_pos here)) rfl
      · exact Served.apart (after.trans (if_neg here)) rfl

/-! ## Places of sessions -/

theorem sessions_hold (ref : NodeRef) : (tree.hold ref).sessions = tree.sessions := by
  unfold hold
  split <;> rfl

theorem sessions_attach (ref parent : NodeRef) :
    (tree.attach ref parent).sessions = tree.sessions := by
  unfold attach
  split <;> rfl

theorem sessions_touchAll (clock : Clock) (walked : List NodeRef) :
    (tree.touchAll clock walked).sessions = tree.sessions := by
  induction walked generalizing tree clock with
  | nil => rfl
  | cons first rest inductionHypothesis =>
      rw [touchAll, inductionHypothesis]
      rfl

theorem size_sessions_release (ref : SessionRef) (nodeRef : NodeRef) :
    (tree.release ref nodeRef).sessions.size = tree.sessions.size := by
  rw [release, (swept_sweep _).sessions]
  exact Arena.size_modify tree.sessions ref.place _

section Sizes

variable {tree : Tree} {setting : Setting} {operation : Operation} {outcome : Outcome Answer}

/-- Only opening a session makes one. -/
theorem Effect.size_sessions_eq (effect : Effect tree setting operation outcome)
    (noOpening : ∀ nodeRef user request, operation ≠ .openSession nodeRef user request) :
    outcome.tree.sessions.size = tree.sessions.size := by
  cases effect with
  | refused | stalled | created | added | renamed | walked | revised | rekeyed | stayed => rfl
  | madeFile | madeDirectory | held => exact congrArg Arena.size (sessions_hold _ _)
  | letGo | removed => exact congrArg Arena.size (swept_sweep _).sessions
  | attached => exact congrArg Arena.size (sessions_attach tree _ _)
  | resolved => exact congrArg Arena.size (sessions_touchAll tree _ _)
  | openedFile | openedDirectory => exact absurd rfl (noOpening _ _ _)
  | soughtFile | rewound | readContent | readSnapshot | written =>
      exact Arena.size_modify tree.sessions _ _
  | readFresh => exact (Arena.size_modify _ _ _).trans (Arena.size_modify tree.sessions _ _)
  | closed => exact size_sessions_release tree _ _
  | droppedOpen => exact (Arena.size_free _ _).trans (size_sessions_release tree _ _)
  | droppedClosed => exact Arena.size_free tree.sessions _

/-- What opening a session comes to: it fails, or a session at the start is there in a new place. -/
theorem Effect.opening_cases {nodeRef : NodeRef} {user : String} {request : Request}
    (effect : Effect tree setting (.openSession nodeRef user request) outcome) :
    outcome.tree = tree ∨
      ∃ node stream, tree.node? nodeRef = some node ∧
        (setting.check node user request).granted = true ∧
        outcome.ending = .ok (.session tree.nextSession) ∧
        outcome.tree.sessions = tree.sessions.push ⟨some nodeRef, 0, stream⟩ ∧
        (stream = .file user ∧ node.kind = .file ∨
          stream = .directory none ∧ node.kind = .directory) := by
  cases effect with
  | refused | stalled => exact Or.inl rfl
  | openedFile _ _ there isFile granted =>
      refine Or.inr ⟨_, .file user, there, granted, rfl, rfl, Or.inl ⟨rfl, ?_⟩⟩
      rw [Node.kind, isFile]
  | openedDirectory _ _ there isDirectory granted =>
      refine Or.inr ⟨_, .directory none, there, granted, rfl, rfl, Or.inr ⟨rfl, ?_⟩⟩
      rw [Node.kind, isDirectory]
  | readContent reads => cases reads
  | readSnapshot reads => cases reads
  | readFresh reads => cases reads

/-- No place of a session is ever used again. -/
theorem Effect.size_sessions_le (effect : Effect tree setting operation outcome) :
    tree.sessions.size ≤ outcome.tree.sessions.size := by
  cases operation with
  | openSession nodeRef user request =>
      rcases effect.opening_cases with same | ⟨node, stream, -, -, -, grown, -⟩
      · exact Nat.le_of_eq (congrArg (Arena.size ∘ Tree.sessions) same).symm
      · rw [grown, Arena.size_push]
        exact Nat.le_succ _
  | _ =>
      refine Nat.le_of_eq (effect.size_sessions_eq ?_).symm
      intro nodeRef user request opening
      cases opening

end Sizes

end Tree

end MemFs
