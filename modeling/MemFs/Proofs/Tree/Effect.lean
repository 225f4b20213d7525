import MemFs.Proofs.Access.Inquiry
import MemFs.Proofs.Tree.Lookup

/-!
# What an operation can do

`Effect` gives every outcome an operation can have, one rule for each way in which it can come
about, with what must hold for it and what the policy was asked. Whatever is said about all
operations goes through the rules.
-/

namespace MemFs

/-- The session and the number of bytes that a reading operation asks for. -/
def Operation.portion? (tree : Tree) : Operation → Option (SessionRef × Nat)
  | .read ref count => some (ref, count)
  | .readAll ref portion => some (ref, if portion = 0 then 0 else tree.streamLength ref)
  | _ => none

/-- Which reading of the clock a reading operation leaves as the access time. -/
def Operation.lastReading (tree : Tree) : Operation → Nat
  | .readAll ref portion => tree.portionsLeft ref portion
  | _ => 0

namespace Tree

/-- The session in one place is open on the node in another. -/
structure OpenOn (tree : Tree) (ref : SessionRef) (session : Session) (nodeRef : NodeRef)
    (node : Node) : Prop where
  kept : tree.session? ref = some session
  onNode : session.node = some nodeRef
  there : tree.node? nodeRef = some node

/-- The tree after nodes were accessed one after the other, with a reading of the clock for each. -/
def touchAll (tree : Tree) (clock : Clock) : List NodeRef → Tree
  | [] => tree
  | ref :: rest =>
      (tree.modifyNode ref fun node => node.accessed clock.now).touchAll (clock.after 1) rest

/-- The directory from which a metadata write with a new name takes the entry of a node, and the
name that the entry has there. -/
def entryMoved? (tree : Tree) (ref : NodeRef) (node : Node) (newName : String) :
    Option (NodeRef × Node × Entries NodeRef × String) := do
  let parentRef ← tree.parent? ref
  let (parent, entries) ← tree.directory? parentRef
  let oldName ← (tree.nameHeld? entries node.id).filter (· != newName)
  pure (parentRef, parent, entries, oldName)

theorem entryMoved?_eq_some {tree : Tree} {ref parentRef : NodeRef} {node parent : Node}
    {entries : Entries NodeRef} {newName oldName : String}
    (moved : tree.entryMoved? ref node newName = some (parentRef, parent, entries, oldName)) :
    tree.parent? ref = some parentRef ∧ tree.directory? parentRef = some (parent, entries) ∧
      ∃ child childNode, entries.find? oldName = some child ∧
        tree.node? child = some childNode ∧ childNode.id = node.id := by
  simp only [entryMoved?, Option.bind_eq_bind, Option.bind_eq_some_iff, Option.pure_def,
    Option.some.injEq, Prod.mk.injEq, Prod.exists] at moved
  obtain ⟨_, above, _, _, found, _, held, rfl, rfl, rfl, rfl⟩ := moved
  obtain ⟨named, -⟩ := Option.filter_eq_some_iff.mp held
  obtain ⟨child, present, matched⟩ := Entries.find?_of_nameOf?_eq_some named
  obtain ⟨childNode, childThere, sameId⟩ := (Option.any_eq_true _ _).mp matched
  exact ⟨above, found, child, childNode, present, childThere, by simpa using sameId⟩

/-- The tree after a session on this node was closed. -/
def release (tree : Tree) (ref : SessionRef) (nodeRef : NodeRef) : Tree :=
  ((tree.modifyNode nodeRef Node.released).modifySession ref Session.closed).sweep

/-- The tree without this session. -/
def forget (tree : Tree) (ref : SessionRef) : Tree :=
  { tree with sessions := tree.sessions.free ref.place }

theorem session?_forget (tree : Tree) (ref other : SessionRef) :
    (tree.forget ref).session? other = if other = ref then none else tree.session? other := by
  cases other
  cases ref
  simp only [session?, forget, Arena.get?_free, SessionRef.mk.injEq]

/-- A directory was made its own parent. -/
def IsOwnParent (tree : Tree) (ref : NodeRef) : Prop :=
  tree.parent? ref = some ref ∧ (tree.directory? ref).isSome = true

/-- The operations that never return: those that search for a directory on a way up without end, and
those that give a directory which is its own parent a name that no conflict rules out. -/
inductive Stalls (tree : Tree) : Operation → Prop
  | searching {ref graft : NodeRef} {directory node : Node} {entries : Entries NodeRef}
      (name : String)
      (found : tree.directory? ref = some (directory, entries))
      (there : tree.node? graft = some node)
      (valid : Name.isValid name = true)
      (isDirectory : node.kind = .directory)
      (endless : tree.search ref graft = .endless) :
      Stalls tree (.add ref name graft)
  | waiting {ref : NodeRef} {node : Node} {newName : String} (stat : Stat)
      (there : tree.node? ref = some node)
      (wanted : Name.replacement? node.name node.shownName stat.name = .ok (some newName))
      (own : tree.IsOwnParent ref)
      (free : ∀ parentRef parent entries oldName,
        tree.entryMoved? ref node newName = some (parentRef, parent, entries, oldName) →
          entries.find? newName = none) :
      Stalls tree (.writeMetadata ref stat)

/-- The outcomes that an operation can have. -/
inductive Effect (tree : Tree) (setting : Setting) : Operation → Outcome Answer → Prop
  | refused {operation : Operation} (error : TreeError) (checks : List Check)
      (events : List Event) (inquiry : Inquiry tree setting operation checks events) :
      Effect tree setting operation ⟨.error error, tree, checks, events⟩
  | stalled {operation : Operation} (stalls : tree.Stalls operation) :
      Effect tree setting operation tree.stall
  | madeFile (blueprint : Blueprint) (content : List UInt8) :
      Effect tree setting (.makeFile blueprint content)
        ⟨.ok (.node (some tree.nextNode)),
          (tree.addNode fun id => blueprint.file id content setting.clock.now).hold tree.nextNode,
          [], []⟩
  | madeDirectory (blueprint : Blueprint) :
      Effect tree setting (.makeDirectory blueprint)
        ⟨.ok (.node (some tree.nextNode)),
          (tree.addNode fun id => blueprint.directory id setting.clock.now).hold tree.nextNode,
          [], []⟩
  | held (ref : NodeRef) :
      Effect tree setting (.hold ref) ⟨.ok .done, tree.hold ref, [], []⟩
  | letGo (ref : NodeRef) :
      Effect tree setting (.letGo ref) ⟨.ok .done, tree.letGo ref, [], []⟩
  | attached (ref parent : NodeRef) :
      Effect tree setting (.attach ref parent) ⟨.ok .done, tree.attach ref parent, [], []⟩
  | created {ref : NodeRef} {directory : Node} {entries : Entries NodeRef}
      (user name : String) (requested : Mode)
      (found : tree.directory? ref = some (directory, entries))
      (valid : Name.isValid name = true)
      (granted : (setting.check directory user .write).granted = true)
      (free : entries.find? name = none) :
      Effect tree setting (.create ref user name requested)
        ⟨.ok (.node (some tree.nextNode)),
          (tree.addNode (newChild ref directory name requested setting.clock.now)).modifyNode ref
            fun node =>
              (node.withEntries (entries.insert name tree.nextNode)).mutatedBy user
                (setting.clock.after 1),
          [setting.check directory user .write],
          [.created directory.id tree.ids.next.1 name user]⟩
  | added {ref graft : NodeRef} {directory node : Node} {entries : Entries NodeRef}
      (name : String)
      (found : tree.directory? ref = some (directory, entries))
      (there : tree.node? graft = some node)
      (valid : Name.isValid name = true)
      (unmet : node.kind = .directory → tree.search ref graft = .missed)
      (free : entries.find? name = none) :
      Effect tree setting (.add ref name graft)
        ⟨.ok .done,
          (tree.modifyNode graft fun node => node.within ref).modifyNode ref fun node =>
            (node.withEntries (entries.insert name graft)).mutated setting.clock,
          [], [.added directory.id name]⟩
  | renamed {ref child : NodeRef} {directory : Node} {entries : Entries NodeRef}
      (user old new : String)
      (found : tree.directory? ref = some (directory, entries))
      (valid : Name.isValid new = true)
      (granted : (setting.check directory user .write).granted = true)
      (present : entries.find? old = some child)
      (free : entries.find? new = none) :
      Effect tree setting (.rename ref user old new)
        ⟨.ok .done,
          (tree.modifyNode child fun node => { node with name := new }).modifyNode ref fun node =>
            (node.withEntries (entries.move old new)).mutatedBy user setting.clock,
          [setting.check directory user .write],
          [.renamed directory.id old new user]⟩
  | removed {ref child : NodeRef} {directory : Node} {entries : Entries NodeRef}
      (user name : String)
      (found : tree.directory? ref = some (directory, entries))
      (granted : (setting.check directory user .write).granted = true)
      (present : entries.find? name = some child)
      (removable : (tree.node? child).all Node.isRemovable = true) :
      Effect tree setting (.remove ref user name)
        ⟨.ok .done,
          (tree.modifyNode ref fun node =>
            (node.withEntries (entries.erase name)).mutatedBy user setting.clock).sweep,
          [setting.check directory user .write],
          [.removed directory.id name user]⟩
  | walked {ref : NodeRef} {directory : Node} {entries : Entries NodeRef}
      (user name : String)
      (found : tree.directory? ref = some (directory, entries))
      (granted : (setting.check directory user .execute).granted = true) :
      Effect tree setting (.walk ref user name)
        ⟨.ok (.node (tree.lookUp ref entries name)),
          tree.modifyNode ref fun node => node.accessed setting.clock.now,
          [setting.check directory user .execute], []⟩
  | resolved (user path : String) (ending : Ending Answer) (walked : List NodeRef)
      (checks : List Check) (events : List Event)
      (returns : ending ≠ .never)
      (quiet : ∀ event ∈ events, event.level = .debug)
      (answered : Answered setting.policy setting.asked checks events) :
      Effect tree setting (.resolve user path)
        ⟨ending, tree.touchAll setting.clock walked, checks, events⟩
  | revised {ref : NodeRef} {node : Node} {newName : Option String} (stat : Stat)
      (there : tree.node? ref = some node)
      (wanted : Name.replacement? node.name node.shownName stat.name = .ok newName)
      (fits : node.extendedBy stat = false)
      (unmoved : ∀ name, newName = some name → tree.entryMoved? ref node name = none)
      (apart : newName ≠ none → ¬ tree.IsOwnParent ref) :
      Effect tree setting (.writeMetadata ref stat)
        ⟨.ok .done, tree.modifyNode ref fun node => node.revised stat newName setting.clock,
          [], []⟩
  | rekeyed {ref parentRef : NodeRef} {node parent : Node} {entries : Entries NodeRef}
      {oldName newName : String} (stat : Stat)
      (there : tree.node? ref = some node)
      (wanted : Name.replacement? node.name node.shownName stat.name = .ok (some newName))
      (fits : node.extendedBy stat = false)
      (moved : tree.entryMoved? ref node newName = some (parentRef, parent, entries, oldName))
      (free : entries.find? newName = none)
      (apart : parentRef ≠ ref) :
      Effect tree setting (.writeMetadata ref stat)
        ⟨.ok .done,
          (tree.modifyNode ref fun node =>
            node.revised stat (some newName) setting.clock).modifyNode parentRef fun parent =>
              (parent.withEntries (entries.move oldName newName)).mutated
                (node.clockAfter setting.clock),
          [], [.metadataRenamed parent.id node.id oldName newName]⟩
  | openedFile {ref : NodeRef} {node : Node} {content : List UInt8}
      (user : String) (request : Request)
      (there : tree.node? ref = some node)
      (isFile : node.body = .file content)
      (granted : (setting.check node user request).granted = true) :
      Effect tree setting (.openSession ref user request)
        ⟨.ok (.session tree.nextSession),
          (tree.modifyNode ref fun node =>
            if request.truncates && request.wantsWrite then
              ((node.withContent []).mutatedBy user setting.clock).opened setting.clock.now
            else node.opened setting.clock.now).addSession ⟨some ref, 0, .file user⟩,
          [setting.check node user request],
          [.fileOpened node.id user request (node.openCount + 1)]⟩
  | openedDirectory {ref : NodeRef} {node : Node} {entries : Entries NodeRef}
      (user : String) (request : Request)
      (there : tree.node? ref = some node)
      (isDirectory : node.body = .directory entries)
      (granted : (setting.check node user request).granted = true) :
      Effect tree setting (.openSession ref user request)
        ⟨.ok (.session tree.nextSession),
          (tree.modifyNode ref fun node => node.opened setting.clock.now).addSession
            ⟨some ref, 0, .directory none⟩,
          [setting.check node user request],
          [.directoryOpened node.id user request (node.openCount + 1)]⟩
  | soughtFile {ref : SessionRef} {session : Session} {nodeRef : NodeRef} {node : Node}
      {content : List UInt8} {position : Nat} (offset : Int) (origin : Origin)
      (isOpen : tree.OpenOn ref session nodeRef node)
      (isFile : node.body = .file content)
      (leads : session.target? content.length offset origin = some position)
      (within : position ≤ content.length) :
      Effect tree setting (.seek ref offset origin)
        ⟨.ok (.position position),
          (tree.modifyNode nodeRef fun node => node.accessed setting.clock.now).modifySession ref
            fun session => session.movedTo position,
          [], []⟩
  | rewound {ref : SessionRef} {session : Session} {nodeRef : NodeRef} {node : Node}
      {entries : Entries NodeRef} {bytes : List UInt8} (offset : Int) (origin : Origin)
      (isOpen : tree.OpenOn ref session nodeRef node)
      (isDirectory : node.body = .directory entries)
      (leads : session.target? session.snapshotBytes.length offset origin = some 0)
      (listed : tree.listing entries = .ok bytes) :
      Effect tree setting (.seek ref offset origin)
        ⟨.ok (.position 0),
          (tree.modifyNode nodeRef fun node => node.accessed setting.clock.now).modifySession ref
            fun session => (session.withSnapshot bytes).movedTo 0,
          [], []⟩
  | stayed {ref : SessionRef} {session : Session} {nodeRef : NodeRef} {node : Node}
      {entries : Entries NodeRef} (offset : Int) (origin : Origin)
      (isOpen : tree.OpenOn ref session nodeRef node)
      (isDirectory : node.body = .directory entries)
      (leads : session.target? session.snapshotBytes.length offset origin = some session.cursor)
      (beyond : session.cursor ≠ 0) :
      Effect tree setting (.seek ref offset origin)
        ⟨.ok (.position session.cursor),
          tree.modifyNode nodeRef fun node => node.accessed setting.clock.now, [], []⟩
  | readContent {operation : Operation} {ref : SessionRef} {count : Nat} {session : Session}
      {nodeRef : NodeRef} {node : Node} {content : List UInt8}
      (reads : operation.portion? tree = some (ref, count))
      (isOpen : tree.OpenOn ref session nodeRef node)
      (isFile : node.body = .file content) :
      Effect tree setting operation
        ((tree.readFrom (setting.clock.reading (operation.lastReading tree)) ref session nodeRef
          content count).map .bytes)
  | readSnapshot {operation : Operation} {ref : SessionRef} {count : Nat} {session : Session}
      {nodeRef : NodeRef} {node : Node} {entries : Entries NodeRef} {bytes : List UInt8}
      (reads : operation.portion? tree = some (ref, count))
      (isOpen : tree.OpenOn ref session nodeRef node)
      (isDirectory : node.body = .directory entries)
      (taken : session.stream = .directory (some bytes)) :
      Effect tree setting operation
        ((tree.readFrom (setting.clock.reading (operation.lastReading tree)) ref session nodeRef
          bytes count).map .bytes)
  | readFresh {operation : Operation} {ref : SessionRef} {count : Nat} {session : Session}
      {nodeRef : NodeRef} {node : Node} {entries : Entries NodeRef} {bytes : List UInt8}
      (reads : operation.portion? tree = some (ref, count))
      (isOpen : tree.OpenOn ref session nodeRef node)
      (isDirectory : node.body = .directory entries)
      (untaken : ∀ bytes, session.stream ≠ .directory (some bytes))
      (listed : tree.listing entries = .ok bytes) :
      Effect tree setting operation
        (((tree.modifySession ref fun session => session.withSnapshot bytes).readFrom
          (setting.clock.reading (operation.lastReading tree)) ref session nodeRef bytes
          count).map .bytes)
  | written {ref : SessionRef} {session : Session} {nodeRef : NodeRef} {node : Node}
      {content : List UInt8} {user : String} (data : List UInt8)
      (isOpen : tree.OpenOn ref session nodeRef node)
      (isFile : node.body = .file content)
      (ofUser : session.stream = .file user) :
      Effect tree setting (.write ref data)
        ⟨.ok (.count data.length),
          (tree.modifyNode nodeRef fun node =>
            (node.withContent (overwrite node.content session.cursor data)).mutatedBy user
              setting.clock).modifySession ref fun session =>
            session.movedTo (session.cursor + data.length),
          [], []⟩
  | closed {ref : SessionRef} {session : Session} {nodeRef : NodeRef} {node : Node}
      (isOpen : tree.OpenOn ref session nodeRef node) :
      Effect tree setting (.close ref)
        ⟨.ok .done, tree.release ref nodeRef, [], [closedEvent node]⟩
  | droppedOpen {ref : SessionRef} {session : Session} {nodeRef : NodeRef} {node : Node}
      (isOpen : tree.OpenOn ref session nodeRef node) :
      Effect tree setting (.dropSession ref)
        ⟨.ok .done, (tree.release ref nodeRef).forget ref, [], [closedEvent node]⟩
  | droppedClosed (ref : SessionRef)
      (notOpen : ∀ session nodeRef node, ¬ tree.OpenOn ref session nodeRef node) :
      Effect tree setting (.dropSession ref) ⟨.ok .done, tree.forget ref, [], []⟩

end Tree

end MemFs
