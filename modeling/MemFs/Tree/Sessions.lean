import MemFs.Stat.Encoding
import MemFs.Tree.Ownership

/-!
# Sessions on a tree

A session is opened on a node with the leave of the policy, which is not asked again. It reads,
writes and moves its cursor until it is closed; from then on everything on it fails.
-/

namespace MemFs.Tree

/-- The listing of a directory: the encoded metadata of its children in the order of their names. -/
def listing (tree : Tree) (entries : Entries NodeRef) : Except RecordError (List UInt8) :=
  Stat.encodeAll ((tree.children entries).map Node.stat)

def openNode? (tree : Tree) (session : Session) : Option (NodeRef × Node) := do
  let ref ← session.node
  let node ← tree.node? ref
  pure (ref, node)

/-- Opens a session on a node, its cursor at the start. Opening a file in order to write may ask to
empty it. -/
def openSession (tree : Tree) (setting : Setting) (ref : NodeRef) (user : String)
    (request : Request) : Outcome SessionRef :=
  match tree.node? ref with
  | none => tree.refuse .nameNotFound []
  | some node =>
      let check := setting.check node user request
      if !check.granted then (tree.deny node user request).afterCheck check
      else
        let now := setting.clock.now
        let opens := node.openCount + 1
        let session := tree.nextSession
        match node.body with
        | .file _ =>
            let changed := tree.modifyNode ref fun node =>
              if request.truncates && request.wantsWrite then
                ((node.withContent []).mutatedBy user setting.clock).opened now
              else node.opened now
            (changed.addSession ⟨some ref, 0, .file user⟩ |>.accept session
              [.fileOpened node.id user request opens]).afterCheck check
        | .directory _ =>
            let changed := tree.modifyNode ref fun node => node.opened now
            (changed.addSession ⟨some ref, 0, .directory none⟩ |>.accept session
              [.directoryOpened node.id user request opens]).afterCheck check

/-- Moves the cursor of a file session, to the end of the content at most. -/
def seekFile (tree : Tree) (now : UInt32) (ref : SessionRef) (session : Session)
    (nodeRef : NodeRef) (content : List UInt8) (offset : Int) (origin : Origin) : Outcome Nat :=
  match session.target? content.length offset origin with
  | none => tree.refuse .invalidSeek []
  | some position =>
      if content.length < position then tree.refuse .seekPastEnd []
      else
        ((tree.modifyNode nodeRef fun node => node.accessed now).modifySession ref fun session =>
          session.movedTo position).accept position []

/-- Moves the cursor of a directory session: to where it is, or to the start, which takes a new
snapshot. -/
def seekDirectory (tree : Tree) (now : UInt32) (ref : SessionRef) (session : Session)
    (nodeRef : NodeRef) (node : Node) (entries : Entries NodeRef) (offset : Int)
    (origin : Origin) : Outcome Nat :=
  match session.target? session.snapshotBytes.length offset origin with
  | none => tree.refuse .invalidSeek []
  | some position =>
      if position = 0 then
        match tree.listing entries with
        | .error error => tree.refuse (.encoding error) []
        | .ok bytes =>
            ((tree.modifyNode nodeRef fun node => node.accessed now).modifySession ref
              fun session => (session.withSnapshot bytes).movedTo 0).accept 0 []
      else if position = session.cursor then
        (tree.modifyNode nodeRef fun node => node.accessed now).accept position []
      else
        tree.refuse .invalidSeek [.seekRejected node.id position session.cursor]

def seek (tree : Tree) (now : UInt32) (ref : SessionRef) (offset : Int) (origin : Origin) :
    Outcome Nat :=
  match tree.session? ref with
  | none => tree.refuse .notOpen []
  | some session =>
      match tree.openNode? session with
      | none => tree.refuse .notOpen []
      | some (nodeRef, node) =>
          match node.body with
          | .file content => tree.seekFile now ref session nodeRef content offset origin
          | .directory entries =>
              tree.seekDirectory now ref session nodeRef node entries offset origin

/-- Reads at the cursor from these bytes, as many as asked for and as there are. -/
def readFrom (tree : Tree) (now : UInt32) (ref : SessionRef) (session : Session)
    (nodeRef : NodeRef) (bytes : List UInt8) (count : Nat) : Outcome (List UInt8) :=
  let portion := (bytes.drop session.cursor).take count
  ((tree.modifyNode nodeRef fun node => node.accessed now).modifySession ref fun session =>
    session.movedTo (session.cursor + portion.length)).accept portion []

/-- Reads at the cursor of a session, at most this many bytes. A directory session that has no
snapshot takes one. -/
def read (tree : Tree) (now : UInt32) (ref : SessionRef) (count : Nat) :
    Outcome (List UInt8) :=
  match tree.session? ref with
  | none => tree.refuse .notOpen []
  | some session =>
      match tree.openNode? session with
      | none => tree.refuse .notOpen []
      | some (nodeRef, node) =>
          match node.body, session.stream with
          | .file content, _ => tree.readFrom now ref session nodeRef content count
          | .directory _, .directory (some bytes) =>
              tree.readFrom now ref session nodeRef bytes count
          | .directory entries, _ =>
              match tree.listing entries with
              | .error error => tree.refuse (.encoding error) []
              | .ok bytes =>
                  (tree.modifySession ref fun session => session.withSnapshot bytes).readFrom now
                    ref session nodeRef bytes count

/-- The number of bytes that a session moves over, with a new snapshot where it has none. -/
def streamLength (tree : Tree) (ref : SessionRef) : Nat :=
  match (tree.session? ref).bind fun session => (tree.openNode? session).map (session, ·) with
  | none => 0
  | some (session, _, node) =>
      match node.body, session.stream with
      | .file content, _ => content.length
      | .directory _, .directory (some bytes) => bytes.length
      | .directory entries, _ =>
          match tree.listing entries with
          | .error _ => 0
          | .ok bytes => bytes.length

/-- How many portions of this size are left from the cursor of a session on, the last of which may
be shorter. -/
def portionsLeft (tree : Tree) (ref : SessionRef) (portion : Nat) : Nat :=
  let cursor := ((tree.session? ref).map Session.cursor).getD 0
  (tree.streamLength ref - cursor + (portion - 1)) / portion

/-- What a reader gets who asks for a portion of this size again and again until nothing comes: all
bytes from the cursor on, whatever the size, unless nothing is asked for. Every portion reads the
clock, and so does the one that does not come. -/
def readAll (tree : Tree) (clock : Clock) (ref : SessionRef) (portion : Nat) :
    Outcome (List UInt8) :=
  tree.read (clock.reading (tree.portionsLeft ref portion)) ref
    (if portion = 0 then 0 else tree.streamLength ref)

/-- The content after bytes were written at a position. A gap before them is filled with zeros. -/
def overwrite (content : List UInt8) (position : Nat) (data : List UInt8) : List UInt8 :=
  content.take position ++ List.replicate (position - content.length) 0 ++ data
    ++ content.drop (position + data.length)

def write (tree : Tree) (clock : Clock) (ref : SessionRef) (data : List UInt8) : Outcome Nat :=
  match tree.session? ref with
  | none => tree.refuse .notOpen []
  | some session =>
      match tree.openNode? session with
      | none => tree.refuse .notOpen []
      | some (nodeRef, node) =>
          match node.body, session.stream with
          | .file _, .file user =>
              let changed := tree.modifyNode nodeRef fun node =>
                (node.withContent (overwrite node.content session.cursor data)).mutatedBy user clock
              (changed.modifySession ref fun session =>
                session.movedTo (session.cursor + data.length)).accept data.length []
          | _, _ => tree.refuse .isADirectory []

def closedEvent (node : Node) : Event :=
  match node.body with
  | .file _ => .fileClosed node.id node.released.openCount
  | .directory _ => .directoryClosed node.id node.released.openCount

/-- Closes a session. It stays, without its node. -/
def close (tree : Tree) (ref : SessionRef) : Outcome Unit :=
  match tree.session? ref with
  | none => tree.refuse .notOpen []
  | some session =>
      match tree.openNode? session with
      | none => tree.refuse .notOpen []
      | some (nodeRef, node) =>
          let changed := (tree.modifyNode nodeRef Node.released).modifySession ref Session.closed
          changed.sweep.accept () [closedEvent node]

/-- Gives up a session, which closes it if it is open. -/
def dropSession (tree : Tree) (ref : SessionRef) : Outcome Unit :=
  let closing := tree.close ref
  let dropped := { closing.tree with sessions := closing.tree.sessions.free ref.place }
  dropped.accept () closing.events

end MemFs.Tree
