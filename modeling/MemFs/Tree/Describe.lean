import MemFs.Text.Quoted
import MemFs.Tree.Basic

/-!
# Diagnostic forms

One line on a node, a session or a whole tree, for people who look for a fault.
-/

namespace MemFs

namespace Node

/-- The node in short, with its name as shown. -/
def describe (node : Node) : String :=
  let kind :=
    match node.kind with
    | .file => "File"
    | .directory => "Dir"
  s!"{kind} \x7b id: {node.id}, name: {Quoted.encode node.shownName} \x7d"

/-- The node with its size and version, and its name as stored. -/
def describeContents (node : Node) : String :=
  let name := Quoted.encode node.name
  match node.body with
  | .file content =>
      s!"RamFile \x7b id: {node.id}, name: {name}, len: {content.length}, "
        ++ s!"version: {node.version} \x7d"
  | .directory entries =>
      s!"RamDir \x7b id: {node.id}, name: {name}, entries: {entries.size}, "
        ++ s!"version: {node.version} \x7d"

end Node

namespace Tree

def describe (tree : Tree) : String :=
  let root := ((tree.node? tree.root).map Node.describeContents).getD ""
  s!"RamFs \x7b root: {root} \x7d"

/-- The session with the number of its node, while it is open. -/
def describeSession (tree : Tree) (session : Session) : String :=
  let node :=
    match session.node.bind tree.node? with
    | some node => s!"Some({node.id})"
    | none => "None"
  match session.stream with
  | .file user =>
      s!"FileSession \x7b node: {node}, offset: {session.cursor}, "
        ++ s!"user: {Quoted.encode user} \x7d"
  | .directory _ =>
      s!"DirSession \x7b node: {node}, offset: {session.cursor}, "
        ++ s!"snapshot_len: {session.snapshotBytes.length} \x7d"

end Tree

end MemFs
