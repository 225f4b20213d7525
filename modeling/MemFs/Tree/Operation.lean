import MemFs.Tree.Metadata
import MemFs.Tree.Namespace
import MemFs.Tree.Sessions

/-!
# Operations and runs

An `Operation` is anything a client can ask of a tree, as a value. A `World` is a tree in use: it
also remembers how often the policy was asked. Whatever happens to a tree is a sequence of
operations, each under a clock of its own.
-/

namespace MemFs

/-- What a client can ask of a tree. -/
inductive Operation where
  | makeFile (blueprint : Blueprint) (content : List UInt8)
  | makeDirectory (blueprint : Blueprint)
  | hold (node : NodeRef)
  | letGo (node : NodeRef)
  | attach (node parent : NodeRef)
  | create (directory : NodeRef) (user name : String) (requested : Mode)
  | add (directory : NodeRef) (name : String) (graft : NodeRef)
  | rename (directory : NodeRef) (user old new : String)
  | remove (directory : NodeRef) (user name : String)
  | walk (directory : NodeRef) (user name : String)
  | resolve (user path : String)
  | writeMetadata (node : NodeRef) (stat : Stat)
  | openSession (node : NodeRef) (user : String) (request : Request)
  | seek (session : SessionRef) (offset : Int) (origin : Origin)
  | read (session : SessionRef) (count : Nat)
  | readAll (session : SessionRef) (portion : Nat)
  | write (session : SessionRef) (data : List UInt8)
  | close (session : SessionRef)
  | dropSession (session : SessionRef)
deriving DecidableEq, Repr

inductive Answer where
  | done
  | node (ref : Option NodeRef)
  | session (ref : SessionRef)
  | position (value : Nat)
  | bytes (value : List UInt8)
  | count (value : Nat)
deriving DecidableEq, Repr

namespace Tree

def perform (tree : Tree) (setting : Setting) : Operation → Outcome Answer
  | .makeFile blueprint content =>
      (tree.makeFile setting.clock.now blueprint content).map fun ref => .node (some ref)
  | .makeDirectory blueprint =>
      (tree.makeDirectory setting.clock.now blueprint).map fun ref => .node (some ref)
  | .hold node => (tree.hold node).accept .done []
  | .letGo node => (tree.letGo node).accept .done []
  | .attach node parent => (tree.attach node parent).accept .done []
  | .create directory user name requested =>
      (tree.create setting directory user name requested).map fun ref => .node (some ref)
  | .add directory name graft => (tree.add setting directory name graft).map fun _ => .done
  | .rename directory user old new =>
      (tree.rename setting directory user old new).map fun _ => .done
  | .remove directory user name =>
      (tree.remove setting directory user name).map fun _ => .done
  | .walk directory user name => (tree.walk setting directory user name).map .node
  | .resolve user path => (tree.resolve setting user path).map .node
  | .writeMetadata node stat => (tree.writeMetadata setting.clock node stat).map fun _ => .done
  | .openSession node user request =>
      (tree.openSession setting node user request).map .session
  | .seek session offset origin => (tree.seek setting.clock.now session offset origin).map .position
  | .read session count => (tree.read setting.clock.now session count).map .bytes
  | .readAll session portion => (tree.readAll setting.clock session portion).map .bytes
  | .write session data => (tree.write setting.clock session data).map .count
  | .close session => (tree.close session).map fun _ => .done
  | .dropSession session => (tree.dropSession session).map fun _ => .done

end Tree

/-- A tree in use under a policy. -/
structure World where
  policy : Policy
  tree : Tree
  /-- The number of queries that the policy answered so far. -/
  asked : Nat

namespace World

def outcome (world : World) (clock : Clock) (operation : Operation) : Outcome Answer :=
  world.tree.perform ⟨world.policy, world.asked, clock⟩ operation

def after {α : Type} (world : World) (outcome : Outcome α) : World :=
  { world with tree := outcome.tree, asked := world.asked + outcome.checks.length }

/-- The world after an operation under this clock. -/
def step (world : World) (clock : Clock) (operation : Operation) : World :=
  world.after (world.outcome clock operation)

def run (world : World) (operations : List (Clock × Operation)) : World :=
  operations.foldl (fun world timed => world.step timed.1 timed.2) world

def outcomes : World → List (Clock × Operation) → List (Outcome Answer)
  | _, [] => []
  | world, (clock, operation) :: rest =>
      world.outcome clock operation :: outcomes (world.step clock operation) rest

end World

end MemFs
