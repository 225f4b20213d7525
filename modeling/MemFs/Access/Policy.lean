import MemFs.Access.Mode
import MemFs.Access.Request

/-!
# Access policies

Nodes never interpret permission bits themselves. They put a query to the policy of the tree, which
may also go by how many queries came before.
-/

namespace MemFs

/-- A question on one access to one node. -/
structure Query where
  isOwner : Bool
  mode : Mode
  request : Request
deriving DecidableEq, Repr

/-- Answers queries, given the number of queries answered before. -/
structure Policy where
  allows : Nat → Query → Bool

namespace Policy

/-- The policy that answers each query by itself. -/
def stateless (decision : Query → Bool) : Policy :=
  ⟨fun _ => decision⟩

/-- The three permission bits that apply: the owner's for the owner and everyone else's for others.
The bits of the group never apply, since nothing tells who is in it. -/
def classOf (query : Query) : UInt32 :=
  let shift : UInt32 := if query.isOwner then 6 else 0
  (query.mode.permissions >>> shift) &&& 7

/-- Whether the permission bits that apply include the access asked for. Modifiers of the request
do not matter. -/
def ownerOtherAllows (query : Query) : Bool :=
  let reads := classOf query &&& 4 != 0
  let writes := classOf query &&& 2 != 0
  let executes := classOf query &&& 1 != 0
  match query.request.access with
  | .read => reads
  | .write => writes
  | .readWrite => reads && writes
  | .execute => executes

/-- Owner bits for the owner, the bits of everyone else for others. -/
def ownerOther : Policy :=
  stateless ownerOtherAllows

def allowAll : Policy :=
  stateless fun _ => true

/-- The answers in order, whatever the queries, and then always yes. -/
def scripted (answers : List Bool) : Policy :=
  ⟨fun asked _ => answers.getD asked true⟩

end Policy

end MemFs
