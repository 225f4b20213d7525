/-!
# Sources of node numbers
-/

namespace MemFs

/-- Where the numbers of new nodes come from. -/
inductive IdSource where
  /-- Counts up from the next number and wraps around after the greatest one. -/
  | counting (next : UInt64)
  /-- Hands out the numbers of a list in order and over again. -/
  | cycling (upcoming : List UInt64)
deriving DecidableEq, Repr

namespace IdSource

def sequential : IdSource :=
  .counting 1

/-- The next number and the source after it. An empty cycle gives zero for ever. -/
def next : IdSource → UInt64 × IdSource
  | .counting id => (id, .counting (id + 1))
  | .cycling [] => (0, .cycling [])
  | .cycling (id :: rest) => (id, .cycling (rest ++ [id]))

/-- The next numbers, in the order in which they are handed out. -/
def take : Nat → IdSource → List UInt64
  | 0, _ => []
  | count + 1, source => source.next.1 :: take count source.next.2

end IdSource

end MemFs
