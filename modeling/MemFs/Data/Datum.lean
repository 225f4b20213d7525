/-!
# Plain data

A `Datum` is a value of a plain data notation. Values that enter or leave the library in such a
notation go through it, whatever the notation is.
-/

namespace MemFs

/-- A value of a plain data notation. -/
inductive Datum where
  | null
  | truth (value : Bool)
  | integer (value : Int)
  /-- A number that is not written as an integer. No value of this library is one. -/
  | real
  | text (value : String)
  /-- A date, a time or both. No value of this library is one. -/
  | timestamp
  | list (items : List Datum)
  | record (fields : List (String × Datum))
deriving Inhabited

namespace Datum

/-- The integer, if it is at least zero and below `bound`. -/
def natBelow? (bound : Nat) : Datum → Option Nat
  | .integer value =>
      if 0 ≤ value ∧ value < bound then some value.toNat else none
  | _ => none

def uint8? (datum : Datum) : Option UInt8 :=
  (datum.natBelow? UInt8.size).map UInt8.ofNat

def uint16? (datum : Datum) : Option UInt16 :=
  (datum.natBelow? UInt16.size).map UInt16.ofNat

def uint32? (datum : Datum) : Option UInt32 :=
  (datum.natBelow? UInt32.size).map UInt32.ofNat

def uint64? (datum : Datum) : Option UInt64 :=
  (datum.natBelow? UInt64.size).map UInt64.ofNat

def text? : Datum → Option String
  | .text value => some value
  | _ => none

def truth? : Datum → Option Bool
  | .truth value => some value
  | _ => none

def field? (name : String) : Datum → Option Datum
  | .record fields => fields.lookup name
  | _ => none

def ofNat (value : Nat) : Datum :=
  .integer value

end Datum

end MemFs
