import MemFs.Data.Datum

/-!
# Tables

The tables of a document grow while it is read. Which ones may still be extended depends on how they
came about: a table that was only mentioned on the way to another one is implicit, and one that was
mentioned in the key of a value is dotted besides.
-/

namespace MemFs.Toml

mutual

/-- What a name in a table stands for. -/
inductive Item where
  | value (datum : Datum)
  | table (table : Table)
  /-- The tables of a series, the last one last. -/
  | series (tables : List Table)

/-- Items under names. -/
inductive Table where
  | ofItems (implicit dotted : Bool) (items : List (String × Item))

end

mutual

def Item.toDatum : Item → Datum
  | .value datum => datum
  | .table table => table.toDatum
  | .series tables => .list (seriesToData tables)

def Table.toDatum : Table → Datum
  | .ofItems _ _ items => .record (itemsToData items)

def seriesToData : List Table → List Datum
  | [] => []
  | table :: rest => table.toDatum :: seriesToData rest

def itemsToData : List (String × Item) → List (String × Datum)
  | [] => []
  | (name, item) :: rest => (name, item.toDatum) :: itemsToData rest

end

namespace Table

/-- A table under a header of its own. -/
def empty : Table := .ofItems false false []

/-- Whether the table was only mentioned on the way to another one. -/
def isImplicit : Table → Bool
  | .ofItems implicit _ _ => implicit

/-- Whether the table was first mentioned in the key of a value. -/
def isDotted : Table → Bool
  | .ofItems _ dotted _ => dotted

def items : Table → List (String × Item)
  | .ofItems _ _ items => items

def find? (table : Table) (name : String) : Option Item :=
  table.items.lookup name

/-- The table with this item under this name and no other under it. -/
def put (table : Table) (name : String) (item : Item) : Table :=
  .ofItems table.isImplicit table.isDotted
    ((name, item) :: table.items.filter fun entry => entry.1 != name)

/-- The table as one that got a header of its own. -/
def headed (table : Table) : Table :=
  .ofItems false false table.items

/-- Changes the table at the end of a path. Tables that are missing on the way come into being as
implicit ones. A series stands for its last table. A path in the key of a value must not lead
through a table that has a header of its own. -/
def descend (dotted : Bool) (change : Table → Option Table) :
    List String → Table → Option Table
  | [], table => change table
  | name :: rest, table =>
      match table.find? name with
      | none => do
          let child ← descend dotted change rest (.ofItems true dotted [])
          pure (table.put name (.table child))
      | some (.value _) => none
      | some (.series tables) => do
          let child ← descend dotted change rest (← tables.getLast?)
          pure (table.put name (.series (tables.dropLast ++ [child])))
      | some (.table child) =>
          if dotted && !child.isImplicit then none
          else do
            let child ← descend dotted change rest child
            pure (table.put name (.table child))

/-- The table with one more value. Nothing may be under the key yet, and of a key with dots all but
the last name have to lead to a dotted table. -/
def addValue (table : Table) (key : List String × String) (value : Datum) : Option Table :=
  let (path, name) := key
  let addHere (target : Table) : Option Table :=
    if target.isDotted == path.isEmpty then none
    else
      match target.find? name with
      | some _ => none
      | none => some (target.put name (.value value))
  table.descend true addHere path

def addValues (table : Table) (values : List ((List String × String) × Datum)) : Option Table :=
  values.foldlM (fun table (key, value) => table.addValue key value) table

end Table

end MemFs.Toml
