import MemFs.Error

/-!
# Names and paths

A name is one component of a path. The names `.` and `..` have a meaning of their own, and a path
separates its components by slashes.
-/

namespace MemFs.Name

/-- Whether an entry may have this name. -/
def isValid (name : String) : Bool :=
  name != "" && name != "." && name != ".." && !name.toList.contains '/'

/-- What a metadata write that shows the name `requested` asks for: nothing if that is the present
name, as stored or as shown, and otherwise a new name, which has to be valid. -/
def replacement? (stored shown requested : String) : Except TreeError (Option String) :=
  if requested = stored ∨ requested = shown then .ok none
  else if isValid requested then .ok (some requested)
  else .error .invalidName

/-- The pieces of a text between its slashes. -/
def pieces : List Char → List (List Char)
  | [] => [[]]
  | '/' :: rest => [] :: pieces rest
  | character :: rest =>
      match pieces rest with
      | [] => [[character]]
      | first :: others => (character :: first) :: others

/-- The components of a path. Empty ones do not count. -/
def components (path : String) : List String :=
  ((pieces path.toList).filter fun piece => !piece.isEmpty).map String.ofList

end MemFs.Name
