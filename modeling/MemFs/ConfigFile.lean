import MemFs.Config
import MemFs.Text.Quoted
import MemFs.Text.Utf8
import MemFs.Toml.Document

/-!
# Configuration files
-/

namespace MemFs

/-- Why there is no configuration. -/
inductive ConfigError where
  /-- The text is not a document, or not one of a configuration. -/
  | malformed
  /-- The file with this name cannot be read as text. -/
  | unreadable (name : String)
  /-- There is no configuration in the file with this name. -/
  | inFile (name : String) (error : ConfigError)
deriving DecidableEq, Repr

/-- The wording of an error, what was attempted first. -/
def ConfigError.message : ConfigError → String
  | .malformed => "parsing RamFS configuration"
  | .unreadable name => s!"reading config file {Quoted.encode name}"
  | .inFile name error => s!"in config file {Quoted.encode name}: {error.message}"

namespace Config

def ofText (text : String) : Except ConfigError Config :=
  match (Toml.parse text).bind ofDatum? with
  | some config => .ok config
  | none => .error .malformed

/-- The configuration in a file with this name, which may be missing. -/
def ofFile (name : String) (bytes : Option (List UInt8)) : Except ConfigError Config :=
  match bytes.map Utf8.decode with
  | some (.ok text) => (ofText text).mapError (.inFile name)
  | _ => .error (.unreadable name)

end Config

end MemFs
