import MemFs.Data.Datum
import MemFs.Tree.Operation

/-!
# Configurations

A configuration says who owns the root of a new tree, what its permissions are, whether the policy
guards the tree, and where the numbers of nodes start. In plain data everything has a default, and
unknown fields are ignored.
-/

namespace MemFs

/-- The owner and the permissions of the root. -/
structure RootSettings where
  owner : String := "root"
  group : String := "root"
  /-- The permissions; the directory flag goes without saying. -/
  mode : UInt32 := 0o755
deriving DecidableEq, Repr

structure Config where
  root : RootSettings := {}
  /-- Whether permissions are enforced; otherwise everything is allowed. -/
  enforcePermissions : Bool := true
  firstId : UInt64 := 1
deriving DecidableEq, Repr

/-- The fields of a section of a configuration, by name and position. A section may be written as a
record or as a list; one that is written as a timestamp has no field that is known. -/
def Datum.section? : Datum → Option (String → Nat → Option Datum)
  | .record fields => some fun name _ => fields.lookup name
  | .list items => some fun _ position => items[position]?
  | .timestamp => some fun _ _ => none
  | _ => none

/-- Reads a field that may be missing. -/
def Datum.orDefault {α : Type} (read : Datum → Option α) (default : α) :
    Option Datum → Option α
  | none => some default
  | some datum => read datum

namespace RootSettings

def toDatum (root : RootSettings) : Datum :=
  .record
    [("owner", .text root.owner), ("group", .text root.group), ("mode", .ofNat root.mode.toNat)]

def ofDatum? (datum : Datum) : Option RootSettings := do
  let field ← datum.section?
  let owner ← Datum.orDefault Datum.text? "root" (field "owner" 0)
  let group ← Datum.orDefault Datum.text? "root" (field "group" 1)
  let mode ← Datum.orDefault Datum.uint32? 0o755 (field "mode" 2)
  pure { owner, group, mode }

end RootSettings

namespace Config

def securityToDatum (enforcePermissions : Bool) : Datum :=
  .record [("enforce-permissions", .truth enforcePermissions)]

def securityOfDatum? (datum : Datum) : Option Bool := do
  let field ← datum.section?
  Datum.orDefault Datum.truth? true (field "enforce-permissions" 0)

def toDatum (config : Config) : Datum :=
  .record
    [("root", config.root.toDatum), ("security", securityToDatum config.enforcePermissions),
      ("first-id", .ofNat config.firstId.toNat)]

def ofDatum? (datum : Datum) : Option Config := do
  let field ← datum.section?
  let root ← Datum.orDefault RootSettings.ofDatum? {} (field "root" 0)
  let enforcePermissions ← Datum.orDefault securityOfDatum? true (field "security" 1)
  let firstId ← Datum.orDefault Datum.uint64? 1 (field "first-id" 2)
  pure { root, enforcePermissions, firstId }

def policy (config : Config) : Policy :=
  if config.enforcePermissions then .ownerOther else .allowAll

def rootBlueprint (config : Config) : Blueprint where
  name := ""
  mode := .ofDirectory config.root.mode
  owner := config.root.owner
  group := config.root.group

/-- A new tree, with nothing in it but its root. -/
def world (config : Config) (now : UInt32) : World where
  policy := config.policy
  tree := .ofRoot config.rootBlueprint (.counting config.firstId) now
  asked := 0

end Config

end MemFs
