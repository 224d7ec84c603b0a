import RowAccess.Rest.Service
import RowAccess.Schema.YamlSource

/-!
# Setting up a service

A service is set up from a registry, or from a declaration that is checked first. Unless it is
given a store, its rows live in a new one; unless it is told otherwise, it reads requesters from
headers.
-/

namespace RowAccess

/-- Why a service cannot be set up. -/
inductive SetupFault where
  | noSchema
  | unloadable (path : String) (cause : SchemaFault)
  | schema (cause : SchemaFault)

/-- The wording of a fault; of a file that cannot be loaded it gives the path only. -/
def SetupFault.message : SetupFault → String
  | noSchema =>
    "A schema is required. Call .with_config(), .with_config_file() or .with_registry()"
  | unloadable path _ => "loading schema from " ++ path
  | schema cause => cause.message

/-- What a service is set up from. -/
structure Setup where
  declaration : Option SchemaDeclaration := none
  /-- A registry that was checked before; it counts rather than the declaration. -/
  registry : Option Registry := none
  store : Option Store := none
  service : Service := {}

namespace Setup

/-- Take the declaration from a file, whose contents are given if it can be read. -/
def withFile (setup : Setup) (path : String) (contents : Option String) :
    Except SetupFault Setup :=
  match SchemaDeclaration.ofYamlFile path contents with
  | .ok declaration => .ok { setup with declaration := some declaration }
  | .error cause => .error (.unloadable path cause)

/-- The registry of a setup. -/
def toRegistry (setup : Setup) : Except SetupFault Registry :=
  match setup.registry, setup.declaration with
  | some registry, _ => .ok registry
  | none, some declaration => (Registry.ofDeclaration declaration).mapError .schema
  | none, none => .error .noSchema

/-- The service of a setup, with the store it begins with. -/
def build (setup : Setup) : Except SetupFault (Service × Store) := do
  let registry ← setup.toRegistry
  return (setup.service, setup.store.getD (.new registry))

end Setup

end RowAccess
