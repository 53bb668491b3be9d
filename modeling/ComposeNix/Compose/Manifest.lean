import ComposeNix.Compose.Service

/-!
# Manifests

A manifest names a project and declares its services, volumes and networks.  Keys of
the services are turned into text, and of two that become the same text the later
service takes the place of the earlier; a service that is no mapping is an empty one.
-/

namespace ComposeNix

/-- A manifest in canonical form. -/
structure Manifest where
  services : Dictionary Service
  volumes : List String
  networks : List String
  name : Option String
  deriving DecidableEq, Repr

namespace Manifest

/-- The name of the project that has none. -/
def defaultProject : String := "myproject"

/-- The name of the project. -/
def projectName (m : Manifest) : String :=
  match m.name with
  | none | some "" => defaultProject
  | some name => name

/-! ## Reading -/

/-- The bodies of the services under their names. -/
def bodies : Entries → Except NumberFault (List (String × Entries))
  | [] => .ok []
  | (k, v) :: es => do
    let name ← k.plainText
    return (name, v.entries?.getD []) :: (← bodies es)

/-- Reads the services of a manifest. -/
def readServices (v : Value) : Checked (Dictionary Service) :=
  match bodies (v.entries?.getD []) with
  | .error fault => .issue [] [] (.unwritable fault)
  | .ok named => .all ((Dictionary.ofEntries named).map fun e =>
      ((e.1, ·) <$> Service.read e.2).under e.1)

/-- The services of a manifest, which have to be there. -/
def servicesField (es : Entries) : Checked (Dictionary Service) :=
  match Value.lookup "services" es with
  | none => .issue [] ["services"] .missing
  | some v => (readServices v).under "services"

/-- Names that are declared by a list or a mapping, and none otherwise. -/
def declaredNames (v : Value) : Except NumberFault (List String) :=
  v.names?.map (·.getD [])

/-- Reads a manifest. -/
def read (es : Entries) : Checked Manifest :=
  es.withKeys (Manifest.mk
    <$> servicesField es
    <*> es.field "volumes" [] declaredNames
    <*> es.field "networks" [] declaredNames
    <*> es.field "name" none Value.scalarText?)

/-- The manifest that a value describes. -/
def ofValue (v : Value) : Except Refusal Manifest :=
  match v.entries? with
  | some es => (read es).result "ComposeManifest"
  | none => .error ⟨"ComposeManifest", [⟨[], .notRecord "ComposeManifest"⟩]⟩

/-! ## What needs a unit of its own -/

/-- The names of a row, each where it first occurs. -/
def distinct : List String → List String
  | [] => []
  | x :: xs => x :: (distinct xs).filter (· != x)

/-- The volume that a mount refers to by name.  A mount with a slash is a directory. -/
def mountedVolume? (mount : String) : Option String :=
  if mount.toList.contains '/' then none
  else
    let name := mount.toList.takeWhile (· ≠ ':')
    if name.isEmpty then none else some (String.ofList name)

/-- The volumes that the services mount by name. -/
def mountedVolumes (m : Manifest) : List String :=
  m.services.flatMap fun e => (e.2.volumes.getD []).filterMap mountedVolume?

/-- The volumes that the project owns: those it declares, then those its services mount,
each once. -/
def ownVolumes (m : Manifest) : List String := distinct (m.volumes ++ m.mountedVolumes)

/-- The networks that the project owns: those it declares, each once. -/
def ownNetworks (m : Manifest) : List String := distinct m.networks

end Manifest
end ComposeNix
