import ComposeNix.Dictionary
import ComposeNix.Text.LowerCase
import ComposeNix.Validation
import ComposeNix.Value.Coercion

/-!
# Services

A service of a manifest with every field in one form: texts, lists of texts and
dictionaries, absent where the manifest has nothing usable.  Manifests allow several
shapes for most fields; `Service.read` takes each to its form, one by one, so a field
depends on nothing but the value under its own key.  A shape that a field does not take
makes the field absent.

Only two things are wrong: a key that is no text, or a text that has no encoding, in the service
or in one of the records inside it, and an integer too long to be written.
-/

namespace ComposeNix

/-- How the health of a container is tested. -/
structure HealthCheck where
  test : Option String
  deriving DecidableEq, Repr

/-- Where a container's output goes. -/
structure Logging where
  driver : Option String
  deriving DecidableEq, Repr

/-- What a container may use at most. -/
structure Limits where
  cpus : Option String
  memory : Option String
  deriving DecidableEq, Repr

/-- A service in canonical form. -/
structure Service where
  image : Option String
  workingDir : Option String
  user : Option String
  restart : Option String
  command : Option (List String)
  entrypoint : Option (List String)
  environment : Option (Dictionary String)
  envFile : Option (List String)
  ports : Option (List String)
  volumes : Option (List String)
  networks : Option (List String)
  dependsOn : Option (List String)
  healthcheck : Option HealthCheck
  privileged : Bool
  capAdd : Option (List String)
  capDrop : Option (List String)
  devices : Option (List String)
  dns : Option (List String)
  extraHosts : Option (List String)
  sysctls : Option (Dictionary String)
  logging : Option Logging
  limits : Option Limits
  labels : Option (Dictionary String)
  deriving DecidableEq, Repr

/-! ## Ports and mounts -/

/-- The value under a key, unless it is null. -/
def Entries.given? (key : String) (es : Entries) : Option Value :=
  match Value.lookup key es with
  | some .null => none
  | v? => v?

/-- The value under a key, if it counts as true. -/
def Entries.truthy? (key : String) (es : Entries) : Option Value :=
  (Value.lookup key es).filter Value.isTruthy

/-- The published side of a port in front of the target: the host's port, and the host's
address if there is one. -/
def publishedPort (es : Entries) (target : String) : Except NumberFault String :=
  match es.given? "published" with
  | none => .ok target
  | some published => do
    let port := (← published.plainText) ++ ":" ++ target
    match es.truthy? "host_ip" with
    | none => return port
    | some address => return (← address.plainText) ++ ":" ++ port

/-- A port in long form as `[host_ip:]published:target[/protocol]`.  Without a target it
is no port. -/
def portOfEntries (es : Entries) : Except NumberFault (Option String) :=
  match es.given? "target" with
  | none => .ok none
  | some target => do
    let port ← publishedPort es (← target.plainText)
    match es.truthy? "protocol" with
    | none => return some port
    | some protocol => return some (port ++ "/" ++ (← protocol.plainText))

/-- A mount in long form as `source:target[:ro]`.  Without source or target it is no
mount. -/
def mountOfEntries (es : Entries) : Except NumberFault (Option String) :=
  match es.truthy? "source", es.truthy? "target" with
  | some source, some target => do
    let mount := (← source.plainText) ++ ":" ++ (← target.plainText)
    return some (if (es.truthy? "read_only").isSome then mount ++ ":ro" else mount)
  | _, _ => .ok none

/-- An entry of a list of ports or mounts, where mappings are the long form. -/
def entryText (long : Entries → Except NumberFault (Option String)) (v : Value) :
    Except NumberFault (Option String) :=
  match v.unfold with
  | .map es => long es
  | .list _ | .null => .ok none
  | _ => v.plainText.map some

/-- The entries of a list of ports or mounts, less those that are none. -/
def entryTexts (long : Entries → Except NumberFault (Option String)) :
    List Value → Except NumberFault (List String)
  | [] => .ok []
  | v :: vs => do
    match ← entryText long v with
    | some s => return s :: (← entryTexts long vs)
    | none => entryTexts long vs

/-- A list of ports or mounts. -/
def longList? (long : Entries → Except NumberFault (Option String)) (v : Value) :
    Except NumberFault (Option (List String)) :=
  match v.items? with
  | some items => (entryTexts long items).map some
  | none => .ok none

/-! ## The other fields -/

/-- A health test: a text, or a list of its words. -/
def testCommand? (v : Value) : Except NumberFault (Option String) :=
  match v.items? with
  | some items => do return some (" ".intercalate (← Value.itemTexts items))
  | none => v.scalarText?

/-- Whether a value says yes: the text `true`, in capitals or not, or what is written
like it. -/
def isYes (v : Value) : Except NumberFault Bool := do
  return Text.toLower (← v.plainText).toList == "true".toList

/-- Reads a health check. -/
def HealthCheck.read (es : Entries) : Checked HealthCheck :=
  es.withKeys (HealthCheck.mk <$> es.field "test" none testCommand?)

/-- Reads a logging section. -/
def Logging.read (es : Entries) : Checked Logging :=
  es.withKeys (Logging.mk <$> es.field "driver" none Value.scalarText?)

/-- Reads resource limits. -/
def Limits.read (es : Entries) : Checked Limits :=
  es.withKeys (Limits.mk <$> es.field "cpus" none Value.scalarText?
    <*> es.field "memory" none Value.scalarText?)

/-- Reads the limits out of a section on resources. -/
def Limits.readResources (es : Entries) : Checked (Option Limits) :=
  es.withKeys (es.record? "limits" Limits.read)

/-- Reads the limits out of a section on deployment. -/
def Limits.readDeploy (es : Entries) : Checked (Option Limits) :=
  es.withKeys (Option.join <$> es.record? "resources" Limits.readResources)

/-- Reads a service. -/
def Service.read (es : Entries) : Checked Service :=
  es.withKeys (Service.mk
    <$> es.field "image" none Value.scalarText?
    <*> es.field "working_dir" none Value.scalarText?
    <*> es.field "user" none Value.scalarText?
    <*> es.field "restart" none Value.scalarText?
    <*> es.field "command" none Value.command?
    <*> es.field "entrypoint" none Value.command?
    <*> es.field "environment" none Value.dictionary?
    <*> es.field "env_file" none Value.texts?
    <*> es.field "ports" none (longList? portOfEntries)
    <*> es.field "volumes" none (longList? mountOfEntries)
    <*> es.field "networks" none Value.names?
    <*> es.field "depends_on" none Value.names?
    <*> es.record? "healthcheck" HealthCheck.read
    <*> es.field "privileged" false isYes
    <*> es.field "cap_add" none Value.texts?
    <*> es.field "cap_drop" none Value.texts?
    <*> es.field "devices" none Value.texts?
    <*> es.field "dns" none Value.texts?
    <*> es.field "extra_hosts" none Value.texts?
    <*> es.field "sysctls" none Value.dictionary?
    <*> es.record? "logging" Logging.read
    <*> (Option.join <$> es.record? "deploy" Limits.readDeploy)
    <*> es.field "labels" none Value.dictionary?)

/-- The service that a value describes. -/
def Service.ofValue (v : Value) : Except Refusal Service :=
  match v.entries? with
  | some es => (Service.read es).result "ServiceSpec"
  | none => .error ⟨"ServiceSpec", [⟨[], .notRecord "ServiceSpec"⟩]⟩

end ComposeNix
