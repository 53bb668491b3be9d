import ComposeNix.Container.Options
import ComposeNix.Nix.Expr
import ComposeNix.Notice
import ComposeNix.Text.Split

/-!
# Container declarations

A service becomes a declaration under `virtualisation.oci-containers.containers`.  A
field stands in it only if the service has something to say there; the environment is
the one field that is written even when it is empty.

A declaration has room for one executable, so the words of an entrypoint after the first
are dropped, and a notice says so.  Labels for the router are not passed on: they have
been turned into routes.
-/

namespace ComposeNix

open Nix (Attr Binding Expr)

/-! ## Values of the fields -/

/-- A mount as the runtime takes it.  A bare volume name stands for the project's own
volume of that name, mounted at it. -/
def mountFor (project mount : String) : String :=
  if mount.toList.contains ':' then mount else project ++ "_" ++ mount ++ ":" ++ mount ++ ":rw"

/-- What the labels for the router begin with. -/
def routerLabel : String := "traefik."

/-- The driver that takes the place of the one that logs to a file. -/
def nativeLogDriver : String := "journald"

namespace Service

/-- The labels that the container keeps. -/
def containerLabels (s : Service) : Dictionary String :=
  (s.labels.getD []).filter fun e => !Text.startsWith routerLabel e.1

/-- The log driver of the container. -/
def logDriver (s : Service) : Option String :=
  (s.logging.bind Logging.driver).map fun d => if d = "json-file" then nativeLogDriver else d

/-- The executable of the container. -/
def executable (s : Service) : Option String := (s.entrypoint.getD []).head?

/-- What is worth telling about the declaration of a service. -/
def notices (name : String) (s : Service) : List Notice :=
  match s.entrypoint with
  | some (_ :: word :: words) => [.droppedArguments name (word :: words)]
  | _ => []

end Service

/-! ## The declaration -/

/-- A binding of a text that is there and not empty. -/
def textBinding (key : String) (s? : Option String) : List Binding :=
  ((nonEmpty? s?).map fun s => ([.word key], Expr.ofText s)).toList

/-- A binding of a list of texts that is not empty. -/
def columnBinding (key : String) (items : List String) : List Binding :=
  if items.isEmpty then [] else [([.word key], Expr.texts items)]

/-- The entries of a dictionary as bindings under quoted names. -/
def entryBindings (d : Dictionary String) : List Binding :=
  d.map fun e => ([Attr.quoted e.1], Expr.ofText e.2)

namespace Service

/-- The environment of a container, if the service has one. -/
def environmentBinding (s : Service) : List Binding :=
  match s.environment with
  | none => []
  | some d => [([.word "environment"], .set false (entryBindings d))]

/-- The command of a container. -/
def commandBinding (s : Service) : List Binding :=
  match s.command with
  | none | some [] => []
  | some words => [([.word "cmd"], .row (words.map Expr.ofText))]

/-- The labels of a container, if any are left. -/
def labelsBinding (s : Service) : List Binding :=
  if s.containerLabels.isEmpty then []
  else [([.word "labels"], .set false (entryBindings s.containerLabels))]

/-- The fields of a declaration. -/
def declarationFields (project : String) (s : Service) : List Binding :=
  textBinding "image" s.image
    ++ s.environmentBinding
    ++ columnBinding "environmentFiles" (s.envFile.getD [])
    ++ columnBinding "volumes" ((s.volumes.getD []).map (mountFor project))
    ++ columnBinding "ports" (s.ports.getD [])
    ++ textBinding "entrypoint" s.executable
    ++ s.commandBinding
    ++ textBinding "workdir" s.workingDir
    ++ textBinding "user" s.user
    ++ s.labelsBinding
    ++ columnBinding "dependsOn" (s.dependsOn.getD [])
    ++ textBinding "log-driver" s.logDriver
    ++ columnBinding "extraOptions" s.extraOptions

/-- The declaration of a service's container. -/
def declaration (project name : String) (s : Service) : Binding :=
  ([.word "virtualisation", .word "oci-containers", .word "containers", .quoted name],
    .set false (s.declarationFields project))

/-- The block of a service's container. -/
def containerBlock (project name : String) (s : Service) : List Char :=
  Nix.renderBlock [s.declaration project name]

end Service
end ComposeNix
