import ComposeNix.Compose.Backend
import ComposeNix.Nix.Expr
import ComposeNix.Shell.Word

/-!
# Units that keep volumes and networks

A volume or network of a project exists from when its unit starts until the unit stops.
The unit runs two scripts through a shell.  In a script the name of the resource is one
word, the script is one word of the command line of the unit, and that line stands in a
string of Nix: three layers of quoting, each put on by its own function.
-/

namespace ComposeNix.Lifecycle

open Nix (Binding Expr Piece)

/-- The command of a runtime for one kind of resource. -/
def command (backend : Backend) (kind : String) : List Char :=
  backend.name.toList ++ ' ' :: kind.toList

/-- Makes the resource, unless it is there. -/
def startScript (backend : Backend) (kind name : String) : List Char :=
  command backend kind ++ " inspect ".toList ++ Shell.quote name.toList
    ++ " >/dev/null 2>&1 || ".toList
    ++ command backend kind ++ " create ".toList ++ Shell.quote name.toList

/-- Removes the resource. -/
def stopScript (backend : Backend) (kind name : String) : List Char :=
  command backend kind ++ " rm -f ".toList ++ Shell.quote name.toList

/-- The command line that runs a script in the system's shell. -/
def shellCommand (script : List Char) : Expr :=
  .string [.hole "pkgs.runtimeShell", .text (" -c ".toList ++ Shell.quote script)]

/-- The name of the unit of a resource. -/
def unitName (backend : Backend) (kind name : String) : String :=
  backend.name ++ "-" ++ kind ++ "-" ++ name

/-- The unit of a resource. -/
def unit (backend : Backend) (kind name : String) : Binding :=
  ([.word "systemd", .word "services", .quoted (unitName backend kind name)],
    .set false [
      ([.word "path"], .row [.word ("pkgs." ++ backend.name)]),
      ([.word "serviceConfig"], .set false [
        ([.word "Type"], .ofText "oneshot"),
        ([.word "RemainAfterExit"], .word "true"),
        ([.word "ExecStart"], shellCommand (startScript backend kind name)),
        ([.word "ExecStop"], shellCommand (stopScript backend kind name))]),
      ([.word "wantedBy"], .row [.ofText "multi-user.target"])])

/-- The block of the unit of a resource. -/
def unitBlock (backend : Backend) (kind name : String) : List Char :=
  Nix.renderBlock [unit backend kind name]

end ComposeNix.Lifecycle
