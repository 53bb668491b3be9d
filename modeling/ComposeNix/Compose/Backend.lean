import ComposeNix.Value.Text

/-!
# Container runtimes

The runtime that a module is made for.  Its name is part of unit names, of package
names and of the commands in unit scripts.
-/

namespace ComposeNix

/-- A container runtime. -/
inductive Backend
  | docker
  | podman
  deriving DecidableEq, Repr, Inhabited

namespace Backend

/-- The name of a runtime, which is also its command and its package. -/
def name : Backend → String
  | .docker => "docker"
  | .podman => "podman"

/-- All runtimes. -/
def all : List Backend := [.docker, .podman]

/-- The runtime of this name. -/
def ofName? (s : String) : Option Backend := all.find? fun b => b.name == s

/-- A value that names no runtime. -/
structure Unknown where
  given : Value

/-- What is wrong with a value that names no runtime. -/
def Unknown.message (u : Unknown) : String :=
  match u.given.literal with
  | .ok s => s ++ " is not a valid ContainerBackend"
  | .error fault => fault.message

/-- The runtime that a value names. -/
def ofValue (v : Value) : Except Unknown Backend :=
  match v with
  | .str s =>
    match ofName? s with
    | some b => .ok b
    | none => .error ⟨v⟩
  | v => .error ⟨v⟩

end Backend
end ComposeNix
