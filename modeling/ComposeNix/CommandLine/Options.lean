import ComposeNix.Compose.Backend
import ComposeNix.Text.Quoted
import ComposeNix.Text.Similarity

/-!
# Commands and their options

The program has two commands, `convert` and `inspect`, and options of its own that come
before the command.  This module knows the names of all of them, how a page of help is
laid out, and how a wrong command line is reported.

The arguments of a level are read in one pass (`readArguments`): options are told from
words, values are taken from where they stand, and nothing is looked at twice.
-/

namespace ComposeNix.CommandLine

/-- The levels of the command line. -/
inductive Level
  | program
  | convert
  | inspect
  deriving DecidableEq, Repr

/-- The options. -/
inductive Setting
  | file
  | envFile
  | verbose
  | backend
  | routes
  | out
  | help
  deriving DecidableEq, Repr

namespace Setting

/-- The long name. -/
def long : Setting → String
  | .file => "--file"
  | .envFile => "--env-file"
  | .verbose => "--verbose"
  | .backend => "--backend"
  | .routes => "--routes"
  | .out => "--out"
  | .help => "--help"

/-- The short name, if there is one. -/
def short? : Setting → Option String
  | .file => some "-f"
  | .envFile => none
  | .verbose => some "-v"
  | .backend => some "-b"
  | .routes => some "-r"
  | .out => some "-o"
  | .help => none

/-- Whether a value has to follow. -/
def takesValue : Setting → Bool
  | .verbose | .help => false
  | _ => true

/-- What stands for the value in a page of help. -/
def valueName : Setting → String
  | .file | .out => " TEXT"
  | .envFile | .routes => " FILE"
  | .backend => " [" ++ "|".intercalate (Backend.all.map Backend.name) ++ "]"
  | .verbose | .help => ""

/-- What the option is for. -/
def purpose : Setting → String
  | .file => "Compose file path"
  | .envFile => "Dotenv file with variables for $\x7bVAR\x7d interpolation"
  | .verbose => "Enable debug logging"
  | .backend => "Container runtime"
  | .routes => "YAML file with extra Traefik routes"
  | .out => "Output file, \"-\" for stdout"
  | .help => "Show this message and exit."

/-- The names of an option in a page of help. -/
def heading (s : Setting) : String :=
  (match s.short? with
    | some short => short ++ ", "
    | none => "") ++ s.long ++ s.valueName

/-- The names of an option in a report. -/
def label (s : Setting) : String :=
  " / ".intercalate ((s.long :: s.short?.toList).map fun name => "'" ++ name ++ "'")

end Setting

namespace Level

/-- The options of a level. -/
def settings : Level → List Setting
  | .program => [.file, .envFile, .verbose, .help]
  | .convert => [.backend, .routes, .out, .help]
  | .inspect => [.help]

/-- The words that lead to a level. -/
def path : Level → String
  | .program => "pod2nix"
  | .convert => "pod2nix convert"
  | .inspect => "pod2nix inspect"

/-- What may follow those words. -/
def pattern : Level → String
  | .program => "[OPTIONS] COMMAND [ARGS]..."
  | _ => "[OPTIONS]"

/-- The line that says how a level is used. -/
def usage (l : Level) : String := "Usage: " ++ l.path ++ " " ++ l.pattern ++ "\n"

/-- What a level is for, in lines. -/
def purpose : Level → List String
  | .program => [
    "pod2nix - Docker Compose to NixOS converter.",
    "",
    "Generates a NixOS module with OCI containers, systemd units and Traefik",
    "routes."]
  | .convert => ["Convert the compose file to a NixOS module."]
  | .inspect => ["List services, volumes, networks and Traefik routes."]

/-- The commands by name. -/
def commands : List (String × Level) := [("convert", .convert), ("inspect", .inspect)]

/-- Rows of two columns, the second two blanks to the right of the widest first. -/
def table (rows : List (String × String)) : String :=
  let width := (rows.map fun r => r.1.length).foldl max 0 + 2
  String.join (rows.map fun r =>
    "  " ++ r.1 ++ String.ofList (List.replicate (width - r.1.length) ' ') ++ r.2 ++ "\n")

/-- The page of help of a level. -/
def help (l : Level) : String :=
  l.usage ++ "\n"
    ++ String.join (l.purpose.map fun line => (if line.isEmpty then "" else "  " ++ line) ++ "\n")
    ++ "\nOptions:\n" ++ table (l.settings.map fun s => (s.heading, s.purpose))
    ++ (if l = .program then
        "\nCommands:\n" ++ table (commands.map fun c => (c.1, " ".intercalate c.2.purpose))
      else "")

end Level

/-! ## Wrong command lines -/

/-- What is wrong with a command line. -/
inductive Misuse
  | noSuchOption (name : String) (similar : List String)
  | noSuchCommand (name : String) (similar : List String)
  | noCommand
  | missingValue (name : String)
  | needlessValue (name : String)
  | badValue (setting : Setting) (reason : String)
  | extraWords (words : List String)
  deriving DecidableEq, Repr

namespace Misuse

/-- A hint at names that look like the one given. -/
def hint : List String → String
  | [] => ""
  | [name] => " Did you mean " ++ Text.quoted name ++ "?"
  | names => " (Did you mean one of: " ++ ", ".intercalate (names.map Text.quoted) ++ "?)"

/-- What is wrong, in words. -/
def message : Misuse → String
  | .noSuchOption name similar => "No such option " ++ Text.quoted name ++ "." ++ hint similar
  | .noSuchCommand name similar => "No such command " ++ Text.quoted name ++ "." ++ hint similar
  | .noCommand => "Missing command."
  | .missingValue name => "Option " ++ Text.quoted name ++ " requires an argument."
  | .needlessValue name => "Option " ++ Text.quoted name ++ " does not take a value."
  | .badValue setting reason => "Invalid value for " ++ setting.label ++ ": " ++ reason
  | .extraWords words =>
    (if words.length = 1 then "Got unexpected extra argument (" else
      "Got unexpected extra arguments (") ++ " ".intercalate words ++ ")"

/-- Whether a report says how the program is used.  One on the value of an option does
not. -/
def showsUsage : Misuse → Bool
  | .missingValue _ | .needlessValue _ => false
  | _ => true

/-- The report on a wrong command line. -/
def report (l : Level) (m : Misuse) : String :=
  (if m.showsUsage then l.usage ++ "Try '" ++ l.path ++ " --help' for help.\n\n" else "")
    ++ "Error: " ++ m.message ++ "\n"

end Misuse

/-! ## Reading arguments -/

/-- The names that look most like a text, at most three, in alphabetical order. -/
def similarTo (text : String) (names : List String) : List String :=
  let score (name : String) : Nat × Nat :=
    (2 * Text.paired name.toList text.toList, name.length + text.length)
  let better (a b : String) : Bool :=
    let (m, n) := score a
    let (p, q) := score b
    q * m > p * n || (q * m == p * n && b ≤ a)
  (((names.filter fun name => Text.looksLike name text).mergeSort better).take 3).mergeSort
    (· ≤ ·)

/-- Options with their values, in the order in which they were given. -/
abbrev Given := List (Setting × String)

/-- What an argument that starts with a hyphen holds: options that are complete, and at
most one that wants the next argument, with the name it was given by. -/
structure Cluster where
  complete : Given
  wanting : Option (String × Setting)

/-- The option of a level with this long name. -/
def Level.long? (l : Level) (name : String) : Option Setting :=
  l.settings.find? fun s => s.long == name

/-- The option of a level with this short name. -/
def Level.short? (l : Level) (name : String) : Option Setting :=
  l.settings.find? fun s => s.short? == some name

/-- Reads a row of short options, from behind the hyphen. -/
def readShort (l : Level) : List Char → Except Misuse Cluster
  | [] => .ok ⟨[], none⟩
  | c :: cs =>
    let name := String.ofList ['-', c]
    match l.short? name with
    | none => .error (.noSuchOption name [])
    | some s =>
      if s.takesValue then
        .ok (if cs.isEmpty then ⟨[], some (name, s)⟩ else ⟨[(s, String.ofList cs)], none⟩)
      else (readShort l cs).map fun r => { r with complete := (s, "") :: r.complete }

/-- Name and attached value of a long option. -/
def splitAttached (arg : String) : String × Option String :=
  let cs := arg.toList
  match cs.dropWhile (· ≠ '=') with
  | [] => (arg, none)
  | _ :: value => (String.ofList (cs.takeWhile (· ≠ '=')), some (String.ofList value))

/-- Reads an argument that starts with a hyphen. -/
def readOption (l : Level) (arg : String) : Except Misuse Cluster :=
  let (name, value?) := splitAttached arg
  match l.long? name, value? with
  | some s, some value =>
    if s.takesValue then .ok ⟨[(s, value)], none⟩ else .error (.needlessValue name)
  | some s, none => .ok (if s.takesValue then ⟨[], some (name, s)⟩ else ⟨[(s, "")], none⟩)
  | none, _ =>
    match arg.toList with
    | '-' :: '-' :: _ =>
      .error (.noSuchOption name (similarTo name (l.settings.map Setting.long)))
    | cs => readShort l (cs.drop 1)

/-- Whether an argument is one or more options. -/
def isOption (arg : String) : Bool :=
  match arg.toList with
  | '-' :: _ :: _ => true
  | _ => false

/-- The options and words among the arguments of a level.  Behind `--` every argument is
a word; the words of the program itself begin at the first one. -/
def readArguments (l : Level) : List String → Except Misuse (Given × List String)
  | [] => .ok ([], [])
  | arg :: args =>
    if arg = "--" then .ok ([], args)
    else if isOption arg then do
      let cluster ← readOption l arg
      match cluster.wanting, args with
      | none, args =>
        let (given, words) ← readArguments l args
        return (cluster.complete ++ given, words)
      | some (name, _), [] => .error (.missingValue name)
      | some (_, s), value :: args =>
        let (given, words) ← readArguments l args
        return (cluster.complete ++ (s, value) :: given, words)
    else if l = .program then .ok ([], arg :: args)
    else do
      let (given, words) ← readArguments l args
      return (given, arg :: words)

/-- The last value given for an option. -/
def Given.last? (given : Given) (s : Setting) : Option String :=
  (given.reverse.find? fun g => g.1 = s).map (·.2)

/-- Whether an option was given. -/
def Given.has (given : Given) (s : Setting) : Bool := given.any fun g => g.1 = s

end ComposeNix.CommandLine
