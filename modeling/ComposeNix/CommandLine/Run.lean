import ComposeNix.CommandLine.Options
import ComposeNix.Conversion
import ComposeNix.EnvFile
import ComposeNix.Text.Lines
import ComposeNix.Text.Terminal

/-!
# Running a command line

A run is a function of the arguments and of what stands under the paths that they name.
It answers what is printed, what is written and how it ends.

The last step of a run prints texts or writes one to a file, and for that a text has to be encoded.
A text that has no encoding ends the run: what was printed before it stays, and a file that was
opened for it stays empty (`Delivery`).  A run that stops before its last step writes nothing.

What is printed is encoded as UTF-8, and so are files.  Reports on the way, which go to another
channel, are printed whatever they hold.  No terminal is attached, and the process is given no
variables from outside.
-/

namespace ComposeNix.CommandLine

/-! ## Files -/

/-- What stands under a path. -/
inductive Entry
  | file (text : String)
  | directory
  /-- Nothing, but a file can be made there. -/
  | absent
  /-- Nothing, and no directory for a file either. -/
  | nowhere
  deriving DecidableEq, Repr

/-- What stands under every path. -/
abbrev Files := String → Entry

/-- Whether something stands under a path. -/
def Entry.isThere : Entry → Bool
  | .file _ | .directory => true
  | _ => false

/-- Why a file cannot be opened. -/
inductive OpenFault
  | missing
  | directory
  deriving DecidableEq, Repr

/-- Why a file cannot be opened, in words. -/
def OpenFault.message (path : String) : OpenFault → String
  | .missing => "[Errno 2] No such file or directory: " ++ Text.quoted path
  | .directory => "[Errno 21] Is a directory: " ++ Text.quoted path

/-! ## Outcomes -/

/-- A fault that no report is made for. -/
inductive Crash
  | conversion (fault : ConversionFault)
  | routes (path : String) (fault : Yaml.Fault)
  | unopened (path : String) (fault : OpenFault)
  /-- A text that has to be printed, written or told has no encoding. -/
  | unencodable (fault : Text.Unencodable)

/-- A crash in words. -/
def Crash.message : Crash → String
  | .conversion fault => fault.message
  | .routes path fault => fault.message (.file path)
  | .unopened path fault => fault.message path
  | .unencodable fault => fault.message

/-- How a run ends. -/
inductive Ending
  | exit (code : Nat)
  | crash (fault : Crash)

/-- What a run prints and writes, and how it ends. -/
structure Outcome where
  output : String
  errors : String
  written : List (String × String)
  ending : Ending

/-- What the last step of a run prints and writes, and why it breaks off, if it does. -/
structure Delivery where
  output : String
  written : List (String × String)
  fault : Option Crash

/-- Why a run stops short. -/
inductive Stop
  /-- A page of help was asked for. -/
  | help (level : Level)
  /-- No argument at all was given. -/
  | noArguments
  | misuse (level : Level) (cause : Misuse)
  | failure (message : String)
  | crash (fault : Crash)

/-! ## What is printed -/

/-- A text as it is printed where no terminal shows it: without control sequences. -/
def plain (s : String) : String := String.ofList (Text.withoutControls s.toList)

/-- Prints texts one after the other, up to the first that has no encoding. -/
def printed : List String → Delivery
  | [] => ⟨"", [], none⟩
  | s :: rest =>
    match Text.encode (plain s) with
    | .error fault => ⟨"", [], some (.unencodable fault)⟩
    | .ok s => { printed rest with output := s ++ (printed rest).output }

/-- A notice as it is reported. -/
def reportNotice (n : Notice) : String :=
  "[" ++ n.weight.name ++ "] " ++ n.channel ++ ": " ++ Text.shown n.message ++ "\n"

/-- The notices that are reported: all of them if `verbose`, and warnings always. -/
def reported (verbose : Bool) (notices : List Notice) : String :=
  String.join ((notices.filter fun n => verbose || n.weight == .warning).map reportNotice)

/-! ## Steps of a run -/

/-- A step: what comes of it, and what is worth telling. -/
abbrev Run (α : Type) := Except Stop α × List Notice

/-- One step after another. -/
def Run.andThen {α β : Type} (r : Run α) (next : α → Run β) : Run β :=
  match r with
  | (.error stop, notices) => (.error stop, notices)
  | (.ok a, notices) => ((next a).1, notices ++ (next a).2)

/-- A step without notices. -/
def Run.quiet {α : Type} (r : Except Stop α) : Run α := (r, [])

/-- The text of a file. -/
def openFile (files : Files) (path : String) : Except Stop String :=
  match files path with
  | .file text => .ok (String.ofList (Text.unifyLineEnds text.toList))
  | .directory => .error (.crash (.unopened path .directory))
  | _ => .error (.crash (.unopened path .missing))

/-- The manifest has to be there. -/
def readManifest (files : Files) (path : String) : Except Stop String :=
  if (files path).isThere then openFile files path else .error (.failure (path ++ " not found."))

/-! ## Values of options -/

/-- Checks that an option names a file. -/
def checkFile (files : Files) (l : Level) (s : Setting) (path : String) : Except Stop Unit :=
  match files path with
  | .file _ => .ok ()
  | .directory =>
    .error (.misuse l (.badValue s ("File " ++ Text.quoted path ++ " is a directory.")))
  | _ => .error (.misuse l (.badValue s ("File " ++ Text.quoted path ++ " does not exist.")))

/-- Checks that an option names a runtime. -/
def checkBackend (l : Level) (s : Setting) (name : String) : Except Stop Unit :=
  if (Backend.ofName? name).isSome then .ok ()
  else .error (.misuse l (.badValue s (Text.quoted name ++ " is not one of "
    ++ ", ".intercalate (Backend.all.map fun b => Text.quoted b.name) ++ ".")))

/-- Checks the value of an option. -/
def checkSetting (files : Files) (l : Level) (s : Setting) (value : String) : Except Stop Unit :=
  match s with
  | .envFile | .routes => checkFile files l s value
  | .backend => checkBackend l s value
  | _ => .ok ()

/-- Checks the options of a level, each by its last value, in the order in which they were
first given. -/
def checkGiven (files : Files) (l : Level) (given : Given) : Given → Except Stop Unit
  | [] => .ok ()
  | (s, value) :: rest => do
    checkSetting files l s ((given.last? s).getD value)
    checkGiven files l given rest

/-- Reads the arguments of a level and checks its options.  Help comes before all checks. -/
def readLevel (files : Files) (l : Level) (args : List String) :
    Except Stop (Given × List String) := do
  let (given, words) ← (readArguments l args).mapError (Stop.misuse l)
  if given.has .help then throw (.help l)
  checkGiven files l given given
  return (given, words)

/-! ## Commands -/

/-- What both commands need: the path of the manifest, and the variables. -/
structure Setup where
  path : String
  context : Option Template.Context

/-- The routing rules of a list, counted from `place`. -/
def routesFrom (path : String) (place : Nat) : List Value → Except Stop (List RoutingRule)
  | [] => .ok []
  | v :: vs =>
    match RoutingRule.ofValue v with
    | .error (.refused refusal) =>
      .error (.failure ("Invalid route #" ++ toString place ++ " in " ++ path ++ ": "
        ++ Text.shown refusal.message))
    | .error (.unencodable fault) => .error (.crash (.unencodable fault))
    | .ok rule => (routesFrom path (place + 1) vs).map (rule :: ·)

/-- The routing rules in a file.  An empty file holds none.

The text is looked through for forbidden characters as a whole.  A reader that takes a file in
pieces looks through 8192 characters first and through the rest when it comes to it.  Where it finds
something else at fault in front of a forbidden character of the rest, it reports that, and not the
character.
-/
def readRoutes (files : Files) (path : String) : Except Stop (List RoutingRule) := do
  let lead := "Invalid routing file " ++ path ++ ": "
  let text ← openFile files path
  match Yaml.load text.toList with
  | .error fault =>
    if fault.grade = .document then .error (.failure (lead ++ fault.message (.file path)))
    else .error (.crash (.routes path fault))
  | .ok .null => return []
  | .ok v =>
    match v.items? with
    | some items => routesFrom path 1 items
    | none => .error (.failure (lead ++ "expected a list of routes"))

/-- Whether a fault in a conversion is reported, and does not crash the run. -/
def isReported : ConversionFault → Bool
  | .badRule ⟨_, .refused _⟩ => true
  | .badRule ⟨_, .unencodable _⟩ => false
  | .badManifest (.unreadable _ fault) => fault.grade ≠ .unforeseen
  | .badManifest _ => true
  | .badBackend _ | .badLabels _ => false

/-- A fault in a conversion ends the run. -/
def stopFor (fault : ConversionFault) : Stop :=
  if isReported fault then .failure (Text.shown fault.message) else .crash (.conversion fault)

/-- Prints the module, or writes it to a file.  Opening the file empties it. -/
def deliver (files : Files) (out : String) (module : String) : Except Stop Delivery :=
  if out = "-" then .ok (printed [module])
  else
    match files out with
    | .directory => .error (.crash (.unopened out .directory))
    | .nowhere => .error (.crash (.unopened out .missing))
    | _ =>
      match Text.encode module with
      | .error fault => .ok ⟨"", [(out, "")], some (.unencodable fault)⟩
      | .ok text => .ok ⟨plain ("NixOS module written to " ++ out) ++ "\n", [(out, text)], none⟩

/-- The rules of the file that an option names, if it was given. -/
def givenRoutes (files : Files) (given : Given) : Except Stop (List RoutingRule) :=
  match given.last? .routes with
  | none | some "" => .ok []
  | some path => readRoutes files path

/-- The command `convert`. -/
def runConvert (files : Files) (setup : Setup) (given : Given) : Run Delivery :=
  let inputs : Except Stop (String × List RoutingRule) := do
    let text ← readManifest files setup.path
    return (text, ← givenRoutes files given)
  (Run.quiet inputs).andThen fun (text, rules) =>
    let backend := (given.last? .backend).getD Backend.docker.name
    let (result, notices) := convertWith text (.str backend) rules setup.context
    Run.andThen (result.mapError stopFor, notices) fun module =>
      Run.quiet (deliver files ((given.last? .out).getD "-") module)

/-- A text in a column of this width. -/
def column (width : Nat) (s : String) : String :=
  s ++ String.ofList (List.replicate (width - Text.length s) ' ')

/-- Names in a row, or a hyphen for none. -/
def orHyphen (names : List String) : String :=
  if names.isEmpty || (", ".intercalate names).isEmpty then "-" else ", ".intercalate names

/-- A route in the overview. -/
def routeLine (r : RoutingRule) : String :=
  "  " ++ r.name ++ ": " ++ r.host.getD "None" ++ " -> " ++ r.url.getD "None"
    ++ " (" ++ r.entrypoint ++ ")"

/-- What a manifest declares, line by line. -/
def summary (m : Manifest) : List String :=
  ["Project: " ++ m.projectName,
    column 20 "SERVICE" ++ " " ++ column 30 "IMAGE",
    String.ofList (List.replicate 51 '-')]
  ++ m.services.map (fun e =>
      column 20 e.1 ++ " " ++ column 30 ((nonEmpty? e.2.image).getD "-"))
  ++ ["Volumes: " ++ orHyphen m.ownVolumes,
    "Networks: " ++ orHyphen m.ownNetworks]

/-- The routes of a manifest, line by line. -/
def routeLines (m : Manifest) : List String :=
  (if m.routes.isEmpty then "Routes: -" else "Routes:") :: m.routes.map routeLine

/-- The overview of a manifest, line by line. -/
def overview (m : Manifest) : List String := summary m ++ routeLines m

/-- What is worth telling about the routes of an overview, as far as the reading of the labels
gets. -/
def routeNotices (m : Manifest) : List Notice :=
  m.readThrough.flatMap (fun e => e.2.routeNotices e.1)
    ++ (m.break?.map fun broken => broken.1.2.routeNotices broken.1.1).getD []

/-- Prints the overview of a manifest.  The routes are read when the rest has been printed. -/
def inspect (m : Manifest) : Delivery × List Notice :=
  let line (s : String) : String := s ++ "\n"
  let head := printed ((summary m).map line)
  match head.fault, m.break? with
  | some _, _ => (head, [])
  | none, some (_, fault) => ({ head with fault := some (.unencodable fault) }, routeNotices m)
  | none, none => (printed ((overview m).map line), routeNotices m)

/-- The command `inspect`. -/
def runInspect (files : Files) (setup : Setup) : Run Delivery :=
  (Run.quiet (readManifest files setup.path)).andThen fun text =>
    let (result, notices) := Manifest.ofText setup.context text
    Run.andThen (result.mapError (stopFor ∘ .badManifest), notices) fun m =>
      (.ok (inspect m).1, (inspect m).2)

/-! ## The program -/

/-- Finds the command among the words. -/
def findCommand (files : Files) : List String → Except Stop (Level × List String)
  | [] => .error (.misuse .program .noCommand)
  | name :: args =>
    match Level.commands.lookup name with
    | some level => .ok (level, args)
    | none => do
      if name.toList.head? = some '-' then
        let _ ← readLevel files .program (name :: args)
      throw (.misuse .program (.noSuchCommand name (similarTo name (Level.commands.map (·.1)))))

/-- The variables of the file that an option names, if it was given. -/
def givenContext (files : Files) (given : Given) : Run (Option Template.Context) :=
  match given.last? .envFile with
  | none | some "" => (.ok none, [])
  | some path =>
    match openFile files path with
    | .error stop => (.error stop, [])
    | .ok text => (.ok (some (EnvFile.context text)), EnvFile.notices text)

/-- Runs a command under the options of the program. -/
def runCommand (files : Files) (given : Given) (level : Level) (args : List String) :
    Run Delivery :=
  (givenContext files given).andThen fun context =>
    let setup : Setup := ⟨(given.last? .file).getD "docker-compose.yml", context⟩
    let read : Except Stop Given := do
      let (own, words) ← readLevel files level args
      if words.isEmpty then return own else throw (.misuse level (.extraWords words))
    (Run.quiet read).andThen fun own =>
      match level with
      | .convert => runConvert files setup own
      | _ => runInspect files setup

/-- Reads the options of the program and finds the command. -/
def readProgram (files : Files) (args : List String) :
    Except Stop (Given × Level × List String) := do
  if args.isEmpty then throw .noArguments
  let (given, words) ← readLevel files .program args
  return (given, ← findCommand files words)

/-- What is printed and how the run ends when it stops short. -/
def stopped (log : String) : Stop → Outcome
  | .help level => ⟨level.help, log, [], .exit 0⟩
  | .noArguments => ⟨"", log ++ Level.program.help, [], .exit 2⟩
  | .misuse level cause => ⟨"", log ++ plain (cause.report level), [], .exit 2⟩
  | .failure message => ⟨"", log ++ plain ("Error: " ++ message) ++ "\n", [], .exit 1⟩
  | .crash fault => ⟨"", log, [], .crash fault⟩

/-- Runs a command line. -/
def run (files : Files) (args : List String) : Outcome :=
  match readProgram files args with
  | .error stop => stopped "" stop
  | .ok (given, level, rest) =>
    let (result, notices) := runCommand files given level rest
    let log := reported (given.has .verbose) notices
    match result with
    | .error stop => stopped log stop
    | .ok d => ⟨d.output, log, d.written, (d.fault.map Ending.crash).getD (.exit 0)⟩

/-! ## Paths -/

/-- The values of the options among the arguments of a level. -/
def valuesGiven (l : Level) (args : List String) : List String :=
  match readArguments l args with
  | .ok (given, _) => given.map (·.2)
  | .error _ => []

/-- The paths that a run of a command line may look at. -/
def paths (args : List String) : List String :=
  "docker-compose.yml" :: valuesGiven .program args ++
    match readArguments .program args with
    | .ok (_, name :: rest) =>
      ((Level.commands.lookup name).map fun level => valuesGiven level rest).getD
        (valuesGiven .program (name :: rest))
    | _ => []

end ComposeNix.CommandLine
