import ComposeNix.CommandLine.Run

/-!
# The program

The outer layer of the command line: it looks up what stands under the paths that the
arguments name, runs the command line, and does what the outcome says.
-/

namespace ComposeNix

/-- Whether a path leads to a directory. -/
def leadsToDirectory (path : String) : IO Bool := do
  return ← ((← IO.currentDir) / path).isDir

/-- The directory that holds a path. -/
def directoryOf (path : String) : String :=
  let lead := (path.toList.reverse.dropWhile (· ≠ '/')).reverse
  if lead.isEmpty then "." else String.ofList lead

/-- What stands under a path. -/
def entryOf (path : String) : IO CommandLine.Entry := do
  if path.isEmpty then return .nowhere
  if ← leadsToDirectory path then return .directory
  match ← (IO.FS.readFile path).toBaseIO with
  | .ok text => return .file text
  | .error _ => return if ← leadsToDirectory (directoryOf path) then .absent else .nowhere

end ComposeNix

open ComposeNix in
/-- Runs the command line that the arguments spell. -/
def main (args : List String) : IO UInt32 := do
  let entries ← (CommandLine.paths args).mapM fun path => return (path, ← entryOf path)
  let outcome := CommandLine.run (fun path => (entries.lookup path).getD .nowhere) args
  for (path, text) in outcome.written do
    IO.FS.writeFile path text
  IO.eprint outcome.errors
  IO.print outcome.output
  match outcome.ending with
  | .exit code => return UInt32.ofNat code
  | .crash fault =>
    IO.eprintln fault.message
    return 1
