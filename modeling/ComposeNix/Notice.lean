import ComposeNix.Text.Quoted

/-!
# Notices

What is worth telling about a run, besides its result: variables that were not set, words
that had to be dropped, routes that were passed over, and how much was read and written.
A notice says what happened; its wording, its weight and the channel that it is reported
on follow from that.

An operation with notices returns them in order beside its result, and they stay when the
result is a fault.
-/

namespace ComposeNix

/-- The weight of a notice. -/
inductive Weight
  | debug
  | warning
  deriving DecidableEq, Repr

/-- Something worth telling. -/
inductive Notice
  /-- A reference to a variable without value. -/
  | unsetVariable (name : String)
  /-- Words of an entrypoint after the first. -/
  | droppedArguments (service : String) (arguments : List String)
  /-- A group of routing labels without address or host. -/
  | incompleteRoute (name service : String)
  /-- A group of routing labels that makes no rule, and why. -/
  | invalidRoute (name service reason : String)
  | manifestRead (services : Nat)
  | moduleWritten (services overrides routes : Nat) (backend : String)
  /-- A line of a file of variables that makes no binding. -/
  | unreadableBinding (line : Nat)
  deriving DecidableEq, Repr

namespace Notice

/-- The weight of a notice: what may change the outcome is a warning. -/
def weight : Notice → Weight
  | .unsetVariable _ | .droppedArguments _ _ | .unreadableBinding _ => .warning
  | _ => .debug

/-- The channel that a notice is reported on. -/
def channel : Notice → String
  | .unsetVariable _ => "pod2nix.UTILS.string_interpolation"
  | .droppedArguments _ _ => "pod2nix.CONVERTERS.to_container"
  | .incompleteRoute _ _ | .invalidRoute _ _ _ => "pod2nix.PARSERS.label_parser"
  | .manifestRead _ => "pod2nix.PARSERS.compose_parser"
  | .moduleWritten _ _ _ _ => "pod2nix.CONVERTERS.to_nix"
  | .unreadableBinding _ => "dotenv.main"

/-- A notice in words. -/
def message : Notice → String
  | .unsetVariable name =>
    "Variable " ++ Text.ofChars name.toList ++ " is not set, substituting an empty string"
  | .droppedArguments service arguments =>
    "Service " ++ service ++ ": entrypoint arguments ["
      ++ ", ".intercalate (arguments.map Text.quotedText) ++ "] are not supported and were dropped"
  | .incompleteRoute name service =>
    "Skipping incomplete Traefik route " ++ name ++ " on service " ++ service
  | .invalidRoute name service reason =>
    "Skipping invalid Traefik route " ++ name ++ " on service " ++ service ++ ": " ++ reason
  | .manifestRead services => "Parsed manifest with " ++ toString services ++ " services"
  | .moduleWritten services overrides routes backend =>
    "Converted " ++ toString services ++ " services (" ++ toString overrides ++ " overrides, "
      ++ toString routes ++ " routes) for " ++ backend
  | .unreadableBinding line =>
    "python-dotenv could not parse statement starting at line " ++ toString line

end Notice

/-- The name of a weight in a report. -/
def Weight.name : Weight → String
  | .debug => "DEBUG"
  | .warning => "WARNING"

end ComposeNix
