import ComposeNix.Text.Quoted

/-!
# Encoding a text

A text that leaves the library, to be printed or to be written to a file, is encoded as UTF-8, and
a surrogate has no encoding.  So a text with a surrogate cannot leave (`encode`); the fault names
the first surrogates that stand side by side.

Reports are printed all the same: there a surrogate is shown by its number (`shown`).  And where a
text is named on the way to a fault it is replaced (`withReplacements`).
-/

namespace ComposeNix.Text

/-- Surrogates where only characters can stand: the position of the first, which it is, and how
many follow side by side. -/
structure Unencodable where
  position : Nat
  offset : Fin 0x800
  more : Nat
  deriving DecidableEq, Repr

/-- The wording of the fault. -/
def Unencodable.message (u : Unencodable) : String :=
  let place :=
    if u.more = 0 then
      "character '" ++ String.ofList (surrogateEscape u.offset) ++ "' in position "
        ++ toString u.position
    else "characters in position " ++ toString u.position ++ "-" ++ toString (u.position + u.more)
  "'utf-8' codec can't encode " ++ place ++ ": surrogates not allowed"

/-- The first surrogates of a row of code points that starts at `position`. -/
def firstSurrogates? (position : Nat) : List Point → Option Unencodable
  | [] => none
  | .char _ :: ps => firstSurrogates? (position + 1) ps
  | .surrogate offset :: ps => some ⟨position, offset, (ps.takeWhile Point.isSurrogate).length⟩

/-- Why a text has no encoding, if it has none. -/
def unencodable? (s : String) : Option Unencodable := firstSurrogates? 0 (points s)

/-- Whether a text has an encoding: all its code points are characters. -/
def isUnicode (s : String) : Bool := (unencodable? s).isNone

/-- The characters of a text that is encoded. -/
def encode (s : String) : Except Unencodable String :=
  match unencodable? s with
  | some fault => .error fault
  | none => .ok (String.ofList ((points s).filterMap Point.char?))

/-- A text in a report: the characters as they are, and surrogates as escapes. -/
def shown (s : String) : String :=
  String.ofList ((points s).flatMap fun p =>
    match p with
    | .char c => [c]
    | .surrogate offset => surrogateEscape offset)

/-- A text with three replacement characters, one for each byte that it would have taken, in the
place of a surrogate. -/
def withReplacements (s : String) : String :=
  ofPoints ((points s).flatMap fun p =>
    match p with
    | .char c => [.char c]
    | .surrogate _ => List.replicate 3 (.char '\uFFFD'))

end ComposeNix.Text
