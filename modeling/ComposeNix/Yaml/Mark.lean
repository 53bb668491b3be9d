/-!
# Places in a document

A mark is a place in a text: how many characters precede it, on which line it stands
and in which column, all counted from zero.  A fault in a document is reported with
its mark and, when the document was given as a text and not as a file, with the line
around it.

The line is cut to the neighbourhood of the mark: when more than 36 characters precede
the mark on its line, or follow it, the far end is replaced by an ellipsis and gives up
five characters more.
-/

namespace ComposeNix.Yaml

/-- A place in a text. -/
structure Mark where
  index : Nat
  line : Nat
  column : Nat
  deriving DecidableEq, Repr, Inhabited

/-- The characters that end a line. -/
def isBreak (c : Char) : Bool :=
  c == '\n' || c == '\r' || c == '\u0085' || c == '\u2028' || c == '\u2029'

namespace Mark

/-- The start of a text. -/
def origin : Mark := ⟨0, 0, 0⟩

/-- The mark behind the character `c`, when `following` comes next.  A carriage return
before a line feed belongs to the line feed, and a byte order mark takes no column. -/
def advance (m : Mark) (c : Char) (following : Option Char) : Mark :=
  if isBreak c ∧ ¬(c = '\r' ∧ following = some '\n') then ⟨m.index + 1, m.line + 1, 0⟩
  else if c = '\uFEFF' then { m with index := m.index + 1 }
  else { m with index := m.index + 1, column := m.column + 1 }

/-- Whether two marks are the same to a reader: line and column agree. -/
def samePlace (a b : Mark) : Bool := a.line == b.line && a.column == b.column

end Mark

/-- Where a document comes from. -/
inductive Source
  /-- A text that is at hand. -/
  | text (content : List Char)
  /-- A file, known by its name. -/
  | file (name : String)

namespace Source

/-- The name of a source in messages. -/
def name : Source → String
  | .text _ => "<unicode string>"
  | .file n => n

/-- How many characters of a line are shown on either side of a mark. -/
def reach : Nat := 36

/-- The part of a line on one side of a mark, nearest character first, and whether it
was cut. -/
def nearby (side : List Char) : List Char × Bool :=
  let line := side.takeWhile fun c => !(isBreak c)
  if reach < line.length then (line.take (reach - 4), true) else (line, false)

/-- The line around a mark, with a caret below the place. -/
def snippet (content : List Char) (index : Nat) : String :=
  let (before, cutBefore) := nearby (content.take index).reverse
  let (after, cutAfter) := nearby (content.drop index)
  let head := if cutBefore then " ... " else ""
  let tail := if cutAfter then " ... " else ""
  "    " ++ head ++ String.ofList before.reverse ++ String.ofList after ++ tail ++ "\n"
    ++ String.ofList (List.replicate (4 + before.length + head.length) ' ') ++ "^"

/-- A mark of this source in words. -/
def place (source : Source) (m : Mark) : String :=
  let here := "  in \"" ++ source.name ++ "\", line " ++ toString (m.line + 1) ++ ", column "
    ++ toString (m.column + 1)
  match source with
  | .text content => here ++ ":\n" ++ snippet content m.index
  | .file _ => here

end Source
end ComposeNix.Yaml
