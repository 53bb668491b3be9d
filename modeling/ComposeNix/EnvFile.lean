import ComposeNix.Dictionary
import ComposeNix.Notice
import ComposeNix.Template
import ComposeNix.Text.Blank

/-!
# Files of variables

A file of variables is a row of statements `NAME=value`, one to a line, with `export`
before the name if one likes.  A value may stand in quotes, and then it may hold line
ends and escapes; without quotes it ends at the end of the line or at a comment.  A
statement may also be a bare name, or a comment alone.  A statement that makes no sense is
passed over up to the end of the line, and a notice gives the line where it starts.

In every value `${NAME}` then stands for what `NAME` was bound to further up, and
`${NAME:-text}` for the text if it was not bound.  A name is looked for in the file alone: the
variables that a process is given from outside are taken to be none.
-/

namespace ComposeNix.EnvFile

open Text (isBlank)

/-! ## Statements -/

/-- A blank that does not end the line. -/
def isInlineBlank (c : Char) : Bool := isBlank c && c != '\n' && c != '\r'

/-- A statement of the file. -/
inductive Statement
  | nothing
  | binding (name : String) (value : Option String)
  | unreadable
  deriving DecidableEq, Repr

/-- What was read and what follows it, or where the reading stopped. -/
abbrev Step (α : Type) := Except (List Char) (α × List Char)

/-- The text behind `export` and the blanks that set it off, if there are any. -/
def afterExport (cs : List Char) : List Char :=
  match "export".toList.isPrefixOf? cs with
  | none => cs
  | some rest =>
    if (rest.head?.map isInlineBlank).getD false then rest.dropWhile isInlineBlank else cs

/-- A character of a name without quotes. -/
def isNameChar (c : Char) : Bool := !isBlank c && c != '=' && c != '#'

/-- The name that a statement binds.  A comment has none. -/
def readName (cs : List Char) : Step (Option String) :=
  match cs with
  | '#' :: _ => .ok (none, cs)
  | '\'' :: rest =>
    let name := rest.takeWhile (· ≠ '\'')
    match rest.dropWhile (· ≠ '\'') with
    | _ :: after => if name.isEmpty then .error cs else .ok (some (String.ofList name), after)
    | [] => .error cs
  | cs =>
    let name := cs.takeWhile isNameChar
    if name.isEmpty then .error cs
    else .ok (some (String.ofList name), cs.dropWhile isNameChar)

/-! ## Values -/

/-- A text up to the first quote that is not behind a backslash, and what follows it. -/
def upToFreeQuote (quote : Char) (escaped : Bool) : List Char → Option (List Char × List Char)
  | [] => none
  | c :: cs =>
    if c = quote && !escaped then some ([], cs)
    else (upToFreeQuote quote (c == '\\') cs).map fun r => (c :: r.1, r.2)

/-- A text up to its last quote, and what follows it. -/
def upToLastQuote (quote : Char) : List Char → Option (List Char × List Char)
  | [] => none
  | c :: cs =>
    match upToLastQuote quote cs with
    | some r => some (c :: r.1, r.2)
    | none => if c = quote then some ([], cs) else none

/-- What a character behind a backslash stands for, between double quotes. -/
def doubleEscape? (c : Char) : Option Char :=
  match c with
  | '\\' | '\'' | '"' => some c
  | 'a' => some (Char.ofNat 7)
  | 'b' => some (Char.ofNat 8)
  | 'f' => some (Char.ofNat 12)
  | 'n' => some '\n'
  | 'r' => some '\r'
  | 't' => some '\t'
  | 'v' => some (Char.ofNat 11)
  | _ => none

/-- What a character behind a backslash stands for, between single quotes. -/
def singleEscape? (c : Char) : Option Char := if c = '\\' ∨ c = '\'' then some c else none

/-- A text with its escapes undone; a backslash before another character stays. -/
def unescape (escape? : Char → Option Char) : List Char → List Char
  | [] => []
  | [c] => [c]
  | c :: d :: cs =>
    if c = '\\' then
      match escape? d with
      | some e => e :: unescape escape? cs
      | none => c :: unescape escape? (d :: cs)
    else c :: unescape escape? (d :: cs)

/-- A value in quotes, from behind the opening quote. -/
def readQuoted (quote : Char) (escape? : Char → Option Char) (cs : List Char) : Step String :=
  match (upToFreeQuote quote false cs).or (upToLastQuote quote cs) with
  | some (value, rest) => .ok (String.ofList (unescape escape? value), rest)
  | none => .error (quote :: cs)

/-- The part of a line before a comment, which blanks set off. -/
def beforeComment : List Char → List Char
  | [] => []
  | c :: cs =>
    if isBlank c && (cs.dropWhile isBlank).head? == some '#' then []
    else c :: beforeComment cs

/-- The rest of a line, and what follows it. -/
def splitLine (cs : List Char) : List Char × List Char :=
  (cs.takeWhile (fun c => c != '\n' && c != '\r'), cs.dropWhile (fun c => c != '\n' && c != '\r'))

/-- A value, from behind the equals sign. -/
def readValue (cs : List Char) : Step String :=
  match cs.dropWhile isInlineBlank with
  | '\'' :: rest => readQuoted '\'' singleEscape? rest
  | '"' :: rest => readQuoted '"' doubleEscape? rest
  | _ =>
    let (line, rest) := splitLine cs
    .ok (String.ofList (Text.trim (beforeComment line)), rest)

/-- The value of a statement, if it has one. -/
def readAssignment (cs : List Char) : Step (Option String) :=
  match cs.dropWhile isInlineBlank with
  | '=' :: rest => (readValue rest).map fun r => (some r.1, r.2)
  | rest => .ok (none, rest)

/-! ## Ends of statements -/

/-- The text behind a comment. -/
def afterComment (cs : List Char) : List Char :=
  match cs.dropWhile isInlineBlank with
  | '#' :: rest => (splitLine rest).2
  | _ => cs

/-- The text behind the end of a line, which has to come next. -/
def endOfLine (cs : List Char) : Except (List Char) (List Char) :=
  match cs.dropWhile isInlineBlank with
  | [] => .ok []
  | '\n' :: rest => .ok rest
  | '\r' :: rest => .ok rest
  | _ => .error cs

/-- Reads a statement, from its first character that is not blank. -/
def readStatement (cs : List Char) : Except (List Char) (Statement × List Char) := do
  let (name?, rest) ← readName (afterExport cs)
  let (value, rest) ← readAssignment rest
  let rest ← endOfLine (afterComment rest)
  return ((name?.map fun name => .binding name value).getD .nothing, rest)

/-- The first statement of a text, and what follows it. -/
def firstStatement (cs : List Char) : Statement × List Char :=
  match cs.dropWhile isBlank with
  | [] => (.nothing, [])
  | c :: rest =>
    match readStatement (c :: rest) with
    | .ok r => r
    | .error stop => (.unreadable, (splitLine stop).2.drop 1)

/-- The statements of a text whose first line has this number, each with the number of
the line that it starts on.  A statement takes at least one character. -/
def statementsFrom (line : Nat) (cs : List Char) : List (Nat × Statement) :=
  if cs.isEmpty then []
  else
    let (statement, rest) := firstStatement cs
    if rest.length < cs.length then
      let taken := cs.take (cs.length - rest.length)
      (line, statement) :: statementsFrom (line + taken.count '\n') rest
    else []
termination_by cs.length

/-- The statements of a file. -/
def statements (text : String) : List (Nat × Statement) := statementsFrom 1 text.toList

/-! ## References -/

/-- A piece of a value: a character, or a reference to a name bound further up in the file. -/
inductive Piece
  | char (c : Char)
  | reference (name : List Char) (fallback : List Char)
  deriving DecidableEq, Repr

/-- The reference that a text opens with, behind `${`, and what follows it. -/
def reference? (cs : List Char) : Option (Piece × List Char) :=
  let name := cs.takeWhile Template.isNameChar
  match cs.dropWhile Template.isNameChar with
  | '}' :: rest => some (.reference name [], rest)
  | ':' :: '-' :: rest =>
    (Template.upToBrace? rest).map fun r => (.reference name r.1, r.2)
  | _ => none

/-- A reference leaves less than it was given. -/
theorem length_of_reference? {cs after : List Char} {piece : Piece}
    (h : reference? cs = some (piece, after)) : after.length < cs.length := by
  have hle := Template.length_dropWhile_le Template.isNameChar cs
  unfold reference? at h
  dsimp only at h
  split at h
  · next heq =>
    rw [heq, List.length_cons] at hle
    simp only [Option.some.injEq, Prod.mk.injEq] at h
    rw [← h.2]
    omega
  · next heq =>
    rw [heq, List.length_cons, List.length_cons] at hle
    obtain ⟨⟨_, rest⟩, hrest, hpiece⟩ := Option.map_eq_some_iff.1 h
    have hlt := Template.length_of_upToBrace? hrest
    simp only [Prod.mk.injEq] at hpiece
    rw [← hpiece.2]
    omega
  · simp at h

/-- The pieces of a value. -/
def pieces (cs : List Char) : List Piece :=
  match cs with
  | [] => []
  | '$' :: '{' :: rest =>
    match _h : reference? rest with
    | some (piece, after) => piece :: pieces after
    | none => .char '$' :: pieces ('{' :: rest)
  | c :: rest => .char c :: pieces rest
termination_by cs.length
decreasing_by
  · have := length_of_reference? _h
    simp only [List.length_cons]
    omega
  · simp
  · simp

/-- What a piece stands for under the bindings further up. -/
def Piece.resolve (bound : Dictionary (Option String)) : Piece → List Char
  | .char c => [c]
  | .reference name fallback =>
    match bound.get? (String.ofList name) with
    | none => fallback
    | some value => (value.getD "").toList

/-- A value with its references replaced. -/
def resolve (bound : Dictionary (Option String)) (value : String) : String :=
  String.ofList ((pieces value.toList).flatMap (Piece.resolve bound))

/-- The bindings behind a statement. -/
def bind (bound : Dictionary (Option String)) : Statement → Dictionary (Option String)
  | .binding name value => bound.insert name (value.map (resolve bound))
  | _ => bound

/-- What the names of a file are bound to. -/
def bindings (text : String) : Dictionary (Option String) :=
  ((statements text).map (·.2)).foldl bind []

/-- The variables of a file: a name without value stands for nothing. -/
def context (text : String) : Template.Context :=
  (bindings text).map fun e => (e.1, some (e.2.getD ""))

/-- The lines of a file that make no sense. -/
def notices (text : String) : List Notice :=
  (statements text).filterMap fun s =>
    if s.2 = .unreadable then some (.unreadableBinding s.1) else none

end ComposeNix.EnvFile
