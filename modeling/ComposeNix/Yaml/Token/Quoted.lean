import ComposeNix.Text.CodePoint
import ComposeNix.Yaml.Cursor
import ComposeNix.Yaml.Fault

/-!
# Quoted scalars

A quoted scalar is read one character at a time; what a character means depends on
what the scalar is in the middle of (`State`).  Two rules shape the states.

*Folding.*  White space around a line end is dropped.  One line end becomes a space,
and of several the first is dropped; a Unicode separator stays.  So blanks are held back
until it is known whether a line end follows them, and line ends until it is known
whether they were the last.

*Escapes.*  Between double quotes a backslash starts an escape; an escaped line end
vanishes, with the white space that opens the next line.  An escape may give any code point by
its number, a surrogate among them.  Between single quotes only the quote itself is written twice.

A document marker at the start of a line ends the document even inside quotes, which is
a fault.
-/

namespace ComposeNix.Yaml.Quoted

/-- What a quoted scalar is in the middle of. -/
inductive State
  /-- Text of a line. -/
  | text
  /-- Blanks of a line that may turn out to be its last, latest first. -/
  | blanks (held : List Char)
  /-- The start of a line.  `first` is the first line end of this gap, if it was not
  escaped, and `more` are those after it. -/
  | gap (first : Option Char) (more : List Char)
  /-- Behind a backslash. -/
  | escape
  /-- Before `left` of the `count` hexadecimal digits of an escape. -/
  | code (count left value : Nat) (start : Mark)
  /-- Before the second of two single quotes. -/
  | secondQuote

/-- What a gap between two lines amounts to, latest character first. -/
def foldGap (first : Option Char) (more : List Char) : List Char :=
  more.reverse ++
    (match first with
     | none => []
     | some c => if c != '\n' then [c] else if more.isEmpty then [' '] else [])

/-- What was held back, once text follows it. -/
def State.held : State → List Char
  | .blanks held => held
  | .gap first more => foldGap first more
  | _ => []

/-- The escapes of one character. -/
def escapeFor? (c : Char) : Option Char :=
  match c with
  | '0' => some (Char.ofNat 0)
  | 'a' => some (Char.ofNat 7)
  | 'b' => some (Char.ofNat 8)
  | 't' | '\t' => some '\t'
  | 'n' => some '\n'
  | 'v' => some (Char.ofNat 0x0B)
  | 'f' => some (Char.ofNat 0x0C)
  | 'r' => some '\r'
  | 'e' => some (Char.ofNat 0x1B)
  | ' ' => some ' '
  | '"' => some '"'
  | '\\' => some '\\'
  | '/' => some '/'
  | 'N' => some '\u0085'
  | '_' => some '\u00A0'
  | 'L' => some '\u2028'
  | 'P' => some '\u2029'
  | _ => none

/-- How many hexadecimal digits follow the letter of an escape. -/
def escapeDigits? (c : Char) : Option Nat :=
  match c with
  | 'x' => some 2
  | 'u' => some 4
  | 'U' => some 8
  | _ => none

/-- The value of a hexadecimal digit. -/
def hexDigit? (c : Char) : Option Nat :=
  if c.isDigit then some (c.toNat - 0x30)
  else if 'a' ≤ c ∧ c ≤ 'f' then some (c.toNat - 0x61 + 10)
  else if 'A' ≤ c ∧ c ≤ 'F' then some (c.toNat - 0x41 + 10)
  else none

/-- A fault inside quotes that were opened at `start`. -/
def fault (start : Mark) (activity : Activity) (cause : LexicalFault) (place : Mark) :
    FormFault :=
  .lexical (some activity) ⟨cause, place, some start⟩

/-- The fault of a text that ends inside a quoted scalar. -/
def endFault (start place : Mark) : State → FormFault
  | .escape => fault start .doubleQuotedScalar (.unknownEscape none) place
  | .code count _ _ digits =>
    fault start .doubleQuotedScalar (.unexpected (.hexDigits count) none) digits
  | _ => fault start .quotedScalar .endInQuotes place

/-- Reads on inside a quoted scalar that was opened at `start`.  `done` is the content so
far, latest character first; the content and the cursor behind the closing quote come
back. -/
def scan (double : Bool) (start : Mark) (state : State) (done : List Char) :
    List Char → Mark → Except FormFault (List Char × Cursor)
  | [], m => .error (endFault start m state)
  | c :: cs, m =>
    let m' := m.advance c cs.head?
    -- a carriage return before a line feed is part of the line feed
    let silent := c = '\r' ∧ cs.head? = some '\n'
    match state with
    | .code count left value digits =>
      match hexDigit? c with
      | none => .error (fault start .doubleQuotedScalar
          (.unexpected (.hexDigits count) (some c)) digits)
      | some d =>
        let value := value * 16 + d
        if 1 < left then scan double start (.code count (left - 1) value digits) done cs m'
        else if 0x10FFFF < value then .error (.notCodePoint value)
        else scan double start .text ((Text.Point.ofCode value).spelling.reverse ++ done) cs m'
    | .escape =>
      if silent then scan double start .escape done cs m'
      else
        match escapeFor? c with
        | some e => scan double start .text (e :: done) cs m'
        | none =>
          match escapeDigits? c with
          | some n => scan double start (.code n n 0 m') done cs m'
          | none =>
            if isBreak c then
              if Cursor.startsMarker cs then
                .error (fault start .quotedScalar .markerInQuotes m')
              else scan double start (.gap none []) done cs m'
            else .error (fault start .doubleQuotedScalar (.unknownEscape (some c)) m)
    | .secondQuote => scan double start .text (c :: done) cs m'
    | state =>
      if silent then scan double start state done cs m'
      else if c = ' ' ∨ c = '\t' then
        match state with
        | .blanks held => scan double start (.blanks (c :: held)) done cs m'
        | .gap first more => scan double start (.gap first more) done cs m'
        | _ => scan double start (.blanks [c]) done cs m'
      else if isBreak c then
        if Cursor.startsMarker cs then .error (fault start .quotedScalar .markerInQuotes m')
        else
          match state with
          | .gap first more =>
            scan double start (.gap first (more ++ [breakChar c])) done cs m'
          | _ => scan double start (.gap (some (breakChar c)) []) done cs m'
      else
        let done := state.held ++ done
        if double then
          if c = '"' then .ok (done.reverse, ⟨cs, m'⟩)
          else if c = '\\' then scan double start .escape done cs m'
          else scan double start .text (c :: done) cs m'
        else if c = '\'' then
          if cs.head? = some '\'' then scan double start .secondQuote done cs m'
          else .ok (done.reverse, ⟨cs, m'⟩)
        else scan double start .text (c :: done) cs m'

end ComposeNix.Yaml.Quoted
