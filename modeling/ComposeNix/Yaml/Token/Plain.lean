import ComposeNix.Yaml.Cursor

/-!
# Plain scalars

A plain scalar runs until something that can only be an indicator: a colon before a gap,
a comment, an indicator of the surrounding flow collection, a document marker, or a line
that is not indented enough.  Like quoted scalars plain ones are folded over several
lines; the blanks and line ends behind the last character are read but do not belong to
the scalar.
-/

namespace ComposeNix.Yaml.Plain

/-- What stands behind the last character of the scalar so far. -/
inductive State
  /-- Nothing: the character before was text. -/
  | text
  /-- Blanks, latest first. -/
  | blanks (held : List Char)
  /-- A line end and those after it. -/
  | gap (first : Char) (more : List Char)

/-- What was held back, once text follows it, latest character first. -/
def State.held : State → List Char
  | .text => []
  | .blanks held => held
  | .gap first more =>
    more.reverse ++ (if first != '\n' then [first] else if more.isEmpty then [' '] else [])

/-- Whether a character can only stand behind a plain scalar. -/
def terminates (flow : Bool) (c : Char) (following : Option Char) : Bool :=
  isGap (some c)
    || (c == ':' && (isGap following || (flow && following.any (",[]\x7b\x7d".toList.contains ·))))
    || (flow && ",?[]\x7b\x7d".toList.contains c)

/-- A plain scalar that has been read. -/
structure Result where
  content : List Char
  /-- Behind the last character that belongs to the scalar. -/
  stop : Mark
  /-- Behind the blanks and line ends after it. -/
  cursor : Cursor
  /-- Whether there was a line end among them. -/
  brokeLine : Bool

/-- Reads on in a plain scalar; lines must be indented by `indent`, unless in a flow
collection. -/
def scan (flow : Bool) (indent : Int) (state : State) (done : List Char) (stop : Mark) :
    List Char → Mark → Result
  | [], m => finish [] m
  | c :: cs, m =>
    let m' := m.advance c cs.head?
    if c = '\r' ∧ cs.head? = some '\n' then
      let state := match state with
        | .text => .blanks []
        | s => s
      scan flow indent state done stop cs m'
    else if c = ' ' then
      match state with
      | .text => scan flow indent (.blanks [c]) done stop cs m'
      | .blanks held => scan flow indent (.blanks (c :: held)) done stop cs m'
      | .gap first more => scan flow indent (.gap first more) done stop cs m'
    else if isBreak c then
      let state := match state with
        | .gap first more => .gap first (more ++ [breakChar c])
        | _ => .gap (breakChar c) []
      if Cursor.startsMarker cs then
        { content := done.reverse, stop := stop, cursor := ⟨cs, m'⟩, brokeLine := true }
      else scan flow indent state done stop cs m'
    else
      let behindGap := match state with
        | .text => false
        | _ => true
      let outdented := behindGap && !flow && decide ((m.column : Int) < indent)
      if terminates flow c cs.head? || (behindGap && c == '#') || outdented then
        finish (c :: cs) m
      else scan flow indent .text (c :: (state.held ++ done)) m' cs m'
where
  /-- The scalar as it stands, with `rest` unread. -/
  finish (rest : List Char) (m : Mark) : Result :=
    { content := done.reverse, stop := stop, cursor := ⟨rest, m⟩
      brokeLine := match state with
        | .gap _ _ => true
        | _ => false }

end ComposeNix.Yaml.Plain
