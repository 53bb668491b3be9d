import ComposeNix.Yaml.Cursor
import ComposeNix.Yaml.Fault

/-!
# Block scalars

A block scalar is the text of the lines below its header that are indented deep enough.
The header may say how deep and what becomes of the line ends behind the last line;
without a depth, the deepest of the blank lines in front and the first line decides.

In a *literal* scalar lines stay apart.  In a *folded* one the line end between two lines
becomes a blank, unless one of them starts with white space; blank lines between them
are kept in its stead.
-/

namespace ComposeNix.Yaml.Block

/-- What becomes of the line ends behind the last line. -/
inductive Chomping
  /-- All are dropped. -/
  | strip
  /-- The first is kept. -/
  | clip
  /-- All are kept. -/
  | keep
  deriving DecidableEq, Repr

/-- What a header says. -/
structure Header where
  chomping : Chomping
  indentation : Option Nat
  deriving DecidableEq, Repr

/-- A fault in a block scalar that starts at `start`. -/
def fault (start : Mark) (cause : LexicalFault) (place : Mark) : FormFault :=
  .lexical (some .blockScalar) ⟨cause, place, some start⟩

/-- The chomping indicator, if one stands here. -/
def chompingIndicator (cur : Cursor) : Option Chomping × Cursor :=
  match cur.peek with
  | some '+' => (some .keep, cur.next)
  | some '-' => (some .strip, cur.next)
  | _ => (none, cur)

/-- The indentation indicator, if one stands here. -/
def indentationIndicator (start : Mark) (cur : Cursor) :
    Except FormFault (Option Nat × Cursor) :=
  match cur.peek with
  | some c =>
    if c = '0' then .error (fault start .zeroIndentation cur.mark)
    else if c.isDigit then .ok (some (c.toNat - 0x30), cur.next)
    else .ok (none, cur)
  | none => .ok (none, cur)

/-- The two indicators of a header, in either order, and the rest of its line. -/
def header (start : Mark) (cur : Cursor) : Except FormFault (Header × Cursor) := do
  let (before, cur) := chompingIndicator cur
  let (indentation, cur) ← indentationIndicator start cur
  let (chomping, cur) := match before, indentation with
    | none, some _ => chompingIndicator cur
    | before, _ => (before, cur)
  if !isGapNoTab cur.peek then
    throw (fault start (.unexpected .scalarIndicator cur.peek) cur.mark)
  let cur := cur.skipBlanks.skipComment
  if !isLineEnd cur.peek then
    throw (fault start (.unexpected .commentOrBreak cur.peek) cur.mark)
  return (⟨chomping.getD .clip, indentation⟩, cur.skipBreak)

/-- Reads the blank lines before the first line: their line ends, the greatest column
that a blank reaches, and the cursor at the first other character. -/
def leadingLines (ends : List Char) (deepest : Nat) : List Char → Mark → List Char × Nat × Cursor
  | [], m => (ends, deepest, ⟨[], m⟩)
  | c :: cs, m =>
    let m' := m.advance c cs.head?
    if c = ' ' then leadingLines ends (max deepest m'.column) cs m'
    else if c = '\r' ∧ cs.head? = some '\n' then leadingLines ends deepest cs m'
    else if isBreak c then leadingLines (ends ++ [breakChar c]) deepest cs m'
    else (ends, deepest, ⟨c :: cs, m⟩)

/-- How far the content of a block scalar has been read. -/
structure Progress where
  /-- The content, latest character first. -/
  done : List Char
  /-- The line end behind the last line. -/
  lineEnd : Option Char
  /-- The line ends of the blank lines behind it. -/
  ends : List Char
  /-- Whether the last line started with something other than white space. -/
  flush : Bool
  /-- Whether the cursor stands inside a line. -/
  inside : Bool

/-- What joins the next line to the content: the line end between them or, in a folded
scalar, a blank, and then the blank lines. -/
def Progress.joined (p : Progress) (folded : Bool) (first : Char) : List Char :=
  let joint := match p.lineEnd with
    | none => []
    | some e =>
      if folded ∧ e = '\n' ∧ p.flush ∧ first ≠ ' ' ∧ first ≠ '\t' then
        if p.ends.isEmpty then [' '] else []
      else [e]
  p.ends.reverse ++ joint ++ p.done

/-- Reads the lines of a block scalar that are indented by `indent`. -/
def lines (folded : Bool) (indent : Nat) (p : Progress) : List Char → Mark → Progress × Cursor
  | [], m => (if p.inside then { p with lineEnd := none, ends := [] } else p, ⟨[], m⟩)
  | c :: cs, m =>
    let m' := m.advance c cs.head?
    if c = '\r' ∧ cs.head? = some '\n' then lines folded indent p cs m'
    else if p.inside then
      if isBreak c then
        lines folded indent { p with lineEnd := some (breakChar c), ends := [], inside := false }
          cs m'
      else lines folded indent { p with done := c :: p.done } cs m'
    else if c = ' ' ∧ m.column < indent then lines folded indent p cs m'
    else if isBreak c then lines folded indent { p with ends := p.ends ++ [breakChar c] } cs m'
    else if m.column = indent then
      lines folded indent
        { done := c :: p.joined folded c, lineEnd := none, ends := []
          flush := c ≠ ' ' ∧ c ≠ '\t', inside := true } cs m'
    else (p, ⟨c :: cs, m⟩)

/-- The content with the line ends at its end that the header asks for. -/
def Progress.chomped (p : Progress) : Chomping → List Char
  | .strip => p.done.reverse
  | .clip => p.done.reverse ++ p.lineEnd.toList
  | .keep => p.done.reverse ++ p.lineEnd.toList ++ p.ends

/-- Reads a block scalar whose indicator stands at the cursor, below a construct that is
indented by `outer`. -/
def scan (folded : Bool) (outer : Int) (cur : Cursor) :
    Except FormFault (List Char × Cursor) := do
  let (header, cur) ← header cur.mark cur.next
  let least := (max (outer + 1) 1).toNat
  let (ends, indent, cur) := match header.indentation with
    | some depth => ([], least + depth - 1, cur)
    | none =>
      let (ends, deepest, cur) := leadingLines [] 0 cur.rest cur.mark
      (ends, max least deepest, cur)
  let (p, cur) := lines folded indent
    { done := [], lineEnd := none, ends := ends, flush := false, inside := false }
    cur.rest cur.mark
  return (p.chomped header.chomping, cur)

end ComposeNix.Yaml.Block
