import ComposeNix.Yaml.Mark

/-!
# Reading along a text

A cursor is what is left of a text together with the mark of its first character.
`next` is the only way forward, so the mark always counts what has been read.  The
loops over a cursor end because each step leaves a shorter rest.
-/

namespace ComposeNix.Yaml

/-- The rest of a text and where it starts. -/
structure Cursor where
  rest : List Char
  mark : Mark
  deriving Repr, Inhabited

/-- The end of the text, a blank, a tab or the end of a line: what closes an indicator. -/
def isGap : Option Char → Bool
  | none => true
  | some c => c == ' ' || c == '\t' || isBreak c

/-- The end of the text, a blank or the end of a line, but no tab. -/
def isGapNoTab : Option Char → Bool
  | some '\t' => false
  | c => isGap c

/-- The end of the text or of a line. -/
def isLineEnd : Option Char → Bool
  | none => true
  | some c => isBreak c

/-- The line end that a character stands for: all but the Unicode separators become a
line feed. -/
def breakChar (c : Char) : Char := if c == '\u2028' || c == '\u2029' then c else '\n'

namespace Cursor

/-- A cursor at the start of a text. -/
def start (cs : List Char) : Cursor := ⟨cs, .origin⟩

/-- The next character. -/
def peek (cur : Cursor) : Option Char := cur.rest.head?

/-- The character `k` places ahead. -/
def peekAt (cur : Cursor) (k : Nat) : Option Char := cur.rest[k]?

/-- One character further. -/
def next (cur : Cursor) : Cursor :=
  match cur.rest with
  | [] => cur
  | c :: cs => ⟨cs, cur.mark.advance c cs.head?⟩

/-- Several characters further. -/
def advance (cur : Cursor) : Nat → Cursor
  | 0 => cur
  | n + 1 => cur.next.advance n

/-- Reads the characters that satisfy `p`, starting from a rest and its mark. -/
def spanFrom (p : Char → Bool) : List Char → Mark → List Char × Cursor
  | [], m => ([], ⟨[], m⟩)
  | c :: cs, m =>
    if p c then
      let (taken, cur) := spanFrom p cs (m.advance c cs.head?)
      (c :: taken, cur)
    else ([], ⟨c :: cs, m⟩)

/-- The longest stretch of characters that satisfy `p`, and the cursor behind it. -/
def span (cur : Cursor) (p : Char → Bool) : List Char × Cursor := spanFrom p cur.rest cur.mark

/-- The cursor behind the longest stretch of characters that satisfy `p`. -/
def skip (cur : Cursor) (p : Char → Bool) : Cursor := (cur.span p).2

/-- Behind the blanks of a line. -/
def skipBlanks (cur : Cursor) : Cursor := cur.skip (· == ' ')

/-- Behind a comment, if one starts here. -/
def skipComment (cur : Cursor) : Cursor :=
  if cur.peek = some '#' then cur.skip fun c => !(isBreak c) else cur

/-- Behind one line end, if one stands here. -/
def skipBreak (cur : Cursor) : Cursor :=
  match cur.rest with
  | '\r' :: '\n' :: _ => cur.next.next
  | c :: _ => if isBreak c then cur.next else cur
  | [] => cur

/-- Whether a document marker, `---` or `...`, stands at the head of a text. -/
def startsMarker (cs : List Char) : Bool :=
  (cs.take 3 == ['-', '-', '-'] || cs.take 3 == ['.', '.', '.']) && isGap cs[3]?

end Cursor
end ComposeNix.Yaml
