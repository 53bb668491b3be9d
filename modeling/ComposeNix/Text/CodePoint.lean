/-!
# Code points

A text of a document is a row of code points.  Nearly all of them are characters.  A
*surrogate*, `U+D800` to `U+DFFF`, is none, and yet an escape can put one into a text.

Texts are kept as rows of characters, so a surrogate has to be spelled: by the noncharacter
`U+FFFF` and, behind it, the private character that lies as far above `U+E000` as the surrogate
lies above `U+D800`.  `U+FFFF` itself is spelled twice.  Every row of code points has a spelling
of its own, and `points` reads it back.

The texts of values are spelled so, and all that is made of them.  What is done to a text on the
way, splitting it, joining it, looking for a character or quoting it for a shell, never looks for
either of the two characters, so that what is done to the spelling is done to the code points.  Only
where code points are counted, shown or encoded is the spelling read.
-/

namespace ComposeNix.Text

/-- A code point. -/
inductive Point
  | char (c : Char)
  /-- The surrogate that lies this far above `U+D800`. -/
  | surrogate (offset : Fin 0x800)
  deriving DecidableEq, Repr

/-- The character that opens the spelling of what is no character. -/
def opener : Char := '\uFFFF'

namespace Point

/-- The code point of this number, at most `0x10FFFF`. -/
def ofCode (code : Nat) : Point :=
  if code.isValidChar then .char (Char.ofNat code) else .surrogate (Fin.ofNat 0x800 (code - 0xD800))

/-- The number of a code point. -/
def code : Point → Nat
  | .char c => c.toNat
  | .surrogate offset => 0xD800 + offset

/-- The spelling of a code point. -/
def spelling : Point → List Char
  | .char c => if c = opener then [opener, opener] else [c]
  | .surrogate offset => [opener, Char.ofNat (0xE000 + offset)]

/-- The code point whose spelling goes on with `c` behind the opener. -/
def behindOpener? (c : Char) : Option Point :=
  if c = opener then some (.char opener)
  else if h : 0xE000 ≤ c.toNat ∧ c.toNat < 0xE800 then
    some (.surrogate ⟨c.toNat - 0xE000, by omega⟩)
  else none

/-- The character that a code point is. -/
def char? : Point → Option Char
  | .char c => some c
  | .surrogate _ => none

/-- Whether a code point is no character. -/
def isSurrogate (p : Point) : Bool := p.char?.isNone

end Point

/-- The code points that a row of characters spells; `opened` if an opener stands in front.  An
opener that opens no spelling stands for itself. -/
def pointsFrom (opened : Bool) : List Char → List Point
  | [] => if opened then [.char opener] else []
  | c :: cs =>
    if opened then
      match Point.behindOpener? c with
      | some p => p :: pointsFrom false cs
      | none => .char opener :: .char c :: pointsFrom false cs
    else if c = opener then pointsFrom true cs
    else .char c :: pointsFrom false cs

/-- The code points of a text. -/
def points (s : String) : List Point := pointsFrom false s.toList

/-- The text of a row of code points. -/
def ofPoints (ps : List Point) : String := String.ofList (ps.flatMap Point.spelling)

/-- A row of characters as a text. -/
def ofChars (cs : List Char) : String := ofPoints (cs.map .char)

/-- How many code points a text has. -/
def length (s : String) : Nat := (points s).length

end ComposeNix.Text
