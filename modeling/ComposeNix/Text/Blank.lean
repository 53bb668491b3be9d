/-!
# Blank characters

Words of a command line, the edges of a block of text and the padding of a number
are all told apart by one class of characters: white space in the wide sense of
Unicode, to which the four information separators `U+001C` to `U+001F` belong as
well.  Core's own class stops at four ASCII characters, so the class is listed here.

* `isBlank` --- the class;
* `words` --- the maximal runs of other characters, in order;
* `trim`, `trimEnd` --- a text without the blanks at its edges.
-/

namespace ComposeNix.Text

/-- White space: the ASCII controls that move the carriage, the four information
separators, and the space characters of Unicode. -/
def isBlank (c : Char) : Bool :=
  let n := c.toNat
  (0x09 ≤ n && n ≤ 0x0D) || (0x1C ≤ n && n ≤ 0x20) || n == 0x85 || n == 0xA0
    || n == 0x1680 || (0x2000 ≤ n && n ≤ 0x200A) || n == 0x2028 || n == 0x2029
    || n == 0x202F || n == 0x205F || n == 0x3000

/-- The words of a text: its maximal runs of characters that are not blank. -/
def words (cs : List Char) : List (List Char) :=
  (cs.splitOnP isBlank).filter (!·.isEmpty)

/-- The text from its first character that is not blank. -/
def trimStart (cs : List Char) : List Char := cs.dropWhile isBlank

/-- The text up to its last character that is not blank. -/
def trimEnd (cs : List Char) : List Char := (cs.reverse.dropWhile isBlank).reverse

/-- The text without the blanks at either edge. -/
def trim (cs : List Char) : List Char := trimEnd (trimStart cs)

end ComposeNix.Text
