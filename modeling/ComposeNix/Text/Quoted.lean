import ComposeNix.Text.CodePoint
import ComposeNix.Text.Printable

/-!
# Quoted texts in messages

Messages quote the piece of input that they speak of, and a collection that stands
where a text is wanted is written out with its texts quoted.  One rule serves both:

* the quote is `'`, unless the text holds a `'` and no `"`;
* the backslash, the chosen quote, tab, line feed and carriage return get a
  backslash;
* a character that cannot be seen is written `\xHH`, `\uHHHH` or `\UHHHHHHHH`,
  whichever is the shortest that fits, and so is a surrogate.

Bytes follow the same rule behind a `b`, with every byte above `0x7E` escaped.
-/

namespace ComposeNix.Text

/-- The small hexadecimal digits of `n`, at least `width` of them. -/
def hex (width n : Nat) : List Char :=
  let digits := Nat.toDigits 16 n
  List.replicate (width - digits.length) '0' ++ digits

/-- The quote that surrounds a text: `"` only where that saves an escape. -/
def quoteFor (cs : List Char) : Char :=
  if cs.contains '\'' && !cs.contains '"' then '"' else '\''

/-- One character of a text between quotes. -/
def escapeShown (quote c : Char) : List Char :=
  if c = '\\' || c = quote then ['\\', c]
  else if c = '\t' then ['\\', 't']
  else if c = '\n' then ['\\', 'n']
  else if c = '\r' then ['\\', 'r']
  else if isPrintable c then [c]
  else if c.toNat ≤ 0xFF then '\\' :: 'x' :: hex 2 c.toNat
  else if c.toNat ≤ 0xFFFF then '\\' :: 'u' :: hex 4 c.toNat
  else '\\' :: 'U' :: hex 8 c.toNat

/-- A row of characters in quotes. -/
def quoted (s : String) : String :=
  let q := quoteFor s.toList
  String.ofList (q :: s.toList.flatMap (escapeShown q) ++ [q])

/-- One character in quotes. -/
def quotedChar (c : Char) : String := quoted (String.singleton c)

/-- The number of a surrogate as an escape. -/
def surrogateEscape (offset : Fin 0x800) : List Char := '\\' :: 'u' :: hex 4 (0xD800 + offset)

/-- One code point of a text between quotes. -/
def escapeShownPoint (quote : Char) : Point → List Char
  | .char c => escapeShown quote c
  | .surrogate offset => surrogateEscape offset

/-- A text in quotes. -/
def quotedText (s : String) : String :=
  let q := quoteFor s.toList
  String.ofList (q :: (points s).flatMap (escapeShownPoint q) ++ [q])

/-- One byte between quotes. -/
def escapeShownByte (quote : Char) (b : UInt8) : List Char :=
  if 0x80 ≤ b then '\\' :: 'x' :: hex 2 b.toNat
  else escapeShown quote (Char.ofNat b.toNat)

/-- A row of bytes in quotes, behind a `b`. -/
def quotedBytes (bs : List UInt8) : String :=
  let q := quoteFor (bs.map fun b => Char.ofNat b.toNat)
  String.ofList ('b' :: q :: bs.flatMap (escapeShownByte q) ++ [q])

end ComposeNix.Text
