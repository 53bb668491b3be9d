/-!
# Texts and names in Nix

A text is written between double quotes.  Three things need a backslash there: the
backslash itself, the quote, and the dollar sign of `${`, which would open an
antiquotation.  Every other character, line feeds among them, stands for itself.

An attribute is written bare if its name is a plain word, and as a text otherwise.
-/

namespace ComposeNix.Nix

/-- A text as it stands between quotes. -/
def escape : List Char → List Char
  | [] => []
  | '\\' :: cs => '\\' :: '\\' :: escape cs
  | '"' :: cs => '\\' :: '"' :: escape cs
  | '$' :: '{' :: cs => '\\' :: '$' :: '{' :: escape cs
  | c :: cs => c :: escape cs

/-- A text in its quotes. -/
def quote (cs : List Char) : List Char := '"' :: escape cs ++ ['"']

/-- A letter or an underscore of ASCII, as a plain word begins with. -/
def isWordStart (c : Char) : Bool := c.isAlpha || c == '_'

/-- A character that can stand inside a plain word. -/
def isWordChar (c : Char) : Bool := c.isAlphanum || c == '_' || c == '\'' || c == '-'

/-- Whether a name is a plain word.  One line feed behind the word is let through. -/
def isPlainName : List Char → Bool
  | [] => false
  | c :: cs => isWordStart c && (cs.dropWhile isWordChar == [] || cs.dropWhile isWordChar == ['\n'])

/-- The name of an attribute as it stands left of the equals sign. -/
def attributeName (cs : List Char) : List Char := if isPlainName cs then cs else quote cs

end ComposeNix.Nix
