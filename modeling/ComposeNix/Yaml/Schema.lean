/-!
# Tags and the core schema

Every node of a document has a tag, which says what its content stands for.  A scalar
that is written plain and without a tag gets its tag from the *core schema*: its text is
held against the grammars of null, truth values, integers and numbers, and what fits
none of them is a text.  There are two additions: `<<`, the key that merges mappings, and
the indicators of tags, anchors and aliases standing alone, which mean nothing.

Which grammars are tried depends on the first character of the text alone
(`candidates`); that this misses nothing is a property of the grammars, and one that
their definitions below are meant to show: each says on its own which texts it takes.

A line feed at the very end of a text is overlooked by every grammar.
-/

namespace ComposeNix.Yaml

/-- What the content of a node stands for. -/
inductive Tag
  | null
  | bool
  | int
  | float
  | binary
  | timestamp
  | orderedMap
  | pairs
  | set
  | str
  | seq
  | map
  | merge
  | value
  | indicator
  | other (name : String)
  deriving DecidableEq, Repr

namespace Tag

/-- What the tags of the language begin with. -/
def standard : String := "tag:yaml.org,2002:"

/-- The tags that have a meaning, by the end of their name. -/
def known : List (String × Tag) :=
  [("null", .null), ("bool", .bool), ("int", .int), ("float", .float), ("binary", .binary),
   ("timestamp", .timestamp), ("omap", .orderedMap), ("pairs", .pairs), ("set", .set),
   ("str", .str), ("seq", .seq), ("map", .map), ("merge", .merge), ("value", .value),
   ("yaml", .indicator)]

/-- The tag of this full name. -/
def ofName (name : String) : Tag :=
  match known.find? fun entry => standard ++ entry.1 == name with
  | some (_, tag) => tag
  | none => .other name

/-- The full name of a tag. -/
def name : Tag → String
  | .other name => name
  | tag => standard ++
    (match known.find? fun entry => entry.2 == tag with
     | some (suffix, _) => suffix
     | none => "")

end Tag

namespace Schema

/-! ## The grammars -/

/-- The texts for null. -/
def isNull (cs : List Char) : Bool :=
  ["", "~", "null", "Null", "NULL"].any fun w => w.toList == cs

/-- The texts for truth values. -/
def isBool (cs : List Char) : Bool :=
  ["true", "True", "TRUE", "false", "False", "FALSE"].any fun w => w.toList == cs

/-- The text of the merge key. -/
def isMerge (cs : List Char) : Bool := cs == ['<', '<']

/-- The indicators of tags, anchors and aliases. -/
def isIndicator (cs : List Char) : Bool := ["!", "&", "*"].any fun w => w.toList == cs

/-- A decimal digit. -/
def isDigit (c : Char) : Bool := '0' ≤ c && c ≤ '9'

/-- An octal digit. -/
def isOctal (c : Char) : Bool := '0' ≤ c && c ≤ '7'

/-- A hexadecimal digit. -/
def isHex (c : Char) : Bool := isDigit c || ('a' ≤ c && c ≤ 'f') || ('A' ≤ c && c ≤ 'F')

/-- At least one character, and all of them digits. -/
def isRun (digit : Char → Bool) (cs : List Char) : Bool := !cs.isEmpty && cs.all digit

/-- A text without its sign, if it has one. -/
def unsigned : List Char → List Char
  | '+' :: cs => cs
  | '-' :: cs => cs
  | cs => cs

/-- The texts for integers: decimal digits behind an optional sign, octal digits behind
`0o` and hexadecimal ones behind `0x`. -/
def isInt (cs : List Char) : Bool :=
  isRun isDigit (unsigned cs)
    || (cs.take 2 == ['0', 'o'] && isRun isOctal (cs.drop 2))
    || (cs.take 2 == ['0', 'x'] && isRun isHex (cs.drop 2))

/-- The exponent at the end of a number, or nothing. -/
def isExponent : List Char → Bool
  | [] => true
  | e :: cs => (e == 'e' || e == 'E') && isRun isDigit (unsigned cs)

/-- A number without sign: digits with an optional fraction, or a fraction alone, and an
optional exponent. -/
def isDecimal (cs : List Char) : Bool :=
  let whole := cs.takeWhile isDigit
  match cs.dropWhile isDigit with
  | '.' :: rest =>
    let fraction := rest.takeWhile isDigit
    (!whole.isEmpty || !fraction.isEmpty) && isExponent (rest.dropWhile isDigit)
  | rest => !whole.isEmpty && isExponent rest

/-- The texts for numbers. -/
def isFloat (cs : List Char) : Bool :=
  isDecimal (unsigned cs)
    || ([".inf", ".Inf", ".INF"].any fun w => w.toList == unsigned cs)
    || ([".nan", ".NaN", ".NAN"].any fun w => w.toList == cs)

/-- Whether the grammar of a tag takes a text. -/
def takes (tag : Tag) (cs : List Char) : Bool :=
  match tag with
  | .null => isNull cs
  | .bool => isBool cs
  | .int => isInt cs
  | .float => isFloat cs
  | .merge => isMerge cs
  | .indicator => isIndicator cs
  | _ => false

/-! ## Resolution -/

/-- A text without one line feed at its end. -/
def withoutFinalBreak (cs : List Char) : List Char :=
  if cs.getLast? = some '\n' then cs.dropLast else cs

/-- The grammars that are tried on a text that starts with this character, in order. -/
def candidates : Option Char → List Tag
  | none => [.null]
  | some c =>
    if c == '~' || c == 'n' || c == 'N' then [.null]
    else if c == '<' then [.merge]
    else if c == 't' || c == 'T' || c == 'f' || c == 'F' then [.bool]
    else if c == '-' || c == '+' || isDigit c then [.int, .float]
    else if c == '.' then [.float]
    else if c == '!' || c == '&' || c == '*' then [.indicator]
    else []

/-- The tag of a plain scalar without a tag. -/
def resolve (text : String) : Tag :=
  let cs := text.toList
  ((candidates cs.head?).find? fun tag => takes tag (withoutFinalBreak cs)).getD .str

end Schema
end ComposeNix.Yaml
