import ComposeNix.Number.Shortest
import ComposeNix.Text.Blank
import ComposeNix.Text.Quoted

/-!
# Reading and writing numbers

A numeral may be padded with blanks, carry a sign, use the decimal digits of any
script and group its digits with single underscores.  Numerals in base 8 and 16 may
repeat their base in front (`0o`, `0x`).

Between decimal notation and an integer stands a limit: a numeral of more than
`digitLimit` decimal digits is not converted, in either direction.  Bases that are
powers of two have no limit on the way in, so an integer can be read that cannot be
written.

* `readInteger`, `readFloat` --- the number a text denotes, or why it denotes none;
* `writeInteger` --- the decimal digits of an integer.
-/

namespace ComposeNix

/-- Why a text is no number, or a number has no text. -/
inductive NumberFault
  /-- The text is no numeral of this base. -/
  | notInteger (base : Nat) (text : String)
  /-- The text is no decimal number. -/
  | notFloat (text : String)
  /-- The numeral has this many decimal digits, more than the limit. -/
  | numeralTooLong (digits : Nat)
  /-- The integer has more decimal digits than the limit. -/
  | integerTooLong
  deriving DecidableEq, Repr

/-- The most decimal digits that are converted. -/
def digitLimit : Nat := 4300

/-- The wording of a fault.  The quoted text of a bad numeral is cut short. -/
def NumberFault.message : NumberFault → String
  | .notInteger base text =>
    "invalid literal for int() with base " ++ toString base ++ ": "
      ++ String.ofList ((Text.quotedText text).toList.take 200)
  | .notFloat text => "could not convert string to float: " ++ Text.quotedText text
  | .numeralTooLong digits =>
    "Exceeds the limit (" ++ toString digitLimit
      ++ " digits) for integer string conversion: value has " ++ toString digits
      ++ " digits; use sys.set_int_max_str_digits() to increase the limit"
  | .integerTooLong =>
    "Exceeds the limit (" ++ toString digitLimit
      ++ " digits) for integer string conversion; use sys.set_int_max_str_digits()"
      ++ " to increase the limit"

namespace Numeral

/-- The zeros of the decimal digits outside ASCII; nine digits follow each. -/
def scriptZeros : List Nat :=
  [0x660, 0x6F0, 0x7C0, 0x966, 0x9E6, 0xA66, 0xAE6, 0xB66, 0xBE6, 0xC66, 0xCE6, 0xD66, 0xDE6,
   0xE50, 0xED0, 0xF20, 0x1040, 0x1090, 0x17E0, 0x1810, 0x1946, 0x19D0, 0x1A80, 0x1A90,
   0x1B50, 0x1BB0, 0x1C40, 0x1C50, 0xA620, 0xA8D0, 0xA900, 0xA9D0, 0xA9F0, 0xAA50, 0xABF0,
   0xFF10, 0x104A0, 0x10D30, 0x11066, 0x110F0, 0x11136, 0x111D0, 0x112F0, 0x11450, 0x114D0,
   0x11650, 0x116C0, 0x11730, 0x118E0, 0x11950, 0x11C50, 0x11D50, 0x11DA0, 0x16A60, 0x16AC0,
   0x16B50, 0x1D7CE, 0x1D7D8, 0x1D7E2, 0x1D7EC, 0x1D7F6, 0x1E140, 0x1E2F0, 0x1E950, 0x1FBF0]

/-- The value of a decimal digit of any script. -/
def decimalDigit? (c : Char) : Option Nat :=
  if c.toNat < 0x80 then
    if c.isDigit then some (c.toNat - 0x30) else none
  else (scriptZeros.find? fun z => z ≤ c.toNat && c.toNat ≤ z + 9).map (c.toNat - ·)

/-- The value of a digit, letters counting from ten, if it is one of the base. -/
def digit? (base : Nat) (c : Char) : Option Nat :=
  let value :=
    if c.isUpper then some (c.toNat - 0x41 + 10)
    else if c.isLower then some (c.toNat - 0x61 + 10)
    else decimalDigit? c
  value.filter (· < base)

/-- The blanks that may pad a numeral: those of ASCII, and every other blank as well
once the text has a character outside ASCII. -/
def isPadding (text : List Char) (c : Char) : Bool :=
  c == ' ' || (0x09 ≤ c.toNat && c.toNat ≤ 0x0D)
    || (Text.isBlank c && text.any fun d => 0x80 ≤ d.toNat)

/-- A text without its padding. -/
def unpadded (cs : List Char) : List Char :=
  ((cs.dropWhile (isPadding cs)).reverse.dropWhile (isPadding cs)).reverse

/-- Splits off a sign; true is for minus. -/
def splitSign : List Char → Bool × List Char
  | '-' :: cs => (true, cs)
  | '+' :: cs => (false, cs)
  | cs => (false, cs)

/-- Splits off the mark of a base, and one underscore after it. -/
def splitBaseMark (base : Nat) : List Char → List Char
  | '0' :: m :: cs =>
    if (base = 16 ∧ (m = 'x' ∨ m = 'X')) ∨ (base = 8 ∧ (m = 'o' ∨ m = 'O')) then
      match cs with
      | '_' :: rest => rest
      | _ => cs
    else '0' :: m :: cs
  | cs => cs

/-- The digits at the start of a text, single underscores between them left out, and
what follows; `none` when an underscore does not stand between two digits.  `after`
says that a digit has just been read. -/
def digitRun (base : Nat) (after : Bool) : List Char → Option (List Nat × List Char)
  | [] => some ([], [])
  | '_' :: cs =>
    if after then
      match cs with
      | d :: _ => if (digit? base d).isSome then digitRun base false cs else none
      | [] => none
    else none
  | c :: cs =>
    match digit? base c with
    | some d => (digitRun base true cs).map fun (ds, rest) => (d :: ds, rest)
    | none => some ([], c :: cs)

/-- The number that a row of digits denotes. -/
def value (base : Nat) (digits : List Nat) : Nat := digits.foldl (fun n d => n * base + d) 0

end Numeral

open Numeral in
/-- The integer that a text denotes in a base. -/
def readInteger (base : Nat) (text : String) : Except NumberFault Int :=
  let (negative, body) := splitSign (unpadded text.toList)
  match digitRun base false (splitBaseMark base body) with
  | none => .error (.notInteger base text)
  | some (digits, rest) =>
    if base = 10 ∧ digitLimit < digits.length then .error (.numeralTooLong digits.length)
    else if digits.isEmpty ∨ !rest.isEmpty then .error (.notInteger base text)
    else
      let n := value base digits
      .ok (if negative then -(n : Int) else n)

/-- The decimal digits of an integer, with a minus sign before a negative one. -/
def writeInteger (n : Int) : Except NumberFault String :=
  let digits := Nat.toDigits 10 n.natAbs
  if digitLimit < digits.length then .error .integerTooLong
  else .ok (String.ofList (if n < 0 then '-' :: digits else digits))

namespace Numeral

/-- Leaves out the underscores of a text when each stands between two digits. -/
def withoutUnderscores : Option Char → List Char → Option (List Char)
  | _, [] => some []
  | previous, '_' :: cs =>
    let isDigit (c : Option Char) : Bool := (c.bind decimalDigit?).isSome
    if isDigit previous && isDigit cs.head? then withoutUnderscores (some '_') cs else none
  | _, c :: cs => (withoutUnderscores (some c) cs).map (c :: ·)

/-- Splits off decimal digits. -/
def decimalRun : List Char → List Nat × List Char
  | [] => ([], [])
  | c :: cs =>
    match decimalDigit? c with
    | some d => let (ds, rest) := decimalRun cs; (d :: ds, rest)
    | none => ([], c :: cs)

/-- The exponent at the end of a number; nothing at all stands for zero. -/
def exponent? : List Char → Option Int
  | [] => some 0
  | e :: cs =>
    if e = 'e' ∨ e = 'E' then
      let (negative, body) := splitSign cs
      match decimalRun body with
      | ([], _) => none
      | (ds, []) => some (if negative then -(value 10 ds : Int) else value 10 ds)
      | _ => none
    else none

/-- A number without sign: digits, a fraction and an exponent, or one of the words for
the values that are not finite. -/
def unsigned? (negative : Bool) (cs : List Char) : Option Binary64 :=
  let word := String.ofList (cs.map Char.toLower)
  if word = "inf" ∨ word = "infinity" then some (.infinite negative)
  else if word = "nan" then some .nan
  else
    let (whole, rest) := decimalRun cs
    let (fraction, rest) := match rest with
      | '.' :: r => decimalRun r
      | r => ([], r)
    if whole.isEmpty ∧ fraction.isEmpty then none
    else (exponent? rest).map fun x =>
      .ofDecimal negative (value 10 (whole ++ fraction)) (x - fraction.length)

end Numeral

open Numeral in
/-- The double-precision number that a text denotes. -/
def readFloat (text : String) : Except NumberFault Binary64 :=
  let number := do
    let cs ← withoutUnderscores none (unpadded text.toList)
    let (negative, body) := splitSign cs
    unsigned? negative body
  match number with
  | some x => .ok x
  | none => .error (.notFloat text)

end ComposeNix
