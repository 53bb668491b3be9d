import ComposeNix.Text.LowerCase
import ComposeNix.Text.Printable
import ComposeNix.Text.Utf8
import ComposeNix.Url.Address
import ComposeNix.Url.Punycode

/-!
# Domain names in a URL

Before a host is looked at, escapes such as `%41` are undone and every character is
taken to its canonical form: small letters for capitals, ordinary forms for wide ones,
a dot for the full stops of other scripts, and nothing for characters without width.

A character that has no place in a host makes it invalid: the delimiters of a URL,
blanks and controls, whatever the character database does not show, and characters
whose canonical form would bring in one of those or a dot.  A label in Punycode has to
stand for a text outside ASCII in canonical form.

The full rules for domain names rest on tables of Unicode.  Of those only what is listed here is
looked at, so that more names pass than the rules let through.  What is left out: labels that begin
with a combining mark, labels that mix directions of writing, joiners out of their context, and
characters that are refused although they can be shown and their canonical form holds nothing
forbidden, such as fillers (U+3164), unpaired letters (U+2183) and the tatweel (U+0640).
-/

namespace ComposeNix.Url

/-- The value of an escape's two digits. -/
def escapedByte? (high low : UInt8) : Option UInt8 :=
  let h := Char.ofNat high.toNat
  let l := Char.ofNat low.toNat
  if isHexDigit h && isHexDigit l then some (UInt8.ofNat (hexDigit h * 16 + hexDigit l)) else none

/-- Bytes with their escapes undone; a percent sign without two digits stays. -/
def unescape : List UInt8 → List UInt8
  | [] => []
  | [a] => [a]
  | [a, b] => [a, b]
  | a :: b :: c :: rest =>
    if a = 0x25 then
      match escapedByte? b c with
      | some byte => byte :: unescape rest
      | none => a :: unescape (b :: c :: rest)
    else a :: unescape (b :: c :: rest)
termination_by bytes => bytes.length

/-- A character of ASCII that no host may hold. -/
def isForbidden (c : Char) : Bool :=
  c.toNat ≤ 0x20 || c.toNat == 0x7F || "%#/:<>?@[\\]^|".toList.contains c

/-- Characters without width, which a host is read without. -/
def isIgnored (c : Char) : Bool :=
  let n := c.toNat
  n == 0xAD || n == 0x34F || (0x180B ≤ n && n ≤ 0x180F) || n == 0x200B
    || (0x2060 ≤ n && n ≤ 0x2064) || (0x206A ≤ n && n ≤ 0x206F) || (0xFE00 ≤ n && n ≤ 0xFE0F)
    || n == 0xFEFF || (0x1BCA0 ≤ n && n ≤ 0x1BCA3) || (0x1D173 ≤ n && n ≤ 0x1D17A)
    || (0xE0100 ≤ n && n ≤ 0xE01EF)

/-- Ranges of characters that are refused although they can be shown: their canonical form
holds a forbidden character or a dot, or they describe other characters.  There are more characters
that no domain may hold, and they are not refused here. -/
def refusedForms : List (Nat × Nat) :=
  [(0xA8, 0xA8), (0xAF, 0xAF), (0xB4, 0xB4), (0xB8, 0xB8), (0x2D8, 0x2DD), (0x37A, 0x37A),
   (0x384, 0x385), (0x1FBD, 0x1FBD), (0x1FBF, 0x1FC1), (0x1FCD, 0x1FCF), (0x1FDD, 0x1FDF),
   (0x1FED, 0x1FEE), (0x1FFD, 0x1FFE), (0x2017, 0x2017), (0x2024, 0x2026), (0x203E, 0x203E),
   (0x2047, 0x2049), (0x2100, 0x2101), (0x2105, 0x2106), (0x2488, 0x249B), (0x2A74, 0x2A74),
   (0x2FF0, 0x2FFB), (0x309B, 0x309C), (0x33C2, 0x33C2), (0x33C7, 0x33C7), (0x33D8, 0x33D8),
   (0xFC5E, 0xFC63), (0xFDFA, 0xFDFB), (0xFE12, 0xFE12), (0xFE13, 0xFE13), (0xFE16, 0xFE16),
   (0xFE19, 0xFE19), (0xFE30, 0xFE30), (0xFE47, 0xFE4C), (0xFE52, 0xFE52), (0xFE55, 0xFE56),
   (0xFE5F, 0xFE5F), (0xFE64, 0xFE65), (0xFE68, 0xFE68), (0xFE6A, 0xFE6B), (0xFE70, 0xFE70),
   (0xFE72, 0xFE72), (0xFE74, 0xFE74), (0xFE76, 0xFE76), (0xFE78, 0xFE78), (0xFE7A, 0xFE7A),
   (0xFE7C, 0xFE7C), (0xFE7E, 0xFE7E), (0xFFE3, 0xFFE3), (0xFFF9, 0xFFFD), (0x1F100, 0x1F100)]

/-- A character outside ASCII that no host may hold. -/
def isRefused (c : Char) : Bool :=
  !Text.isPrintable c || refusedForms.any fun r => r.1 ≤ c.toNat && c.toNat ≤ r.2

/-- The canonical form of a character of a host. -/
def canonicalChar? (c : Char) : Option (List Char) :=
  let n := c.toNat
  if n < 0x80 then if isForbidden c then none else some [c.toLower]
  else if 0xFF01 ≤ n && n ≤ 0xFF5E then
    let ascii := Char.ofNat (n - 0xFEE0)
    if isForbidden ascii then none else some [ascii.toLower]
  else if n == 0x3002 || n == 0xFF61 then some ['.']
  else if isIgnored c then some []
  else if isRefused c then none
  else some (Text.lowerCase c)

/-- Whether a label in Punycode stands for a text outside ASCII in canonical form. -/
def isValidPunycode (cs : List Char) : Bool :=
  match Punycode.decode? cs with
  | none => false
  | some label =>
    label.any (0x80 ≤ ·.toNat) && label.all fun c => canonicalChar? c == some [c]

/-- Whether a label is in order. -/
def isValidLabel : List Char → Bool
  | 'x' :: 'n' :: '-' :: '-' :: cs => isValidPunycode cs
  | _ => true

/-- The domain that a host in a URL names, if its characters and its labels in Punycode are in
order.  Neither how the characters of a label follow each other nor which way they are written is
looked at. -/
def domain? (host : List Char) : Option (List Char) :=
  match Text.decodeUtf8 (unescape (String.ofList host).toUTF8.toList) with
  | .error _ => none
  | .ok text => do
    let name := (← text.toList.mapM canonicalChar?).flatten
    if name.isEmpty then none
    else if (dotted name).all isValidLabel then some name else none

end ComposeNix.Url
