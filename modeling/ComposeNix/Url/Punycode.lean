/-!
# Punycode

A label of a domain name whose characters are not all ASCII can be written in ASCII: the
ASCII characters first, then a row of numbers of variable length, each of which says
where the next character goes and how far it is from the one before (RFC 3492).

Digits are read one by one; a number ends at the first digit below its threshold, and
the threshold of a place adapts to the numbers read so far.
-/

namespace ComposeNix.Url.Punycode

/-- The value of a digit: letters, then decimal digits. -/
def digit? (c : Char) : Option Nat :=
  if c.isLower then some (c.toNat - 0x61)
  else if c.isUpper then some (c.toNat - 0x41)
  else if c.isDigit then some (c.toNat - 0x30 + 26)
  else none

/-- The threshold of a place. -/
def threshold (place bias : Nat) : Nat :=
  if place ≤ bias + 1 then 1 else if bias + 26 ≤ place then 26 else place - bias

/-- Divides by 35 until at most 455 is left, and counts 36 for each time. -/
def scale (delta : Nat) : Nat × Nat :=
  if 455 < delta then ((scale (delta / 35)).1, (scale (delta / 35)).2 + 36) else (delta, 0)
termination_by delta
decreasing_by all_goals exact Nat.div_lt_self (by omega) (by omega)

/-- The bias behind a number. -/
def adapt (delta points : Nat) (first : Bool) : Nat :=
  let halved := if first then delta / 700 else delta / 2
  let (rest, base) := scale (halved + halved / points)
  base + 36 * rest / (rest + 38)

/-- A reading of numbers: the text so far, the code point and the place of the last
character that was put into it, and the number that is being read. -/
structure Reading where
  text : List Char
  code : Nat
  position : Nat
  start : Nat
  weight : Nat
  place : Nat
  bias : Nat

namespace Reading

/-- Before the first number. -/
def begin (ascii : List Char) : Reading := ⟨ascii, 0x80, 0, 0, 1, 36, 72⟩

/-- Puts the next character in its place. -/
def finish (r : Reading) : Option Reading :=
  let points := r.text.length + 1
  let code := r.code + r.position / points
  let position := r.position % points
  if code.isValidChar then
    some ⟨r.text.take position ++ Char.ofNat code :: r.text.drop position, code, position + 1,
      position + 1, 1, 36, adapt (r.position - r.start) points (r.start == 0)⟩
  else none

/-- Reads one digit. -/
def step (r : Reading) (c : Char) : Option Reading := do
  let d ← digit? c
  let t := threshold r.place r.bias
  let r := { r with position := r.position + d * r.weight }
  if d < t then r.finish
  else some { r with weight := r.weight * (36 - t), place := r.place + 36 }

end Reading

/-- ASCII characters and digits, which the last hyphen separates. -/
def split (cs : List Char) : List Char × List Char :=
  let digits := (cs.reverse.takeWhile (· ≠ '-')).reverse
  (cs.take (cs.length - digits.length - 1), digits)

/-- The label that is written in ASCII like this. -/
def decode? (cs : List Char) : Option (List Char) := do
  let (ascii, digits) := split cs
  let r ← digits.foldlM Reading.step (Reading.begin ascii)
  if r.place = 36 then some r.text else none

end ComposeNix.Url.Punycode
