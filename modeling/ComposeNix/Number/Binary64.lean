/-!
# Double-precision numbers, exactly

A binary floating-point number of the interchange format with 64 bits is a sign, a
significand and an exponent, and everything that is asked of one here --- which number
a decimal denotes, which decimals denote it, whether it equals an integer --- is a
question about the rational `± significand · 2 ^ exponent`.  So a number is kept in
that form, and every operation is exact arithmetic on natural numbers followed by one
rounding.

* `Binary64.ofRatio` --- the number nearest to a quotient, ties to the even
  significand;
* `Binary64.ofDecimal` --- the number that a decimal denotes;
* `Binary64.add`, `Binary64.mul` --- the rounded sum and product;
* `Binary64.equalsInt` --- exact comparison with an integer.

A significand is below `2 ^ 53`, and below `2 ^ 52` only with the least exponent, so
two finite numbers are the same exactly when their fields are.
-/

namespace ComposeNix

/-- A double-precision number; a finite one is `± significand · 2 ^ exponent`. -/
inductive Binary64
  | finite (negative : Bool) (significand : Nat) (exponent : Int)
  | infinite (negative : Bool)
  | nan
  deriving DecidableEq, Repr, Inhabited

namespace Binary64

/-- The least exponent: that of the smallest positive number. -/
def minExponent : Int := -1074

/-- The greatest exponent of a finite number. -/
def maxExponent : Int := 971

/-- Zero, with a sign. -/
def zero (negative : Bool) : Binary64 := .finite negative 0 minExponent

/-- The quotient of two natural numbers, rounded to the nearest; a half goes to the
even neighbour. -/
def roundDiv (num den : Nat) : Nat :=
  let q := num / den
  let r := num % den
  if 2 * r < den then q
  else if den < 2 * r then q + 1
  else q + q % 2

/-- The quotient of `num` by `den · 2 ^ e`, as a quotient of natural numbers. -/
def scaleDown (num den : Nat) (e : Int) : Nat × Nat :=
  if 0 ≤ e then (num, den * Nat.pow 2 e.toNat) else (num * Nat.pow 2 (-e).toNat, den)

/-- The number nearest to `± num / den`, infinite when that lies beyond all finite
ones. -/
def ofRatio (negative : Bool) (num den : Nat) : Binary64 :=
  if num = 0 then zero negative
  else
    let guess : Int := (Nat.log2 num : Int) - (Nat.log2 den : Int) - 52
    let (n, d) := scaleDown num den guess
    let fitted := if n / d < Nat.pow 2 52 then guess - 1 else guess
    let exponent := max fitted minExponent
    let (n, d) := scaleDown num den exponent
    let significand := roundDiv n d
    let (significand, exponent) :=
      if significand = Nat.pow 2 53 then (Nat.pow 2 52, exponent + 1) else (significand, exponent)
    if maxExponent < exponent then .infinite negative
    else .finite negative significand exponent

/-- The number that the decimal `± digits · 10 ^ exponent` denotes.  Decimals far
outside the range are settled by their order of magnitude alone. -/
def ofDecimal (negative : Bool) (digits : Nat) (exponent : Int) : Binary64 :=
  if digits = 0 then zero negative
  else
    let magnitude := exponent + (Nat.toDigits 10 digits).length
    if 400 < magnitude then .infinite negative
    else if magnitude < -400 then zero negative
    else if 0 ≤ exponent then ofRatio negative (digits * Nat.pow 10 exponent.toNat) 1
    else ofRatio negative digits (Nat.pow 10 (-exponent).toNat)

/-- The number nearest to an integer. -/
def ofInt (n : Int) : Binary64 := ofRatio (n < 0) n.natAbs 1

/-- The number with the opposite sign. -/
def neg : Binary64 → Binary64
  | .finite s m e => .finite (!s) m e
  | .infinite s => .infinite (!s)
  | .nan => .nan

/-- Zero of either sign. -/
def isZero : Binary64 → Bool
  | .finite _ m _ => m == 0
  | _ => false

/-- A finite significand with its sign, brought to the exponent `least`. -/
def alignedTo (least : Int) (s : Bool) (m : Nat) (e : Int) : Int :=
  let shifted : Nat := m * Nat.pow 2 (e - least).toNat
  if s then -(shifted : Int) else shifted

/-- The number nearest to `n · 2 ^ exponent`. -/
def ofScaled (zeroSign : Bool) (n : Int) (exponent : Int) : Binary64 :=
  if n = 0 then zero zeroSign
  else if 0 ≤ exponent then ofRatio (n < 0) (n.natAbs * Nat.pow 2 exponent.toNat) 1
  else ofRatio (n < 0) n.natAbs (Nat.pow 2 (-exponent).toNat)

/-- The rounded sum.  A sum that vanishes is negative zero only when both terms are. -/
def add : Binary64 → Binary64 → Binary64
  | .nan, _ => .nan
  | _, .nan => .nan
  | .infinite s, .infinite t => if s = t then .infinite s else .nan
  | .infinite s, _ => .infinite s
  | _, .infinite t => .infinite t
  | .finite s m e, .finite t n f =>
    let least := min e f
    ofScaled (s && t && m == 0 && n == 0) (alignedTo least s m e + alignedTo least t n f) least

/-- The rounded product. -/
def mul : Binary64 → Binary64 → Binary64
  | .nan, _ => .nan
  | _, .nan => .nan
  | .infinite s, .infinite t => .infinite (s != t)
  | .infinite s, .finite t n _ => if n = 0 then .nan else .infinite (s != t)
  | .finite s m _, .infinite t => if m = 0 then .nan else .infinite (s != t)
  | .finite s m e, .finite t n f =>
    if m = 0 ∨ n = 0 then zero (s != t)
    else ofScaled false (if s != t then -((m * n : Nat) : Int) else (m * n : Nat)) (e + f)

/-- A finite number as a quotient of natural numbers, its sign left aside. -/
def ratio (m : Nat) (e : Int) : Nat × Nat :=
  if 0 ≤ e then (m * Nat.pow 2 e.toNat, 1) else (m, Nat.pow 2 (-e).toNat)

/-- The integer that a number is, if it is one. -/
def toInt? : Binary64 → Option Int
  | .finite s m e =>
    let (num, den) := ratio m e
    if num % den = 0 then some (if s then -((num / den : Nat) : Int) else (num / den : Nat))
    else none
  | _ => none

/-- Whether a number is the integer `n`, without rounding `n`. -/
def equalsInt (x : Binary64) (n : Int) : Bool := x.toInt? == some n

/-- Numeric equality of two numbers: the two zeros are equal, and so are any two that
are not numbers at all. -/
def sameNumber (x y : Binary64) : Bool := (x.isZero && y.isZero) || x == y

end Binary64
end ComposeNix
