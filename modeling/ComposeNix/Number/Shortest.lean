import ComposeNix.Number.Binary64

/-!
# The shortest decimal of a double-precision number

The decimals that read back as a given number fill an interval around it: half the
gap to the neighbour on either side, the ends included exactly when the significand
is even.  A grid of `k` significant digits meets that interval, if at all, in one of
the number's own two neighbours on the grid.  So the grids of 1, 2, … 17 digits are
tried in turn, and the first with a hit gives the digits; of two hits the nearer is
taken, and of two equally near the one with the even last digit.

* `Binary64.shortest` --- digits and decimal exponent;
* `Binary64.toText` --- the written form: positional while the decimal point falls at
  most 16 digits after the first digit and at most 3 zeros before it, with an exponent
  of at least two digits otherwise.
-/

namespace ComposeNix
namespace Binary64

/-- The interval of decimals that read back as `m · 2 ^ e`: its ends and the number
itself over one common denominator. -/
structure Interval where
  low : Nat
  value : Nat
  high : Nat
  den : Nat
  closed : Bool

/-- The interval of a positive finite number.  Below a power of two the gap is half
as wide as above it. -/
def interval (m : Nat) (e : Int) : Interval :=
  let narrow := m = Nat.pow 2 52 ∧ minExponent < e
  let low := if narrow then 4 * m - 1 else 4 * m - 2
  let scale (n : Nat) : Nat := if 0 ≤ e then n * Nat.pow 2 e.toNat else n
  { low := scale low, value := scale (4 * m), high := scale (4 * m + 2)
    den := if 0 ≤ e then 4 else 4 * Nat.pow 2 (-e).toNat
    closed := m % 2 = 0 }

/-- Whether `num / den` lies in the interval. -/
def Interval.contains (i : Interval) (num den : Nat) : Bool :=
  let low := i.low * den
  let high := i.high * den
  let here := num * i.den
  if i.closed then low ≤ here && here ≤ high else low < here && here < high

/-- The least `j ≥ start` with `den ≤ num · 10 ^ j`, looked for in `bound` steps. -/
def leadingZeros (num den : Nat) : Nat → Nat → Nat
  | 0, start => start
  | bound + 1, start =>
    if den ≤ num * Nat.pow 10 start then start else leadingZeros num den bound (start + 1)

/-- The `p` with `10 ^ (p - 1) ≤ num / den < 10 ^ p`. -/
def decimalPoint (num den : Nat) : Int :=
  if den ≤ num then ((Nat.toDigits 10 (num / den)).length : Int)
  else 1 - (leadingZeros num den 400 1 : Int)

/-- `n · 10 ^ x` as a quotient. -/
def onGrid (n : Nat) (x : Int) : Nat × Nat :=
  if 0 ≤ x then (n * Nat.pow 10 x.toNat, 1) else (n, Nat.pow 10 (-x).toNat)

/-- The distance from `num / den` to the number, over the product of denominators. -/
def Interval.distance (i : Interval) (num den : Nat) : Nat :=
  let here := num * i.den
  let value := i.value * den
  if here ≤ value then value - here else here - value

/-- The hit of the interval on the grid `10 ^ x`, if there is one. -/
def Interval.hit? (i : Interval) (x : Int) : Option Nat :=
  let (unitNum, unitDen) := onGrid 1 x
  let below := i.value * unitDen / (i.den * unitNum)
  let (n₀, d₀) := onGrid below x
  let (n₁, d₁) := onGrid (below + 1) x
  match i.contains n₀ d₀, i.contains n₁ d₁ with
  | false, false => none
  | true, false => some below
  | false, true => some (below + 1)
  | true, true =>
    let near := i.distance n₀ d₀
    let far := i.distance n₁ d₁
    if near < far then some below
    else if far < near then some (below + 1)
    else some (below + below % 2)

/-- The first grid with a hit, starting from `k` digits. -/
def Interval.search (i : Interval) (point : Int) : Nat → Nat → Nat × Int
  | 0, _ => (0, 0)
  | bound + 1, k =>
    match i.hit? (point - k) with
    | some n => (n, point - k)
    | none => i.search point bound (k + 1)

/-- The shortest decimal `digits · 10 ^ exponent` that reads back as the positive
number `m · 2 ^ e`. -/
def shortest (m : Nat) (e : Int) : Nat × Int :=
  let i := interval m e
  i.search (decimalPoint i.value i.den) 17 1

/-- The exponent part of a written number: sign and at least two digits. -/
def exponentText (x : Int) : List Char :=
  let digits := Nat.toDigits 10 x.natAbs
  (if x < 0 then '-' else '+') :: (if digits.length < 2 then '0' :: digits else digits)

/-- A decimal in writing; `point` is how many digits stand before the decimal point. -/
def layout (digits : List Char) (point : Int) : List Char :=
  if -4 < point ∧ point ≤ 16 then
    if point ≤ 0 then '0' :: '.' :: (List.replicate (-point).toNat '0' ++ digits)
    else
      let whole := digits.take point.toNat
      let rest := digits.drop point.toNat
      whole ++ List.replicate (point.toNat - whole.length) '0' ++ '.' ::
        (if rest.isEmpty then ['0'] else rest)
  else
    match digits with
    | [] => []
    | d :: rest =>
      d :: ((if rest.isEmpty then [] else '.' :: rest) ++ 'e' :: exponentText (point - 1))

/-- The digits of a decimal without the zeros at its end. -/
def significant (n : Nat) : List Char :=
  ((Nat.toDigits 10 n).reverse.dropWhile (· == '0')).reverse

/-- The written form of a number. -/
def toText : Binary64 → String
  | .nan => "nan"
  | .infinite s => if s then "-inf" else "inf"
  | .finite s m e =>
    let sign := if s then ['-'] else []
    if m = 0 then String.ofList (sign ++ ['0', '.', '0'])
    else
      let (n, x) := shortest m e
      let point := ((Nat.toDigits 10 n).length : Int) + x
      String.ofList (sign ++ layout (significant n) point)

end Binary64
end ComposeNix
