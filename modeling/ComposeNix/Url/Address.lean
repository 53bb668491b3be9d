/-!
# Numeric addresses in a URL

A host that looks like a number has to be an address of IPv4, and what stands in square
brackets one of IPv6.

* An IPv4 address has one to four parts, which may be decimal, octal behind `0` or
  hexadecimal behind `0x`.  Every part but the last is one byte; the last fills the rest.
* An IPv6 address has eight groups of up to four hexadecimal digits.  One run of groups
  may be left out, which shows as `::`, and the last two groups may be written as four
  decimal bytes.
-/

namespace ComposeNix.Url

/-- The parts between dots. -/
def dotted (cs : List Char) : List (List Char) := cs.splitOnP (· == '.')

/-- A hexadecimal digit. -/
def isHexDigit (c : Char) : Bool :=
  c.isDigit || ('a'.toNat ≤ c.toNat && c.toNat ≤ 'f'.toNat)
    || ('A'.toNat ≤ c.toNat && c.toNat ≤ 'F'.toNat)

/-- The value of a hexadecimal digit. -/
def hexDigit (c : Char) : Nat :=
  if c.isDigit then c.toNat - 0x30 else c.toLower.toNat - 0x57

/-- The number that digits write in a base. -/
def numeral (base : Nat) (digits : List Char) : Nat :=
  digits.foldl (fun n c => n * base + hexDigit c) 0

/-! ## IPv4 -/

/-- Base and digits of a part of an IPv4 address. -/
def splitBase : List Char → Nat × List Char
  | '0' :: 'x' :: cs => (16, cs)
  | '0' :: 'X' :: cs => (16, cs)
  | '0' :: c :: cs => (8, c :: cs)
  | cs => (10, cs)

/-- Whether a character is a digit of a base. -/
def isDigitOf (base : Nat) (c : Char) : Bool := isHexDigit c && hexDigit c < base

/-- A part of an IPv4 address.  `0x` alone is zero. -/
def ipv4Part? (cs : List Char) : Option Nat :=
  if cs.isEmpty then none
  else
    let (base, digits) := splitBase cs
    if digits.all (isDigitOf base) then some (numeral base digits) else none

/-- The parts of a host, less an empty one at the end. -/
def hostParts (host : List Char) : List (List Char) :=
  let parts := dotted host
  if parts.getLast? = some [] then parts.dropLast else parts

/-- Whether the last part of a host is a number, so that the host is an address or
nothing. -/
def endsInNumber (host : List Char) : Bool :=
  match (hostParts host).getLast? with
  | none => false
  | some part => (!part.isEmpty && part.all Char.isDigit) || (ipv4Part? part).isSome

/-- The address that the values of the parts make, where the last fills the rest. -/
def ipv4OfParts : List Nat → Nat → Option Nat
  | [], _ => none
  | [last], room => if last < room then some last else none
  | n :: ns, room =>
    if n < 256 then (ipv4OfParts ns (room / 256)).map (n * (room / 256) + ·) else none

/-- The address that a host writes. -/
def ipv4? (host : List Char) : Option Nat := do
  let parts := hostParts host
  if 4 < parts.length then none
  else ipv4OfParts (← parts.mapM ipv4Part?) (Nat.pow 2 32)

/-! ## IPv6 -/

/-- A decimal byte without needless zeros. -/
def isDecimalByte (cs : List Char) : Bool :=
  !cs.isEmpty && cs.all Char.isDigit && (cs.head? != some '0' || cs.length == 1)
    && numeral 10 cs < 256

/-- Four decimal bytes with dots between them. -/
def isDottedQuad (cs : List Char) : Bool :=
  (dotted cs).length == 4 && (dotted cs).all isDecimalByte

/-- The digits of a group, at most four. -/
def groupDigits (cs : List Char) : List Char := (cs.take 4).takeWhile isHexDigit

/-- Whether the groups of an address go on like this, behind `count` groups, of which
one stands for a gap if `gap`. -/
def groupsFrom (count : Nat) (gap : Bool) (cs : List Char) : Bool :=
  match cs with
  | [] => gap || count == 8
  | ':' :: rest => count < 8 && !gap && groupsFrom (count + 1) true rest
  | c :: rest =>
    let digits := groupDigits (c :: rest)
    match _h : (c :: rest).drop digits.length with
    | [] => count < 8 && (gap || count == 7)
    | '.' :: _ =>
      !digits.isEmpty && count ≤ 6 && isDottedQuad (c :: rest) && (gap || count == 6)
    | ':' :: more =>
      count < 8 && !more.isEmpty && groupsFrom (count + 1) gap more
    | _ => false
termination_by cs.length
decreasing_by
  · simp
  · have hlen := congrArg List.length _h
    simp only [List.length_drop, List.length_cons] at hlen ⊢
    omega

/-- Whether a text in brackets is an IPv6 address. -/
def isIPv6 : List Char → Bool
  | ':' :: ':' :: rest => groupsFrom 1 true rest
  | ':' :: _ => false
  | cs => 2 ≤ cs.length && groupsFrom 0 false cs

end ComposeNix.Url
