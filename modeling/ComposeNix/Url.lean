import ComposeNix.Text.Encoding
import ComposeNix.Url.Domain

/-!
# URLs

An absolute URL is a scheme, a colon and what the scheme allows behind it.

* `http`, `https`, `ws`, `wss` and `ftp` name a host.  Slashes of either kind before it
  do not count, and it cannot be empty.
* `file` names a path, and may name a host.
* Any other scheme names a host behind two slashes, possibly an empty one, and is
  followed by plain text otherwise.

Blanks and controls around a URL and line ends and tabs inside it do not count.  What
follows the host and the port is never at fault, so it is not kept: a URL is the part
that decides where a request goes.
-/

namespace ComposeNix

/-- Where a request goes. -/
inductive Url.Host
  | domain (name : List Char)
  | ipv4 (address : Nat)
  | ipv6 (address : List Char)
  /-- The host of a scheme that says itself what a host is. -/
  | other (text : List Char)
  deriving DecidableEq, Repr

/-- The part of a URL that decides where a request goes. -/
structure Url where
  scheme : List Char
  userinfo : List Char
  host : Option Url.Host
  port : Option Nat
  deriving DecidableEq, Repr

namespace Url

/-- The kinds of scheme. -/
inductive Kind
  | web
  | file
  | other
  deriving DecidableEq, Repr

/-- The kind of a scheme. -/
def kindOf (scheme : List Char) : Kind :=
  if scheme = "file".toList then .file
  else if ["http", "https", "ws", "wss", "ftp"].contains (String.ofList scheme) then .web
  else .other

/-- The text of a URL without what does not count. -/
def strip (cs : List Char) : List Char :=
  let isEdge (c : Char) : Bool := c.toNat ≤ 0x20
  let inner := ((cs.dropWhile isEdge).reverse.dropWhile isEdge).reverse
  inner.filter fun c => c != '\t' && c != '\n' && c != '\r'

/-- A character of a scheme. -/
def isSchemeChar (c : Char) : Bool := c.isAlphanum || c == '+' || c == '-' || c == '.'

/-- Scheme and rest of a URL. -/
def splitScheme? (cs : List Char) : Option (List Char × List Char) :=
  if (cs.head?.map Char.isAlpha).getD false then
    match cs.dropWhile isSchemeChar with
    | ':' :: rest => some ((cs.takeWhile isSchemeChar).map Char.toLower, rest)
    | _ => none
  else none

/-- A slash of either kind. -/
def isSlash (c : Char) : Bool := c == '/' || c == '\\'

/-- A character that ends the part with the host. -/
def endsAuthority (kind : Kind) (c : Char) : Bool :=
  c == '/' || c == '?' || c == '#' || (c == '\\' && kind != .other)

/-! ## Host -/

/-- An IPv6 address in its brackets. -/
def bracketed? (cs : List Char) : Option Host :=
  if 2 ≤ cs.length ∧ cs.getLast? = some ']' ∧ isIPv6 (cs.tail.dropLast) then
    some (.ipv6 cs.tail.dropLast)
  else none

/-- The host of a scheme that the web knows. -/
def webHost? (cs : List Char) : Option Host :=
  if cs.head? = some '[' then bracketed? cs
  else do
    let name ← domain? cs
    if endsInNumber name then (ipv4? name).map .ipv4 else some (.domain name)

/-- A character that the host of another scheme may not hold. -/
def isOtherForbidden (c : Char) : Bool :=
  c.toNat == 0 || " \t\n\r#/:<>?@[\\]^|".toList.contains c

/-- The host of another scheme. -/
def otherHost? (cs : List Char) : Option Host :=
  if cs.head? = some '[' then bracketed? cs
  else if cs.any isOtherForbidden then none
  else some (.other cs)

/-- Host and rest of a text: a colon ends the host, unless it stands in brackets. -/
def splitHost (kind : Kind) (inBrackets : Bool) : List Char → List Char × List Char
  | [] => ([], [])
  | c :: cs =>
    if (c == ':' && !inBrackets) || endsAuthority kind c then ([], c :: cs)
    else
      let (host, rest) := splitHost kind (c == '[' || (inBrackets && c != ']')) cs
      (c :: host, rest)

/-! ## Port -/

/-- Whether a text is what may follow the digits of a port. -/
def isPortEnd : List Char → Bool
  | [] => true
  | c :: _ => isSlash c || c == '?' || c == '#'

/-- The port behind a host, which may be left out. -/
def port? : List Char → Option (Option Nat)
  | ':' :: cs =>
    let digits := cs.takeWhile Char.isDigit
    let number := numeral 10 digits
    if isPortEnd (cs.dropWhile Char.isDigit) && number < 65536 then
      some (if digits.isEmpty then none else some number)
    else none
  | _ => some none

/-! ## The part with the host -/

/-- What stands before the last at sign, and what follows it. -/
def splitUserinfo (kind : Kind) (cs : List Char) : Option (List Char) × List Char :=
  let region := cs.takeWhile fun c => !endsAuthority kind c
  if region.contains '@' then
    let host := (region.reverse.takeWhile (· ≠ '@')).reverse
    let user := region.take (region.length - host.length - 1)
    (some user, cs.drop (user.length + 1))
  else (none, cs)

/-- Whether userinfo names a user or a password. -/
def namesUser (userinfo : List Char) : Bool := userinfo ≠ [] ∧ userinfo ≠ [':']

/-- Reads userinfo, host and port. -/
def authority? (kind : Kind) (scheme cs : List Char) : Option Url := do
  let (userinfo?, rest) := splitUserinfo kind cs
  let userinfo := userinfo?.getD []
  let (host, rest') := splitHost kind false rest
  let emptyWithUser :=
    host.isEmpty && (namesUser userinfo || (userinfo? == some [] && !rest.isEmpty))
  let emptyWithPort := host.isEmpty && rest'.head? == some ':'
  if emptyWithUser || emptyWithPort || (host.isEmpty && kind == .web) then none
  else
    let named ← if kind == .web then webHost? host else otherHost? host
    let port ← port? rest'
    return ⟨scheme, userinfo, if host.isEmpty then none else some named, port⟩

/-- A letter of a drive, with the colon or bar behind it. -/
def isDrive : List Char → Bool
  | [c, d] => c.isAlpha && (d == ':' || d == '|')
  | _ => false

/-- Reads what stands behind `file:`. -/
def file? (scheme : List Char) : List Char → Option Url
  | a :: b :: cs =>
    if isSlash a && isSlash b then
      let host := cs.takeWhile fun c => !endsAuthority .file c
      if host.isEmpty || isDrive host then some ⟨scheme, [], none, none⟩
      else (webHost? host).map fun named =>
        ⟨scheme, [], if named = .domain "localhost".toList then none else some named, none⟩
    else some ⟨scheme, [], none, none⟩
  | _ => some ⟨scheme, [], none, none⟩

/-- Reads a URL from its characters. -/
def readChars? (cs : List Char) : Option Url := do
  let (scheme, rest) ← splitScheme? (strip cs)
  match kindOf scheme with
  | .web => authority? .web scheme (rest.dropWhile isSlash)
  | .file => file? scheme rest
  | .other =>
    match rest with
    | '/' :: '/' :: rest => authority? .other scheme rest
    | _ => some ⟨scheme, [], none, none⟩

/-- Reads a URL.  A text that has no encoding is none. -/
def read? (text : String) : Option Url :=
  if Text.isUnicode text then readChars? text.toList else none

end Url
end ComposeNix
