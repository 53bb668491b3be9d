import ComposeNix.Yaml.Cursor
import ComposeNix.Yaml.Fault
import ComposeNix.Yaml.Token.Quoted

/-!
# Directives, anchors and tags

The tokens that say something about a document or a node: directive lines at its head,
anchors and aliases, and tags.  A tag or the expansion of a handle is written with the
characters of a URI, in which other characters are escaped as the bytes of their UTF-8
form.
-/

namespace ComposeNix.Yaml.Property

/-- The characters of names: letters and digits of ASCII, hyphen and underscore. -/
def isNameChar (c : Char) : Bool := c.isAlphanum || c == '-' || c == '_'

/-- The characters of a URI, the percent sign of escapes apart. -/
def isUriChar (c : Char) : Bool := isNameChar c || ";/?:@&=+$,.!~*'()[]".toList.contains c

/-- A fault while doing something that was begun at `start`. -/
def fault (start : Mark) (activity : Activity) (wanted : Wanted) (cur : Cursor)
    (found : Option Char) : FormFault :=
  .lexical (some activity) ⟨.unexpected wanted found, cur.mark, some start⟩

/-- The fault of finding something else than was wanted at the cursor. -/
def unexpected (start : Mark) (activity : Activity) (wanted : Wanted) (cur : Cursor) :
    FormFault :=
  fault start activity wanted cur cur.peek

/-! ## URIs -/

/-- The text of a row of escaped bytes that starts at `place`, put before `done`. -/
def flushBytes (start : Mark) (activity : Activity) (done : List Char) :
    Option (Mark × List UInt8) → Except FormFault (List Char)
  | none => .ok done
  | some (place, bytes) =>
    match Text.decodeUtf8 bytes with
    | .ok s => .ok (s.toList.reverse ++ done)
    | .error e => .error (.lexical (some activity) ⟨.uriNotUtf8 e, place, some start⟩)

/-- Reads the characters of a URI.  `bytes` are the escaped bytes just read, with the
mark of the first; `done` is the URI before them, latest character first. -/
def uriFrom (start : Mark) (activity : Activity) (bytes : Option (Mark × List UInt8))
    (done : List Char) : List Char → Mark → Except FormFault (List Char × Cursor)
  | '%' :: a :: b :: cs, m => do
    let m₁ := m.advance '%' (some a)
    match Quoted.hexDigit? a, Quoted.hexDigit? b with
    | some high, some low =>
      let m₃ := (m₁.advance a (some b)).advance b cs.head?
      let (place, before) := bytes.getD (m, [])
      uriFrom start activity
        (some (place, before ++ [UInt8.ofNat (high * 16 + low)])) done cs m₃
    | none, _ => throw (fault start activity .uriEscape ⟨a :: b :: cs, m₁⟩ (some a))
    | _, none => throw (fault start activity .uriEscape ⟨a :: b :: cs, m₁⟩ (some b))
  | '%' :: cs, m =>
    let cur : Cursor := ⟨cs, m.advance '%' cs.head?⟩
    let found := if cs.head?.any fun c => (Quoted.hexDigit? c).isSome then none else cs.head?
    throw (fault start activity .uriEscape cur found)
  | c :: cs, m => do
    let done ← flushBytes start activity done bytes
    if isUriChar c then uriFrom start activity none (c :: done) cs (m.advance c cs.head?)
    else return (done.reverse, ⟨c :: cs, m⟩)
  | [], m => do
    let done ← flushBytes start activity done bytes
    return (done.reverse, ⟨[], m⟩)

/-- A URI of at least one character, inside a directive or a tag. -/
def uri (start : Mark) (scanning parsing : Activity) (cur : Cursor) :
    Except FormFault (String × Cursor) := do
  let (text, after) ← uriFrom start scanning none [] cur.rest cur.mark
  if after.mark.index = cur.mark.index then throw (unexpected start parsing .uri cur)
  return (String.ofList text, after)

/-! ## Tag handles -/

/-- A handle: `!`, or a name between two of them.  The single one is recognised by the
blank behind it. -/
def handle (start : Mark) (activity : Activity) (cur : Cursor) :
    Except FormFault (String × Cursor) := do
  if cur.peek ≠ some '!' then throw (unexpected start activity .bang cur)
  let behind := cur.next
  if behind.peek = some ' ' then return ("!", behind)
  let (name, after) := behind.span isNameChar
  if after.peek ≠ some '!' then throw (unexpected start activity .bang after)
  return ("!" ++ String.ofList name ++ "!", after.next)

/-! ## Directives -/

/-- A row of digits as a number, as far as digits are converted at all. -/
def number (start : Mark) (cur : Cursor) : Except FormFault (Nat × Cursor) := do
  if !cur.peek.any Char.isDigit then throw (unexpected start .directive .digit cur)
  let (digits, after) := cur.span Char.isDigit
  if digitLimit < digits.length then throw (.number (.numeralTooLong digits.length))
  return (digits.foldl (fun n c => n * 10 + (c.toNat - 0x30)) 0, after)

/-- The version after the name of its directive. -/
def version (start : Mark) (cur : Cursor) : Except FormFault (Directive × Cursor) := do
  let (major, cur) ← number start cur.skipBlanks
  if cur.peek ≠ some '.' then throw (unexpected start .directive .digitOrPoint cur)
  let (minor, cur) ← number start cur.next
  if !isGapNoTab cur.peek then throw (unexpected start .directive .digitOrBlank cur)
  return (.version major minor, cur)

/-- The handle and its expansion after the name of their directive. -/
def handleDirective (start : Mark) (cur : Cursor) : Except FormFault (Directive × Cursor) := do
  let (handle, cur) ← handle start .directive cur.skipBlanks
  if cur.peek ≠ some ' ' then throw (unexpected start .directive .blank cur)
  let (expansion, cur) ← uri start .directive .directiveUri cur.skipBlanks
  if !isGapNoTab cur.peek then throw (unexpected start .directive .blank cur)
  return (.handle handle expansion, cur)

/-- A directive line; the mark is that behind the content. -/
def directive (cur : Cursor) : Except FormFault (Directive × Mark × Cursor) := do
  let start := cur.mark
  let (name, cur) := cur.next.span isNameChar
  if name.isEmpty then throw (unexpected start .directive .alphanumeric cur)
  if !isGapNoTab cur.peek then throw (unexpected start .directive .alphanumeric cur)
  let (content, stop, cur) ←
    if name = "YAML".toList then do
      let (content, cur) ← version start cur
      pure (content, cur.mark, cur)
    else if name = "TAG".toList then do
      let (content, cur) ← handleDirective start cur
      pure (content, cur.mark, cur)
    else
      pure (Directive.reserved (String.ofList name), cur.mark, cur.skip fun c => !(isBreak c))
  let cur := cur.skipBlanks.skipComment
  if !isLineEnd cur.peek then throw (unexpected start .directive .commentOrBreak cur)
  return (content, stop, cur.skipBreak)

/-! ## Anchors, aliases and tags -/

/-- The name behind the indicator of an anchor or alias. -/
def reference (activity : Activity) (cur : Cursor) : Except FormFault (String × Cursor) := do
  let (name, after) := cur.next.span isNameChar
  if name.isEmpty then throw (unexpected cur.mark activity .alphanumeric after)
  if !(isGap after.peek || after.peek.any ("?:,]\x7d%@`".toList.contains ·)) then
    throw (unexpected cur.mark activity .alphanumeric after)
  return (String.ofList name, after)

/-- Whether a `!` stands before the next blank or line end. -/
def hasHandle (cs : List Char) : Bool :=
  (cs.takeWhile fun c => !(isGapNoTab (some c))).contains '!'

/-- A tag: a whole one between angle brackets, a single `!`, or a handle and the rest. -/
def tag (cur : Cursor) : Except FormFault (TagName × Cursor) := do
  let start := cur.mark
  let (name, after) ←
    if cur.peekAt 1 = some '<' then do
      let (suffix, after) ← uri start .tag .tagUri cur.next.next
      if after.peek ≠ some '>' then throw (unexpected start .tagUri .closingAngle after)
      pure (TagName.mk none suffix, after.next)
    else if isGap (cur.peekAt 1) then
      pure (TagName.mk none "!", cur.next)
    else do
      let (handle, after) ←
        if hasHandle (cur.rest.drop 1) then handle start .tag cur else pure ("!", cur.next)
      let (suffix, after) ← uri start .tag .tagUri after
      pure (TagName.mk (some handle) suffix, after)
  if !isGapNoTab after.peek then throw (unexpected start .tag .blank after)
  return (name, after)

end ComposeNix.Yaml.Property
