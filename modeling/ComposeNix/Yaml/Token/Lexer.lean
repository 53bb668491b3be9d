import ComposeNix.Yaml.Token.Block
import ComposeNix.Yaml.Token.Plain
import ComposeNix.Yaml.Token.Property
import ComposeNix.Yaml.Token.Quoted

/-!
# From characters to tokens

Two things make the tokens of a document more than a matter of its characters.

*Indentation.*  Outside flow collections a line that starts further left than an open
block collection closes it, and an entry or key further right opens one.  The lexer keeps
the columns of the open block collections.

*Simple keys.*  A key needs no indicator of its own: only the colon behind it shows that
it was one, and then the tokens that open the key, and perhaps a mapping, belong before
it.  So every token that could start a key is remembered as *pending*, one for each depth
of flow collections, until the colon comes, the line ends or 1024 characters have passed.
A pending key at the indentation of an open block mapping *must* turn out to be a key.

## Tokens and faults

A text can be read in part before it turns out to be faulty, and a fault in the grammar
of the readable part counts first.  So the result (`Tokens`) is a row of tokens together
with the lexical fault that ends it, if any.  A token is readable only once it is certain
that nothing will be put before it: at a fault, the row is cut before the first pending
key.

The outer loop takes one token per round and each round but the last reads at least one
character, so the number of characters bounds the rounds.
-/

namespace ComposeNix.Yaml

/-- The tokens of a text, and the fault behind them if the text has one. -/
structure Tokens where
  tokens : List Token
  fault : Option FormFault

/-- A token that may turn out to start a simple key. -/
structure PendingKey where
  /-- The depth of flow collections at the token. -/
  depth : Nat
  /-- How many tokens precede it. -/
  number : Nat
  /-- Whether only a key can stand here. -/
  required : Bool
  mark : Mark
  deriving Repr

/-- A text that has been read in part. -/
structure Lexer where
  cursor : Cursor
  /-- The tokens so far, latest first. -/
  tokens : List Token
  /-- Their number. -/
  count : Nat
  /-- The column of the innermost open block collection, `-1` outside all of them. -/
  indent : Int
  /-- The columns of those around it, innermost first. -/
  outer : List Int
  /-- How many flow collections are open. -/
  depth : Nat
  /-- Whether a simple key may start here. -/
  keyAllowed : Bool
  pending : List PendingKey
  finished : Bool

namespace Lexer

/-- The start of a text. -/
def start (cs : List Char) : Lexer :=
  { cursor := .start cs, tokens := [], count := 0, indent := -1, outer := [], depth := 0
    keyAllowed := true, pending := [], finished := false }

/-- Where the lexer stands. -/
def mark (lx : Lexer) : Mark := lx.cursor.mark

/-- Adds a token. -/
def emit (lx : Lexer) (kind : TokenKind) (start stop : Mark) : Lexer :=
  { lx with tokens := ⟨kind, start, stop⟩ :: lx.tokens, count := lx.count + 1 }

/-- Puts a token without characters before the token of the given number. -/
def emitBefore (lx : Lexer) (number : Nat) (kind : TokenKind) (place : Mark) : Lexer :=
  { lx with
    tokens := lx.tokens.insertIdx (lx.count - number) ⟨kind, place, place⟩
    count := lx.count + 1 }

/-- A lexical fault at the cursor with nothing before it to blame. -/
def fault (lx : Lexer) (cause : LexicalFault) : FormFault :=
  .lexical none ⟨cause, lx.mark, none⟩

/-- The tokens that are readable although a fault follows. -/
def readable (lx : Lexer) : List Token :=
  let certain := (lx.pending.map (·.number)).foldl min lx.count
  lx.tokens.reverse.take certain

/-! ## Pending keys -/

/-- The fault of a key that never met its colon. -/
def missingColon (lx : Lexer) (key : PendingKey) : FormFault :=
  .lexical (some .simpleKey) ⟨.missingColon, lx.mark, some key.mark⟩

/-- Whether a pending key can no longer become one: its line has ended, or it is too
long. -/
def isStale (lx : Lexer) (key : PendingKey) : Bool :=
  key.mark.line != lx.mark.line || key.mark.index + 1024 < lx.mark.index

/-- Forgets the pending keys that are too old; a required one among them is a fault. -/
def dropStale (lx : Lexer) : Except FormFault Lexer :=
  match lx.pending.find? fun key => lx.isStale key && key.required with
  | some key => .error (lx.missingColon key)
  | none => .ok { lx with pending := lx.pending.filter fun key => !lx.isStale key }

/-- The pending key at this depth of flow collections. -/
def pendingHere? (lx : Lexer) : Option PendingKey :=
  lx.pending.find? (·.depth == lx.depth)

/-- Forgets the pending key at this depth; a required one is a fault. -/
def dropPending (lx : Lexer) : Except FormFault Lexer :=
  match lx.pendingHere? with
  | some key =>
    if key.required then .error (lx.missingColon key)
    else .ok { lx with pending := lx.pending.filter (·.depth != lx.depth) }
  | none => .ok lx

/-- Remembers that the next token may start a simple key. -/
def savePending (lx : Lexer) : Except FormFault Lexer := do
  if !lx.keyAllowed then return lx
  let lx ← lx.dropPending
  let required := lx.depth == 0 && lx.indent == lx.mark.column
  let key : PendingKey := ⟨lx.depth, lx.count, required, lx.mark⟩
  return { lx with pending := lx.pending ++ [key] }

/-! ## Indentation -/

/-- Closes the block collections further right than `column`, which are listed from the
innermost: `indent` is the column of the first, `outer` are those around it. -/
def closeDeeper (column : Int) (place : Mark) (indent : Int) :
    List Int → List Token → Nat → Int × List Int × List Token × Nat
  | [], tokens, count => (indent, [], tokens, count)
  | next :: outer, tokens, count =>
    if column < indent then
      closeDeeper column place next outer (⟨.blockEnd, place, place⟩ :: tokens) (count + 1)
    else (indent, next :: outer, tokens, count)

/-- Closes the block collections that a token in this column ends. -/
def unwind (lx : Lexer) (column : Int) : Lexer :=
  if lx.depth ≠ 0 then lx
  else
    let (indent, outer, tokens, count) :=
      closeDeeper column lx.mark lx.indent lx.outer lx.tokens lx.count
    { lx with indent, outer, tokens, count }

/-- Opens a block collection in this column, unless one is open there already. -/
def deepen (lx : Lexer) (column : Int) : Option Lexer :=
  if lx.indent < column then some { lx with indent := column, outer := lx.indent :: lx.outer }
  else none

/-- Opens a block collection at the cursor if need be. -/
def openBlock (lx : Lexer) (kind : TokenKind) : Lexer :=
  match lx.deepen lx.mark.column with
  | some deeper => deeper.emit kind lx.mark lx.mark
  | none => lx

/-! ## One token -/

/-- Adds the token of an indicator of `width` characters. -/
def indicator (lx : Lexer) (kind : TokenKind) (width : Nat) : Lexer :=
  let cursor := lx.cursor.advance width
  { lx.emit kind lx.mark cursor.mark with cursor }

/-- Adds a token that ends at the cursor `after`. -/
def take (lx : Lexer) (kind : TokenKind) (after : Cursor) : Lexer :=
  { lx.emit kind lx.mark after.mark with cursor := after }

/-- The end of the text closes everything. -/
def streamEnd (lx : Lexer) : Except FormFault Lexer := do
  let lx ← (lx.unwind (-1)).dropPending
  return { lx.emit .streamEnd lx.mark lx.mark with
    keyAllowed := false, pending := [], finished := true }

/-- A directive line. -/
def directive (lx : Lexer) : Except FormFault Lexer := do
  let lx ← (lx.unwind (-1)).dropPending
  let (content, stop, cursor) ← Property.directive lx.cursor
  return { lx.emit (.directive content) lx.mark stop with cursor, keyAllowed := false }

/-- A document marker. -/
def documentMarker (lx : Lexer) (kind : TokenKind) : Except FormFault Lexer := do
  let lx ← (lx.unwind (-1)).dropPending
  return { lx.indicator kind 3 with keyAllowed := false }

/-- The opening of a flow collection. -/
def flowStart (lx : Lexer) (kind : TokenKind) : Except FormFault Lexer := do
  let lx ← lx.savePending
  return { lx.indicator kind 1 with depth := lx.depth + 1, keyAllowed := true }

/-- The closing of a flow collection. -/
def flowEnd (lx : Lexer) (kind : TokenKind) : Except FormFault Lexer := do
  let lx ← lx.dropPending
  return { lx.indicator kind 1 with depth := lx.depth - 1, keyAllowed := false }

/-- The comma of a flow collection. -/
def flowEntry (lx : Lexer) : Except FormFault Lexer := do
  let lx ← lx.dropPending
  return { lx.indicator .flowEntry 1 with keyAllowed := true }

/-- The hyphen of a block sequence. -/
def blockEntry (lx : Lexer) : Except FormFault Lexer := do
  if lx.depth == 0 && !lx.keyAllowed then throw (lx.fault .entryNotAllowed)
  let lx := if lx.depth == 0 then lx.openBlock .blockSequenceStart else lx
  let lx ← lx.dropPending
  return { lx.indicator .blockEntry 1 with keyAllowed := true }

/-- The question mark of a key. -/
def key (lx : Lexer) : Except FormFault Lexer := do
  if lx.depth == 0 && !lx.keyAllowed then throw (lx.fault .keyNotAllowed)
  let lx := if lx.depth == 0 then lx.openBlock .blockMappingStart else lx
  let lx ← lx.dropPending
  return { lx.indicator .key 1 with keyAllowed := lx.depth == 0 }

/-- The colon of a value: behind a simple key it makes that a key. -/
def value (lx : Lexer) : Except FormFault Lexer := do
  match lx.pendingHere? with
  | some key =>
    let lx := { lx with pending := lx.pending.filter (·.depth != lx.depth) }
    let lx := lx.emitBefore key.number .key key.mark
    let lx :=
      if lx.depth == 0 then
        match lx.deepen key.mark.column with
        | some deeper => deeper.emitBefore key.number .blockMappingStart key.mark
        | none => lx
      else lx
    return { lx.indicator .value 1 with keyAllowed := false }
  | none =>
    if lx.depth == 0 && !lx.keyAllowed then throw (lx.fault .valueNotAllowed)
    let lx := if lx.depth == 0 then lx.openBlock .blockMappingStart else lx
    let lx ← { lx with keyAllowed := lx.depth == 0 }.dropPending
    return lx.indicator .value 1

/-- An alias or an anchor. -/
def reference (lx : Lexer) (activity : Activity) (kind : String → TokenKind) :
    Except FormFault Lexer := do
  let lx ← lx.savePending
  let (name, after) ← Property.reference activity lx.cursor
  return { lx.take (kind name) after with keyAllowed := false }

/-- A tag. -/
def tag (lx : Lexer) : Except FormFault Lexer := do
  let lx ← lx.savePending
  let (name, after) ← Property.tag lx.cursor
  return { lx.take (.tag name) after with keyAllowed := false }

/-- A literal or folded scalar. -/
def blockScalar (lx : Lexer) (folded : Bool) : Except FormFault Lexer := do
  let lx ← lx.dropPending
  let (content, after) ← Block.scan folded lx.indent lx.cursor
  return { lx.take (.scalar (String.ofList content) false) after with keyAllowed := true }

/-- A quoted scalar. -/
def quotedScalar (lx : Lexer) (double : Bool) : Except FormFault Lexer := do
  let lx ← lx.savePending
  let inside := lx.cursor.next
  let (content, after) ← Quoted.scan double lx.mark .text [] inside.rest inside.mark
  return { lx.take (.scalar (String.ofList content) false) after with keyAllowed := false }

/-- A plain scalar; behind one that was followed by a line end a key may start. -/
def plainScalar (lx : Lexer) : Except FormFault Lexer := do
  let lx ← lx.savePending
  let r := Plain.scan (lx.depth ≠ 0) (lx.indent + 1) .text [] lx.mark lx.cursor.rest lx.mark
  return { lx.emit (.scalar (String.ofList r.content) true) lx.mark r.stop with
    cursor := r.cursor, keyAllowed := r.brokeLine }

/-- Whether a plain scalar can start with `c`. -/
def startsPlain (inFlow : Bool) (c : Char) (following : Option Char) : Bool :=
  if isGap (some c) then false
  else if "-?:".toList.contains c then !isGap following && (c == '-' || !inFlow)
  else !("," ++ "[]\x7b\x7d#&*!|>'\"%@`").toList.contains c

/-- Reads the token at the cursor, which is not white space. -/
def token (lx : Lexer) : Except FormFault Lexer :=
  let rest := lx.cursor.rest
  let atMargin := lx.mark.column == 0
  let inFlow := lx.depth != 0
  match rest with
  | [] => lx.streamEnd
  | c :: cs =>
    let closes := inFlow || isGap cs.head?
    if c = '%' ∧ atMargin then lx.directive
    else if atMargin && rest.take 3 == "---".toList && isGap rest[3]? then
      lx.documentMarker .documentStart
    else if atMargin && rest.take 3 == "...".toList && isGap rest[3]? then
      lx.documentMarker .documentEnd
    else if c = '[' then lx.flowStart .flowSequenceStart
    else if c = '\x7b' then lx.flowStart .flowMappingStart
    else if c = ']' then lx.flowEnd .flowSequenceEnd
    else if c = '\x7d' then lx.flowEnd .flowMappingEnd
    else if c = ',' then lx.flowEntry
    else if c = '-' ∧ isGap cs.head? then lx.blockEntry
    else if c = '?' ∧ closes then lx.key
    else if c = ':' ∧ closes then lx.value
    else if c = '*' then lx.reference .alias .alias
    else if c = '&' then lx.reference .anchor .anchor
    else if c = '!' then lx.tag
    else if c = '|' ∧ !inFlow then lx.blockScalar false
    else if c = '>' ∧ !inFlow then lx.blockScalar true
    else if c = '\'' then lx.quotedScalar false
    else if c = '"' then lx.quotedScalar true
    else if startsPlain inFlow c cs.head? then lx.plainScalar
    else .error (.lexical (some .nextToken) ⟨.cannotStart (some c), lx.mark, none⟩)

/-! ## All tokens -/

/-- Passes over blanks, comments and line ends; outside flow collections a simple key may
start on a new line. -/
def skipGap (inFlow inComment keyAllowed : Bool) : List Char → Mark → Cursor × Bool
  | [], m => (⟨[], m⟩, keyAllowed)
  | c :: cs, m =>
    let m' := m.advance c cs.head?
    if isBreak c then skipGap inFlow false (keyAllowed || !inFlow) cs m'
    else if inComment || c == ' ' then skipGap inFlow inComment keyAllowed cs m'
    else if c == '#' then skipGap inFlow true keyAllowed cs m'
    else (⟨c :: cs, m⟩, keyAllowed)

/-- Moves to the next token; a byte order mark may open the text. -/
def toToken (lx : Lexer) : Lexer :=
  let cur := if lx.mark.index = 0 ∧ lx.cursor.peek = some '\uFEFF' then lx.cursor.next else lx.cursor
  let (cursor, keyAllowed) := skipGap (lx.depth != 0) false lx.keyAllowed cur.rest cur.mark
  { lx with cursor, keyAllowed }

/-- One round: move to the next token and read it. -/
def round (lx : Lexer) : Except FormFault Lexer := do
  let lx ← lx.toToken.dropStale
  (lx.unwind lx.mark.column).token

/-- The result of `rounds` rounds and what they leave. -/
def run : Nat → Lexer → Tokens
  | 0, lx => ⟨lx.readable, none⟩
  | rounds + 1, lx =>
    match lx.round with
    | .error fault => ⟨lx.readable, some fault⟩
    | .ok after =>
      if after.finished then ⟨after.tokens.reverse, none⟩
      else
        match after.dropStale with
        | .error fault => ⟨lx.readable, some fault⟩
        | .ok after => run rounds after

end Lexer

/-- Whether a document may hold a character. -/
def isAllowed (c : Char) : Bool :=
  let n := c.toNat
  n == 0x09 || n == 0x0A || n == 0x0D || (0x20 ≤ n && n ≤ 0x7E) || n == 0x85
    || (0xA0 ≤ n && n ≤ 0xD7FF) || (0xE000 ≤ n && n ≤ 0xFFFD) || 0x10000 ≤ n

/-- The first forbidden character of a text and its position. -/
def forbidden? (position : Nat) : List Char → Option (Char × Nat)
  | [] => none
  | c :: cs => if isAllowed c then forbidden? (position + 1) cs else some (c, position)

/-- The tokens of a text. -/
def Tokens.ofText (cs : List Char) : Tokens :=
  match forbidden? 0 cs with
  | some (c, position) => ⟨[], some (.forbidden c position)⟩
  | none => Lexer.run (cs.length + 1) (.start cs)

end ComposeNix.Yaml
