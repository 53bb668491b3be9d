import ComposeNix.Yaml.Node
import ComposeNix.Yaml.Token.Lexer

/-!
# From tokens to nodes

The nodes of a document are read by a machine with a stack.  A *frame* of the stack is a
collection that has been opened, with what it holds so far and what it waits for; the
machine takes one token at a time and needs no look-ahead.

Much of a document is left unsaid: a missing value, an empty item, the end of a sequence
that is not indented, the second half of a pair.  All of it shows only when the next
token cannot continue what is open.  So a token is taken in two steps: `settle` supplies
what the token implies about the nodes before it --- each kind of omission in its turn,
and none can bring about an earlier one --- and then `consume` lets the token do its work.

Anchors are registered when their node begins, so an alias can refer to a node that is
still open; the table of anchored nodes is complete once the document is.
-/

namespace ComposeNix.Yaml

/-- The properties read in front of a node. -/
structure Properties where
  anchor : Option String
  /-- The tag as written, until its handle has been looked up. -/
  written : Option (TagName × Mark)
  /-- The tag with its handle expanded. -/
  tag : Option String
  start : Mark
  deriving Repr

/-- What is known of a collection when it begins. -/
structure Head where
  number : Nat
  tag : Tag
  anchor : Option String
  /-- Where the node starts, properties included. -/
  start : Mark
  /-- Where the collection itself starts. -/
  begun : Mark
  deriving Repr

/-- What a sequence of hyphened items waits for. -/
inductive ItemStage
  | entry
  | item (behind : Mark)
  deriving Repr

/-- What a block mapping or a single pair waits for. -/
inductive PairStage
  | key
  | keyNode (behind : Mark)
  | value (key : Node)
  | valueNode (key : Node) (behind : Mark)
  deriving Repr

/-- What a flow sequence waits for: an item or its end, or a comma. -/
inductive FlowStage
  | first
  | behindComma
  | behindItem
  deriving Repr

/-- What a flow mapping waits for. -/
inductive FlowPairStage
  | first
  | behindComma
  | keyNode (behind : Mark)
  /-- Behind a key without indicator, which has no value of its own. -/
  | bareKey (key : Node)
  | value (key : Node)
  | valueNode (key : Node) (behind : Mark)
  | behindEntry
  deriving Repr

/-- An open collection; items and entries are listed latest first. -/
inductive Frame
  | blockSequence (head : Head) (items : List Node) (stage : ItemStage)
  | looseSequence (head : Head) (items : List Node) (stage : ItemStage)
  | blockMapping (head : Head) (entries : List (Node × Node)) (stage : PairStage)
  | flowSequence (head : Head) (items : List Node) (stage : FlowStage)
  | flowPair (head : Head) (stage : PairStage)
  | flowMapping (head : Head) (entries : List (Node × Node)) (stage : FlowPairStage)
  deriving Repr

/-- Where the machine stands with respect to whole documents. -/
inductive Phase
  /-- Before anything has been read. -/
  | opening
  /-- Between documents; the node is the root of the first. -/
  | between (root : Option Node)
  /-- In the directives before a document. -/
  | directives (root : Option Node) (start : Mark) (versioned : Bool)
      (handles : List (String × String))
  /-- Behind an explicit document start. -/
  | content
  /-- In the root node. -/
  | body
  /-- Behind the root node. -/
  | closing (root : Node)
  /-- Behind the end of the text. -/
  | done (root : Option Node)
  deriving Repr

/-- The state of the machine. -/
structure Reader where
  phase : Phase
  frames : List Frame
  properties : Option Properties
  handles : List (String × String)
  /-- The anchors seen so far and where their nodes start. -/
  anchors : List (String × Mark)
  /-- The completed nodes with anchors. -/
  anchored : List (String × Node)
  /-- How many collections have begun. -/
  count : Nat

namespace Reader

/-- The handles that every document has. -/
def standardHandles : List (String × String) := [("!", "!"), ("!!", Tag.standard)]

/-- The machine before the first token. -/
def start : Reader :=
  { phase := .opening, frames := [], properties := none, handles := standardHandles
    anchors := [], anchored := [], count := 0 }

/-- A grammatical fault at a token. -/
def fault (construct : Option Construct) (begun : Option Mark) (cause : GrammarFault)
    (t : Token) : FormFault :=
  .grammatical construct ⟨cause, t.start, begun⟩

/-! ## Completed nodes -/

/-- Puts a completed node where the innermost open collection waits for one.  The value of
a single pair completes the pair, which goes to the sequence around it in turn.  Without
an open collection the node comes back as the root. -/
def place (node : Node) : List Frame → List Frame × Option Node
  | [] => ([], some node)
  | .blockSequence head items _ :: rest => (.blockSequence head (node :: items) .entry :: rest, none)
  | .looseSequence head items _ :: rest => (.looseSequence head (node :: items) .entry :: rest, none)
  | .blockMapping head entries stage :: rest =>
    match stage with
    | .value key | .valueNode key _ =>
      (.blockMapping head ((key, node) :: entries) .key :: rest, none)
    | _ => (.blockMapping head entries (.value node) :: rest, none)
  | .flowSequence head items _ :: rest => (.flowSequence head (node :: items) .behindItem :: rest, none)
  | .flowPair head stage :: rest =>
    match stage with
    | .value key | .valueNode key _ =>
      place (.mapping head.number head.tag [(key, node)] head.start) rest
    | _ => (.flowPair head (.value node) :: rest, none)
  | .flowMapping head entries stage :: rest =>
    match stage with
    | .bareKey key | .value key | .valueNode key _ =>
      (.flowMapping head ((key, node) :: entries) .behindEntry :: rest, none)
    | .keyNode _ => (.flowMapping head entries (.value node) :: rest, none)
    | _ => (.flowMapping head entries (.bareKey node) :: rest, none)

/-- Hands over a completed node, to be found under its anchor from now on. -/
def deliver (r : Reader) (anchor : Option String) (node : Node) : Reader :=
  let r := match anchor with
    | some name => { r with anchored := (name, node) :: r.anchored }
    | none => r
  let (frames, root) := place node r.frames
  match root with
  | some root => { r with frames, phase := .closing root }
  | none => { r with frames }

/-- Registers the anchor of a node that begins at `start`. -/
def register (r : Reader) (anchor : Option String) (start : Mark) : Except FormFault Reader :=
  match anchor with
  | none => .ok r
  | some name =>
    match r.anchors.lookup name with
    | some first => .error (.referential ⟨.duplicateAnchor name, start, some first⟩)
    | none => .ok { r with anchors := (name, start) :: r.anchors }

/-- An empty scalar without properties. -/
def emptyNode (place : Mark) : Node := .scalar (Schema.resolve "") "" place

/-- Hands over an empty scalar. -/
def deliverEmpty (r : Reader) (place : Mark) : Reader := r.deliver none (emptyNode place)

/-! ## Properties -/

/-- Expands the handle of a tag. -/
def expand (r : Reader) (p : Properties) : Except FormFault Properties :=
  match p.written with
  | none => .ok p
  | some (name, place) =>
    match name.handle with
    | none => .ok { p with written := none, tag := some name.suffix }
    | some handle =>
      match r.handles.lookup handle with
      | some expansion => .ok { p with written := none, tag := some (expansion ++ name.suffix) }
      | none => .error (.grammatical (some .node) ⟨.undefinedHandle handle, place, some p.start⟩)

/-- The properties in front of a node that goes on with a token at `place`. -/
def propertiesAt (r : Reader) (place : Mark) : Properties :=
  r.properties.getD ⟨none, none, none, place⟩

/-- The tag of a scalar: the one written, else that of the core schema for a plain scalar
and for one tagged `!`, else text. -/
def scalarTag (p : Properties) (text : String) (plain : Bool) : Tag :=
  match p.tag with
  | none => if plain then Schema.resolve text else .str
  | some name => if name = "!" then Schema.resolve text else .ofName name

/-- The tag of a collection: the one written, else the usual one. -/
def collectionTag (p : Properties) (usual : Tag) : Tag :=
  match p.tag with
  | none => usual
  | some name => if name = "!" then usual else .ofName name

/-- Hands over a scalar with the properties in front of it. -/
def deliverScalar (r : Reader) (p : Properties) (text : String) (plain : Bool) :
    Except FormFault Reader := do
  let r ← { r with properties := none }.register p.anchor p.start
  return r.deliver p.anchor (.scalar (scalarTag p text plain) text p.start)

/-- Opens a collection with the properties in front of it. -/
def openCollection (r : Reader) (p : Properties) (usual : Tag) (begun : Mark)
    (frame : Head → Frame) : Except FormFault Reader := do
  let r ← { r with properties := none }.register p.anchor p.start
  let head : Head := ⟨r.count, collectionTag p usual, p.anchor, p.start, begun⟩
  return { r with frames := frame head :: r.frames, count := r.count + 1 }

/-! ## What the machine waits for -/

/-- Where a node may stand: whether block collections are allowed, and whether a sequence
may go without indentation. -/
structure Position where
  block : Bool
  loose : Bool

/-- The position of the node that is waited for, if any. -/
def position? (r : Reader) : Option Position :=
  match r.frames with
  | [] => some ⟨true, false⟩
  | .blockSequence _ _ (.item _) :: _ => some ⟨true, false⟩
  | .looseSequence _ _ (.item _) :: _ => some ⟨true, false⟩
  | .blockMapping _ _ (.keyNode _) :: _ => some ⟨true, true⟩
  | .blockMapping _ _ (.valueNode _ _) :: _ => some ⟨true, true⟩
  | .flowSequence _ _ .first :: _ => some ⟨false, false⟩
  | .flowSequence _ _ .behindComma :: _ => some ⟨false, false⟩
  | .flowPair _ (.keyNode _) :: _ => some ⟨false, false⟩
  | .flowPair _ (.valueNode _ _) :: _ => some ⟨false, false⟩
  | .flowMapping _ _ .first :: _ => some ⟨false, false⟩
  | .flowMapping _ _ .behindComma :: _ => some ⟨false, false⟩
  | .flowMapping _ _ (.keyNode _) :: _ => some ⟨false, false⟩
  | .flowMapping _ _ (.valueNode _ _) :: _ => some ⟨false, false⟩
  | _ => none

/-- Whether a token goes on with a node whose properties have been read. -/
def continues (pos : Position) (p : Properties) (kind : TokenKind) : Bool :=
  match kind with
  | .anchor _ => p.anchor.isNone
  | .tag _ => p.tag.isNone
  | .scalar _ _ | .flowSequenceStart | .flowMappingStart => true
  | .blockSequenceStart | .blockMappingStart => pos.block
  | .blockEntry => pos.loose
  | _ => false

/-- The mark of the empty node that a token implies, if the innermost collection waits for
a node that the token cannot start. -/
def emptyBefore? (frame : Frame) (kind : TokenKind) : Option Mark :=
  let when (behind : Mark) (enders : List TokenKind) : Option Mark :=
    if enders.contains kind then some behind else none
  match frame with
  | .blockSequence _ _ (.item behind) => when behind [.blockEntry, .blockEnd]
  | .looseSequence _ _ (.item behind) => when behind [.blockEntry, .key, .value, .blockEnd]
  | .blockMapping _ _ (.keyNode behind) => when behind [.key, .value, .blockEnd]
  | .blockMapping _ _ (.valueNode _ behind) => when behind [.key, .value, .blockEnd]
  | .flowPair _ (.keyNode behind) => when behind [.value, .flowEntry, .flowSequenceEnd]
  | .flowPair _ (.valueNode _ behind) => when behind [.flowEntry, .flowSequenceEnd]
  | .flowMapping _ _ (.keyNode behind) => when behind [.value, .flowEntry, .flowMappingEnd]
  | .flowMapping _ _ (.valueNode _ behind) => when behind [.flowEntry, .flowMappingEnd]
  | _ => none

/-! ## What a token implies -/

/-- The node in front of which properties stand is empty if the token cannot be part of
it. -/
def settleProperties (r : Reader) (t : Token) : Except FormFault Reader :=
  match r.properties with
  | none => .ok r
  | some p => do
    let p ← r.expand p
    match r.position? with
    | some pos =>
      if continues pos p t.kind then return { r with properties := some p }
      else r.deliverScalar p "" true
    | none => return { r with properties := some p }

/-- A node that is waited for is empty if the token cannot start it. -/
def settleNode (r : Reader) (t : Token) : Reader :=
  match r.properties, r.frames with
  | none, frame :: _ =>
    match emptyBefore? frame t.kind with
    | some behind => r.deliverEmpty behind
    | none => r
  | _, _ => r

/-- A sequence without indentation ends with its items. -/
def settleLooseSequence (r : Reader) (t : Token) : Reader :=
  match r.frames with
  | .looseSequence head items .entry :: rest =>
    if t.kind = .blockEntry then r
    else
      { r with frames := rest }.deliver head.anchor
        (.sequence head.number head.tag items.reverse head.start)
  | _ => r

/-- A key without a colon behind it has an empty value. -/
def settleValue (r : Reader) (t : Token) : Reader :=
  match r.frames with
  | .blockMapping _ _ (.value _) :: _
  | .flowPair _ (.value _) :: _
  | .flowMapping _ _ (.value _) :: _ => if t.kind = .value then r else r.deliverEmpty t.start
  | .flowMapping _ _ (.bareKey _) :: _ => r.deliverEmpty t.start
  | _ => r

/-- Everything that a token implies about the nodes before it. -/
def settle (r : Reader) (t : Token) : Except FormFault Reader := do
  let r ← r.settleProperties t
  return ((r.settleNode t).settleLooseSequence t).settleValue t

/-! ## What a token does -/

/-- A token where a node is waited for. -/
def beginNode (r : Reader) (pos : Position) (t : Token) : Except FormFault Reader :=
  let p := r.propertiesAt t.start
  match t.kind with
  | .alias name =>
    if (r.anchors.lookup name).isSome then .ok (r.deliver none (.alias name))
    else .error (.referential ⟨.undefinedAlias name, t.start, none⟩)
  | .anchor name => .ok { r with properties := some { p with anchor := some name } }
  | .tag name => do
    let p := { p with written := some (name, t.start) }
    let p ← if p.anchor.isSome then r.expand p else pure p
    return { r with properties := some p }
  | .scalar text plain => r.deliverScalar p text plain
  | .flowSequenceStart => r.openCollection p .seq t.start (.flowSequence · [] .first)
  | .flowMappingStart => r.openCollection p .map t.start (.flowMapping · [] .first)
  | .blockSequenceStart =>
    if pos.block then r.openCollection p .seq t.start (.blockSequence · [] .entry)
    else noContent
  | .blockMappingStart =>
    if pos.block then r.openCollection p .map t.start (.blockMapping · [] .key) else noContent
  | .blockEntry =>
    if pos.loose then r.openCollection p .seq t.start (.looseSequence · [] (.item t.stop))
    else noContent
  | _ => noContent
where
  /-- The fault of a token that cannot start a node. -/
  noContent : Except FormFault Reader :=
    .error (fault (some (if pos.block then .blockNode else .flowNode))
      (some (r.propertiesAt t.start).start) (.noContent t.kind) t)

/-- A token in the root node. -/
def consumeInBody (r : Reader) (t : Token) : Except FormFault Reader :=
  match r.frames with
  | .blockSequence head items .entry :: rest =>
    match t.kind with
    | .blockEntry => .ok { r with frames := .blockSequence head items (.item t.stop) :: rest }
    | .blockEnd => close rest head (.sequence head.number head.tag items.reverse head.start)
    | kind => .error (fault (some .blockSequence) (some head.begun) (.noBlockEnd kind) t)
  | .looseSequence head items .entry :: rest =>
    .ok { r with frames := .looseSequence head items (.item t.stop) :: rest }
  | .blockMapping head entries .key :: rest =>
    match t.kind with
    | .key => .ok { r with frames := .blockMapping head entries (.keyNode t.stop) :: rest }
    | .blockEnd => close rest head (.mapping head.number head.tag entries.reverse head.start)
    | kind => .error (fault (some .blockMapping) (some head.begun) (.noBlockEnd kind) t)
  | .blockMapping head entries (.value key) :: rest =>
    .ok { r with frames := .blockMapping head entries (.valueNode key t.stop) :: rest }
  | .flowSequence head items stage :: rest =>
    match t.kind, stage with
    | .flowSequenceEnd, _ =>
      close rest head (.sequence head.number head.tag items.reverse head.start)
    | .flowEntry, .behindItem =>
      .ok { r with frames := .flowSequence head items .behindComma :: rest }
    | kind, .behindItem =>
      .error (fault (some .flowSequence) (some head.begun) (.noFlowSequenceEnd kind) t)
    | .key, _ =>
      let pair : Head := ⟨r.count, .map, none, t.start, t.start⟩
      .ok { r with frames := .flowPair pair (.keyNode t.stop) :: r.frames, count := r.count + 1 }
    | _, _ => r.beginNode ⟨false, false⟩ t
  | .flowPair head (.value key) :: rest =>
    .ok { r with frames := .flowPair head (.valueNode key t.stop) :: rest }
  | .flowMapping head entries stage :: rest =>
    match t.kind, stage with
    | _, .keyNode _ | _, .valueNode _ _ => r.beginNode ⟨false, false⟩ t
    | _, .value key => .ok { r with frames := .flowMapping head entries (.valueNode key t.stop) :: rest }
    | .flowMappingEnd, _ =>
      close rest head (.mapping head.number head.tag entries.reverse head.start)
    | .flowEntry, .behindEntry =>
      .ok { r with frames := .flowMapping head entries .behindComma :: rest }
    | kind, .behindEntry =>
      .error (fault (some .flowMapping) (some head.begun) (.noFlowMappingEnd kind) t)
    | .key, _ => .ok { r with frames := .flowMapping head entries (.keyNode t.stop) :: rest }
    | _, _ => r.beginNode ⟨false, false⟩ t
  | _ => r.beginNode (r.position?.getD ⟨true, false⟩) t
where
  /-- Closes the innermost collection, which has become a node. -/
  close (rest : List Frame) (head : Head) (node : Node) : Except FormFault Reader :=
    .ok ({ r with frames := rest }.deliver head.anchor node)

/-- A token between documents, behind the directives read so far. -/
def consumeDirective (r : Reader) (root : Option Node) (start : Mark) (versioned : Bool)
    (handles : List (String × String)) (t : Token) : Except FormFault Reader :=
  match t.kind with
  | .directive (.version major _) =>
    if versioned then .error (fault none none .duplicateVersion t)
    else if major ≠ 1 then .error (fault none none .unknownVersion t)
    else .ok { r with phase := .directives root start true handles }
  | .directive (.handle handle expansion) =>
    if (handles.lookup handle).isSome then
      .error (fault none none (.duplicateHandle handle) t)
    else .ok { r with phase := .directives root start versioned ((handle, expansion) :: handles) }
  | .directive (.reserved _) => .ok { r with phase := .directives root start versioned handles }
  | .documentStart =>
    match root with
    | some root => .error (.referential ⟨.secondDocument, start, some root.start⟩)
    | none => .ok { r with phase := .content, handles := handles ++ standardHandles }
  | kind => .error (fault none none (.noDocumentStart kind) t)

/-- A token between documents. -/
def consumeBetween (r : Reader) (root : Option Node) (t : Token) : Except FormFault Reader :=
  match t.kind with
  | .documentEnd => .ok { r with phase := .between root }
  | .streamEnd => .ok { r with phase := .done root }
  | _ => r.consumeDirective root t.start false [] t

/-- A token behind the root node. -/
def consumeClosing (r : Reader) (root : Node) (t : Token) : Except FormFault Reader :=
  r.consumeBetween (some root) t

/-- A token in the root node, after what it implies; it may turn out to stand behind the
root. -/
def consumeSettled (r : Reader) (t : Token) : Except FormFault Reader := do
  let r ← r.settle t
  match r.phase with
  | .closing root => r.consumeClosing root t
  | _ => r.consumeInBody t

/-- One token. -/
def step (r : Reader) (t : Token) : Except FormFault Reader :=
  match r.phase with
  | .opening =>
    match t.kind with
    | .directive _ | .documentStart | .streamEnd => r.consumeBetween none t
    | _ => { r with phase := .body }.consumeInBody t
  | .between root => r.consumeBetween root t
  | .directives root start versioned handles =>
    r.consumeDirective root start versioned handles t
  | .content =>
    match t.kind with
    | .directive _ | .documentStart | .documentEnd | .streamEnd =>
      r.consumeClosing (emptyNode t.start) t
    | _ => { r with phase := .body }.consumeInBody t
  | .body => r.consumeSettled t
  | .closing root => r.consumeClosing root t
  | .done _ => .ok r

end Reader

/-- The document that a row of tokens makes; none if they make no document at all.  A
fault behind the tokens counts once all of them have been taken. -/
def Document.ofTokens (ts : Tokens) : Except FormFault (Option Document) := do
  let r ← ts.tokens.foldlM Reader.step Reader.start
  match ts.fault with
  | some fault => throw fault
  | none =>
    match r.phase with
    | .done (some root) => return some ⟨root, r.anchored, r.count⟩
    | _ => return none

end ComposeNix.Yaml
