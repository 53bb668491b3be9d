import ComposeNix.Number.Literal
import ComposeNix.Text.Base64
import ComposeNix.Text.LowerCase
import ComposeNix.Value
import ComposeNix.Yaml.Fault
import ComposeNix.Yaml.Node

/-!
# What a document means

The meaning of a node is a value.  A scalar means what its tag makes of its text; a
collection means the collection of what its nodes mean, after the mappings under merge
keys have been put in front of a mapping's own entries.

Not every document has a meaning: a tag may be unknown, a text may not be what its tag
says, a key may be a collection.  The document is examined *level by level*: first the
root, then the contents of the root, then the contents of the collections among these.
Of several faults the one on the first level counts, and on one level the first in order.
A collection that is met again is not examined again.

So the meaning comes in two parts that share their treatment of scalars and entries:
`Document.examine` finds the first fault, and `Document.value` builds the value of a
document that has none.

A chain of collections without repetition is no longer than the number of collections,
which bounds both.
-/

namespace ComposeNix.Yaml

/-- Why a document has no meaning. -/
inductive MeaningFault
  | unknownTag (name : String)
  | notScalar (found : Node.Shape)
  | notSequence (found : Node.Shape)
  | notMapping (found : Node.Shape)
  | unhashableKey (mapping : Mark)
  | mergeTarget (mapping : Mark) (found : Node.Shape)
  | mergeItem (mapping : Mark) (found : Node.Shape)
  /-- The members of an ordered mapping, or of a row of pairs, are no sequence. -/
  | pairsNotSequence (ordered : Bool) (found : Node.Shape)
  | pairNotMapping (ordered : Bool) (sequence : Mark) (found : Node.Shape)
  | pairCount (ordered : Bool) (sequence : Mark) (count : Nat)
  | base64 (fault : Text.Base64Fault)
  deriving DecidableEq, Repr

/-- What was being made of a node when it failed, and where that node starts. -/
def MeaningFault.context : MeaningFault → Option (String × Option Mark)
  | .unhashableKey m | .mergeTarget m _ | .mergeItem m _ =>
    some ("while constructing a mapping", some m)
  | .pairsNotSequence ordered _ =>
    some (if ordered then "while constructing an ordered map" else "while constructing pairs", none)
  | .pairNotMapping ordered m _ | .pairCount ordered m _ =>
    some (if ordered then "while constructing an ordered map" else "while constructing pairs", some m)
  | _ => none

/-- A fault of meaning in words. -/
def MeaningFault.message : MeaningFault → String
  | .unknownTag name => "could not determine a constructor for the tag " ++ Text.quoted name
  | .notScalar found => "expected a scalar node, but found " ++ found.name
  | .notSequence found => "expected a sequence node, but found " ++ found.name
  | .notMapping found => "expected a mapping node, but found " ++ found.name
  | .unhashableKey _ => "found unhashable key"
  | .mergeTarget _ found =>
    "expected a mapping or list of mappings for merging, but found " ++ found.name
  | .mergeItem _ found => "expected a mapping for merging, but found " ++ found.name
  | .pairsNotSequence _ found => "expected a sequence, but found " ++ found.name
  | .pairNotMapping _ _ found => "expected a mapping of length 1, but found " ++ found.name
  | .pairCount _ _ count => "expected a single mapping item, but found " ++ toString count ++ " items"
  | .base64 fault => fault.message

/-- Why a text has no value.  The last six causes lie in the text of a single scalar and
have no place. -/
inductive Fault
  | form (fault : FormFault)
  | meaning (cause : MeaningFault) (place : Mark)
  | number (fault : NumberFault)
  | timestamp (fault : TimestampFault)
  /-- The text of a truth value, in small letters, is none of the words for one. -/
  | notTruth (word : String)
  /-- The text of a number is empty. -/
  | emptyNumber
  /-- The first part of a number in base 60 weighs more than every finite number. -/
  | weightTooGreat
  /-- The text of a timestamp is that of a mapping with a default value. -/
  | timestampOfMapping
  deriving DecidableEq, Repr

/-- A fault in words. -/
def Fault.message (source : Source) : Fault → String
  | .form fault => fault.message source
  | .meaning cause place =>
    let context := cause.context
    report source (context.map (·.1)) (context.map fun c => c.2.getD place) cause.message place
  | .number fault => fault.message
  | .timestamp fault => fault.message
  | .notTruth word => Text.quotedText word
  | .emptyNumber => "string index out of range"
  | .weightTooGreat => "int too large to convert to float"
  | .timestampOfMapping => "expected string or bytes-like object, got 'list'"

namespace Scalar

/-! ## Scalars -/

/-- The truth value of a word. -/
def truth? (word : String) : Option Bool :=
  if word = "yes" ∨ word = "true" ∨ word = "on" then some true
  else if word = "no" ∨ word = "false" ∨ word = "off" then some false
  else none

/-- A truth value, in letters of any case. -/
def bool (text : String) : Except Fault Value :=
  let word := String.ofList (Text.toLower text.toList)
  match truth? word with
  | some b => .ok (.bool b)
  | none => .error (.notTruth word)

/-- An integer; its base shows in how it begins. -/
def int (text : String) : Except Fault Value :=
  let cs := text.toList
  let number :=
    if cs.take 2 = ['0', 'o'] then readInteger 8 (String.ofList (cs.drop 2))
    else if cs.take 2 = ['0', 'x'] then readInteger 16 (String.ofList (cs.drop 2))
    else readInteger 10 text
  (number.mapError .number).map .int

/-- A number in base 60 from its parts, the most significant first.  Every part has a weight,
and the greatest of them has to be finite. -/
def sexagesimal (parts : List Binary64) : Except Fault Binary64 :=
  let step (sum : Binary64 × Nat) (part : Binary64) : Binary64 × Nat :=
    (sum.1.add (part.mul (.ofInt sum.2)), sum.2 * 60)
  if Binary64.ofInt (Nat.pow 60 (parts.length - 1)) = .infinite false then .error .weightTooGreat
  else .ok (parts.reverse.foldl step (Binary64.zero false, 1)).1

/-- A number; underscores are left out, and parts between colons count in base 60. -/
def float (text : String) : Except Fault Value := do
  let cs := (Text.toLower (text.toList.filter (· != '_')))
  if cs.isEmpty then throw .emptyNumber
  let negative := cs.head? == some '-'
  let body := if negative || cs.head? == some '+' then cs.drop 1 else cs
  let signed (x : Binary64) : Value := .float (if negative then x.neg else x)
  if body = ".inf".toList then return signed (.infinite false)
  else if body = ".nan".toList then return .float .nan
  else if body.contains ':' then
    let parts ← (body.splitOn ':').mapM fun part =>
      (readFloat (String.ofList part)).mapError Fault.number
    return signed (← sexagesimal parts)
  else return signed (← (readFloat (String.ofList body)).mapError .number)

/-- What a tag makes of the text of a scalar that starts at `place`. -/
def value (tag : Tag) (text : String) (place : Mark) : Except Fault Value :=
  match tag with
  | .null => .ok .null
  | .bool => bool text
  | .int => int text
  | .float => float text
  | .binary =>
    match Text.decodeBase64 text with
    | .ok bytes => .ok (.bytes bytes)
    | .error fault => .error (.meaning (.base64 fault) place)
  | .timestamp => ((Timestamp.read text).mapError .timestamp).map .time
  | .str => .ok (.str text)
  | tag => .error (.meaning (.unknownTag tag.name) place)

end Scalar

/-- Tags whose nodes become collections, whatever they are written as. -/
def Tag.isCollection : Tag → Bool
  | .orderedMap | .pairs | .set | .seq | .map => true
  | _ => false

namespace Document

/-- The text of a node whose tag asks for a scalar.  A mapping stands for the value under
its default key, if it has one; `depth` bounds how often. -/
def scalarText (d : Document) : Nat → Node → Except Fault String
  | depth, node =>
    match d.resolve node with
    | .scalar _ text _ => .ok text
    | .mapping number tag entries start =>
      match depth, entries.find? fun e => (d.resolve e.1).tag == .value with
      | depth + 1, some (_, value) => d.scalarText depth value
      | _, _ => .error (.meaning (.notScalar (Node.mapping number tag entries start).shape) start)
    | node => .error (.meaning (.notScalar node.shape) node.start)

/-- The value of a node that is no collection. -/
def scalar (d : Document) (node : Node) : Except Fault Value :=
  match node.tag, node with
  | tag, .scalar _ text place => Scalar.value tag text place
  | .other name, node => .error (.meaning (.unknownTag name) node.start)
  | .merge, node => .error (.meaning (.unknownTag Tag.merge.name) node.start)
  | .value, node => .error (.meaning (.unknownTag Tag.value.name) node.start)
  | .indicator, node => .error (.meaning (.unknownTag Tag.indicator.name) node.start)
  | tag, node => do
    let text ← d.scalarText (d.collections + 1) node
    match tag with
    | .timestamp => throw .timestampOfMapping
    | tag => Scalar.value tag text node.start

/-! ## Merge keys -/

/-- A row of results in order, up to the first fault. -/
def collect {α β : Type} (f : α → Except Fault (List β)) : List α → Except Fault (List β)
  | [] => .ok []
  | x :: xs => do
    let first ← f x
    return first ++ (← collect f xs)

/-- The entries of a mapping with those of the mappings under merge keys in front; of a
list of mappings the last comes first.  A mapping that is being merged already gives only
its own entries. -/
def mergedEntries (d : Document) (merging : List Nat) :
    Nat → Node → Except Fault (List (Node × Node))
  | 0, _ => .ok []
  | depth + 1, node =>
    match node with
    | .mapping number _ entries start => do
      let own := entries.filter fun e => (d.resolve e.1).tag != .merge
      if merging.contains number then return own
      let mergeOne := d.mergedEntries (number :: merging) depth
      let merged ← collect (fun (key, value) => do
        if (d.resolve key).tag != .merge then return []
        match d.resolve value with
        | .sequence _ _ items _ =>
          let rows ← items.mapM fun item =>
            match d.resolve item with
            | .mapping n t es m => mergeOne (.mapping n t es m)
            | other => throw (.meaning (.mergeItem start other.shape) other.start)
          return rows.reverse.flatten
        | .mapping n t es m => mergeOne (.mapping n t es m)
        | other => throw (.meaning (.mergeTarget start other.shape) other.start)) entries
      return merged ++ own
    | _ => return []

/-- The entries of a mapping node, merged. -/
def entries (d : Document) (node : Node) : Except Fault (List (Node × Node)) :=
  d.mergedEntries [] (d.collections + 1) node

/-- The key of an entry: a default key is a text. -/
def entryKey (d : Document) (key : Node) : Node :=
  let node := d.resolve key
  if node.tag = .value then node.retag .str else node

/-! ## Examination -/

/-- Examines a node where it stands: a collection is examined later. -/
def examineNode (d : Document) (node : Node) : Except Fault Unit :=
  if node.tag.isCollection then .ok () else (d.scalar node).map fun _ => ()

/-- Examines the entries of a mapping and gives their nodes. -/
def examineEntries (d : Document) (start : Mark) :
    List (Node × Node) → Except Fault (List Node)
  | [] => .ok []
  | (key, value) :: rest => do
    let key := d.entryKey key
    let value := d.resolve value
    d.examineNode key
    if key.tag.isCollection then throw (.meaning (.unhashableKey start) key.start)
    d.examineNode value
    return value :: (← examineEntries d start rest)

/-- Examines the pairs of an ordered mapping or a row of pairs and gives their nodes. -/
def examinePairs (d : Document) (ordered : Bool) (start : Mark) :
    List Node → Except Fault (List Node)
  | [] => .ok []
  | item :: rest => do
    match d.resolve item with
    | .mapping _ _ [(key, value)] _ =>
      let key := d.resolve key
      let value := d.resolve value
      d.examineNode key
      d.examineNode value
      return key :: value :: (← examinePairs d ordered start rest)
    | .mapping _ _ entries place => throw (.meaning (.pairCount ordered start entries.length) place)
    | other => throw (.meaning (.pairNotMapping ordered start other.shape) other.start)

/-- Examines the content of a node and gives the nodes in it. -/
def examineContent (d : Document) (node : Node) : Except Fault (List Node) :=
  match node.tag with
  | .seq =>
    match node with
    | .sequence _ _ items _ => items.mapM fun item => do
        let item := d.resolve item
        d.examineNode item
        return item
    | node => throw (.meaning (.notSequence node.shape) node.start)
  | .map | .set =>
    match node with
    | .mapping _ _ _ start => do d.examineEntries start (← d.entries node)
    | node => throw (.meaning (.notMapping node.shape) node.start)
  | .orderedMap | .pairs =>
    let ordered := node.tag == .orderedMap
    match node with
    | .sequence _ _ items start => d.examinePairs ordered start items
    | node => throw (.meaning (.pairsNotSequence ordered node.shape) node.start)
  | _ => return []

/-- The collections of a row that have not been seen, and all that have been seen now.
Scalars that a tag makes a collection have no number and count as new. -/
def unseen (seen : List Nat) : List Node → List Node × List Nat
  | [] => ([], seen)
  | node :: rest =>
    if !node.tag.isCollection then unseen seen rest
    else
      match node.number? with
      | some n =>
        if seen.contains n then unseen seen rest
        else
          let (nodes, seen) := unseen (n :: seen) rest
          (node :: nodes, seen)
      | none =>
        let (nodes, seen) := unseen seen rest
        (node :: nodes, seen)

/-- Examines the contents of a level, and the levels below it. -/
def examineLevels (d : Document) : Nat → List Nat → List Node → Except Fault Unit
  | 0, _, _ => .ok ()
  | depth + 1, seen, level => do
    if level.isEmpty then return ()
    let (below, seen) := unseen seen (← collect d.examineContent level)
    d.examineLevels depth seen below

/-- Examines a whole document. -/
def examine (d : Document) : Except Fault Unit := do
  let root := d.resolve d.root
  d.examineNode root
  let (level, seen) := unseen [] [root]
  d.examineLevels (d.collections + 2) seen level

end Document

/-! ## Values -/

namespace Backward

/-- Whether a value refers to a collection around it: `inside` are the cyclic collections
that have been entered. -/
def escapes (v : Value) : Bool := go [] v
where
  /-- `escapes` below the collections `inside`. -/
  go (inside : List Nat) : Value → Bool
    | .list items => goAll inside items
    | .map entries => goEntries inside entries
    | .set members => goAll inside members
    | .pair first second => go inside first || go inside second
    | .cyclic node body => go (node :: inside) body
    | .back node => !inside.contains node
    | .null | .bool _ | .int _ | .float _ | .str _ | .bytes _ | .time _ => false
  termination_by structural v => v
  /-- `go` on a row. -/
  goAll (inside : List Nat) : List Value → Bool
    | [] => false
    | v :: vs => go inside v || goAll inside vs
  termination_by structural vs => vs
  /-- `go` on entries. -/
  goEntries (inside : List Nat) : List (Value × Value) → Bool
    | [] => false
    | e :: es => goEntry inside e || goEntries inside es
  termination_by structural es => es
  /-- `go` on one entry. -/
  goEntry (inside : List Nat) : Value × Value → Bool
    | (k, v) => go inside k || go inside v
  termination_by structural e => e

end Backward

namespace Document

/-- A collection as a value: one that refers to itself or to what is around it is marked
as standing on a cycle. -/
def asCollection (number : Option Nat) (body : Value) : Value :=
  match number with
  | some n => if Backward.escapes body then .cyclic n body else body
  | none => body

/-- The value of a node inside the collections `inside`. -/
def valueIn (d : Document) : Nat → List Nat → Node → Except Fault Value
  | 0, _, _ => .ok .null
  | depth + 1, inside, node => do
    let node := d.resolve node
    if !node.tag.isCollection then return ← d.scalar node
    match node.number? with
    | some n => if inside.contains n then return .back n
    | none => pure ()
    let below := d.valueIn depth (node.number?.toList ++ inside)
    let body ←
      match node.tag, node with
      | .seq, .sequence _ _ items _ => do pure (Value.list (← items.mapM below))
      | .orderedMap, .sequence _ _ items _ | .pairs, .sequence _ _ items _ => do
        let pairs ← items.mapM fun item => do
          match d.resolve item with
          | .mapping _ _ ((key, value) :: _) _ => return Value.pair (← below key) (← below value)
          | _ => return .null
        pure (.list pairs)
      | tag, .mapping _ _ _ _ => do
        let entries ← (← d.entries node).mapM fun (key, value) => do
          return (← below (d.entryKey key), ← below value)
        let entries := entries.foldl (fun es (k, v) => Value.insert k v es) []
        pure (if tag == .set then .set (entries.map (·.1)) else .map entries)
      | _, _ => pure .null
    return asCollection node.number? body

/-- The value of a document. -/
def value (d : Document) : Except Fault Value := do
  d.examine
  d.valueIn (d.collections + 2) [] d.root

end Document
end ComposeNix.Yaml
