import ComposeNix.Dictionary
import ComposeNix.Text.Blank
import ComposeNix.Value.Text

/-!
# Reading loosely typed fields

A field of a manifest may be written in several shapes: an environment as a list of
`KEY=value` texts or as a mapping, a list of one as a lone scalar, dependencies as a
list or as the keys of a mapping, a command as one text or word by word.  Each reading
here takes the shapes that its field allows to one form, and answers `none` for every
other shape, which a caller treats as an absent field.

Inside a list, an item that is a collection or null is passed over; inside a mapping,
so is an entry whose value is a collection.
-/

namespace ComposeNix.Value

/-- A scalar other than null, as text. -/
def scalarText? (v : Value) : Except NumberFault (Option String) :=
  match v with
  | .null => .ok none
  | v => if v.isScalar then v.plainText.map some else .ok none

/-- The texts of the items that are scalars other than null. -/
def itemTexts : List Value → Except NumberFault (List String)
  | [] => .ok []
  | v :: vs => do
    match ← scalarText? v with
    | some s => return s :: (← itemTexts vs)
    | none => itemTexts vs

/-- Splits a text at its first `=`.  A text without one is all key. -/
def splitPair (s : String) : String × String :=
  let cs := s.toList
  (String.ofList (cs.takeWhile (· ≠ '=')), String.ofList ((cs.dropWhile (· ≠ '=')).drop 1))

/-- The dictionary that a list of `KEY=value` entries builds. -/
def pairsOfItems (items : List Value) : Except NumberFault (Dictionary String) :=
  (itemTexts items).map fun texts => .ofEntries (texts.map splitPair)

/-- The texts of the entries whose value is a scalar. -/
def entryTexts : List (Value × Value) → Except NumberFault (List (String × String))
  | [] => .ok []
  | (k, v) :: es =>
    if v.isScalar then do
      let key ← k.plainText
      let value ← v.plainText
      return (key, value) :: (← entryTexts es)
    else entryTexts es

/-- A field of texts filed under texts: a list of `KEY=value` entries or a mapping. -/
def dictionary? (v : Value) : Except NumberFault (Option (Dictionary String)) :=
  match v.unfold with
  | .list items => (pairsOfItems items).map some
  | .map entries => (entryTexts entries).map fun es => some (.ofEntries es)
  | _ => .ok none

/-- A field of texts: a list, or a lone scalar for a list of one. -/
def texts? (v : Value) : Except NumberFault (Option (List String)) :=
  match v.unfold with
  | .list items => (itemTexts items).map some
  | v => do
    match ← scalarText? v with
    | some s => return some [s]
    | none => return none

/-- The keys of a mapping, as texts. -/
def keyTexts (entries : List (Value × Value)) : Except NumberFault (List String) :=
  entries.mapM fun e => e.1.plainText

/-- A field of names: a list, or a mapping for the list of its keys. -/
def names? (v : Value) : Except NumberFault (Option (List String)) :=
  match v.unfold with
  | .list items => (itemTexts items).map some
  | .map entries => (keyTexts entries).map some
  | _ => .ok none

/-- A command: one text for its words, or a list of words. -/
def command? (v : Value) : Except NumberFault (Option (List String)) :=
  match v.unfold with
  | .str s => .ok (some ((Text.words s.toList).map String.ofList))
  | .list items => (itemTexts items).map some
  | _ => .ok none

end ComposeNix.Value
