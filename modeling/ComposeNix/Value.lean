import ComposeNix.Number.Binary64
import ComposeNix.Timestamp

/-!
# Values of a document

What a document says, once its syntax is gone: scalars of seven kinds and collections
of four.  A mapping keeps its entries in order, and no two of its keys are the same
(`sameKey`): numbers are compared as numbers, whatever their kind, and truth values
count as one and zero.

A document may refer from inside a collection back to that collection.  Such a value
has no finite tree, but it is the unfolding of one: `cyclic node body` is a collection
that stands on a cycle, and `back node` inside the body stands for that collection
itself.  `unfold` puts the collection in the place of every such reference, so that the
children of an unfolded value are values in their own right.  The numbers tell the
collections of one document apart; values without cycles never contain either form.
-/

namespace ComposeNix

/-- A value of a document. -/
inductive Value
  | null
  | bool (truth : Bool)
  | int (number : Int)
  | float (number : Binary64)
  | str (text : String)
  | bytes (octets : List UInt8)
  | time (timestamp : Timestamp)
  | list (items : List Value)
  | map (entries : List (Value × Value))
  | set (members : List Value)
  | pair (first second : Value)
  /-- A collection that refers back to itself. -/
  | cyclic (node : Nat) (body : Value)
  /-- The enclosing collection of this number. -/
  | back (node : Nat)
  deriving Repr, Inhabited, BEq

namespace Value

/-! ## References back -/

mutual

/-- Puts `whole` in the place of the references to collection `node`. -/
def close (node : Nat) (whole : Value) : Value → Value
  | .list items => .list (closeAll node whole items)
  | .map entries => .map (closeEntries node whole entries)
  | .set members => .set (closeAll node whole members)
  | .pair first second => .pair (close node whole first) (close node whole second)
  | .cyclic n body => if n = node then .cyclic n body else .cyclic n (close node whole body)
  | .back n => if n = node then whole else .back n
  | .null => .null
  | .bool b => .bool b
  | .int n => .int n
  | .float x => .float x
  | .str s => .str s
  | .bytes bs => .bytes bs
  | .time t => .time t
termination_by structural v => v

/-- `close` on every value of a row. -/
def closeAll (node : Nat) (whole : Value) : List Value → List Value
  | [] => []
  | v :: vs => close node whole v :: closeAll node whole vs
termination_by structural vs => vs

/-- `close` on every entry of a row. -/
def closeEntries (node : Nat) (whole : Value) : List (Value × Value) → List (Value × Value)
  | [] => []
  | e :: es => closeEntry node whole e :: closeEntries node whole es
termination_by structural es => es

/-- `close` on the key and the value of an entry. -/
def closeEntry (node : Nat) (whole : Value) : Value × Value → Value × Value
  | (k, v) => (close node whole k, close node whole v)
termination_by structural e => e

end

/-- The collection that a cyclic value is, with its children made values in their own
right; every other value is itself. -/
def unfold : Value → Value
  | .cyclic node body => close node (.cyclic node body) body
  | v => v

/-- The items of a list. -/
def items? (v : Value) : Option (List Value) :=
  match v.unfold with
  | .list items => some items
  | _ => none

/-- The entries of a mapping. -/
def entries? (v : Value) : Option (List (Value × Value)) :=
  match v.unfold with
  | .map entries => some entries
  | _ => none

/-- The value under a text key. -/
def lookup (key : String) : List (Value × Value) → Option Value
  | [] => none
  | (.str k, v) :: es => if k = key then some v else lookup key es
  | _ :: es => lookup key es

/-! ## Kinds and truth -/

/-- Neither a collection nor a reference to one. -/
def isScalar : Value → Bool
  | .list _ | .map _ | .set _ | .pair _ _ | .cyclic _ _ | .back _ => false
  | _ => true

/-- Null, false, zero and everything empty count as false. -/
def isTruthy : Value → Bool
  | .null => false
  | .bool b => b
  | .int n => n != 0
  | .float x => !x.isZero
  | .str s => !s.isEmpty
  | .bytes bs => !bs.isEmpty
  | .list items => !items.isEmpty
  | .map entries => !entries.isEmpty
  | .set members => !members.isEmpty
  | _ => true

/-! ## Keys -/

/-- The number that a value is as a key, when it is an integer. -/
def keyInt? : Value → Option Int
  | .bool b => some (if b then 1 else 0)
  | .int n => some n
  | _ => none

/-- Whether two values are the same key. -/
def sameKey (a b : Value) : Bool :=
  match a, b with
  | .null, .null => true
  | .str s, .str t => s == t
  | .bytes s, .bytes t => s == t
  | .time s, .time t => s.same t
  | .float x, .float y => x.sameNumber y
  | .float x, _ => (keyInt? b).any x.equalsInt
  | _, .float y => (keyInt? a).any y.equalsInt
  | _, _ =>
    match keyInt? a, keyInt? b with
    | some m, some n => m == n
    | _, _ => false

/-- Files a value in a mapping: a key that is taken keeps its place and its form. -/
def insert (key value : Value) : List (Value × Value) → List (Value × Value)
  | [] => [(key, value)]
  | (k, v) :: es => if k.sameKey key then (k, value) :: es else (k, v) :: insert key value es

end Value
end ComposeNix
