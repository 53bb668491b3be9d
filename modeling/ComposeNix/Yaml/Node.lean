import ComposeNix.Yaml.Mark
import ComposeNix.Yaml.Schema

/-!
# The nodes of a document

A document is a tree of nodes with references: a node may carry an anchor, and an alias
elsewhere stands for that very node.  Anchors are unique within a document, so a table
from anchors to nodes says all that the references say; an alias inside the node that it
stands for makes the document cyclic.

Collections are numbered in the order in which they begin, which tells them apart when
the same one is met again.
-/

namespace ComposeNix.Yaml

/-- A node of a document. -/
inductive Node
  | scalar (tag : Tag) (text : String) (start : Mark)
  | sequence (number : Nat) (tag : Tag) (items : List Node) (start : Mark)
  | mapping (number : Nat) (tag : Tag) (entries : List (Node × Node)) (start : Mark)
  | alias (anchor : String)
  deriving Repr, Inhabited

namespace Node

/-- The shape of a node, apart from its tag. -/
inductive Shape
  | scalar
  | sequence
  | mapping
  deriving DecidableEq, Repr

/-- A shape in words. -/
def Shape.name : Shape → String
  | .scalar => "scalar"
  | .sequence => "sequence"
  | .mapping => "mapping"

/-- The shape of a node that is no alias. -/
def shape : Node → Shape
  | .sequence _ _ _ _ => .sequence
  | .mapping _ _ _ _ => .mapping
  | _ => .scalar

/-- Where a node starts. -/
def start : Node → Mark
  | .scalar _ _ start => start
  | .sequence _ _ _ start => start
  | .mapping _ _ _ start => start
  | .alias _ => .origin

/-- The tag of a node. -/
def tag : Node → Tag
  | .scalar tag _ _ => tag
  | .sequence _ tag _ _ => tag
  | .mapping _ tag _ _ => tag
  | .alias _ => .null

/-- The node with another tag. -/
def retag (tag : Tag) : Node → Node
  | .scalar _ text start => .scalar tag text start
  | .sequence number _ items start => .sequence number tag items start
  | .mapping number _ entries start => .mapping number tag entries start
  | .alias anchor => .alias anchor

/-- The number of a collection. -/
def number? : Node → Option Nat
  | .sequence number _ _ _ => some number
  | .mapping number _ _ _ => some number
  | _ => none

end Node

/-- A document: its root, the nodes that have anchors, and how many collections there
are. -/
structure Document where
  root : Node
  anchored : List (String × Node)
  collections : Nat

namespace Document

/-- The node that a node stands for: itself, or the one an alias refers to. -/
def resolve (d : Document) : Node → Node
  | .alias anchor => (d.anchored.lookup anchor).getD (.alias anchor)
  | node => node

end Document
end ComposeNix.Yaml
