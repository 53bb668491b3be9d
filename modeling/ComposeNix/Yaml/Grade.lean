import ComposeNix.Yaml.Meaning

/-!
# Grades of faults

Faults in loading a text differ in how far they are foreseen.  Most lie in the document:
its characters, its grammar, its references, or a node that does not fit its tag.  Some
lie in a directive or a scalar that has to hold a number or a point in time, and whose text
does not denote one.  The rest nobody expects: a text under an explicit tag that the reading of that
tag is not made for.
-/

namespace ComposeNix.Yaml

/-- How far a fault is foreseen. -/
inductive Grade
  /-- The document is at fault. -/
  | document
  /-- A directive or a scalar denotes no value of its kind. -/
  | value
  /-- A scalar that the reading of its tag is not made for. -/
  | unforeseen
  deriving DecidableEq, Repr

/-- Code points above this are not even numbers that a character could be asked for. -/
def greatestNumber : Nat := 0x7FFFFFFF

/-- The grade of a fault. -/
def Fault.grade : Fault → Grade
  | .form (.notCodePoint code) => if code ≤ greatestNumber then .value else .unforeseen
  | .form (.number _) => .value
  | .form _ | .meaning _ _ => .document
  | .number _ => .value
  | .timestamp .malformed => .unforeseen
  | .timestamp _ => .value
  | .notTruth _ | .emptyNumber | .weightTooGreat | .timestampOfMapping => .unforeseen

end ComposeNix.Yaml
