import ComposeNix.Number.Literal
import ComposeNix.Value

/-!
# Values in writing

A value has three written forms.

* `literal` --- the form inside a written collection: texts in quotes, `None`, `True`,
  `False`, brackets around the items of a collection.
* `text` --- the literal, except that texts and timestamps are written bare.
* `plainText` --- the form that a container is given: as `text`, with nothing for null
  and `true` and `false` in small letters.

A collection that stands inside itself is written as an ellipsis in its own brackets.
Writing fails in one way only: an integer may have too many digits.

The members of a set are written in the order of the document.  A set has no order of its own, and
where it is kept by the hashes of its members, several of them may be written in any order.
-/

namespace ComposeNix.Value

/-- The ellipsis of a collection. -/
def ellipsis : Value → String
  | .list _ => "[...]"
  | .map _ => "\x7b...\x7d"
  | .pair _ _ => "(...)"
  | _ => "..."

mutual

/-- The literal of a value inside the collections `around`, which are listed with
their ellipses. -/
def literalIn (around : List (Nat × String)) : Value → Except NumberFault String
  | .null => .ok "None"
  | .bool b => .ok (if b then "True" else "False")
  | .int n => writeInteger n
  | .float x => .ok x.toText
  | .str s => .ok (Text.quotedText s)
  | .bytes bs => .ok (Text.quotedBytes bs)
  | .time t => .ok t.literal
  | .list items => do
    return "[" ++ ", ".intercalate (← literalsIn around items) ++ "]"
  | .map entries => do
    return "\x7b" ++ ", ".intercalate (← entriesIn around entries) ++ "\x7d"
  | .set members => do
    let inside ← literalsIn around members
    return if inside.isEmpty then "set()" else "\x7b" ++ ", ".intercalate inside ++ "\x7d"
  | .pair first second => do
    return "(" ++ (← literalIn around first) ++ ", " ++ (← literalIn around second) ++ ")"
  | .cyclic node body =>
    match around.lookup node with
    | some dots => .ok dots
    | none => literalIn ((node, ellipsis body) :: around) body
  | .back node => .ok ((around.lookup node).getD "...")
termination_by structural v => v

/-- The literals of a row of values. -/
def literalsIn (around : List (Nat × String)) : List Value → Except NumberFault (List String)
  | [] => .ok []
  | v :: vs => do
    let first ← literalIn around v
    return first :: (← literalsIn around vs)
termination_by structural vs => vs

/-- The entries of a mapping, each as key and value. -/
def entriesIn (around : List (Nat × String)) :
    List (Value × Value) → Except NumberFault (List String)
  | [] => .ok []
  | e :: es => do
    let first ← entryIn around e
    return first :: (← entriesIn around es)
termination_by structural es => es

/-- An entry of a mapping, key and value. -/
def entryIn (around : List (Nat × String)) : Value × Value → Except NumberFault String
  | (k, v) => do
    let key ← literalIn around k
    return key ++ ": " ++ (← literalIn around v)
termination_by structural e => e

end

/-- The literal of a value. -/
def literal (v : Value) : Except NumberFault String := literalIn [] v

/-- The written form of a value that stands alone. -/
def text : Value → Except NumberFault String
  | .str s => .ok s
  | .time t => .ok t.text
  | v => literal v

/-- The text that a container is given for a value. -/
def plainText : Value → Except NumberFault String
  | .null => .ok ""
  | .bool b => .ok (if b then "true" else "false")
  | v => text v

end ComposeNix.Value
