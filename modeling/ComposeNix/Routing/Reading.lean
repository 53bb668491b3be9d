import ComposeNix.Routing.Rule
import ComposeNix.Text.Utf8
import ComposeNix.Url
import ComposeNix.Validation

/-!
# Reading routing rules

A rule is read out of a mapping.  Two of its fields have a second name, which is looked
at first; keys that name no field are passed over.  A truth value may be written as a
number or as one of a few words, and a text as bytes.  An address has to be a URL, and is
kept as it was written.

A name, a host and an entrypoint have to be Unicode.  So has an address, but there it takes another
turn: the report that it is no URL would repeat it, and that report has no encoding.  So the
reading breaks off (`Fault.unencodable`), and there is no refusal that could be told.
-/

namespace ComposeNix

/-! ## Fields of a rule -/

/-- A value as text. -/
def textOrCause (v : Value) : Except Cause String :=
  match v with
  | .str s => .ok s
  | .bytes bs =>
    match Text.decodeUtf8 bs with
    | .ok s => .ok (Text.ofChars s.toList)
    | .error _ => .error .notUnicode
  | _ => .error .notText

/-- A value as Unicode text of at least one character. -/
def shortestText (v : Value) : Except Cause String := do
  let s ← textOrCause v
  if !Text.isUnicode s then .error .notUnicode
  else if s.isEmpty then .error .tooShort else .ok s

/-- A value as URL, in the text that it was written in. -/
def urlText (v : Value) : Except Cause String := do
  let s ← textOrCause v
  if (Url.read? s).isSome then .ok s else .error (.invalidUrl s)

/-- A reading that takes null for an absent value. -/
def orNull {α : Type} (read : Value → Except Cause α) : Value → Except Cause (Option α)
  | .null => .ok none
  | v => (read v).map some

/-- The words for true. -/
def trueWords : List String := ["1", "t", "true", "y", "yes", "on"]

/-- The words for false. -/
def falseWords : List String := ["0", "f", "false", "n", "no", "off"]

/-- The truth value of a word, in letters of any case. -/
def truthOfWord (s : String) : Except Cause Bool :=
  let word := String.ofList (s.toList.map Char.toLower)
  if trueWords.contains word then .ok true
  else if falseWords.contains word then .ok false
  else .error .unclearTruth

/-- The truth value of an integer.  One beyond 64 bits is no candidate at all. -/
def truthOfInt (n : Int) : Except Cause Bool :=
  if n = 0 then .ok false
  else if n = 1 then .ok true
  else if -Int.pow 2 63 ≤ n ∧ n < Int.pow 2 63 then .error .unclearTruth
  else .error .notTruth

/-- The truth value of a number with a point, which counts if it is an integer strictly
between the bounds of 64 bits. -/
def truthOfFloat (x : Binary64) : Except Cause Bool :=
  match x.toInt? with
  | some n => if -Int.pow 2 63 < n then truthOfInt n else .error .notTruth
  | none => .error .notTruth

/-- A value as truth value. -/
def truthOrCause (v : Value) : Except Cause Bool :=
  match v with
  | .bool b => .ok b
  | .str s => if Text.isUnicode s then truthOfWord s else .error .notUnicode
  | .bytes bs =>
    match Text.decodeUtf8 bs with
    | .ok s => truthOfWord s
    | .error _ => .error .unclearTruth
  | .int n => truthOfInt n
  | .float x => truthOfFloat x
  | _ => .error .notTruth

/-- The entrypoint of a rule: whatever counts as false stands for the default one. -/
def entrypointText (v : Value) : Except Cause String :=
  if v.isTruthy then shortestText v else .ok RoutingRule.defaultEntrypoint

/-! ## Rules -/

/-- The value under the first of the names that is there, with that name. -/
def Entries.firstOf (names : List String) (es : Entries) : Option (String × Value) :=
  names.findSome? fun name => (Value.lookup name es).map (name, ·)

/-- A field under the first of its names; `missing` is what becomes of an absent one. -/
def Entries.named {α : Type} (names : List String) (missing : Checked α) (absent : α)
    (read : Value → Except Cause α) (es : Entries) : Checked α :=
  match es.firstOf names with
  | none => missing
  | some (name, v) =>
    match read v with
    | .ok a => pure a
    | .error cause => .issue absent [name] cause

namespace RoutingRule

/-- Reads a rule. -/
def read (es : Entries) : Checked RoutingRule :=
  RoutingRule.mk
    <$> es.named ["name"] (.issue "" ["name"] .missing) "" shortestText
    <*> es.named ["url"] (pure none) none (orNull urlText)
    <*> es.named ["host"] (pure none) none (orNull shortestText)
    <*> es.named ["entrypoint"] (pure defaultEntrypoint) "" entrypointText
    <*> es.named ["certResolver", "cert_resolver"] (pure none) none (orNull textOrCause)
    <*> es.named ["enableTLS", "enable_tls"] (pure false) false truthOrCause

/-- Why there is no rule. -/
inductive Fault
  | refused (refusal : Refusal)
  /-- The report on the address has no encoding. -/
  | unencodable (fault : Text.Unencodable)

/-- Why the report on a text that is no URL has no encoding, if it has none. -/
def unreportable? (url : String) : Option Text.Unencodable :=
  Text.unencodable? (Cause.invalidUrlReport url)

/-- Why the report on the address of a rule has no encoding, if it has none. -/
def addressBreak? (es : Entries) : Option Text.Unencodable :=
  match Value.lookup "url" es with
  | some (.str url) => unreportable? url
  | _ => none

/-- The rule that a value describes. -/
def ofValue (v : Value) : Except Fault RoutingRule :=
  match v.entries? with
  | some es =>
    match addressBreak? es with
    | some fault => .error (.unencodable fault)
    | none => ((read es).result "RoutingRule").mapError .refused
  | none => .error (.refused ⟨"RoutingRule", [⟨[], .notRecord "RoutingRule"⟩]⟩)

/-- A rule that could not be read, by its place in the list. -/
structure Bad where
  place : Nat
  fault : Fault

/-- The rules that values describe, counted from `place`, up to the first that
describes none. -/
def allFrom (place : Nat) : List Value → Except Bad (List RoutingRule)
  | [] => .ok []
  | v :: vs =>
    match ofValue v with
    | .error fault => .error ⟨place, fault⟩
    | .ok rule => (allFrom (place + 1) vs).map (rule :: ·)

/-- The rules that the values of a list describe. -/
def ofValues (vs : List Value) : Except Bad (List RoutingRule) := allFrom 1 vs

end RoutingRule
end ComposeNix
