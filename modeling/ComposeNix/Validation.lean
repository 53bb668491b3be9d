import ComposeNix.Text.Encoding
import ComposeNix.Value.Text

/-!
# Validation

Reading a record out of a mapping looks at every field, and all that is wrong is
reported together.  An `Issue` is one thing that is wrong: where, as the path of keys
that leads there, and why.

A reading is a value beside its issues (`Checked`).  Where a field has an issue its
value is the one of an absent field; the value counts only when there is no issue at
all, and then `Checked.result` hands it out.  Reading the fields side by side is the
applicative structure: values are put together, and issues are appended in the order of
the fields.
-/

namespace ComposeNix

/-- Why something is wrong. -/
inductive Cause
  /-- A field that has to be there is missing. -/
  | missing
  /-- A record was wanted, and there is no mapping. -/
  | notRecord (model : String)
  /-- The key of a record's entry is no text. -/
  | keyNotText
  /-- A number could not be written as text. -/
  | unwritable (fault : NumberFault)
  | notText
  /-- Bytes that are not UTF-8, or a text that has no encoding, where a text was wanted. -/
  | notUnicode
  | tooShort
  | notTruth
  /-- A text or number that stands for neither truth value. -/
  | unclearTruth
  | invalidUrl (url : String)
  deriving Repr

/-- One thing that is wrong, and the keys that lead there. -/
structure Issue where
  path : List String
  cause : Cause
  deriving Repr

namespace Cause

/-- What is told about a text that is no URL. -/
def invalidUrlReport (url : String) : String := "Invalid URL: " ++ url

/-- What is wrong, in words. -/
def message : Cause → String
  | .missing => "Field required"
  | .notRecord model => "Input should be a valid dictionary or instance of " ++ model
  | .keyNotText => "Keys should be strings"
  | .unwritable fault => "Value error, " ++ fault.message
  | .notText => "Input should be a valid string"
  | .notUnicode =>
    "Input should be a valid string, unable to parse raw data as a unicode string"
  | .tooShort => "String should have at least 1 character"
  | .notTruth => "Input should be a valid boolean"
  | .unclearTruth => "Input should be a valid boolean, unable to interpret input"
  | .invalidUrl url => "Value error, " ++ invalidUrlReport url

/-- The short name of a cause, which a report gives in brackets. -/
def name : Cause → String
  | .missing => "missing"
  | .notRecord _ => "model_type"
  | .keyNotText => "invalid_key"
  | .unwritable _ | .invalidUrl _ => "value_error"
  | .notText => "string_type"
  | .notUnicode => "string_unicode"
  | .tooShort => "string_too_short"
  | .notTruth => "bool_type"
  | .unclearTruth => "bool_parsing"

end Cause

/-- A key on a path: one that holds a dot is set apart from the dots between the keys. -/
def showStep (step : String) : String :=
  let step := Text.withReplacements step
  if step.toList.contains '.' then "`" ++ step ++ "`" else step

namespace Issue

/-- An issue in a report: a line for the path, unless it is empty, and one for the cause. -/
def text (issue : Issue) : String :=
  (if issue.path.isEmpty then "" else "\n" ++ ".".intercalate (issue.path.map showStep))
    ++ "\n  " ++ issue.cause.message ++ " [type=" ++ issue.cause.name ++ "]"

/-- The issue seen from the mapping around. -/
def under (step : String) (issue : Issue) : Issue := { issue with path := step :: issue.path }

end Issue

/-- A record that could not be read, and all that is wrong with it. -/
structure Refusal where
  model : String
  issues : List Issue
  deriving Repr

/-- The report on a record that could not be read. -/
def Refusal.message (r : Refusal) : String :=
  toString r.issues.length
    ++ (if r.issues.length = 1 then " validation error for " else " validation errors for ")
    ++ r.model ++ String.join (r.issues.map Issue.text)

/-- A value that was read, and what is wrong with it. -/
structure Checked (α : Type) where
  value : α
  issues : List Issue

namespace Checked

variable {α β : Type}

instance : Applicative Checked where
  pure a := ⟨a, []⟩
  seq f x := ⟨f.value (x ()).value, f.issues ++ (x ()).issues⟩

/-- A reading without value. -/
def issue (absent : α) (path : List String) (cause : Cause) : Checked α :=
  ⟨absent, [⟨path, cause⟩]⟩

/-- The reading seen from the mapping around. -/
def under (step : String) (c : Checked α) : Checked α :=
  { c with issues := c.issues.map (Issue.under step) }

/-- The reading with more that is wrong. -/
def also (c : Checked α) (more : List Issue) : Checked α :=
  { c with issues := c.issues ++ more }

/-- A row of readings. -/
def all : List (Checked α) → Checked (List α)
  | [] => ⟨[], []⟩
  | c :: cs => ⟨c.value :: (all cs).value, c.issues ++ (all cs).issues⟩

/-- The value, if nothing is wrong. -/
def result (model : String) (c : Checked α) : Except Refusal α :=
  if c.issues.isEmpty then .ok c.value else .error ⟨model, c.issues⟩

end Checked

/-! ## Reading the entries of a mapping -/

/-- The entries of a mapping. -/
abbrev Entries := List (Value × Value)

namespace Entries

/-- How a key is named on a path. -/
def stepOfKey : Value → String
  | .str s => s
  | .bool b => if b then "1" else "0"
  | .int n =>
    match writeInteger n with
    | .ok s => s
    | .error _ => "<unprintable int object>"
  | v =>
    match v.literal with
    | .ok s => s
    | .error _ => ""

/-- The key of a record's entry is no text. -/
def keyIssue? : Value × Value → Option Issue
  | (.str _, _) => none
  | (k, _) => some ⟨[stepOfKey k], .keyNotText⟩

/-- The issues with the keys of a record. -/
def keyIssues (es : Entries) : List Issue := es.filterMap keyIssue?

/-- Whether the key of a record's entry is a text that has no encoding. -/
def hasTornKey : Value × Value → Bool
  | (.str s, _) => !Text.isUnicode s
  | _ => false

/-- A record that was read, with what is wrong with its keys.  Those that are no texts are told
beside the rest, but at a text that has no encoding the reading breaks off, and that is all that
is told. -/
def withKeys {α : Type} (es : Entries) (c : Checked α) : Checked α :=
  if es.any hasTornKey then .issue c.value [] .notUnicode else c.also es.keyIssues

@[simp] theorem value_withKeys {α : Type} (es : Entries) (c : Checked α) :
    (es.withKeys c).value = c.value := by
  rw [withKeys]
  split <;> rfl

/-- A field that may be absent, and whose text form is all that can go wrong. -/
def field {α : Type} (key : String) (absent : α) (read : Value → Except NumberFault α)
    (es : Entries) : Checked α :=
  match Value.lookup key es with
  | none => pure absent
  | some v =>
    match read v with
    | .ok a => pure a
    | .error fault => .issue absent [key] (.unwritable fault)

/-- A record inside the record; any shape but a mapping counts as absent. -/
def record? {α : Type} (key : String) (read : Entries → Checked α) (es : Entries) :
    Checked (Option α) :=
  match (Value.lookup key es).bind Value.entries? with
  | none => pure none
  | some inner => (some <$> read inner).under key

end Entries
end ComposeNix
