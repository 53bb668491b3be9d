import ComposeNix.Notice

/-!
# Texts with variables

A template is a text in which variables are referred to.  There are four forms: `${n}`
for the value of `n`, `${n:-d}` for the value or else `d`, `${n:+v}` for `v` provided
that there is a value, and `$$` for a dollar sign.  A name is free of `}` and `:`, and
the text behind a modifier is free of `}`.  A dollar sign that begins none of the forms
is an ordinary character.

A text is read into `Piece`s once, from left to right, and each piece is then replaced;
so what a variable stands for is never read again.  A variable that is unset, null or
empty has no value as far as the modifiers are concerned.
-/

namespace ComposeNix.Template

/-- A piece of a template. -/
inductive Piece
  /-- An ordinary character. -/
  | char (c : Char)
  /-- A dollar sign that was written twice. -/
  | dollar
  /-- The value of a variable. -/
  | variable (name : List Char)
  /-- The value of a variable, or a text in its place. -/
  | orElse (name fallback : List Char)
  /-- A text, provided that a variable has a value. -/
  | ifSet (name replacement : List Char)
  deriving DecidableEq, Repr

/-- Whether a character can stand in a name. -/
def isNameChar (c : Char) : Bool := c != '}' && c != ':'

/-- The piece that a modifier makes of a name and the text behind it. -/
def modifier? (sign : Char) : Option (List Char → List Char → Piece) :=
  if sign = '-' then some .orElse else if sign = '+' then some .ifSet else none

/-- The text up to the brace that closes a reference, and what follows the brace. -/
def upToBrace? (cs : List Char) : Option (List Char × List Char) :=
  match cs.dropWhile (· != '}') with
  | _ :: after => some (cs.takeWhile (· != '}'), after)
  | [] => none

/-- The end of a reference behind its name, and what follows. -/
def referenceEnd? (name : List Char) : List Char → Option (Piece × List Char)
  | '}' :: rest => some (.variable name, rest)
  | ':' :: sign :: rest => do
    let piece ← modifier? sign
    let (text, after) ← upToBrace? rest
    return (piece name text, after)
  | _ => none

/-- The reference that a text opens with, behind `${`, and what follows it. -/
def reference? (cs : List Char) : Option (Piece × List Char) :=
  if (cs.takeWhile isNameChar).isEmpty then none
  else referenceEnd? (cs.takeWhile isNameChar) (cs.dropWhile isNameChar)

theorem length_dropWhile_le {α : Type} (p : α → Bool) (l : List α) :
    (l.dropWhile p).length ≤ l.length :=
  (List.dropWhile_suffix p).length_le

theorem length_of_upToBrace? {cs text after : List Char}
    (h : upToBrace? cs = some (text, after)) : after.length < cs.length := by
  have hle := length_dropWhile_le (· != '}') cs
  unfold upToBrace? at h
  split at h
  · next heq =>
    rw [heq] at hle
    simp only [Option.some.injEq, Prod.mk.injEq] at h
    rw [← h.2]
    exact hle
  · simp at h

/-- A reference leaves less than it was given. -/
theorem length_of_referenceEnd? {name cs after : List Char} {piece : Piece}
    (h : referenceEnd? name cs = some (piece, after)) : after.length < cs.length := by
  unfold referenceEnd? at h
  split at h
  · simp only [Option.some.injEq, Prod.mk.injEq] at h
    simp [← h.2]
  · simp only [Option.bind_eq_bind, Option.bind_eq_some_iff] at h
    obtain ⟨_, _, ⟨text, rest⟩, hrest, heq⟩ := h
    have hlt := length_of_upToBrace? hrest
    simp only [Option.pure_def, Option.some.injEq, Prod.mk.injEq] at heq
    rw [← heq.2]
    simp only [List.length_cons]
    omega
  · simp at h

theorem length_of_reference? {cs after : List Char} {piece : Piece}
    (h : reference? cs = some (piece, after)) : after.length < cs.length := by
  unfold reference? at h
  split at h
  · simp at h
  · exact Nat.lt_of_lt_of_le (length_of_referenceEnd? h) (length_dropWhile_le _ _)

/-- The pieces of a text. -/
def parse (cs : List Char) : List Piece :=
  match cs with
  | [] => []
  | '$' :: '$' :: rest => .dollar :: parse rest
  | '$' :: '{' :: rest =>
    match _h : reference? rest with
    | some (piece, after) => piece :: parse after
    | none => .char '$' :: parse ('{' :: rest)
  | c :: rest => .char c :: parse rest
termination_by cs.length
decreasing_by
  · simp only [List.length_cons]
    omega
  · have := length_of_reference? _h
    simp only [List.length_cons]
    omega
  · simp
  · simp

/-- The variables at hand.  A variable may be known and have no value. -/
abbrev Context := List (String × Option String)

/-- The value of a variable. -/
def Context.value? (context : Context) (name : List Char) : Option String :=
  (List.lookup (String.ofList name) context).join

/-- What a piece is replaced with. -/
def Piece.expand (context : Context) : Piece → List Char
  | .char c => [c]
  | .dollar => ['$']
  | .variable name => ((context.value? name).getD "").toList
  | .orElse name fallback =>
    let value := ((context.value? name).getD "").toList
    if value.isEmpty then fallback else value
  | .ifSet name replacement =>
    if ((context.value? name).getD "").toList.isEmpty then [] else replacement

/-- What is worth telling about the replacement of a piece. -/
def Piece.notice? (context : Context) : Piece → Option Notice
  | .variable name =>
    match context.value? name with
    | none => some (.unsetVariable (String.ofList name))
    | some _ => none
  | _ => none

/-- A text with its variables replaced, and what is worth telling about it. -/
def interpolate (context : Context) (text : String) : String × List Notice :=
  let pieces := parse text.toList
  (String.ofList (pieces.flatMap (Piece.expand context)), pieces.filterMap (Piece.notice? context))

end ComposeNix.Template
