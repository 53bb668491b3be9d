import ComposeNix.Template
import Mathlib.Data.List.Basic
import Mathlib.Data.List.TakeWhile

/-!
# Templates that were written from segments

A template can be put together from segments: literal texts, doubled dollar signs, and references
of the three forms.  Segments may touch each other in any order, and the names and texts in
them may hold dollar signs and opening braces, so it has to be said why a template falls apart
into the segments that it was made of.

The reason is that no segment looks past its own end.  A literal may not end in a dollar sign, and
each of its dollar signs stands in front of a character that begins no form; every other segment
is closed by its own last character.  So in front of any text, a segment is read as its own
pieces (`parse_write_append`), and a row of segments as the pieces of all of them.

`interpolate_write` says what becomes of the segments then.
-/

namespace ComposeNix.Template

/-! ## Segments -/

/-- A literal text: behind each of its dollar signs stands a character, still in the text, which is
neither a dollar sign nor an opening brace. -/
def IsLiteral (text : List Char) : Prop :=
  ∀ before after, text = before ++ '$' :: after → ∃ c rest, after = c :: rest ∧ c ≠ '$' ∧ c ≠ '{'

/-- The name of a variable, as a reference can hold it. -/
structure Name where
  chars : List Char
  ne_nil : chars ≠ []
  brace_notMem : '}' ∉ chars
  colon_notMem : ':' ∉ chars

/-- A part of a template. -/
inductive Segment
  | literal (text : List Char) (isLiteral : IsLiteral text)
  /-- A dollar sign that is written twice. -/
  | dollar
  | reference (name : Name)
  | orElse (name : Name) (fallback : List Char) (brace_notMem : '}' ∉ fallback)
  | ifSet (name : Name) (replacement : List Char) (brace_notMem : '}' ∉ replacement)

/-- The value of a variable, unless it is unset, null or empty. -/
def Context.filled? (context : Context) (name : List Char) : Option (List Char) :=
  ((context.value? name).map String.toList).filter (· ≠ [])

namespace Segment

/-- How a segment is written. -/
def write : Segment → List Char
  | literal text _ => text
  | dollar => ['$', '$']
  | reference name => '$' :: '{' :: (name.chars ++ ['}'])
  | orElse name fallback _ => '$' :: '{' :: (name.chars ++ ':' :: '-' :: (fallback ++ ['}']))
  | ifSet name replacement _ =>
    '$' :: '{' :: (name.chars ++ ':' :: '+' :: (replacement ++ ['}']))

/-- What a segment stands for. -/
def value (context : Context) : Segment → List Char
  | literal text _ => text
  | dollar => ['$']
  | reference name =>
    match context.value? name.chars with
    | some value => value.toList
    | none => []
  | orElse name fallback _ => (context.filled? name.chars).getD fallback
  | ifSet name replacement _ => if (context.filled? name.chars).isSome then replacement else []

/-- The name of a variable that a segment asks for in vain. -/
def unset? (context : Context) : Segment → Option String
  | reference name =>
    if context.value? name.chars = none then some (String.ofList name.chars) else none
  | _ => none

/-- The pieces of a segment. -/
def pieces : Segment → List Piece
  | literal text _ => text.map .char
  | dollar => [.dollar]
  | reference name => [.variable name.chars]
  | orElse name fallback _ => [.orElse name.chars fallback]
  | ifSet name replacement _ => [.ifSet name.chars replacement]

end Segment

/-! ## Reading a segment -/

/-- A character that begins no form is read as itself. -/
theorem parse_cons {c : Char} {rest : List Char}
    (h : c = '$' → rest.head? ≠ some '$' ∧ rest.head? ≠ some '{') :
    parse (c :: rest) = .char c :: parse rest := by
  rw [parse.eq_def]
  split
  · simp_all
  · simp_all
  · simp_all
  · simp_all

theorem parse_dollar (rest : List Char) : parse ('$' :: '$' :: rest) = .dollar :: parse rest := by
  rw [parse]

/-- A reference is read as its piece. -/
theorem parse_reference {cs after : List Char} {piece : Piece}
    (h : reference? cs = some (piece, after)) :
    parse ('$' :: '{' :: cs) = piece :: parse after := by
  rw [parse.eq_def]
  simp only
  split
  · rename_i heq
    rw [h] at heq
    obtain ⟨rfl, rfl⟩ := Prod.mk.inj (Option.some.inj heq)
    rfl
  · rename_i heq
    rw [h] at heq
    cases heq

theorem parse_literal_append {text : List Char} (h : IsLiteral text) (rest : List Char) :
    parse (text ++ rest) = text.map .char ++ parse rest := by
  induction text with
  | nil => rfl
  | cons c text ih =>
    have htail : IsLiteral text := fun before after heq => h (c :: before) after (by rw [heq]; rfl)
    have hhead : c = '$' → (text ++ rest).head? ≠ some '$' ∧ (text ++ rest).head? ≠ some '{' := by
      rintro rfl
      obtain ⟨d, text', rfl, hdollar, hbrace⟩ := h [] text rfl
      simp [hdollar, hbrace]
    rw [List.cons_append, parse_cons hhead, ih htail, List.map_cons, List.cons_append]

namespace Name

variable (name : Name)

theorem isNameChar_of_mem {c : Char} (hc : c ∈ name.chars) : isNameChar c = true := by
  have hbrace : c ≠ '}' := fun h => name.brace_notMem (h ▸ hc)
  have hcolon : c ≠ ':' := fun h => name.colon_notMem (h ▸ hc)
  simp [isNameChar, hbrace, hcolon]

/-- A name ends at the first character that no name holds. -/
theorem reference?_append {c : Char} (hc : isNameChar c = false) (rest : List Char) :
    reference? (name.chars ++ c :: rest) = referenceEnd? name.chars (c :: rest) := by
  have hstop : ¬ isNameChar c = true := by simp [hc]
  have htake : (name.chars ++ c :: rest).takeWhile isNameChar = name.chars := by
    rw [List.takeWhile_append_of_pos fun _ => name.isNameChar_of_mem,
      List.takeWhile_cons_of_neg hstop, List.append_nil]
  have hdrop : (name.chars ++ c :: rest).dropWhile isNameChar = c :: rest := by
    rw [List.dropWhile_append_of_pos fun _ => name.isNameChar_of_mem,
      List.dropWhile_cons_of_neg hstop]
  rw [reference?, htake, hdrop, if_neg fun h => name.ne_nil (List.isEmpty_iff.mp h)]

end Name

/-- A text behind a modifier ends at the first brace. -/
theorem upToBrace?_append {text : List Char} (h : '}' ∉ text) (rest : List Char) :
    upToBrace? (text ++ '}' :: rest) = some (text, rest) := by
  have hmem : ∀ c ∈ text, (c != '}') = true := fun c hc =>
    bne_iff_ne.mpr fun heq => h (heq ▸ hc)
  have htake : (text ++ '}' :: rest).takeWhile (· != '}') = text := by
    rw [List.takeWhile_append_of_pos hmem, List.takeWhile_cons_of_neg (by simp), List.append_nil]
  have hdrop : (text ++ '}' :: rest).dropWhile (· != '}') = '}' :: rest := by
    rw [List.dropWhile_append_of_pos hmem, List.dropWhile_cons_of_neg (by simp)]
  rw [upToBrace?, hdrop, htake]

theorem reference?_modifier {sign : Char} {piece : List Char → List Char → Piece}
    (hsign : modifier? sign = some piece) (name : Name) {text : List Char} (h : '}' ∉ text)
    (rest : List Char) :
    reference? (name.chars ++ ':' :: sign :: (text ++ '}' :: rest))
      = some (piece name.chars text, rest) := by
  rw [name.reference?_append (by decide), referenceEnd?, hsign, upToBrace?_append h]
  rfl

/-- In front of any text, a segment is read as its own pieces. -/
theorem parse_write_append (s : Segment) (rest : List Char) :
    parse (s.write ++ rest) = s.pieces ++ parse rest := by
  cases s with
  | literal text isLiteral => exact parse_literal_append isLiteral rest
  | dollar => exact parse_dollar rest
  | reference name =>
    rw [Segment.write, List.cons_append, List.cons_append, List.append_assoc]
    exact parse_reference (name.reference?_append (by decide) rest)
  | orElse name fallback hfallback =>
    rw [Segment.write]
    simp only [List.cons_append, List.append_assoc, List.nil_append]
    exact parse_reference (reference?_modifier rfl name hfallback rest)
  | ifSet name replacement hreplacement =>
    rw [Segment.write]
    simp only [List.cons_append, List.append_assoc, List.nil_append]
    exact parse_reference (reference?_modifier rfl name hreplacement rest)

/-- A template falls apart into the segments that it was written from. -/
theorem parse_flatMap_write (segments : List Segment) :
    parse (segments.flatMap Segment.write) = segments.flatMap Segment.pieces := by
  induction segments with
  | nil => rw [List.flatMap_nil, parse, List.flatMap_nil]
  | cons s segments ih => rw [List.flatMap_cons, parse_write_append, ih, List.flatMap_cons]

/-! ## Replacing the variables -/

namespace Segment

variable (context : Context)

/-- What the modifiers look at: whether anything stands for a variable. -/
theorem filled?_eq (name : List Char) :
    context.filled? name
      = if ((context.value? name).getD "").toList.isEmpty then none
        else some ((context.value? name).getD "").toList := by
  rw [Context.filled?]
  cases context.value? name with
  | none => rfl
  | some value => by_cases h : value = "" <;> simp [h]

/-- The pieces of a segment are replaced with what it stands for. -/
theorem flatMap_expand_pieces (s : Segment) :
    s.pieces.flatMap (Piece.expand context) = s.value context := by
  cases s with
  | literal text isLiteral => simp [pieces, value, List.flatMap_map, Piece.expand]
  | dollar => rfl
  | reference name =>
    rw [pieces, value, List.flatMap_singleton, Piece.expand]
    cases context.value? name.chars <;> rfl
  | orElse name fallback hfallback =>
    rw [pieces, value, List.flatMap_singleton, Piece.expand, filled?_eq]
    split <;> rfl
  | ifSet name replacement hreplacement =>
    rw [pieces, value, List.flatMap_singleton, Piece.expand, filled?_eq]
    split <;> rfl

/-- What is told about a segment is the name that it asks for in vain. -/
theorem filterMap_notice?_pieces (s : Segment) :
    s.pieces.filterMap (Piece.notice? context)
      = ((s.unset? context).map .unsetVariable).toList := by
  cases s with
  | literal text isLiteral =>
    rw [pieces, List.filterMap_map]
    exact List.filterMap_eq_nil_iff.mpr fun _ _ => rfl
  | dollar => rfl
  | reference name =>
    rw [pieces, unset?, List.filterMap_cons, List.filterMap_nil, Piece.notice?]
    cases context.value? name.chars <;> rfl
  | orElse name fallback hfallback => rfl
  | ifSet name replacement hreplacement => rfl

end Segment

/-! ## Doubled dollar signs -/

/-- A text with every dollar sign written twice. -/
def doubled (text : List Char) : List Char :=
  text.flatMap fun c => if c = '$' then ['$', '$'] else [c]

theorem isLiteral_singleton {c : Char} (h : c ≠ '$') : IsLiteral [c] := by
  intro before after heq
  have hmem : '$' ∈ [c] := heq ▸ List.mem_append_right before List.mem_cons_self
  exact absurd (List.mem_singleton.mp hmem).symm h

/-- The segment of one character of a text that is taken as it is. -/
def Segment.ofChar (c : Char) : Segment :=
  if h : c = '$' then .dollar else .literal [c] (isLiteral_singleton h)

theorem Segment.write_ofChar (c : Char) :
    (ofChar c).write = if c = '$' then ['$', '$'] else [c] := by
  rw [ofChar]
  split <;> rfl

theorem Segment.value_ofChar (context : Context) (c : Char) : (ofChar c).value context = [c] := by
  rw [ofChar]
  split
  · rename_i h
    rw [h]
    rfl
  · rfl

theorem Segment.unset?_ofChar (context : Context) (c : Char) :
    (ofChar c).unset? context = none := by
  rw [ofChar]
  split <;> rfl

/-! ## What comes of a template -/

/-- A template that was written from segments is replaced segment by segment: every segment by what
it stands for, which is not looked at again.  What is told about it are the plain references
to variables that are unset or null, in order.  So a text whose dollar signs are doubled comes
back as it was, whatever the variables are. -/
theorem interpolate_write (context : Context) :
    (∀ segments : List Segment,
      interpolate context (String.ofList (segments.flatMap Segment.write))
        = (String.ofList (segments.flatMap (Segment.value context)),
          (segments.filterMap (Segment.unset? context)).map .unsetVariable))
      ∧ ∀ text : String,
        interpolate context (String.ofList (doubled text.toList)) = (text, []) := by
  have hsegments : ∀ segments : List Segment,
      interpolate context (String.ofList (segments.flatMap Segment.write))
        = (String.ofList (segments.flatMap (Segment.value context)),
          (segments.filterMap (Segment.unset? context)).map .unsetVariable) := by
    intro segments
    have hnotices : segments.flatMap (fun s => s.pieces.filterMap (Piece.notice? context))
        = (segments.filterMap (Segment.unset? context)).map .unsetVariable := by
      simp only [Segment.filterMap_notice?_pieces]
      rw [List.map_filterMap, List.filterMap_eq_flatMap_toList]
    rw [interpolate, String.toList_ofList, parse_flatMap_write, List.flatMap_assoc,
      List.filterMap_flatMap, hnotices]
    simp only [Segment.flatMap_expand_pieces]
  refine ⟨hsegments, fun text => ?_⟩
  have hwrite : (text.toList.map Segment.ofChar).flatMap Segment.write = doubled text.toList := by
    rw [List.flatMap_map, doubled]
    exact List.flatMap_congr fun c _ => Segment.write_ofChar c
  have hvalue : (text.toList.map Segment.ofChar).flatMap (Segment.value context) = text.toList := by
    rw [List.flatMap_map]
    simp only [Segment.value_ofChar, List.flatMap_singleton']
  have hunset : (text.toList.map Segment.ofChar).filterMap (Segment.unset? context) = [] := by
    rw [List.filterMap_map]
    exact List.filterMap_eq_nil_iff.mpr fun c _ => Segment.unset?_ofChar context c
  rw [← hwrite, hsegments, hvalue, hunset, String.ofList_toList, List.map_nil]

/-- Segments that touch each other, with a name and a value that hold dollar signs. -/
example : interpolate [("a$", some "$$"), ("b", none)]
    "$$$\x7ba$\x7d$\x7bb\x7d$\x7bb:-$\x7bc\x7d" = ("$$$$\x7bc", [.unsetVariable "b"]) := by
  cbv

end ComposeNix.Template
