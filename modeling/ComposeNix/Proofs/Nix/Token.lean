import ComposeNix.Nix.Expr
import Mathlib.Data.List.Basic

/-!
# The tokens of a Nix text

A text is read one character at a time.  Outside of literals a run of word characters is
a word, `#` hides the rest of its line, a quote begins a literal, and what is left is
white space or one of nine marks.  Inside a literal a backslash makes the next character
plain, `${` begins an antiquotation and a quote ends the literal.

The reader is strict: a character it does not know outside of literals, an antiquotation
that is no path of names, and a literal without an end all leave a `fault` behind, after
which nothing is read.  So a text that is read without a fault has all its literals and
antiquotations closed.

* `spells_word` --- a word is read up to the first character that is none of a word;
* `lex_pieces` --- a literal is read up to the quote that its layout puts at the end,
  whatever its text is, and the letters read are those of the text;
* `lex_renderPath`, `lex_dotted` --- paths of names.
-/

namespace ComposeNix.Nix

/-! ## Tokens -/

/-- A letter of a literal: a character, or the value of an antiquotation. -/
inductive Letter
  | char (c : Char)
  | hole (path : List Char)
  deriving DecidableEq, Repr

/-- A piece of a text that stands for itself. -/
inductive Token
  /-- A name, a number or a constant. -/
  | word (letters : List Char)
  /-- A text in quotes, with its escapes undone. -/
  | literal (letters : List Letter)
  | mark (c : Char)
  /-- From here on the text cannot be read. -/
  | fault
  deriving DecidableEq, Repr

/-- Where the reader stands, and what it has read of the present token. -/
inductive Mode
  | code
  | word (letters : List Char)
  | comment
  | literal (letters : List Letter)
  /-- Behind a backslash in a literal. -/
  | escaped (letters : List Letter)
  /-- Behind a dollar sign in a literal. -/
  | dollar (letters : List Letter)
  /-- In an antiquotation. -/
  | hole (letters : List Letter) (path : List Char)
  | lost
  deriving DecidableEq, Repr

/-! ## One character -/

/-- The marks between words and literals. -/
def marks : List Char := ['{', '}', '[', ']', '=', ';', '.', ',', ':']

/-- White space between tokens. -/
def isSpace (c : Char) : Bool := c == ' ' || c == '\n' || c == '\t' || c == '\r'

/-- A character of a path of names. -/
def isPathChar (c : Char) : Bool := isWordChar c || c == '.'

/-- What a character outside of any token begins. -/
def Mode.begin (c : Char) : List Token × Mode :=
  if isSpace c then ([], .code)
  else if c = '#' then ([], .comment)
  else if c = '"' then ([], .literal [])
  else if c.isAlphanum || c == '_' then ([], .word [c])
  else if c ∈ marks then ([.mark c], .code)
  else ([], .lost)

/-- What a character behind a backslash stands for. -/
def unescape (c : Char) : Char :=
  if c = 'n' then '\n' else if c = 'r' then '\r' else if c = 't' then '\t' else c

/-- A character of a literal. -/
def Mode.inLiteral (letters : List Letter) (c : Char) : List Token × Mode :=
  if c = '"' then ([.literal letters], .code)
  else if c = '\\' then ([], .escaped letters)
  else if c = '$' then ([], .dollar letters)
  else ([], .literal (letters ++ [.char c]))

/-- Reads one character: the tokens that it completes, and where the reader stands then. -/
def Mode.step : Mode → Char → List Token × Mode
  | .code, c => begin c
  | .word w, c =>
    if isWordChar c then ([], .word (w ++ [c])) else (.word w :: (begin c).1, (begin c).2)
  | .comment, c => ([], if c = '\n' then .code else .comment)
  | .literal ls, c => inLiteral ls c
  | .escaped ls, c => ([], .literal (ls ++ [.char (unescape c)]))
  | .dollar ls, c => if c = '{' then ([], .hole ls []) else inLiteral (ls ++ [.char '$']) c
  | .hole ls path, c =>
    if c = '}' then ([], .literal (ls ++ [.hole path]))
    else if isPathChar c then ([], .hole ls (path ++ [c]))
    else ([], .lost)
  | .lost, _ => ([], .lost)

/-- What is left at the end of a text. -/
def Mode.finish : Mode → List Token
  | .code | .comment => []
  | .word w => [.word w]
  | _ => [.fault]

/-! ## A whole text -/

/-- The tokens of a text. -/
def lex (m : Mode) : List Char → List Token
  | [] => m.finish
  | c :: cs => (m.step c).1 ++ lex (m.step c).2 cs

theorem lex_cons (m : Mode) (c : Char) (cs : List Char) :
    lex m (c :: cs) = (m.step c).1 ++ lex (m.step c).2 cs := rfl

/-- Spaces between tokens are skipped. -/
theorem lex_replicate_space (n : Nat) (cs : List Char) :
    lex .code (List.replicate n ' ' ++ cs) = lex .code cs := by
  induction n with
  | zero => rfl
  | succ n ih =>
    rw [List.replicate_succ, List.cons_append]
    exact ih

@[simp] theorem lex_indent (depth : Nat) (cs : List Char) :
    lex .code (indent depth ++ cs) = lex .code cs :=
  lex_replicate_space (2 * depth) cs

@[simp] theorem lex_space (cs : List Char) : lex .code (' ' :: cs) = lex .code cs := rfl

@[simp] theorem lex_newline (cs : List Char) : lex .code ('\n' :: cs) = lex .code cs := rfl

/-- A quote begins a literal. -/
theorem lex_quote (cs : List Char) : lex .code ('"' :: cs) = lex (.literal []) cs := rfl

@[simp] theorem lex_mark {c : Char} (hc : c ∈ marks) (cs : List Char) :
    lex .code (c :: cs) = .mark c :: lex .code cs := by
  simp only [marks, List.mem_cons, List.not_mem_nil, or_false] at hc
  rcases hc with rfl | rfl | rfl | rfl | rfl | rfl | rfl | rfl | rfl <;> rfl

/-- A comment hides the rest of its line. -/
theorem lex_comment {title : List Char} (h : '\n' ∉ title) (cs : List Char) :
    lex .comment (title ++ '\n' :: cs) = lex .code cs := by
  induction title with
  | nil => rfl
  | cons c title ih =>
    rw [List.mem_cons, not_or] at h
    rw [List.cons_append, lex_cons, Mode.step, if_neg (Ne.symm h.1), List.nil_append]
    exact ih h.2

/-! ## Words -/

/-- Whether a text is a word: it begins with a letter, a digit or an underscore. -/
def isWord : List Char → Bool
  | [] => false
  | c :: cs => (c.isAlphanum || c == '_') && cs.all isWordChar

/-- The text does not go on with a character of a word. -/
def Delimits (rest : List Char) : Prop := ∀ c ∈ rest.head?, isWordChar c = false

theorem delimits_nil : Delimits [] := by simp [Delimits]

theorem delimits_cons {c : Char} (h : isWordChar c = false) (cs : List Char) :
    Delimits (c :: cs) := by
  simpa [Delimits] using h

/-- A text that spells one token, read up to where a word would end. -/
def Spells (text : List Char) (t : Token) : Prop :=
  ∀ rest, Delimits rest → lex .code (text ++ rest) = t :: lex .code rest

/-- Behind the last character of a word the word is complete. -/
theorem lex_word_of_delimits (w : List Char) {rest : List Char} (h : Delimits rest) :
    lex (.word w) rest = .word w :: lex .code rest := by
  cases rest with
  | nil => rfl
  | cons c cs =>
    have hc : isWordChar c = false := h c (by simp)
    simp [lex_cons, Mode.step, hc]

theorem lex_word_append (w : List Char) {cs rest : List Char}
    (hcs : ∀ d ∈ cs, isWordChar d = true) (h : Delimits rest) :
    lex (.word w) (cs ++ rest) = .word (w ++ cs) :: lex .code rest := by
  induction cs generalizing w with
  | nil => rw [List.nil_append, List.append_nil, lex_word_of_delimits w h]
  | cons c cs ih =>
    have hc : isWordChar c = true := hcs c List.mem_cons_self
    rw [List.cons_append, lex_cons, Mode.step, if_pos hc, List.nil_append,
      ih (w ++ [c]) fun d hd => hcs d (List.mem_cons_of_mem c hd)]
    simp

theorem step_code_of_wordStart {c : Char} (h : (c.isAlphanum || c == '_') = true) :
    Mode.code.step c = ([], .word [c]) := by
  have hs : isSpace c = false := by
    by_contra hs
    simp only [isSpace, Bool.not_eq_false, Bool.or_eq_true, beq_iff_eq] at hs
    rcases hs with ((rfl | rfl) | rfl) | rfl <;> revert h <;> decide
  have hh : c ≠ '#' := by rintro rfl; revert h; decide
  have hq : c ≠ '"' := by rintro rfl; revert h; decide
  simp only [Mode.step, Mode.begin, hs, hh, hq, h, if_true, if_false, Bool.false_eq_true]

/-- A word is read up to the first character that is none of a word. -/
theorem spells_word {w : List Char} (hw : isWord w = true) : Spells w (.word w) := by
  intro rest hrest
  cases w with
  | nil => simp [isWord] at hw
  | cons c cs =>
    rw [isWord, Bool.and_eq_true, List.all_eq_true] at hw
    rw [List.cons_append, lex_cons, step_code_of_wordStart hw.1, List.nil_append,
      lex_word_append [c] hw.2 hrest, List.singleton_append]

/-! ## Literals -/

/-- What a piece of a string contributes to the letters of its literal. -/
def Piece.letters : Piece → List Letter
  | .text cs => cs.map .char
  | .hole path => [.hole path.toList]

/-- A dollar sign and a brace begin an antiquotation. -/
theorem lex_dollar_brace (ls : List Letter) (cs : List Char) :
    lex (.literal ls) ('$' :: '{' :: cs) = lex (.hole ls []) cs := rfl

/-- A quote ends a literal. -/
theorem lex_literal_quote (ls : List Letter) (cs : List Char) :
    lex (.literal ls) ('"' :: cs) = .literal ls :: lex .code cs := rfl

/-- An escaped text does not begin with a brace, unless the text itself does. -/
theorem head?_escape_ne_brace {cs rest : List Char} (hcs : cs.head? ≠ some '{')
    (hrest : rest.head? ≠ some '{') : (escape cs ++ rest).head? ≠ some '{' := by
  fun_cases escape cs <;> simp_all

/-- A dollar sign is plain if no brace follows. -/
theorem lex_dollar (ls : List Letter) {cs : List Char} (h : cs.head? ≠ some '{')
    (hcs : cs ≠ []) : lex (.dollar ls) cs = lex (.literal (ls ++ [.char '$'])) cs := by
  cases cs with
  | nil => exact absurd rfl hcs
  | cons c cs =>
    have hc : c ≠ '{' := by simpa using h
    simp only [lex_cons, Mode.step, if_neg hc]

/-- An escaped text is read as its own letters. -/
theorem lex_escape (ls : List Letter) (cs : List Char) {rest : List Char}
    (h : rest.head? ≠ some '{') (hrest : rest ≠ []) :
    lex (.literal ls) (escape cs ++ rest) = lex (.literal (ls ++ cs.map .char)) rest := by
  fun_induction escape cs generalizing ls with
  | case1 => simp
  | case2 cs ih => simp [lex_cons, Mode.step, Mode.inLiteral, unescape, ih]
  | case3 cs ih => simp [lex_cons, Mode.step, Mode.inLiteral, unescape, ih]
  | case4 cs ih => simp [lex_cons, Mode.step, Mode.inLiteral, unescape, ih]
  | case5 c cs hb hq hd ih =>
    have hletters : ls ++ (c :: cs).map Letter.char = ls ++ [.char c] ++ cs.map .char := by simp
    rw [List.cons_append, lex_cons, Mode.step, hletters, ← ih]
    by_cases hdollar : c = '$'
    · -- the reader waits at a dollar sign: the next character decides what it is
      subst hdollar
      have hcs : cs.head? ≠ some '{' := by
        intro hcs
        obtain ⟨cs', rfl⟩ := List.head?_eq_some_iff.mp hcs
        exact hd cs' rfl rfl
      exact lex_dollar ls (head?_escape_ne_brace hcs h) (by simp [hrest])
    · rw [Mode.inLiteral, if_neg hq, if_neg hb, if_neg hdollar, List.nil_append]

/-- The pieces of a string that can be told apart again: only the last one is a text, and
the others are paths. -/
def PiecesWellFormed : List Piece → Prop
  | [] | [.text _] => True
  | .hole path :: ps => (∀ c ∈ path.toList, isPathChar c = true) ∧ PiecesWellFormed ps
  | .text _ :: _ :: _ => False

/-- The path of an antiquotation is read up to its closing brace. -/
theorem lex_hole (ls : List Letter) (before : List Char) {path : List Char}
    (h : ∀ c ∈ path, isPathChar c = true) (rest : List Char) :
    lex (.hole ls before) (path ++ '}' :: rest)
      = lex (.literal (ls ++ [.hole (before ++ path)])) rest := by
  induction path generalizing before with
  | nil => simp [lex_cons, Mode.step]
  | cons c path ih =>
    have hc : isPathChar c = true := h c List.mem_cons_self
    have hbrace : c ≠ '}' := by rintro rfl; revert hc; decide
    rw [List.cons_append, lex_cons, Mode.step, if_neg hbrace, if_pos hc, List.nil_append,
      ih (before ++ [c]) fun d hd => h d (List.mem_cons_of_mem c hd)]
    simp

/-- A literal ends at the quote that its layout puts behind it. -/
theorem lex_pieces (ls : List Letter) {pieces : List Piece} (h : PiecesWellFormed pieces)
    (rest : List Char) :
    lex (.literal ls) (pieces.flatMap Piece.render ++ '"' :: rest)
      = .literal (ls ++ pieces.flatMap Piece.letters) :: lex .code rest := by
  fun_induction PiecesWellFormed pieces generalizing ls with
  | case1 => simp [lex_literal_quote]
  | case2 cs =>
    simp only [List.flatMap_singleton, Piece.render, Piece.letters]
    rw [lex_escape ls cs (by simp) (by simp), lex_literal_quote]
  | case3 path ps ih =>
    have hpath := lex_hole ls [] h.1 (ps.flatMap Piece.render ++ '"' :: rest)
    have hrender : (Piece.hole path :: ps).flatMap Piece.render ++ '"' :: rest
        = '$' :: '{' :: (path.toList ++ '}' :: (ps.flatMap Piece.render ++ '"' :: rest)) := by
      simp [Piece.render]
    rw [hrender, lex_dollar_brace, hpath, List.nil_append, ih _ h.2]
    simp [Piece.letters]
  | case4 => exact h.elim

theorem spells_string {pieces : List Piece} (h : PiecesWellFormed pieces) (depth : Nat) :
    Spells ((Expr.string pieces).render depth) (.literal (pieces.flatMap Piece.letters)) := by
  intro rest _
  rw [Expr.render_string, List.cons_append, List.cons_append, List.append_assoc,
    List.singleton_append, lex_quote,
    lex_pieces [] h rest, List.nil_append]

/-- A text in its quotes is read as that text. -/
theorem spells_quote (cs : List Char) : Spells (quote cs) (.literal (cs.map .char)) := by
  intro rest _
  rw [quote, List.cons_append, List.cons_append, List.append_assoc, List.singleton_append,
    lex_quote,
    lex_escape [] cs (by simp) (by simp), lex_literal_quote, List.nil_append]

/-! ## Names of attributes -/

/-- The token that a step of a path is read as.  A line feed behind a plain word is white
space to the reader and gets lost. -/
def Attr.token : Attr → Token
  | .word name => .word name.toList
  | .quoted name => .literal (name.toList.map .char)
  | .named name =>
    if isPlainName name.toList then .word (name.toList.takeWhile isWordChar)
    else .literal (name.toList.map .char)

/-- The words among the steps of a path can be told from the marks around them. -/
def Attr.WellFormed : Attr → Prop
  | .word name => isWord name.toList = true
  | .quoted _ | .named _ => True

instance (a : Attr) : Decidable a.WellFormed :=
  match a with
  | .word name => inferInstanceAs (Decidable (isWord name.toList = true))
  | .quoted _ => .isTrue trivial
  | .named _ => .isTrue trivial

/-- A path has a step at least, and every step can be told from the dots. -/
def PathWellFormed : List Attr → Prop
  | [] => False
  | [a] => a.WellFormed
  | a :: b :: path => a.WellFormed ∧ PathWellFormed (b :: path)

instance decidablePathWellFormed : (path : List Attr) → Decidable (PathWellFormed path)
  | [] => .isFalse id
  | [a] => inferInstanceAs (Decidable a.WellFormed)
  | a :: b :: path =>
    have := decidablePathWellFormed (b :: path)
    inferInstanceAs (Decidable (a.WellFormed ∧ PathWellFormed (b :: path)))

theorem pathWellFormed_word {key : String} (h : isWord key.toList = true) :
    PathWellFormed [.word key] := h

theorem pathWellFormed_quoted (name : String) : PathWellFormed [.quoted name] := trivial

theorem pathWellFormed_named (name : String) : PathWellFormed [.named name] := trivial

theorem PathWellFormed.attrs {path : List Attr} (h : PathWellFormed path) :
    ∀ a ∈ path, a.WellFormed := by
  fun_induction PathWellFormed path with
  | case1 => exact h.elim
  | case2 a => exact fun b hb => List.mem_singleton.mp hb ▸ h
  | case3 a b path ih => exact List.forall_mem_cons.mpr ⟨h.1, ih h.2⟩

/-- A plain name is a word, with one line feed behind it at most. -/
theorem isWord_takeWhile_of_isPlainName {name : List Char} (h : isPlainName name = true) :
    isWord (name.takeWhile isWordChar) = true
      ∧ (name.dropWhile isWordChar = [] ∨ name.dropWhile isWordChar = ['\n']) := by
  cases name with
  | nil => simp [isPlainName] at h
  | cons c cs =>
    simp only [isPlainName, Bool.and_eq_true, Bool.or_eq_true, beq_iff_eq] at h
    obtain ⟨hc, hcs⟩ := h
    have hstart : (c.isAlphanum || c == '_') = true := by
      simp only [isWordStart, Bool.or_eq_true, Char.isAlphanum] at hc ⊢
      exact hc.imp_left Or.inl
    have hword : isWordChar c = true := by
      simp only [isWordChar, Bool.or_eq_true] at hstart ⊢
      exact Or.inl (Or.inl hstart)
    constructor
    · rw [List.takeWhile_cons, if_pos hword, isWord, hstart, List.all_takeWhile]
      rfl
    · rwa [List.dropWhile_cons, if_pos hword]

/-- A plain name spells its word. -/
theorem spells_plainName {name : List Char} (h : isPlainName name = true) :
    Spells name (.word (name.takeWhile isWordChar)) := by
  intro rest hrest
  obtain ⟨hword, hend⟩ := isWord_takeWhile_of_isPlainName h
  have hsplit := List.takeWhile_append_dropWhile (p := isWordChar) (l := name)
  rcases hend with hend | hend
  · rw [hend, List.append_nil] at hsplit
    rw [hsplit] at hword ⊢
    exact spells_word hword rest hrest
  · conv_lhs => rw [← hsplit, hend, List.append_assoc]
    rw [List.singleton_append, spells_word hword _ (delimits_cons (by decide) rest), lex_newline]

theorem spells_attr {a : Attr} (h : a.WellFormed) : Spells a.render a.token := by
  cases a with
  | word name => exact spells_word h
  | quoted name => exact spells_quote name.toList
  | named name =>
    by_cases hname : isPlainName name.toList = true
    · simp only [Attr.render, attributeName, Attr.token, if_pos hname]
      exact spells_plainName hname
    · simp only [Attr.render, attributeName, Attr.token, if_neg hname]
      exact spells_quote name.toList

/-! ## Paths -/

/-- An entry of an interspersed list is an entry of the list or the separator. -/
theorem mem_or_eq_of_mem_intersperse {α : Type} {sep x : α} {xs : List α}
    (h : x ∈ xs.intersperse sep) : x ∈ xs ∨ x = sep := by
  induction xs with
  | nil => simp at h
  | cons y ys ih =>
    cases ys with
    | nil => exact Or.inl h
    | cons z zs =>
      rw [List.intersperse_cons_cons, List.mem_cons, List.mem_cons] at h
      rcases h with rfl | rfl | h
      · exact Or.inl List.mem_cons_self
      · exact Or.inr rfl
      · exact (ih h).imp_left (List.mem_cons_of_mem y)

/-- Tokens with a dot between them. -/
def dotted (ts : List Token) : List Token := ts.intersperse (.mark '.')

/-- Texts with a dot between them are read as their tokens with a dot between them. -/
theorem lex_dotted {α : Type} (text : α → List Char) (token : α → Token) {xs : List α}
    (h : ∀ x ∈ xs, Spells (text x) (token x)) {rest : List Char} (hrest : Delimits rest) :
    lex .code (['.'].intercalate (xs.map text) ++ rest)
      = dotted (xs.map token) ++ lex .code rest := by
  induction xs with
  | nil => rfl
  | cons x xs ih =>
    have hx := h x List.mem_cons_self
    have hxs := ih fun y hy => h y (List.mem_cons_of_mem x hy)
    cases xs with
    | nil => simpa [dotted] using hx rest hrest
    | cons y ys =>
      have htext : ['.'].intercalate ((x :: y :: ys).map text) ++ rest
          = text x ++ '.' :: (['.'].intercalate ((y :: ys).map text) ++ rest) := by
        simp [List.intercalate]
      rw [htext, hx _ (delimits_cons (by decide) _), lex_mark (by decide), hxs]
      simp [dotted]

/-- The tokens of a path of attributes. -/
def pathTokens (path : List Attr) : List Token := dotted (path.map Attr.token)

theorem lex_renderPath {path : List Attr} (h : ∀ a ∈ path, a.WellFormed) {rest : List Char}
    (hrest : Delimits rest) :
    lex .code (renderPath path ++ rest) = pathTokens path ++ lex .code rest :=
  lex_dotted Attr.render Attr.token (fun a ha => spells_attr (h a ha)) hrest

/-- The words of a dotted name. -/
def dottedWords (name : String) : List (List Char) := name.toList.splitOn '.'

/-- The tokens of a dotted name. -/
def nameTokens (name : String) : List Token := dotted ((dottedWords name).map .word)

theorem lex_name {name : String} (h : ∀ w ∈ dottedWords name, isWord w = true) {rest : List Char}
    (hrest : Delimits rest) :
    lex .code (name.toList ++ rest) = nameTokens name ++ lex .code rest := by
  have hread := lex_dotted id Token.word (fun w hw => spells_word (h w hw)) hrest
  rwa [List.map_id, dottedWords, List.intercalate_splitOn] at hread

end ComposeNix.Nix
