import ComposeNix.Shell.Word
import Mathlib.Data.List.Basic

/-!
# Reading words as a POSIX shell does

A line is read one character at a time.  Blanks stand between words; a word is what stands next to
each other of characters in single quotes, characters in double quotes, characters behind a
backslash and characters that mean nothing to the shell.  An operator is as long as it can be,
and digits right in front of a redirection are its number, not a word.

The reader expands nothing.  A dollar sign or a backquote where the shell would expand it, a
pattern, a tilde, a comment or a brace: where one of them stands outside of quotes, nothing
more is read.  So what is read in full is read by every shell in the same way, and nothing in it is
run or replaced.

`lex_quote`: a quoted text is one word, that text, whatever characters are in it.  The two shapes
of `quote` meet here: the characters that it leaves bare mean nothing to the shell, and between
single quotes only the quote itself does.
-/

namespace ComposeNix.Shell

/-! ## Tokens -/

/-- A piece of a line. -/
inductive Token
  | word (text : List Char)
  /-- The number in front of a redirection. -/
  | number (digits : List Char)
  | operator (symbol : List Char)
  /-- From here on the line is not read. -/
  | refused
  deriving DecidableEq, Repr

/-- Where the reader stands, and what it has read of the present token. -/
inductive Mode
  | between
  /-- In a word; `bare` as long as nothing of it was quoted. -/
  | word (bare : Bool) (text : List Char)
  | single (text : List Char)
  | double (text : List Char)
  /-- Behind a backslash. -/
  | escaped (text : List Char)
  /-- Behind a backslash in double quotes. -/
  | doubleEscaped (text : List Char)
  | operator (symbol : List Char)
  | lost
  deriving DecidableEq, Repr

/-- The operators of the shell. -/
def operators : List (List Char) :=
  ["&", "&&", "(", ")", ";", ";;", "|", "||", "<", "<<", "<<-", "<&", "<>", ">", ">>", ">&",
    ">|"].map String.toList

/-- The characters that operators begin with. -/
def operatorStarts : List Char := ['&', '(', ')', ';', '|', '<', '>']

/-- The characters that stand for something else than themselves, or may do so. -/
def special : List Char :=
  ['$', '\x60', '*', '?', '[', ']', '#', '~', '!', '{', '}', '^']

/-- The characters that a backslash keeps plain in double quotes. -/
def escapable : List Char := ['$', '\x60', '"', '\\']

/-- White space between words. -/
def isBlank (c : Char) : Bool := c == ' ' || c == '\t'

/-! ## One character -/

/-- What a character between tokens begins. -/
def Mode.begin (c : Char) : List Token × Mode :=
  if isBlank c then ([], .between)
  else if c = '\n' then ([.operator ['\n']], .between)
  else if c = '\'' then ([], .single [])
  else if c = '"' then ([], .double [])
  else if c = '\\' then ([], .escaped [])
  else if c ∈ operatorStarts then ([], .operator [c])
  else if c ∈ special then ([], .lost)
  else ([], .word true [c])

/-- The token that a word is when a character begins something else behind it. -/
def wordBefore (bare : Bool) (text : List Char) (c : Char) : Token :=
  if bare && text.all Char.isDigit && (c == '<' || c == '>') then .number text else .word text

/-- Reads one character: the tokens that it completes, and where the reader stands then. -/
def Mode.step : Mode → Char → List Token × Mode
  | .between, c => begin c
  | .word bare w, c =>
    if c = '\'' then ([], .single w)
    else if c = '"' then ([], .double w)
    else if c = '\\' then ([], .escaped w)
    else if isBlank c ∨ c = '\n' ∨ c ∈ operatorStarts then
      (wordBefore bare w c :: (begin c).1, (begin c).2)
    else if c ∈ special then ([], .lost)
    else ([], .word bare (w ++ [c]))
  | .single w, c => ([], if c = '\'' then .word false w else .single (w ++ [c]))
  | .double w, c =>
    if c = '"' then ([], .word false w)
    else if c = '\\' then ([], .doubleEscaped w)
    else if c = '$' ∨ c = '\x60' then ([], .lost)
    else ([], .double (w ++ [c]))
  | .escaped w, c => ([], if c = '\n' then .lost else .word false (w ++ [c]))
  | .doubleEscaped w, c =>
    if c ∈ escapable then ([], .double (w ++ [c]))
    else if c = '\n' then ([], .double w)
    else ([], .double (w ++ ['\\', c]))
  | .operator s, c =>
    if s ++ [c] ∈ operators then ([], .operator (s ++ [c]))
    else (.operator s :: (begin c).1, (begin c).2)
  | .lost, _ => ([], .lost)

/-- What is left at the end of a line. -/
def Mode.finish : Mode → List Token
  | .between => []
  | .word _ w => [.word w]
  | .operator s => [.operator s]
  | _ => [.refused]

/-! ## A whole line -/

/-- The tokens of a line. -/
def lex (m : Mode) : List Char → List Token
  | [] => m.finish
  | c :: cs => (m.step c).1 ++ lex (m.step c).2 cs

/-- The words and operators of a line. -/
def tokens (line : List Char) : List Token := lex .between line

theorem lex_cons (m : Mode) (c : Char) (cs : List Char) :
    lex m (c :: cs) = (m.step c).1 ++ lex (m.step c).2 cs := rfl

/-- The line does not go on, or it goes on with a space. -/
def Ends (rest : List Char) : Prop := ∀ c ∈ rest.head?, c = ' '

theorem ends_nil : Ends [] := by simp [Ends]

theorem ends_space (rest : List Char) : Ends (' ' :: rest) := by simp [Ends]

/-- A space ends a word. -/
theorem lex_word_of_ends (bare : Bool) (w : List Char) {rest : List Char} (h : Ends rest) :
    lex (.word bare w) rest = .word w :: lex .between rest := by
  cases rest with
  | nil => rfl
  | cons c cs =>
    obtain rfl : c = ' ' := h c rfl
    have hword : wordBefore bare w ' ' = .word w := by simp [wordBefore]
    show wordBefore bare w ' ' :: lex .between cs = .word w :: lex .between cs
    rw [hword]

/-! ## Single quotes -/

/-- Between single quotes every text is read as itself. -/
theorem lex_single (w cs rest : List Char) :
    lex (.single w) (escape cs ++ '\'' :: rest) = lex (.word false (w ++ cs)) rest := by
  fun_induction escape cs generalizing w with
  | case1 => simp [lex_cons, Mode.step]
  | case2 cs ih =>
    -- the quote stands outside, in double quotes of its own
    have hquote : lex (.single w) ("'\"'\"'".toList ++ escape cs ++ '\'' :: rest)
        = lex (.single (w ++ ['\''])) (escape cs ++ '\'' :: rest) := rfl
    rw [hquote, ih, List.append_assoc, List.singleton_append]
  | case3 c cs hc ih =>
    have hne : c ≠ '\'' := hc
    have hstep : Mode.step (.single w) c = ([], .single (w ++ [c])) := by
      simp [Mode.step, hne]
    rw [List.cons_append, lex_cons, hstep, List.nil_append, ih, List.append_assoc,
      List.singleton_append]

/-! ## Characters without quotes -/

/-- A harmless character means nothing to the shell, wherever it stands. -/
theorem not_of_isHarmless {c : Char} (h : isHarmless c = true) :
    isBlank c = false ∧ c ≠ '\n' ∧ c ≠ '\'' ∧ c ≠ '"' ∧ c ≠ '\\' ∧ c ∉ operatorStarts
      ∧ c ∉ special := by
  have hne : ∀ d, isHarmless d = false → c ≠ d := by
    rintro d hd rfl
    rw [h] at hd
    exact Bool.noConfusion hd
  refine ⟨?_, hne _ (by decide), hne _ (by decide), hne _ (by decide), hne _ (by decide), ?_, ?_⟩
  · simp [isBlank, hne ' ' (by decide), hne '\t' (by decide)]
  · intro hmem
    have hall : operatorStarts.all (fun d => !isHarmless d) = true := by decide
    have hc := List.all_eq_true.mp hall c hmem
    rw [h] at hc
    exact Bool.noConfusion hc
  · intro hmem
    have hall : special.all (fun d => !isHarmless d) = true := by decide
    have hc := List.all_eq_true.mp hall c hmem
    rw [h] at hc
    exact Bool.noConfusion hc

theorem begin_of_isHarmless {c : Char} (h : isHarmless c = true) :
    Mode.begin c = ([], .word true [c]) := by
  obtain ⟨h1, h2, h3, h4, h5, h6, h7⟩ := not_of_isHarmless h
  simp [Mode.begin, h1, h2, h3, h4, h5, h6, h7]

theorem step_word_of_isHarmless (bare : Bool) (w : List Char) {c : Char}
    (h : isHarmless c = true) : Mode.step (.word bare w) c = ([], .word bare (w ++ [c])) := by
  obtain ⟨h1, h2, h3, h4, h5, h6, h7⟩ := not_of_isHarmless h
  simp [Mode.step, h1, h2, h3, h4, h5, h6, h7]

theorem lex_word_append (bare : Bool) (w : List Char) {cs : List Char}
    (h : ∀ c ∈ cs, isHarmless c = true) (rest : List Char) :
    lex (.word bare w) (cs ++ rest) = lex (.word bare (w ++ cs)) rest := by
  induction cs generalizing w with
  | nil => rw [List.nil_append, List.append_nil]
  | cons c cs ih =>
    rw [List.cons_append, lex_cons, step_word_of_isHarmless bare w (h c List.mem_cons_self),
      List.nil_append, ih (w ++ [c]) fun d hd => h d (List.mem_cons_of_mem c hd),
      List.append_assoc, List.singleton_append]

/-! ## Quoted texts -/

/-- A quoted text is one word: the text itself. -/
theorem lex_quote (cs : List Char) {rest : List Char} (h : Ends rest) :
    lex .between (quote cs ++ rest) = .word cs :: lex .between rest := by
  rw [quote]
  split
  · rename_i hbare
    obtain ⟨c, cs, rfl⟩ := List.exists_cons_of_ne_nil hbare.1
    have hall := List.all_eq_true.mp hbare.2
    have hstep : Mode.step .between c = ([], .word true [c]) :=
      begin_of_isHarmless (hall c List.mem_cons_self)
    rw [List.cons_append, lex_cons, hstep, List.nil_append,
      lex_word_append true [c] (fun d hd => hall d (List.mem_cons_of_mem c hd)),
      lex_word_of_ends true _ h, List.singleton_append]
  · have hopen : lex .between ('\'' :: escape cs ++ ['\''] ++ rest)
        = lex (.single []) (escape cs ++ '\'' :: rest) := by
      rw [List.cons_append, List.cons_append, List.append_assoc]
      rfl
    rw [hopen, lex_single, List.nil_append, lex_word_of_ends false cs h]

/-- A word of harmless characters is read as it stands. -/
theorem lex_harmless {w : List Char} (hw : w ≠ [] ∧ w.all isHarmless) {rest : List Char}
    (h : Ends rest) : lex .between (w ++ rest) = .word w :: lex .between rest := by
  have hquote := lex_quote w h
  rwa [quote, if_pos hw] at hquote

theorem lex_space (rest : List Char) : lex .between (' ' :: rest) = lex .between rest := rfl

theorem tokens_quote (cs : List Char) : tokens (quote cs) = [.word cs] := by
  have hread := lex_quote cs ends_nil
  rwa [List.append_nil] at hread

end ComposeNix.Shell
