import ComposeNix.Proofs.Nix.Layout

/-!
# Reading a text in quotes

A text stands between quotes with three things escaped.  The reader here takes the quotes and the
escapes off again, one character after the other, and says what it has come to (`Reading`): the
closing quote, an antiquotation, or the end of everything.

`readQuoted_quote`: a text in its quotes is read as that text, and what stands behind the closing
quote is left alone.  So a text cannot open an antiquotation, end early, or take in what follows it,
and two texts are never written alike.

Escaping looks at every character once.  It comes to the same to go over the text three times, and
to put a backslash in front of one of the three things each time (`escape_eq_passes`).  The
backslashes have to come first: the later passes write backslashes that are not to be doubled.
-/

namespace ComposeNix.Nix

/-! ## Reading -/

/-- What reading behind an opening quote comes to. -/
inductive Reading
  /-- A closing quote: the text in front of it, and what stands behind it. -/
  | closed (text rest : List Char)
  /-- An antiquotation: the text in front of it, and what stands behind its opening brace. -/
  | antiquotation (text rest : List Char)
  /-- The end, with no closing quote before it. -/
  | endless
  deriving DecidableEq, Repr

/-- A reading with one more character in front. -/
def Reading.cons (c : Char) : Reading → Reading
  | .closed text rest => .closed (c :: text) rest
  | .antiquotation text rest => .antiquotation (c :: text) rest
  | .endless => .endless

/-- Reads what stands behind an opening quote. -/
def readLetters : List Char → Reading
  | [] => .endless
  | '"' :: cs => .closed [] cs
  | ['\\'] => .endless
  | '\\' :: c :: cs => (readLetters cs).cons (unescape c)
  | '$' :: '{' :: cs => .antiquotation [] cs
  | c :: cs => (readLetters cs).cons c

/-- Reads a text in quotes, if there is an opening quote. -/
def readQuoted : List Char → Option Reading
  | '"' :: cs => some (readLetters cs)
  | _ => none

/-- A character that begins none of the special forms stands for itself. -/
theorem readLetters_cons {c : Char} {cs : List Char} (hb : c ≠ '\\') (hq : c ≠ '"')
    (hd : c = '$' → cs.head? ≠ some '{') : readLetters (c :: cs) = (readLetters cs).cons c := by
  rw [readLetters.eq_def]
  split <;> simp_all

/-- An escaped text is read as that text, up to the quote behind it. -/
theorem readLetters_escape (text rest : List Char) :
    readLetters (escape text ++ '"' :: rest) = .closed text rest := by
  fun_induction escape text with
  | case1 => rfl
  | case2 cs ih =>
    rw [List.cons_append, List.cons_append, readLetters, ih]
    rfl
  | case3 cs ih =>
    rw [List.cons_append, List.cons_append, readLetters, ih]
    rfl
  | case4 cs ih =>
    -- behind the backslash the dollar sign is plain, and so is the brace behind it
    have hbrace : readLetters ('{' :: (escape cs ++ '"' :: rest)) = .closed ('{' :: cs) rest := by
      rw [readLetters_cons (by decide) (by decide) fun h => absurd h (by decide), ih]
      rfl
    rw [List.cons_append, List.cons_append, List.cons_append, readLetters, hbrace]
    rfl
  | case5 c cs hb hq hd ih =>
    have hdollar : c = '$' → (escape cs ++ '"' :: rest).head? ≠ some '{' := by
      intro hc
      refine head?_escape_ne_brace (fun hhead => ?_) (by simp)
      obtain ⟨cs', rfl⟩ := List.head?_eq_some_iff.mp hhead
      exact hd cs' hc rfl
    rw [List.cons_append, readLetters_cons hb hq hdollar, ih]
    rfl

theorem readQuoted_quote_append (text rest : List Char) :
    readQuoted (quote text ++ rest) = some (.closed text rest) := by
  have hquote : quote text ++ rest = '"' :: (escape text ++ '"' :: rest) := by simp [quote]
  rw [hquote, readQuoted, readLetters_escape]

/-! ## Escaping in passes -/

/-- Puts `new` in the place of every occurrence of `old`, from left to right.  What has been put
in is not looked at again. -/
def replaceAll (old new : List Char) : List Char → List Char
  | [] => []
  | c :: cs =>
    if old.isPrefixOf (c :: cs) then new ++ replaceAll old new (cs.drop (old.length - 1))
    else c :: replaceAll old new cs
termination_by cs => cs.length
decreasing_by
  · rw [List.length_drop, List.length_cons]
    omega
  · exact Nat.lt_succ_self _

/-- The three passes: backslashes, quotes, and the dollar signs of `${`. -/
def escapePasses (cs : List Char) : List Char :=
  replaceAll ['$', '{'] ['\\', '$', '{']
    (replaceAll ['"'] ['\\', '"'] (replaceAll ['\\'] ['\\', '\\'] cs))

theorem replaceAll_nil (old new : List Char) : replaceAll old new [] = [] := by
  rw [replaceAll]

/-- A single character is replaced wherever it stands. -/
theorem replaceAll_singleton_cons (d : Char) (new : List Char) (c : Char) (cs : List Char) :
    replaceAll [d] new (c :: cs) = (if c = d then new else [c]) ++ replaceAll [d] new cs := by
  rw [replaceAll]
  by_cases h : c = d
  · simp [h]
  · simp [h, Ne.symm h]

/-- Two characters are replaced where they stand together. -/
theorem replaceAll_pair (c d : Char) (new cs : List Char) :
    replaceAll [c, d] new (c :: d :: cs) = new ++ replaceAll [c, d] new cs := by
  rw [replaceAll]
  simp

theorem replaceAll_pair_cons {c d : Char} {new : List Char} {b : Char} {cs : List Char}
    (h : b = c → cs.head? ≠ some d) :
    replaceAll [c, d] new (b :: cs) = b :: replaceAll [c, d] new cs := by
  have hprefix : [c, d].isPrefixOf (b :: cs) = false := by
    by_contra htrue
    rw [Bool.not_eq_false, List.isPrefixOf_iff_prefix, List.cons_prefix_cons] at htrue
    obtain ⟨rfl, hrest⟩ := htrue
    obtain ⟨t, rfl⟩ := hrest
    exact h rfl rfl
  rw [replaceAll, hprefix]
  simp

theorem replaceAll_pair_cons_of_ne {b c : Char} (h : b ≠ c) (d : Char) (new cs : List Char) :
    replaceAll [c, d] new (b :: cs) = b :: replaceAll [c, d] new cs :=
  replaceAll_pair_cons fun heq => absurd heq h

/-- The first two passes put no brace in front. -/
theorem head?_passes_ne_brace {cs : List Char} (h : cs.head? ≠ some '{') :
    (replaceAll ['"'] ['\\', '"'] (replaceAll ['\\'] ['\\', '\\'] cs)).head? ≠ some '{' := by
  cases cs with
  | nil => simp [replaceAll_nil]
  | cons c cs =>
    rw [replaceAll_singleton_cons]
    by_cases hb : c = '\\'
    · simp [hb, replaceAll_singleton_cons]
    · rw [if_neg hb, List.singleton_append, replaceAll_singleton_cons]
      by_cases hq : c = '"'
      · simp [hq]
      · simpa [hq] using h

/-- One pass over the text escapes what the three passes escape. -/
theorem escape_eq_passes (cs : List Char) : escape cs = escapePasses cs := by
  unfold escapePasses
  fun_induction escape cs with
  | case1 => simp only [replaceAll_nil]
  | case2 cs ih => simp [replaceAll_singleton_cons, replaceAll_pair_cons_of_ne, ih]
  | case3 cs ih => simp [replaceAll_singleton_cons, replaceAll_pair_cons_of_ne, ih]
  | case4 cs ih => simp [replaceAll_singleton_cons, replaceAll_pair, ih]
  | case5 c cs hb hq hd ih =>
    have hdollar : c = '$' → cs.head? ≠ some '{' := by
      intro hc hhead
      obtain ⟨cs', rfl⟩ := List.head?_eq_some_iff.mp hhead
      exact hd cs' hc rfl
    rw [replaceAll_singleton_cons, if_neg hb, List.singleton_append, replaceAll_singleton_cons,
      if_neg hq, List.singleton_append,
      replaceAll_pair_cons fun hc => head?_passes_ne_brace (hdollar hc), ih]

/-! ## A text in its quotes -/

/-- A text in its quotes is read as that text, whatever had to be escaped, and what stands behind
the closing quote is left over.  Between the quotes stands the text as it comes out of the three
passes.  What is written alike was alike, text and rest. -/
theorem readQuoted_quote (text rest : List Char) :
    readQuoted (quote text ++ rest) = some (.closed text rest)
      ∧ quote text = '"' :: escapePasses text ++ ['"']
      ∧ ∀ text' rest', quote text ++ rest = quote text' ++ rest' → text = text' ∧ rest = rest' := by
  refine ⟨readQuoted_quote_append text rest, by rw [quote, escape_eq_passes], ?_⟩
  intro text' rest' heq
  have hread := congrArg readQuoted heq
  rw [readQuoted_quote_append, readQuoted_quote_append] at hread
  exact Reading.closed.inj (Option.some.inj hread)

/-- A text that ends in a backslash, has a quote behind one, and what looks like an antiquotation
behind two dollar signs. -/
example : readQuoted (quote "\\\"$$\x7bx\x7d\\".toList ++ ['"'])
    = some (.closed "\\\"$$\x7bx\x7d\\".toList ['"']) := by decide

end ComposeNix.Nix
