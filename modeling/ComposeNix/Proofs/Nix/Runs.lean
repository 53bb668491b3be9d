import ComposeNix.Proofs.Nix.Collapse

/-!
# Texts by their runs of line feeds

Every text is a run of line feeds and then its other characters, each with the run of line feeds
behind it, and in one way only (`Spaced.existsUnique_text`).  In this form the pass over empty lines
is a matter of the single runs: each is cut down to two line feeds, and the other characters stay
what they are and where they are (`Spaced.collapse_text`).

`collapse_normalForm` says this of every text, together with the laws of a normal form and the law
for texts that are put together from parts, in which a run may cross the seam.
-/

namespace ComposeNix.Nix

/-- A text by its runs of line feeds: the one that it begins with, and its other characters, each
with the run behind it.  A run may be empty. -/
structure Spaced where
  lead : Nat
  rest : List (Char × Nat)
  ne_newline : ∀ e ∈ rest, e.1 ≠ '\n'

namespace Spaced

/-- A character with the run behind it. -/
def block (e : Char × Nat) : List Char := e.1 :: List.replicate e.2 '\n'

/-- The text itself. -/
def text (s : Spaced) : List Char := List.replicate s.lead '\n' ++ s.rest.flatMap block

/-- Every run with at most two line feeds. -/
def cut (s : Spaced) : Spaced where
  lead := min s.lead 2
  rest := s.rest.map fun e => (e.1, min e.2 2)
  ne_newline := List.forall_mem_map.mpr fun e he => s.ne_newline e he

/-! ## The runs of a text -/

/-- A character in front of a text: a line feed makes the first run longer, and any other begins
anew. -/
def cons (c : Char) (s : Spaced) : Spaced :=
  if hc : c = '\n' then ⟨s.lead + 1, s.rest, s.ne_newline⟩
  else ⟨0, (c, s.lead) :: s.rest, List.forall_mem_cons.mpr ⟨hc, s.ne_newline⟩⟩

/-- The runs of a text. -/
def ofText : List Char → Spaced
  | [] => ⟨0, [], fun _ he => nomatch he⟩
  | c :: cs => cons c (ofText cs)

theorem text_cons (c : Char) (s : Spaced) : (cons c s).text = c :: s.text := by
  rw [cons]
  split
  · rename_i hc
    rw [text, List.replicate_succ, hc]
    rfl
  · rfl

theorem text_ofText (cs : List Char) : (ofText cs).text = cs := by
  induction cs with
  | nil => rfl
  | cons c cs ih => rw [ofText, text_cons, ih]

theorem ofText_replicate_append (n : Nat) (cs : List Char) :
    ofText (List.replicate n '\n' ++ cs)
      = ⟨(ofText cs).lead + n, (ofText cs).rest, (ofText cs).ne_newline⟩ := by
  induction n with
  | zero => rfl
  | succ n ih =>
    rw [List.replicate_succ, List.cons_append, ofText, ih]
    rfl

theorem ofText_flatMap_block {rest : List (Char × Nat)} (h : ∀ e ∈ rest, e.1 ≠ '\n') :
    ofText (rest.flatMap block) = ⟨0, rest, h⟩ := by
  induction rest with
  | nil => rfl
  | cons e rest ih =>
    obtain ⟨hc, hrest⟩ := List.forall_mem_cons.mp h
    rw [List.flatMap_cons, block, List.cons_append, ofText, ofText_replicate_append, ih hrest, cons,
      dif_neg hc]
    simp only [Nat.zero_add]

/-- The runs of a text are what it was put together from. -/
theorem ofText_text (s : Spaced) : ofText s.text = s := by
  rw [text, ofText_replicate_append, ofText_flatMap_block s.ne_newline]
  simp only [Nat.zero_add]

/-- Every text has its runs, and in one way only. -/
theorem existsUnique_text (cs : List Char) : ∃! s : Spaced, s.text = cs := by
  refine ⟨ofText cs, text_ofText cs, fun s hs => ?_⟩
  rw [← hs, ofText_text]

/-! ## Collapsing run by run -/

/-- Of a run as many line feeds are kept as there is room for behind those that were counted. -/
theorem collapseAfter_replicate_append {run : Nat} (hrun : run ≤ 2) (n : Nat) (cs : List Char) :
    collapseAfter run (List.replicate n '\n' ++ cs)
      = List.replicate (min n (2 - run)) '\n' ++ collapseAfter (min (run + n) 2) cs := by
  induction n generalizing run with
  | zero => simp [hrun]
  | succ n ih =>
    rw [List.replicate_succ, List.cons_append, collapseAfter, if_pos rfl]
    split_ifs with hlt
    · have hkept : min (n + 1) (2 - run) = min n (2 - (run + 1)) + 1 := by omega
      have hcount : run + (n + 1) = run + 1 + n := by omega
      rw [ih hlt, hkept, hcount, List.replicate_succ, List.cons_append]
    · obtain rfl : run = 2 := by omega
      have hcount : min (2 + (n + 1)) 2 = min (2 + n) 2 := by omega
      rw [ih le_rfl, hcount, Nat.sub_self, Nat.min_zero, Nat.min_zero]

/-- A character that is no line feed makes the pass begin anew. -/
theorem collapseAfter_flatMap_block {rest : List (Char × Nat)} (h : ∀ e ∈ rest, e.1 ≠ '\n')
    (run : Nat) : collapseAfter run (rest.flatMap block)
      = (rest.map fun e => (e.1, min e.2 2)).flatMap block := by
  induction rest generalizing run with
  | nil => rfl
  | cons e rest ih =>
    obtain ⟨hc, hrest⟩ := List.forall_mem_cons.mp h
    rw [List.map_cons, List.flatMap_cons, List.flatMap_cons, block, block, List.cons_append,
      collapseAfter, if_neg hc, collapseAfter_replicate_append (Nat.zero_le 2), ih hrest]
    rfl

/-- Collapsing a text cuts its runs, and does nothing else. -/
theorem collapse_text (s : Spaced) : collapse s.text = s.cut.text := by
  rw [text, collapse, collapseAfter_replicate_append (Nat.zero_le 2),
    collapseAfter_flatMap_block s.ne_newline]
  rfl

end Spaced

/-- The pass over empty lines brings every text to a normal form.  The text has one decomposition
into runs of line feeds and other characters; what is made of it has the same characters in the same
order, and of each run of `n` line feeds the first `min n 2`.  So there are never three line feeds in
a row, a second pass changes nothing, and the texts that are left alone are those without such a
run.  Parts of a text may be collapsed before they are put together. -/
theorem collapse_normalForm (cs : List Char) :
    (∃ s : Spaced, s.text = cs ∧ (∀ t : Spaced, t.text = cs → t = s) ∧ collapse cs = s.cut.text)
    ∧ ¬ longRun <:+: collapse cs
    ∧ collapse (collapse cs) = collapse cs
    ∧ (collapse cs = cs ↔ ¬ longRun <:+: cs)
    ∧ ∀ a b, collapse (a ++ b) = collapse (collapse a ++ collapse b) := by
  obtain ⟨s, hs, hunique⟩ := Spaced.existsUnique_text cs
  refine ⟨⟨s, hs, hunique, ?_⟩, not_longRun_infix_collapse cs, collapse_collapse cs,
    collapse_eq_self_iff cs, collapse_append⟩
  rw [← hs, Spaced.collapse_text]

example : collapse "a\n\n\n\nb\n\nc\n".toList = "a\n\nb\n\nc\n".toList := by decide

end ComposeNix.Nix
