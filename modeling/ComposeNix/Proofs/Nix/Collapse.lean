import ComposeNix.Nix.Document
import Mathlib.Data.List.Infix

/-!
# Runs of empty lines

`collapse` keeps at most two line feeds in a row.  It reads the text once, from left to
right, and all it remembers is how many line feeds stand right before the place it is
at; `runAfter` is that memory behind a text, and `collapseAfter_append` cuts the pass at
any place.

* `collapse_collapse` --- a second pass changes nothing;
* `collapse_append` --- the parts of a text may be collapsed before they are put together;
* `collapse_eq_self_iff` --- the texts without three line feeds in a row are exactly those
  that the pass leaves alone, and `not_longRun_infix_collapse` says it makes only such texts.
-/

namespace ComposeNix.Nix

/-- Three line feeds, which are two empty lines. -/
def longRun : List Char := ['\n', '\n', '\n']

/-- The line feeds right before the end of a text, as far as `collapseAfter` counts. -/
def runAfter (run : Nat) : List Char → Nat
  | [] => run
  | c :: cs =>
    if c = '\n' then if run < 2 then runAfter (run + 1) cs else runAfter run cs
    else runAfter 0 cs

/-! ## One pass over a text in parts -/

theorem collapseAfter_append (run : Nat) (a b : List Char) :
    collapseAfter run (a ++ b) = collapseAfter run a ++ collapseAfter (runAfter run a) b := by
  induction a generalizing run with
  | nil => rfl
  | cons c a ih =>
    simp only [List.cons_append, collapseAfter, runAfter]
    split_ifs <;> simp [ih]

theorem runAfter_append (run : Nat) (a b : List Char) :
    runAfter run (a ++ b) = runAfter (runAfter run a) b := by
  induction a generalizing run with
  | nil => rfl
  | cons c a ih =>
    simp only [List.cons_append, runAfter]
    split_ifs <;> rw [ih]

/-! ## The texts that are left alone -/

/-- A pass that has counted fewer line feeds drops nothing that the later one would have kept. -/
theorem collapseAfter_collapseAfter {before run : Nat} (hle : before ≤ run) (cs : List Char) :
    collapseAfter run (collapseAfter before cs) = collapseAfter run cs := by
  induction cs generalizing before run with
  | nil => rfl
  | cons c cs ih =>
    by_cases hc : c = '\n'
    · by_cases hbefore : before < 2
      · simp only [collapseAfter, hc, hbefore, if_true]
        split_ifs with hrun
        · rw [ih (Nat.succ_le_succ hle)]
        · rw [ih (by omega)]
      · have hrun : ¬ run < 2 := by omega
        simp only [collapseAfter, hc, hbefore, hrun, if_true, if_false]
        exact ih hle
    · simp only [collapseAfter, hc, if_false]
      rw [ih le_rfl]

theorem collapse_collapse (cs : List Char) : collapse (collapse cs) = collapse cs :=
  collapseAfter_collapseAfter le_rfl cs

/-- What a pass drops does not count for what follows. -/
theorem runAfter_collapseAfter (run : Nat) (cs : List Char) :
    runAfter run (collapseAfter run cs) = runAfter run cs := by
  induction cs generalizing run with
  | nil => rfl
  | cons c cs ih =>
    simp only [collapseAfter, runAfter]
    split_ifs with hc hrun
    · simp [runAfter, hc, hrun, ih]
    · exact ih run
    · simp [runAfter, hc, ih]

/-- The parts of a text may be collapsed before they are put together. -/
theorem collapse_append (a b : List Char) :
    collapse (a ++ b) = collapse (collapse a ++ collapse b) := by
  have hfirst : collapseAfter 0 (collapseAfter 0 a) = collapseAfter 0 a := collapse_collapse a
  rw [collapse, collapse, collapse, collapse, collapseAfter_append, collapseAfter_append, hfirst,
    runAfter_collapseAfter, collapseAfter_collapseAfter (Nat.zero_le _)]

theorem length_collapseAfter_le (run : Nat) (cs : List Char) :
    (collapseAfter run cs).length ≤ cs.length := by
  induction cs generalizing run with
  | nil => exact le_rfl
  | cons c cs ih =>
    simp only [collapseAfter]
    split_ifs
    · simpa using ih (run + 1)
    · exact (ih run).trans (Nat.le_succ _)
    · simpa using ih 0

/-- Of three line feeds in a row one at least is dropped. -/
theorem length_collapseAfter_longRun (run : Nat) : (collapseAfter run longRun).length ≤ 2 := by
  simp only [longRun, collapseAfter, if_true]
  split_ifs <;> simp only [List.length_cons, List.length_nil] <;> omega

theorem not_longRun_infix_of_collapseAfter {run : Nat} {cs : List Char}
    (h : collapseAfter run cs = cs) : ¬ longRun <:+: cs := by
  rintro ⟨a, b, rfl⟩
  have hlength := congrArg List.length h
  have ha := length_collapseAfter_le run a
  have hrun := length_collapseAfter_longRun (runAfter run a)
  have hb := length_collapseAfter_le (runAfter run (a ++ longRun)) b
  have hthree : longRun.length = 3 := rfl
  simp only [collapseAfter_append, List.length_append] at hlength
  omega

theorem collapseAfter_eq_self {run : Nat} (hrun : run ≤ 2) {cs : List Char}
    (h : ¬ longRun <:+: List.replicate run '\n' ++ cs) : collapseAfter run cs = cs := by
  induction cs generalizing run with
  | nil => rfl
  | cons c cs ih =>
    rw [collapseAfter]
    split_ifs with hc hlt
    · have hsplit : List.replicate run '\n' ++ '\n' :: cs
          = List.replicate (run + 1) '\n' ++ cs := by
        rw [List.replicate_succ', List.append_assoc, List.singleton_append]
      rw [hc, hsplit] at h
      rw [ih (by omega) h]
    · have htwo : run = 2 := by omega
      subst htwo hc
      exact absurd ⟨[], cs, rfl⟩ h
    · have hrest : ¬ longRun <:+: List.replicate 0 '\n' ++ cs := by
        intro hcs
        exact h (hcs.trans ⟨List.replicate run '\n' ++ [c], [], by simp⟩)
      rw [ih (Nat.zero_le 2) hrest]

/-- The texts that are left alone are those without three line feeds in a row. -/
theorem collapse_eq_self_iff (cs : List Char) : collapse cs = cs ↔ ¬ longRun <:+: cs :=
  ⟨not_longRun_infix_of_collapseAfter, fun h => collapseAfter_eq_self (Nat.zero_le 2) h⟩

theorem not_longRun_infix_collapse (cs : List Char) : ¬ longRun <:+: collapse cs :=
  (collapse_eq_self_iff (collapse cs)).mp (collapse_collapse cs)

/-- A text that is altered has an empty line afterwards. -/
theorem gap_infix_collapseAfter_or_eq (run : Nat) (cs : List Char) :
    collapseAfter run cs = cs
      ∨ ['\n', '\n'] <:+: List.replicate (min run 2) '\n' ++ collapseAfter run cs := by
  induction cs generalizing run with
  | nil => exact Or.inl rfl
  | cons c cs ih =>
    rw [collapseAfter]
    split_ifs with hc hlt
    · have hsplit : List.replicate (min run 2) '\n' ++ c :: collapseAfter (run + 1) cs
          = List.replicate (min (run + 1) 2) '\n' ++ collapseAfter (run + 1) cs := by
        rw [min_eq_left (by omega), min_eq_left (by omega), List.replicate_succ',
          List.append_assoc, List.singleton_append, hc]
      rw [hsplit]
      rcases ih (run + 1) with h | h
      · exact Or.inl (by rw [h])
      · exact Or.inr h
    · rw [min_eq_right (by omega)]
      exact Or.inr ⟨[], collapseAfter run cs, rfl⟩
    · rcases ih 0 with h | h
      · exact Or.inl (by rw [h])
      · exact Or.inr (h.trans ⟨List.replicate (min run 2) '\n' ++ [c], [], by simp⟩)

end ComposeNix.Nix
