import ComposeNix.Text.Terminal
import Mathlib.Data.List.Infix

/-!
# The texts without control sequences

A control sequence is an escape character, an opening bracket, parameters and a letter
(`IsControl`).  The scan recognises just these (`afterControl?_eq_some_iff`: a letter is no
parameter, so where a sequence ends is clear from its beginning).

`withoutControls_eq_self_iff`: the texts that are left alone are those with no control sequence
anywhere in them, because whatever is taken out makes a text shorter.
-/

namespace ComposeNix.Text

/-- A character between the bracket of a control sequence and its letter. -/
def isParameter (c : Char) : Bool := c.isDigit || c == ';' || c == '?'

/-- A control sequence. -/
def IsControl (cs : List Char) : Prop :=
  ∃ parameters letter, cs = '\x1b' :: '[' :: (parameters ++ [letter])
    ∧ (∀ c ∈ parameters, isParameter c = true) ∧ letter.isAlpha = true

/-- A letter is no parameter. -/
theorem isAlpha_eq_false_of_isParameter {c : Char} (h : isParameter c = true) :
    c.isAlpha = false := by
  rw [isParameter, Bool.or_eq_true, Bool.or_eq_true, beq_iff_eq, beq_iff_eq] at h
  rcases h with (h | rfl) | rfl
  · simp only [Char.isDigit, Bool.and_eq_true, decide_eq_true_iff, ge_iff_le,
      UInt32.le_iff_toNat_le] at h
    delta Char.isAlpha Char.isUpper Char.isLower
    simp only [Bool.or_eq_false_iff,
      Bool.and_eq_false_iff, decide_eq_false_iff_not, ge_iff_le, UInt32.le_iff_toNat_le]
    have hnine : '9'.val.toNat = 57 := rfl
    have hA : 'A'.val.toNat = 65 := rfl
    have ha : 'a'.val.toNat = 97 := rfl
    omega
  · decide
  · decide

theorem controlEnd?_eq_some_iff {cs after : List Char} : controlEnd? cs = some after
    ↔ ∃ parameters letter, cs = parameters ++ letter :: after
      ∧ (∀ c ∈ parameters, isParameter c = true) ∧ letter.isAlpha = true := by
  induction cs with
  | nil => simp [controlEnd?]
  | cons c cs ih =>
    rw [controlEnd?]
    constructor
    · intro h
      split at h
      · rename_i halpha
        exact ⟨[], c, by rw [Option.some.inj h]; rfl, by simp, halpha⟩
      · split at h
        · rename_i hparameter
          obtain ⟨parameters, letter, rfl, hparameters, halpha⟩ := ih.mp h
          exact ⟨c :: parameters, letter, rfl,
            List.forall_mem_cons.mpr ⟨hparameter, hparameters⟩, halpha⟩
        · cases h
    · rintro ⟨parameters, letter, heq, hparameters, halpha⟩
      cases parameters with
      | nil =>
        obtain ⟨rfl, rfl⟩ := List.cons.inj heq
        rw [if_pos halpha]
      | cons p parameters =>
        obtain ⟨rfl, rfl⟩ := List.cons.inj heq
        obtain ⟨hp, hrest⟩ := List.forall_mem_cons.mp hparameters
        have hno : ¬ c.isAlpha = true := Bool.eq_false_iff.mp (isAlpha_eq_false_of_isParameter hp)
        rw [if_neg hno]
        refine (if_pos hp).trans ?_
        exact ih.mpr ⟨parameters, letter, rfl, hrest, halpha⟩

/-- What the scan takes for a control sequence is one. -/
theorem afterControl?_eq_some_iff {cs after : List Char} : afterControl? cs = some after
    ↔ ∃ control, IsControl control ∧ cs = control ++ after := by
  constructor
  · intro h
    unfold afterControl? at h
    split at h
    · obtain ⟨parameters, letter, rfl, hparameters, halpha⟩ := controlEnd?_eq_some_iff.mp h
      exact ⟨_, ⟨parameters, letter, rfl, hparameters, halpha⟩, by simp⟩
    · exact nomatch h
  · rintro ⟨_, ⟨parameters, letter, rfl, hparameters, halpha⟩, rfl⟩
    exact controlEnd?_eq_some_iff.mpr ⟨parameters, letter, by simp, hparameters, halpha⟩

/-- What is left of a text are some of its characters, in their order. -/
theorem withoutControls_sublist (cs : List Char) : (withoutControls cs).Sublist cs := by
  fun_induction withoutControls cs with
  | case1 => exact .slnil
  | case2 c rest after h ih =>
    obtain ⟨control, -, hsplit⟩ := afterControl?_eq_some_iff.mp h
    rw [hsplit]
    exact ih.trans (List.sublist_append_right control after)
  | case3 c rest h ih => exact ih.cons_cons c

/-- The texts that are left alone are those without control sequences. -/
theorem withoutControls_eq_self_iff (cs : List Char) :
    withoutControls cs = cs ↔ ∀ control, IsControl control → ¬ control <:+: cs := by
  fun_induction withoutControls cs with
  | case1 =>
    refine iff_of_true rfl ?_
    rintro _ ⟨parameters, letter, rfl, -⟩ hinfix
    exact nomatch List.infix_nil.mp hinfix
  | case2 c rest after h ih =>
    obtain ⟨control, hcontrol, hsplit⟩ := afterControl?_eq_some_iff.mp h
    refine iff_of_false (fun heq => ?_) fun hnone => hnone control hcontrol ⟨[], after, hsplit.symm⟩
    have hshort := length_of_afterControl? h
    have hle := (withoutControls_sublist after).length_le
    rw [heq] at hle
    omega
  | case3 c rest h ih =>
    rw [List.cons.injEq, eq_self_iff_true, true_and, ih]
    constructor
    · intro hrest control hcontrol hinfix
      rcases List.infix_cons_iff.mp hinfix with hprefix | hinfix
      · obtain ⟨after, hafter⟩ := hprefix
        have hsome := afterControl?_eq_some_iff.mpr ⟨control, hcontrol, hafter.symm⟩
        rw [h] at hsome
        exact nomatch hsome
      · exact hrest control hcontrol hinfix
    · exact fun hnone control hcontrol hinfix => hnone control hcontrol
        (List.infix_cons hinfix)

end ComposeNix.Text
