import ComposeNix.CommandLine.Run
import ComposeNix.Proofs.Text.CodePoint
import ComposeNix.Proofs.Text.Terminal

/-!
# What is printed of a text

A text is printed without its control sequences, and it can be printed if what is left has an
encoding.  What is left out counts: every character of a control sequence is a code point of its
own, so a text that has one loses code points (`length_pointsFrom_withoutControls`).  Hence a text
is printed as it is written to a file exactly if there is no control sequence in it
(`encode_plain_eq_iff`).

Texts are printed one after the other, up to the first that cannot be printed
(`fault_printed_eq_none_iff`).
-/

namespace ComposeNix

namespace Text

/-! ## Characters of control sequences -/

/-- A character that is a code point of its own, whatever stands in front of it. -/
def IsPlain (c : Char) : Prop := c ≠ opener ∧ Point.behindOpener? c = none

theorem isPlain_of_lt {c : Char} (h : c.toNat < 0x80) : IsPlain c := by
  have hopener : c ≠ opener := by
    rintro rfl
    exact absurd h (by decide)
  refine ⟨hopener, ?_⟩
  rw [Point.behindOpener?, if_neg hopener, dif_neg (by omega)]

theorem isPlain_of_isAlpha {c : Char} (h : c.isAlpha = true) : IsPlain c := by
  refine isPlain_of_lt ?_
  delta Char.isAlpha Char.isUpper Char.isLower at h
  simp only [Bool.or_eq_true, Bool.and_eq_true, decide_eq_true_iff, ge_iff_le,
    UInt32.le_iff_toNat_le] at h
  have hZ : 'Z'.val.toNat = 90 := rfl
  have hz : 'z'.val.toNat = 122 := rfl
  have hc : c.toNat = c.val.toNat := rfl
  omega

theorem isPlain_of_isParameter {c : Char} (h : isParameter c = true) : IsPlain c := by
  rw [isParameter, Bool.or_eq_true, Bool.or_eq_true, beq_iff_eq, beq_iff_eq] at h
  rcases h with (h | rfl) | rfl
  · refine isPlain_of_lt ?_
    simp only [Char.isDigit, Bool.and_eq_true, decide_eq_true_iff, ge_iff_le,
      UInt32.le_iff_toNat_le] at h
    have hnine : '9'.val.toNat = 57 := rfl
    have hc : c.toNat = c.val.toNat := rfl
    omega
  · exact isPlain_of_lt (by decide)
  · exact isPlain_of_lt (by decide)

/-- A control sequence begins with a character, and all of it are plain characters. -/
theorem IsControl.exists_cons {control : List Char} (h : IsControl control) :
    ∃ c cs, control = c :: cs ∧ ∀ d ∈ c :: cs, IsPlain d := by
  obtain ⟨parameters, letter, rfl, hparameters, hletter⟩ := h
  refine ⟨_, _, rfl, ?_⟩
  simp only [List.forall_mem_cons, List.forall_mem_append, List.not_mem_nil, false_imp_iff,
    implies_true, and_true]
  exact ⟨isPlain_of_lt (by decide), isPlain_of_lt (by decide),
    fun c hc => isPlain_of_isParameter (hparameters c hc), isPlain_of_isAlpha hletter⟩

/-! ## Code points of what is left -/

/-- An opener in front of a text adds one code point at most. -/
theorem length_pointsFrom_true_le (cs : List Char) :
    (pointsFrom true cs).length ≤ (pointsFrom false cs).length + 1
      ∧ (pointsFrom false cs).length ≤ (pointsFrom true cs).length := by
  induction cs with
  | nil => decide
  | cons c cs ih =>
    rw [pointsFrom, pointsFrom, if_pos rfl, if_neg Bool.false_ne_true]
    by_cases hc : c = opener
    · subst hc
      rw [if_pos rfl, Point.behindOpener?, if_pos rfl]
      simp only [List.length_cons]
      omega
    · rw [if_neg hc]
      cases Point.behindOpener? c <;> simp only [List.length_cons] <;> omega

/-- Plain characters count one by one. -/
theorem length_pointsFrom_append {cs : List Char} (h : ∀ c ∈ cs, IsPlain c) (rest : List Char) :
    (pointsFrom false (cs ++ rest)).length = cs.length + (pointsFrom false rest).length := by
  induction cs with
  | nil => simp
  | cons c cs ih =>
    obtain ⟨hc, hcs⟩ := List.forall_mem_cons.mp h
    rw [List.cons_append, pointsFrom, if_neg Bool.false_ne_true, if_neg hc.1, List.length_cons,
      ih hcs, List.length_cons]
    omega

theorem length_pointsFrom_lt_append {c : Char} {cs : List Char} (h : ∀ d ∈ c :: cs, IsPlain d)
    (opened : Bool) (rest : List Char) :
    (pointsFrom opened rest).length < (pointsFrom opened (c :: cs ++ rest)).length := by
  cases opened with
  | false =>
    rw [length_pointsFrom_append h, List.length_cons]
    omega
  | true =>
    obtain ⟨hc, hcs⟩ := List.forall_mem_cons.mp h
    have hbound := (length_pointsFrom_true_le rest).1
    rw [List.cons_append, pointsFrom, if_pos rfl, hc.2]
    simp only [List.length_cons, length_pointsFrom_append hcs]
    omega

/-- A character is looked at once, and what is made of the rest depends on it alone. -/
theorem exists_pointsFrom_cons (opened : Bool) (c : Char) : ∃ front opened',
    ∀ cs, pointsFrom opened (c :: cs) = front ++ pointsFrom opened' cs := by
  cases opened with
  | true =>
    cases hc : Point.behindOpener? c with
    | some p => exact ⟨[p], false, fun cs => by rw [pointsFrom, if_pos rfl, hc]; rfl⟩
    | none =>
      exact ⟨[.char opener, .char c], false, fun cs => by rw [pointsFrom, if_pos rfl, hc]; rfl⟩
  | false =>
    by_cases hc : c = opener
    · exact ⟨[], true, fun cs => by
        rw [pointsFrom, if_neg Bool.false_ne_true, if_pos hc, List.nil_append]⟩
    · exact ⟨[.char c], false, fun cs => by
        rw [pointsFrom, if_neg Bool.false_ne_true, if_neg hc]; rfl⟩

/-- A text has more code points than what is left of it, unless all of it is left. -/
theorem length_pointsFrom_withoutControls (cs : List Char) : withoutControls cs = cs
    ∨ ∀ opened,
      (pointsFrom opened (withoutControls cs)).length < (pointsFrom opened cs).length := by
  fun_induction withoutControls cs with
  | case1 => exact Or.inl rfl
  | case2 c rest after h ih =>
    obtain ⟨control, hcontrol, hsplit⟩ := afterControl?_eq_some_iff.mp h
    obtain ⟨d, ds, rfl, hplain⟩ := hcontrol.exists_cons
    refine Or.inr fun opened => ?_
    have hlt := length_pointsFrom_lt_append hplain opened after
    rw [hsplit]
    rcases ih with hself | hless
    · rwa [hself]
    · exact (hless opened).trans hlt
  | case3 c rest h ih =>
    rcases ih with hself | hless
    · exact Or.inl (congrArg (c :: ·) hself)
    · refine Or.inr fun opened => ?_
      obtain ⟨front, opened', hfront⟩ := exists_pointsFrom_cons opened c
      rw [hfront, hfront, List.length_append, List.length_append]
      exact Nat.add_lt_add_left (hless opened') _

end Text

namespace CommandLine

/-! ## Printing -/

theorem plain_eq_self_iff {s : String} : plain s = s
    ↔ ∀ control, Text.IsControl control → ¬ control <:+: s.toList := by
  rw [plain, ← Text.withoutControls_eq_self_iff, ← String.toList_inj, String.toList_ofList]

/-- A text without openers can be printed. -/
theorem isUnicode_plain_of_notMem {s : String} (h : Text.opener ∉ s.toList) :
    Text.isUnicode (plain s) := by
  refine Text.isUnicode_of_notMem fun hmem => h ?_
  rw [plain, String.toList_ofList] at hmem
  exact (Text.withoutControls_sublist s.toList).mem hmem

/-- What is printed of a text is its encoding exactly if there is no control sequence in it. -/
theorem encode_plain_eq_iff {s shown text : String} (hshown : Text.encode (plain s) = .ok shown)
    (htext : Text.encode s = .ok text) :
    shown = text ↔ ∀ control, Text.IsControl control → ¬ control <:+: s.toList := by
  rw [← plain_eq_self_iff]
  constructor
  · rintro rfl
    have hpoints : Text.points (plain s) = Text.points s := by
      rw [Text.encode_eq_ok_iff.mp hshown, Text.encode_eq_ok_iff.mp htext]
    rcases Text.length_pointsFrom_withoutControls s.toList with hself | hless
    · rw [plain, hself, String.ofList_toList]
    · have hlength := congrArg List.length hpoints
      rw [Text.points, plain, String.toList_ofList] at hlength
      exact absurd hlength (hless false).ne
  · intro hself
    rw [hself, htext] at hshown
    exact (Except.ok.inj hshown).symm

@[simp] theorem written_printed (texts : List String) : (printed texts).written = [] := by
  induction texts with
  | nil => rfl
  | cons s texts ih =>
    rw [printed]
    cases Text.encode (plain s) with
    | error fault => rfl
    | ok shown => exact ih

/-- Everything is printed if every text can be printed. -/
theorem fault_printed_eq_none_iff {texts : List String} :
    (printed texts).fault = none ↔ ∀ s ∈ texts, Text.isUnicode (plain s) := by
  induction texts with
  | nil => simp [printed]
  | cons s texts ih =>
    rw [List.forall_mem_cons, ← ih, ← Text.succeeds_encode_iff, printed]
    cases Text.encode (plain s) <;> simp

theorem printed_singleton_of_encode {s shown : String} (h : Text.encode (plain s) = .ok shown) :
    printed [s] = ⟨shown, [], none⟩ := by
  rw [printed, h]
  simp [printed]

theorem printed_singleton_of_unencodable? {s : String} {fault : Text.Unencodable}
    (h : Text.unencodable? (plain s) = some fault) :
    printed [s] = ⟨"", [], some (.unencodable fault)⟩ := by
  rw [printed, Text.encode_eq_error_iff.mpr h]

end CommandLine
end ComposeNix
