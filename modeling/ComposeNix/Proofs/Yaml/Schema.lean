import ComposeNix.Proofs.Outcome
import ComposeNix.Yaml.Grade
import Mathlib.Data.List.Basic

/-!
# What the core schema makes of a plain scalar

The schema gives a text a tag by holding it against grammars, and the reading of that tag is made
for the texts that its grammar takes: a truth value is one of the words for one, and a number has
digits and neither an underscore nor a colon.  So the value of a text under the tag that the
schema gives it fails only in ways that are foreseen (`foreseen_value_resolve`).

The one exception are texts with a line feed at their end, which the grammars overlook and the
readings do not.  No plain scalar ends so.
-/

namespace ComposeNix.Yaml

/-- A computation whose fault is foreseen, if it has one. -/
abbrev Foreseen {α : Type} (good : α → Prop) : Except Fault α → Prop :=
  Ensures (fun fault => fault.grade ≠ .unforeseen) good

namespace Schema

/-! ## Resolution -/

/-- A text that is no plain text is taken by the grammar of the tag that it is given. -/
theorem takes_of_resolve_ne {text : String} (h : resolve text ≠ .str) :
    takes (resolve text) (withoutFinalBreak text.toList) = true := by
  rw [resolve] at h ⊢
  cases hfind : (candidates text.toList.head?).find? fun tag =>
      takes tag (withoutFinalBreak text.toList) with
  | none => simp [hfind] at h
  | some tag =>
    have htakes := List.find?_some hfind
    exact htakes

theorem withoutFinalBreak_of_ne {cs : List Char} (h : cs.getLast? ≠ some '\n') :
    withoutFinalBreak cs = cs := if_neg h

/-- A text that is one of a row of words. -/
theorem exists_word_of_any {words : List String} {text : String}
    (h : (words.any fun w => w.toList == text.toList) = true) : text ∈ words := by
  obtain ⟨w, hw, heq⟩ := List.any_eq_true.mp h
  rwa [← String.toList_injective (beq_iff_eq.mp heq)]

/-! ## Truth values -/

theorem foreseen_bool {text : String} (h : isBool text.toList = true) :
    Foreseen (fun _ => True) (Scalar.bool text) := by
  have hword := exists_word_of_any h
  simp only [List.mem_cons, List.not_mem_nil, or_false] at hword
  rcases hword with rfl | rfl | rfl | rfl | rfl | rfl <;> trivial

/-! ## Numbers -/

/-- A character of ASCII that is neither an underscore nor a colon. -/
def IsSober (c : Char) : Prop := c.toNat < 0x80 ∧ c ≠ '_' ∧ c ≠ ':'

instance (c : Char) : Decidable (IsSober c) := inferInstanceAs (Decidable (_ ∧ _))

theorem isSober_of_isDigit {c : Char} (h : isDigit c = true) : IsSober c := by
  rw [isDigit, Bool.and_eq_true, decide_eq_true_iff, decide_eq_true_iff] at h
  have hle : c.toNat ≤ '9'.toNat := h.2
  have hnine : '9'.toNat = 57 := rfl
  refine ⟨by omega, ?_, ?_⟩
  · rintro rfl
    exact absurd hle (by decide)
  · rintro rfl
    exact absurd hle (by decide)

theorem isSober_of_isRun {cs : List Char} (h : isRun isDigit cs = true) :
    cs ≠ [] ∧ ∀ c ∈ cs, IsSober c := by
  rw [isRun, Bool.and_eq_true, Bool.not_eq_true', List.isEmpty_eq_false_iff] at h
  exact ⟨h.1, fun c hc => isSober_of_isDigit (List.all_eq_true.mp h.2 c hc)⟩

theorem isSober_of_unsigned {cs : List Char}
    (h : unsigned cs ≠ [] ∧ ∀ c ∈ unsigned cs, IsSober c) : cs ≠ [] ∧ ∀ c ∈ cs, IsSober c := by
  rw [unsigned.eq_def] at h
  split at h
  · exact ⟨List.cons_ne_nil _ _, List.forall_mem_cons.mpr ⟨by decide, h.2⟩⟩
  · exact ⟨List.cons_ne_nil _ _, List.forall_mem_cons.mpr ⟨by decide, h.2⟩⟩
  · exact h

theorem isSober_of_isExponent {cs : List Char} (h : isExponent cs = true) :
    ∀ c ∈ cs, IsSober c := by
  cases cs with
  | nil => exact fun c hc => absurd hc List.not_mem_nil
  | cons e cs =>
    rw [isExponent, Bool.and_eq_true, Bool.or_eq_true, beq_iff_eq, beq_iff_eq] at h
    obtain ⟨he, hrun⟩ := h
    refine List.forall_mem_cons.mpr ⟨?_, (isSober_of_unsigned (isSober_of_isRun hrun)).2⟩
    rcases he with rfl | rfl <;> decide

theorem isSober_of_mem_takeWhile {cs : List Char} : ∀ c ∈ cs.takeWhile isDigit, IsSober c :=
  fun c hc => isSober_of_isDigit (List.all_eq_true.mp List.all_takeWhile c hc)

theorem isSober_of_isDecimal {cs : List Char} (h : isDecimal cs = true) :
    cs ≠ [] ∧ ∀ c ∈ cs, IsSober c := by
  have hsplit := List.takeWhile_append_dropWhile (p := isDigit) (l := cs)
  rw [isDecimal] at h
  split at h
  · rename_i rest hrest
    rw [Bool.and_eq_true] at h
    have hfraction := List.takeWhile_append_dropWhile (p := isDigit) (l := rest)
    rw [hrest, ← hfraction] at hsplit
    rw [← hsplit]
    refine ⟨by simp, ?_⟩
    refine List.forall_mem_append.mpr ⟨isSober_of_mem_takeWhile,
      List.forall_mem_cons.mpr ⟨by decide, List.forall_mem_append.mpr ?_⟩⟩
    exact ⟨isSober_of_mem_takeWhile, isSober_of_isExponent h.2⟩
  · rw [Bool.and_eq_true, Bool.not_eq_true', List.isEmpty_eq_false_iff] at h
    rw [← hsplit]
    refine ⟨fun hnil => h.1 (List.append_eq_nil_iff.mp hnil).1, ?_⟩
    exact List.forall_mem_append.mpr ⟨isSober_of_mem_takeWhile, isSober_of_isExponent h.2⟩

/-- A text that is one of a row of words of sober characters. -/
theorem isSober_of_any {words : List String} {cs : List Char}
    (h : (words.any fun w => w.toList == cs) = true)
    (hwords : ∀ w ∈ words, w.toList ≠ [] ∧ w.toList.all (fun c => decide (IsSober c)) = true) :
    cs ≠ [] ∧ ∀ c ∈ cs, IsSober c := by
  obtain ⟨w, hw, heq⟩ := List.any_eq_true.mp h
  obtain ⟨hne, hsober⟩ := hwords w hw
  rw [beq_iff_eq.mp heq] at hne hsober
  exact ⟨hne, fun c hc => of_decide_eq_true (List.all_eq_true.mp hsober c hc)⟩

/-- The texts for numbers have characters, and no underscores or colons among them. -/
theorem isSober_of_isFloat {cs : List Char} (h : isFloat cs = true) :
    cs ≠ [] ∧ ∀ c ∈ cs, IsSober c := by
  rw [isFloat, Bool.or_eq_true, Bool.or_eq_true] at h
  rcases h with (h | h) | h
  · exact isSober_of_unsigned (isSober_of_isDecimal h)
  · exact isSober_of_unsigned (isSober_of_any h (by decide))
  · exact isSober_of_any h (by decide)

theorem toLower_ne_colon {c : Char} (h : c ≠ ':') : c.toLower ≠ ':' := by
  intro heq
  by_cases hcapital : c.val ≥ 'A'.val ∧ c.val ≤ 'Z'.val
  · have hsmall : c.toLower.val = c.val + ('a'.val - 'A'.val) :=
      congrArg Char.val (dif_pos hcapital)
    have hlow : 65 ≤ c.val.toNat := hcapital.1
    have hhigh : c.val.toNat ≤ 90 := hcapital.2
    rw [heq] at hsmall
    have hval : 58 = (c.val.toNat + 32) % 2 ^ 32 := congrArg (fun v => v.toNat) hsmall
    omega
  · exact h ((dif_neg hcapital).symm.trans heq)

/-- A number in small letters without underscores, as it is read: it has characters, and no colon
among them. -/
theorem body_of_isFloat {cs : List Char} (h : isFloat cs = true) :
    Text.toLower (cs.filter (· != '_')) ≠ [] ∧ ':' ∉ Text.toLower (cs.filter (· != '_')) := by
  obtain ⟨hne, hsober⟩ := isSober_of_isFloat h
  have hlower : ∀ c ∈ cs, Text.lowerCase c = [c.toLower] := fun c hc =>
    if_pos (hsober c hc).1
  constructor
  · obtain ⟨c, cs, rfl⟩ := List.exists_cons_of_ne_nil hne
    have hc : (c != '_') = true := bne_iff_ne.mpr (hsober c List.mem_cons_self).2.1
    rw [List.filter_cons_of_pos (p := (· != '_')) hc, Text.toLower, List.flatMap_cons,
      hlower c List.mem_cons_self]
    exact List.cons_ne_nil _ _
  · intro hmem
    obtain ⟨c, hc, hcolon⟩ := List.mem_flatMap.mp hmem
    have hcs : c ∈ cs := (List.mem_filter.mp hc).1
    rw [hlower c hcs, List.mem_singleton] at hcolon
    exact toLower_ne_colon (hsober c hcs).2.2 hcolon.symm

/-- Behind its sign a text has no colon that it has not with it. -/
theorem contains_drop_sign {cs : List Char} (h : ':' ∉ cs) :
    (if (cs.head? == some '-' || cs.head? == some '+') = true then cs.drop 1
      else cs).contains ':' = false := by
  rw [Bool.eq_false_iff]
  intro hmem
  refine h ?_
  split at hmem
  · exact List.mem_of_mem_drop (List.contains_iff_mem.mp hmem)
  · exact List.contains_iff_mem.mp hmem

theorem foreseen_number {α : Type} {x : Except NumberFault α} :
    Foreseen (fun _ => True) (x.mapError Fault.number) :=
  (Ensures.any x).mapError fun _ _ h => nomatch h

theorem foreseen_float {text : String} (h : isFloat text.toList = true) :
    Foreseen (fun _ => True) (Scalar.float text) := by
  obtain ⟨hne, hcolon⟩ := body_of_isFloat h
  rw [Scalar.float]
  generalize Text.toLower (text.toList.filter (· != '_')) = cs at hne hcolon
  have hbody := contains_drop_sign hcolon
  simp only [List.isEmpty_eq_false_iff.mpr hne]
  generalize (if (cs.head? == some '-' || cs.head? == some '+') = true then cs.drop 1
    else cs) = body at hbody ⊢
  rw [if_neg Bool.false_ne_true, hbody, if_neg Bool.false_ne_true]
  by_cases hinf : body = ".inf".toList
  · rw [if_pos hinf]
    trivial
  · by_cases hnan : body = ".nan".toList
    · rw [if_neg hinf, if_pos hnan]
      trivial
    · rw [if_neg hinf, if_neg hnan]
      exact Ensures.bind (P := fun _ => True) foreseen_number fun _ _ => trivial

/-- The value of a text under the tag that the schema gives it fails only as foreseen. -/
theorem foreseen_value_resolve {text : String} (h : text.toList.getLast? ≠ some '\n')
    (place : Mark) : Foreseen (fun _ => True) (Scalar.value (resolve text) text place) := by
  by_cases hstr : resolve text = .str
  · rw [hstr]
    trivial
  · have htakes := takes_of_resolve_ne hstr
    rw [withoutFinalBreak_of_ne h] at htakes
    generalize resolve text = tag at htakes
    cases tag with
    | null => trivial
    | bool => exact foreseen_bool htakes
    | int => exact foreseen_number.map fun _ _ => trivial
    | float => exact foreseen_float htakes
    | merge => exact fun h => nomatch h
    | indicator => exact fun h => nomatch h
    | _ => exact nomatch htakes

end Schema
end ComposeNix.Yaml
