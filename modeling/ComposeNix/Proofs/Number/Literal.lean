import ComposeNix.Number.Literal
import ComposeNix.Proofs.Text.Utf8
import Mathlib.Data.Nat.Digits.Defs

/-!
# Reading plain numerals

A numeral that is not padded, of digits and nothing else, is read as the number that its digits
write (`readInteger_eq`), unless it has too many of them.  A number in decimal notation is always
read (`exists_readFloat`).
-/

namespace ComposeNix

namespace Numeral

variable {base : Nat} {cs : List Char}

/-! ## Padding -/

/-- A character of ASCII that is neither a blank nor a control character. -/
def IsSeen (c : Char) : Prop := 0x20 < c.toNat ∧ c.toNat < 0x7F

instance (c : Char) : Decidable (IsSeen c) := inferInstanceAs (Decidable (_ ∧ _))

theorem isPadding_of_isSeen (h : ∀ c ∈ cs, IsSeen c) {c : Char} (hc : c ∈ cs) :
    isPadding cs c = false := by
  obtain ⟨hlow, -⟩ := h c hc
  have hspace : (c == ' ') = false := by
    rw [beq_eq_false_iff_ne]
    rintro rfl
    exact absurd hlow (by decide)
  have hascii : (cs.any fun d => 0x80 ≤ d.toNat) = false := by
    rw [List.any_eq_false]
    intro d hd
    have hhigh := (h d hd).2
    simp only [decide_eq_true_eq]
    omega
  have hrange : ¬ (0x09 ≤ c.toNat ∧ c.toNat ≤ 0x0D) := by omega
  rw [isPadding, hspace, hascii, Bool.and_false, Bool.or_false, Bool.false_or]
  simpa using hrange

/-- A text of characters that are seen has no padding. -/
theorem unpadded_of_isSeen (h : ∀ c ∈ cs, IsSeen c) : unpadded cs = cs := by
  have hkeep : ∀ ds : List Char, (∀ c ∈ ds, c ∈ cs) → ds.dropWhile (isPadding cs) = ds := by
    intro ds hds
    cases ds with
    | nil => rfl
    | cons c ds =>
      rw [List.dropWhile_cons_of_neg]
      rw [isPadding_of_isSeen h (hds c List.mem_cons_self)]
      exact Bool.false_ne_true
  rw [unpadded, hkeep cs fun c hc => hc, hkeep cs.reverse fun c hc => List.mem_reverse.mp hc,
    List.reverse_reverse]

/-! ## Digits -/

/-- A row of digits is read to its end. -/
theorem digitRun_of_digits {digit : Char → Nat}
    (h : ∀ c ∈ cs, c ≠ '_' ∧ digit? base c = some (digit c)) (after : Bool) :
    digitRun base after cs = some (cs.map digit, []) := by
  induction cs generalizing after with
  | nil => rfl
  | cons c cs ih =>
    obtain ⟨⟨hne, hc⟩, hcs⟩ := List.forall_mem_cons.mp h
    rw [digitRun.eq_def]
    split
    · rename_i heq
      exact absurd heq (List.cons_ne_nil c cs)
    · rename_i heq
      exact absurd (List.cons.inj heq).1 hne
    · rename_i heq
      obtain ⟨rfl, rfl⟩ := List.cons.inj heq
      simp only [hc, ih hcs, Option.map_some, List.map_cons]

/-- The number of a row of digits, the last of which counts ones. -/
theorem value_eq_ofDigits (base : Nat) (ds : List Nat) :
    value base ds = Nat.ofDigits base ds.reverse := by
  rw [value, Nat.ofDigits_eq_foldr, List.foldr_reverse]
  refine congrArg (fun f => ds.foldl f 0) (funext fun n => funext fun d => ?_)
  rw [Nat.cast_id, Nat.mul_comm, Nat.add_comm]

/-! ## Decimal notation -/

/-- Decimal digits are read up to the first character that is none. -/
theorem decimalRun_append {ds rest : List Char} (hds : ∀ c ∈ ds, (decimalDigit? c).isSome = true)
    (hrest : ∀ c ∈ rest.head?, decimalDigit? c = none) :
    (decimalRun (ds ++ rest)).1.length = ds.length ∧ (decimalRun (ds ++ rest)).2 = rest := by
  induction ds with
  | nil =>
    rw [List.nil_append]
    cases rest with
    | nil => exact ⟨rfl, rfl⟩
    | cons c rest =>
      rw [decimalRun, hrest c rfl]
      exact ⟨rfl, rfl⟩
  | cons c ds ih =>
    obtain ⟨hc, hds⟩ := List.forall_mem_cons.mp hds
    obtain ⟨d, hd⟩ := Option.isSome_iff_exists.mp hc
    obtain ⟨hlength, hrest'⟩ := ih hds
    rw [List.cons_append, decimalRun, hd]
    exact ⟨congrArg (· + 1) hlength, hrest'⟩

/-- An exponent is read if there are digits and nothing else behind its sign. -/
theorem isSome_exponent? {e : Char} (he : e = 'e' ∨ e = 'E') (hne : (splitSign cs).2 ≠ [])
    (hdigits : ∀ c ∈ (splitSign cs).2, (decimalDigit? c).isSome = true) :
    (exponent? (e :: cs)).isSome = true := by
  have hend : ∀ c ∈ ([] : List Char).head?, decimalDigit? c = none := fun c hc => nomatch hc
  obtain ⟨hlength, hrest⟩ := decimalRun_append hdigits hend
  rw [List.append_nil] at hlength hrest
  rw [exponent?, if_pos he]
  dsimp only
  generalize decimalRun (splitSign cs).2 = run at hlength hrest
  obtain ⟨ds, rest⟩ := run
  obtain rfl : rest = [] := hrest
  cases ds with
  | nil => exact absurd (List.length_eq_zero_iff.mp hlength.symm) hne
  | cons d ds => rfl

/-- A number with a point is read if there are digits on one side of it at least. -/
theorem isSome_unsigned?_pointed (negative : Bool) {whole fraction tail : List Char}
    (hwhole : ∀ c ∈ whole, (decimalDigit? c).isSome = true)
    (hfraction : ∀ c ∈ fraction, (decimalDigit? c).isSome = true)
    (hne : whole ≠ [] ∨ fraction ≠ []) (htail : ∀ c ∈ tail.head?, decimalDigit? c = none)
    (hexponent : (exponent? tail).isSome = true) :
    (unsigned? negative (whole ++ '.' :: (fraction ++ tail))).isSome = true := by
  have hpoint : ∀ c ∈ ('.' :: (fraction ++ tail)).head?, decimalDigit? c = none := by
    intro c hc
    obtain rfl := Option.some.inj hc
    rfl
  obtain ⟨hlength, hrest⟩ := decimalRun_append hwhole hpoint
  obtain ⟨hlength', hrest'⟩ := decimalRun_append hfraction htail
  rw [unsigned?]
  dsimp only
  split
  · rfl
  · split
    · rfl
    · generalize decimalRun (whole ++ '.' :: (fraction ++ tail)) = run at hlength hrest
      obtain ⟨ds, rest⟩ := run
      obtain rfl : rest = '.' :: (fraction ++ tail) := hrest
      generalize hrun : decimalRun (fraction ++ tail) = run at hlength' hrest'
      obtain ⟨fs, rest⟩ := run
      obtain rfl : rest = tail := hrest'
      simp only [hrun] at hlength hlength' ⊢
      have hdigits : ¬ (ds.isEmpty = true ∧ fs.isEmpty = true) := by
        rw [List.isEmpty_iff_length_eq_zero, List.isEmpty_iff_length_eq_zero, hlength, hlength',
          List.length_eq_zero_iff, List.length_eq_zero_iff, not_and_or]
        exact hne
      rw [if_neg hdigits, Option.isSome_map]
      exact hexponent

theorem isSome_unsigned?_pointless (negative : Bool) {whole tail : List Char}
    (hwhole : ∀ c ∈ whole, (decimalDigit? c).isSome = true) (hne : whole ≠ [])
    (htail : ∀ c ∈ tail.head?, c ≠ '.' ∧ decimalDigit? c = none)
    (hexponent : (exponent? tail).isSome = true) :
    (unsigned? negative (whole ++ tail)).isSome = true := by
  obtain ⟨hlength, hrest⟩ := decimalRun_append hwhole fun c hc => (htail c hc).2
  rw [unsigned?]
  dsimp only
  split
  · rfl
  · split
    · rfl
    · generalize decimalRun (whole ++ tail) = run at hlength hrest
      obtain ⟨ds, rest⟩ := run
      obtain rfl : rest = tail := hrest
      dsimp only at hlength ⊢
      have hdigits : ¬ (ds.isEmpty = true ∧ ([] : List Nat).isEmpty = true) := by
        rw [List.isEmpty_iff_length_eq_zero, hlength, List.length_eq_zero_iff]
        exact fun h => hne h.1
      split
      · exact absurd rfl (htail '.' rfl).1
      · rw [if_neg hdigits, Option.isSome_map]
        exact hexponent

theorem withoutUnderscores_of_notMem (previous : Option Char) (h : '_' ∉ cs) :
    withoutUnderscores previous cs = some cs := by
  induction cs generalizing previous with
  | nil => rw [withoutUnderscores]
  | cons c cs ih =>
    rw [List.mem_cons, not_or] at h
    rw [withoutUnderscores.eq_3 _ _ _ fun heq => h.1 heq.symm, ih (some c) h.2, Option.map_some]

end Numeral

open Numeral in
/-- An integer is read from its sign and its digits, unless it has too many decimal ones. -/
theorem readInteger_eq {base : Nat} {text : String} {negative : Bool} {body ds : List Char}
    {digit : Char → Nat} (hseen : ∀ c ∈ text.toList, IsSeen c)
    (hsign : splitSign text.toList = (negative, body)) (hmark : splitBaseMark base body = ds)
    (hne : ds ≠ []) (hds : ∀ c ∈ ds, c ≠ '_' ∧ digit? base c = some (digit c)) :
    readInteger base text = if base = 10 ∧ digitLimit < ds.length
      then .error (.numeralTooLong ds.length)
      else .ok (if negative then -((Nat.ofDigits base (ds.map digit).reverse : Nat) : Int)
        else ((Nat.ofDigits base (ds.map digit).reverse : Nat) : Int)) := by
  have hrun := digitRun_of_digits hds false
  have hempty : ¬ ((ds.map digit).isEmpty = true ∨ (!([] : List Char).isEmpty) = true) := by
    simpa using hne
  rw [readInteger, unpadded_of_isSeen hseen, hsign]
  dsimp only
  rw [hmark, hrun]
  dsimp only
  rw [if_neg hempty, List.length_map, value_eq_ofDigits]

open Numeral in
/-- A number is read from its sign and the rest. -/
theorem exists_readFloat {text : String} (hseen : ∀ c ∈ text.toList, IsSeen c)
    (hplain : '_' ∉ text.toList)
    (hread : (unsigned? (splitSign text.toList).1 (splitSign text.toList).2).isSome = true) :
    ∃ x, readFloat text = .ok x := by
  obtain ⟨x, hx⟩ := Option.isSome_iff_exists.mp hread
  refine ⟨x, ?_⟩
  rw [readFloat, unpadded_of_isSeen hseen, withoutUnderscores_of_notMem none hplain]
  simp only [Option.bind_eq_bind, Option.bind_some, hx]

end ComposeNix
