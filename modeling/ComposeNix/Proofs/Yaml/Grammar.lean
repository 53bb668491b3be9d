import ComposeNix.Yaml.Schema
import Mathlib.Computability.Language
import Mathlib.Data.List.TakeWhile

/-!
# The core schema as languages

Which texts are null, truth values, integers and numbers is said here by languages, put together
from words and runs of digits as the core schema puts them together.  Nothing is said about how a
text is looked at.  A text has the first tag whose language it is in (`tag`).

The grammars that texts are held against take just these languages, each of them for itself
(`any_words_iff`, `isInt_iff`, `isFloat_iff`).
-/

namespace ComposeNix.Yaml.Core

/-! ## Languages -/

/-- The texts that are one of some words. -/
def words (ws : List String) : Language Char := {cs | ∃ w ∈ ws, w.toList = cs}

/-- The texts of at least one character, all of one kind. -/
def run (kind : Char → Prop) : Language Char := {cs | cs ≠ [] ∧ ∀ c ∈ cs, kind c}

/-- The decimal digits. -/
def Decimal (c : Char) : Prop := '0' ≤ c ∧ c ≤ '9'

/-- The octal digits. -/
def Octal (c : Char) : Prop := '0' ≤ c ∧ c ≤ '7'

/-- The hexadecimal digits. -/
def Hexadecimal (c : Char) : Prop := Decimal c ∨ ('a' ≤ c ∧ c ≤ 'f') ∨ ('A' ≤ c ∧ c ≤ 'F')

/-- A sign, or none. -/
def sign : Language Char := words ["", "+", "-"]

def null : Language Char := words ["", "~", "null", "Null", "NULL"]

def boolean : Language Char := words ["true", "True", "TRUE", "false", "False", "FALSE"]

def integer : Language Char :=
  sign * run Decimal + words ["0o"] * run Octal + words ["0x"] * run Hexadecimal

def exponent : Language Char := words ["e", "E"] * (sign * run Decimal)

/-- Digits around a point, on one side of it at least, or without a point. -/
def mantissa : Language Char :=
  words ["."] * run Decimal + run Decimal * (1 + words ["."] * (1 + run Decimal))

def float : Language Char :=
  sign * (mantissa * (1 + exponent)) + sign * words [".inf", ".Inf", ".INF"]
    + words [".nan", ".NaN", ".NAN"]

/-! ## What the grammars take -/

open Schema

variable {cs : List Char}

theorem any_words_iff {ws : List String} :
    (ws.any fun w => w.toList == cs) = true ↔ cs ∈ words ws := by
  simp only [List.any_eq_true, beq_iff_eq]
  rfl

theorem isRun_iff {digit : Char → Bool} {kind : Char → Prop} (h : ∀ c, digit c = true ↔ kind c) :
    isRun digit cs = true ↔ cs ∈ run kind := by
  rw [isRun, Bool.and_eq_true, Bool.not_eq_true', List.isEmpty_eq_false_iff, List.all_eq_true]
  exact and_congr_right' (forall₂_congr fun c _ => h c)

theorem isDigit_iff (c : Char) : isDigit c = true ↔ Decimal c := by
  rw [isDigit, Bool.and_eq_true, decide_eq_true_iff, decide_eq_true_iff, Decimal]

theorem isOctal_iff (c : Char) : isOctal c = true ↔ Octal c := by
  rw [isOctal, Bool.and_eq_true, decide_eq_true_iff, decide_eq_true_iff, Octal]

theorem isHex_iff (c : Char) : isHex c = true ↔ Hexadecimal c := by
  rw [isHex, Bool.or_eq_true, Bool.or_eq_true, Bool.and_eq_true, Bool.and_eq_true, isDigit_iff,
    Hexadecimal, or_assoc]
  simp only [decide_eq_true_iff]

/-- A language none of whose texts begins with a sign. -/
def Unsigned (l : Language Char) : Prop := ∀ cs ∈ l, cs.head? ≠ some '+' ∧ cs.head? ≠ some '-'

/-- A text without its sign. -/
theorem mem_sign_mul_iff {l : Language Char} (hl : Unsigned l) :
    cs ∈ sign * l ↔ unsigned cs ∈ l := by
  rw [Language.mem_mul]
  constructor
  · rintro ⟨s, ⟨w, hw, rfl⟩, ds, hds, rfl⟩
    simp only [List.mem_cons, List.not_mem_nil, or_false] at hw
    obtain ⟨hplus, hminus⟩ := hl ds hds
    rcases hw with rfl | rfl | rfl
    · rw [String.toList_empty, List.nil_append, unsigned.eq_3]
      · exact hds
      · rintro cs rfl
        exact hplus rfl
      · rintro cs rfl
        exact hminus rfl
    · exact hds
    · exact hds
  · intro h
    rw [unsigned.eq_def] at h
    split at h
    · exact ⟨['+'], ⟨"+", by simp, rfl⟩, _, h, rfl⟩
    · exact ⟨['-'], ⟨"-", by simp, rfl⟩, _, h, rfl⟩
    · exact ⟨[], ⟨"", by simp, rfl⟩, _, h, rfl⟩

/-- A text behind a word. -/
theorem mem_word_mul_iff {w : String} {l : Language Char} :
    cs ∈ words [w] * l ↔ cs.take w.toList.length = w.toList ∧ cs.drop w.toList.length ∈ l := by
  rw [Language.mem_mul]
  constructor
  · rintro ⟨_, ⟨v, hv, rfl⟩, ds, hds, rfl⟩
    obtain rfl := List.mem_singleton.mp hv
    exact ⟨List.take_left, by rwa [List.drop_left]⟩
  · rintro ⟨htake, hdrop⟩
    refine ⟨w.toList, ⟨w, List.mem_singleton_self w, rfl⟩, _, hdrop, ?_⟩
    exact (congrArg (· ++ _) htake.symm).trans (List.take_append_drop _ cs)

theorem unsigned_run_decimal : Unsigned (run Decimal) := by
  rintro cs ⟨hne, hall⟩
  obtain ⟨c, cs, rfl⟩ := List.exists_cons_of_ne_nil hne
  have hc := hall c List.mem_cons_self
  constructor
  · rintro heq
    obtain rfl := Option.some.inj heq
    exact absurd hc.1 (by decide)
  · rintro heq
    obtain rfl := Option.some.inj heq
    exact absurd hc.1 (by decide)

/-- Digits behind a sign. -/
theorem isRun_unsigned_iff : isRun isDigit (unsigned cs) = true ↔ cs ∈ sign * run Decimal := by
  rw [mem_sign_mul_iff unsigned_run_decimal, isRun_iff isDigit_iff]

theorem isInt_iff : isInt cs = true ↔ cs ∈ integer := by
  rw [isInt, Bool.or_eq_true, Bool.or_eq_true, Bool.and_eq_true, Bool.and_eq_true,
    isRun_unsigned_iff, beq_iff_eq, beq_iff_eq, isRun_iff isOctal_iff, isRun_iff isHex_iff,
    integer, Language.mem_add, Language.mem_add, mem_word_mul_iff, mem_word_mul_iff]
  rfl

/-! ### Numbers -/

theorem isExponent_iff : isExponent cs = true ↔ cs ∈ 1 + exponent := by
  rw [Language.mem_add, Language.mem_one]
  cases cs with
  | nil => exact iff_of_true rfl (Or.inl rfl)
  | cons e cs =>
    rw [isExponent, Bool.and_eq_true, Bool.or_eq_true, beq_iff_eq, beq_iff_eq, isRun_unsigned_iff,
      or_iff_right (List.cons_ne_nil e cs), exponent, Language.mem_mul]
    constructor
    · rintro ⟨rfl | rfl, hcs⟩
      · exact ⟨['e'], ⟨"e", by simp, rfl⟩, cs, hcs, rfl⟩
      · exact ⟨['E'], ⟨"E", by simp, rfl⟩, cs, hcs, rfl⟩
    · rintro ⟨_, ⟨w, hw, rfl⟩, ds, hds, heq⟩
      simp only [List.mem_cons, List.not_mem_nil, or_false] at hw
      rcases hw with rfl | rfl
      · obtain ⟨rfl, rfl⟩ := List.cons.inj heq
        exact ⟨Or.inl rfl, hds⟩
      · obtain ⟨rfl, rfl⟩ := List.cons.inj heq
        exact ⟨Or.inr rfl, hds⟩

/-- Digits are split off in front of what does not begin with one. -/
theorem split_digits {ds rest : List Char} (hds : ∀ c ∈ ds, isDigit c = true)
    (hrest : ∀ c ∈ rest.head?, isDigit c = false) :
    (ds ++ rest).takeWhile isDigit = ds ∧ (ds ++ rest).dropWhile isDigit = rest := by
  rw [List.takeWhile_append_of_pos hds, List.dropWhile_append_of_pos hds]
  cases rest with
  | nil => simp
  | cons c rest =>
    have hc := hrest c rfl
    rw [List.takeWhile_cons_of_neg (by simp [hc]), List.dropWhile_cons_of_neg (by simp [hc])]
    simp

theorem isDigit_head?_of_isExponent (h : isExponent cs = true) :
    ∀ c ∈ cs.head?, isDigit c = false := by
  cases cs with
  | nil => exact fun c hc => nomatch hc
  | cons e cs =>
    rw [isExponent, Bool.and_eq_true, Bool.or_eq_true, beq_iff_eq, beq_iff_eq] at h
    rintro c hc
    obtain rfl := Option.some.inj hc
    rcases h.1 with rfl | rfl <;> decide

/-- A number without sign: its digits in front of a point and behind it, and its exponent. -/
inductive Parts : List Char → Prop
  | pointed {whole fraction tail : List Char} (hwhole : ∀ c ∈ whole, isDigit c = true)
    (hfraction : ∀ c ∈ fraction, isDigit c = true) (hne : whole ≠ [] ∨ fraction ≠ [])
    (htail : isExponent tail = true) : Parts (whole ++ '.' :: (fraction ++ tail))
  | pointless {whole tail : List Char} (hwhole : ∀ c ∈ whole, isDigit c = true) (hne : whole ≠ [])
    (htail : isExponent tail = true) : Parts (whole ++ tail)

theorem isDecimal_iff_parts : isDecimal cs = true ↔ Parts cs := by
  constructor
  · intro h
    have hall : ∀ {xs : List Char}, ∀ c ∈ xs.takeWhile isDigit, isDigit c = true := fun c hc =>
      List.mem_takeWhile_imp hc
    have hsplit := List.takeWhile_append_dropWhile (p := isDigit) (l := cs)
    rw [isDecimal] at h
    split at h
    · rename_i rest hrest
      rw [Bool.and_eq_true, Bool.or_eq_true, Bool.not_eq_true', Bool.not_eq_true',
        List.isEmpty_eq_false_iff, List.isEmpty_eq_false_iff] at h
      rw [← hsplit, hrest, ← List.takeWhile_append_dropWhile (p := isDigit) (l := rest)]
      exact .pointed hall hall h.1 h.2
    · rw [Bool.and_eq_true, Bool.not_eq_true', List.isEmpty_eq_false_iff] at h
      rw [← hsplit]
      exact .pointless hall h.1 h.2
  · rintro (⟨hwhole, hfraction, hne, htail⟩ | ⟨hwhole, hne, htail⟩)
    · rename_i whole fraction tail
      have hpoint : ∀ c ∈ ('.' :: (fraction ++ tail)).head?, isDigit c = false := by
        intro c hc
        obtain rfl := Option.some.inj hc
        decide
      obtain ⟨htake, hdrop⟩ := split_digits hwhole hpoint
      obtain ⟨htake', hdrop'⟩ := split_digits hfraction (isDigit_head?_of_isExponent htail)
      rw [isDecimal, hdrop]
      simp only [htake, htake', hdrop', htail]
      simpa [List.isEmpty_iff] using hne
    · rename_i whole tail
      obtain ⟨htake, hdrop⟩ := split_digits hwhole (isDigit_head?_of_isExponent htail)
      rw [isDecimal, hdrop]
      split
      · exact nomatch htail
      · rw [htake, htail, Bool.and_true, Bool.not_eq_true', List.isEmpty_eq_false_iff]
        exact hne

/-- A number without sign has such parts, and nothing else has. -/
theorem parts_iff : Parts cs ↔ cs ∈ mantissa * (1 + exponent) := by
  have hdigits : ∀ {xs : List Char}, (∀ c ∈ xs, isDigit c = true) ↔ ∀ c ∈ xs, Decimal c :=
    forall₂_congr fun c _ => isDigit_iff c
  have hpoint : ['.'] ∈ words ["."] := ⟨".", by simp, rfl⟩
  rw [Language.mem_mul]
  constructor
  · rintro (⟨hwhole, hfraction, hne, htail⟩ | ⟨hwhole, hne, htail⟩)
    · rename_i whole fraction tail
      rw [hdigits] at hwhole hfraction
      refine ⟨whole ++ '.' :: fraction, ?_, tail, isExponent_iff.mp htail, by simp⟩
      by_cases hempty : whole = []
      · subst hempty
        exact Or.inl ⟨['.'], hpoint, fraction, ⟨hne.resolve_left fun h => h rfl, hfraction⟩, rfl⟩
      · have hoptional : fraction ∈ 1 + run Decimal := by
          by_cases hnil : fraction = []
          · exact Or.inl hnil
          · exact Or.inr ⟨hnil, hfraction⟩
        exact Or.inr ⟨whole, ⟨hempty, hwhole⟩, '.' :: fraction,
          Or.inr ⟨['.'], hpoint, fraction, hoptional, rfl⟩, rfl⟩
    · rename_i whole tail
      have hrun : whole ∈ run Decimal := ⟨hne, hdigits.mp hwhole⟩
      refine ⟨whole, Or.inr ⟨whole, hrun, [], Or.inl rfl, List.append_nil _⟩, tail, ?_, rfl⟩
      exact isExponent_iff.mp htail
  · rintro ⟨m, hm, tail, htail, rfl⟩
    rw [← isExponent_iff] at htail
    rcases hm with ⟨_, ⟨w, hw, rfl⟩, fraction, ⟨hne, hfraction⟩, rfl⟩ |
      ⟨whole, ⟨hne, hwhole⟩, rest, hrest, rfl⟩
    · obtain rfl := List.mem_singleton.mp hw
      have hnone : ∀ c ∈ ([] : List Char), isDigit c = true := fun c hc => nomatch hc
      exact .pointed hnone (hdigits.mpr hfraction) (Or.inr hne) htail
    · rcases hrest with rfl | ⟨_, ⟨w, hw, rfl⟩, fraction, hfraction, rfl⟩
      · simpa using Parts.pointless (hdigits.mpr hwhole) hne htail
      · obtain rfl := List.mem_singleton.mp hw
        have hall : ∀ c ∈ fraction, Decimal c := by
          rcases hfraction with rfl | ⟨-, hall⟩
          · exact fun c hc => nomatch hc
          · exact hall
        simpa using Parts.pointed (hdigits.mpr hwhole) (hdigits.mpr hall) (Or.inl hne) htail

theorem isDecimal_iff : isDecimal cs = true ↔ cs ∈ mantissa * (1 + exponent) :=
  isDecimal_iff_parts.trans parts_iff

/-- A number without sign begins with a digit or a point. -/
theorem head?_of_parts (h : Parts cs) :
    ∃ c, cs.head? = some c ∧ (isDigit c = true ∨ c = '.') := by
  obtain ⟨hwhole, -, -, -⟩ | ⟨hwhole, hne, -⟩ := h
  · rename_i whole fraction tail
    cases whole with
    | nil => exact ⟨'.', rfl, Or.inr rfl⟩
    | cons c whole => exact ⟨c, rfl, Or.inl (hwhole c List.mem_cons_self)⟩
  · obtain ⟨c, whole, rfl⟩ := List.exists_cons_of_ne_nil hne
    exact ⟨c, rfl, Or.inl (hwhole c List.mem_cons_self)⟩

theorem isFloat_iff : isFloat cs = true ↔ cs ∈ float := by
  have hdecimal : Unsigned (mantissa * (1 + exponent)) := by
    intro cs hcs
    obtain ⟨c, hc, hkind⟩ := head?_of_parts (parts_iff.mpr hcs)
    rw [hc]
    constructor <;> rintro heq <;> obtain rfl := Option.some.inj heq <;>
      exact absurd hkind (by decide)
  have hinfinite : Unsigned (words [".inf", ".Inf", ".INF"]) := by
    rintro _ ⟨w, hw, rfl⟩
    simp only [List.mem_cons, List.not_mem_nil, or_false] at hw
    rcases hw with rfl | rfl | rfl <;> decide
  rw [isFloat, Bool.or_eq_true, Bool.or_eq_true, any_words_iff, any_words_iff, isDecimal_iff,
    ← mem_sign_mul_iff hdecimal, ← mem_sign_mul_iff hinfinite, float, Language.mem_add,
    Language.mem_add]

/-! ## The tag of a text -/

instance : DecidablePred (· ∈ null) := fun cs => decidable_of_iff (isNull cs = true) any_words_iff

instance : DecidablePred (· ∈ boolean) := fun cs =>
  decidable_of_iff (isBool cs = true) any_words_iff

instance : DecidablePred (· ∈ integer) := fun cs => decidable_of_iff (isInt cs = true) isInt_iff

instance : DecidablePred (· ∈ float) := fun cs => decidable_of_iff (isFloat cs = true) isFloat_iff

/-- The core schema tried in full, and then the key that merges. -/
def tag (cs : List Char) : Tag :=
  if cs ∈ null then .null
  else if cs ∈ boolean then .bool
  else if cs ∈ integer then .int
  else if cs ∈ float then .float
  else if cs = "<<".toList then .merge
  else .str

end ComposeNix.Yaml.Core
