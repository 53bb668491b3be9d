import ComposeNix.Proofs.Yaml.Denotation
import ComposeNix.Proofs.Yaml.Resolution
import ComposeNix.Proofs.Yaml.Word

/-!
# Numbers of JSON in the core schema

The numbers of JSON are numbers of the core schema (`float_of_number`).  Those without fraction and
exponent are integers of it (`integer_of_integer`), and no others are (`notMem_integer`), because a
point or an exponent is nothing that stands in an integer.  A text that is such a number denotes an
integer or a number accordingly (`load_integer`, `load_number`).
-/

namespace ComposeNix.Yaml

namespace Json

open ComposeNix.Yaml.Core (Decimal words run)

/-! ## The grammar -/

/-- The texts of one character. -/
def letter (kind : Char → Prop) : Language Char := {cs | ∃ c, kind c ∧ cs = [c]}

/-- The digits that can stand in front of others. -/
def Leading (c : Char) : Prop := '1' ≤ c ∧ c ≤ '9'

/-- A zero, or digits that do not begin with one. -/
def whole : Language Char := words ["0"] + letter Leading * (1 + run Decimal)

def fraction : Language Char := words ["."] * run Decimal

def integer : Language Char := words ["", "-"] * whole

def number : Language Char := words ["", "-"] * (whole * ((1 + fraction) * (1 + Core.exponent)))

variable {cs : List Char}

/-! ## Its numbers in the core schema -/

theorem run_of_whole (h : cs ∈ whole) : cs ∈ run Decimal := by
  rcases h with ⟨w, hw, rfl⟩ | ⟨_, ⟨c, hc, rfl⟩, ds, hds, rfl⟩
  · obtain rfl := List.mem_singleton.mp hw
    exact ⟨by decide, List.forall_mem_singleton.mpr (by decide)⟩
  · refine ⟨List.cons_ne_nil c ds, List.forall_mem_cons.mpr ⟨?_, ?_⟩⟩
    · exact ⟨Char.le_trans (by decide) hc.1, hc.2⟩
    · rcases hds with rfl | ⟨-, hds⟩
      · exact fun d hd => nomatch hd
      · exact hds

/-- A number of JSON: its sign, its digits in front of a point and behind it, and its exponent. -/
theorem number_cases (h : cs ∈ number) : ∃ w ∈ ["", "-"], ∃ ds ∈ run Decimal, ∃ f ∈ 1 + fraction,
    ∃ e ∈ 1 + Core.exponent, cs = w.toList ++ (ds ++ (f ++ e)) ∧ w.toList ++ ds ∈ integer := by
  obtain ⟨_, ⟨w, hw, rfl⟩, _, ⟨ds, hds, _, ⟨f, hf, e, he, rfl⟩, rfl⟩, rfl⟩ := h
  exact ⟨w, hw, ds, run_of_whole hds, f, hf, e, he, rfl, w.toList, ⟨w, hw, rfl⟩, ds, hds, rfl⟩

theorem integer_of_integer (h : cs ∈ integer) : cs ∈ Core.integer := by
  obtain ⟨_, ⟨w, hw, rfl⟩, ds, hds, rfl⟩ := h
  refine Or.inl (Or.inl ⟨w.toList, ⟨w, ?_, rfl⟩, ds, run_of_whole hds, rfl⟩)
  have hsub : ["", "-"] ⊆ ["", "+", "-"] := by decide
  exact hsub hw

theorem float_of_number (h : cs ∈ number) : cs ∈ Core.float := by
  obtain ⟨w, hw, ds, hds, f, hf, e, he, rfl, -⟩ := number_cases h
  have hsub : ["", "-"] ⊆ ["", "+", "-"] := by decide
  have hmantissa : ds ++ f ∈ Core.mantissa := by
    refine Or.inr ⟨ds, hds, f, ?_, rfl⟩
    rcases hf with rfl | ⟨p, hp, fs, hfs, rfl⟩
    · exact Or.inl rfl
    · exact Or.inr ⟨p, hp, fs, Or.inr hfs, rfl⟩
  refine Or.inl (Or.inl ⟨w.toList, ⟨w, hsub hw, rfl⟩, ds ++ (f ++ e), ?_, rfl⟩)
  exact ⟨ds ++ f, hmantissa, e, he, List.append_assoc ds f e⟩

/-! ## What stands in a number -/

/-- A character of a number. -/
def Figure (c : Char) : Prop :=
  Decimal c ∨ c = '+' ∨ c = '-' ∨ c = '.' ∨ c = 'e' ∨ c = 'E'

instance (c : Char) : Decidable (Figure c) := inferInstanceAs (Decidable (_ ∨ _))

theorem toNat_lt_of_figure {c : Char} (h : Figure c) : c.toNat < 0x80 := by
  rcases h with h | rfl | rfl | rfl | rfl | rfl
  · exact Core.toNat_lt_of_hexadecimal (Core.hexadecimal_of_decimal h)
  all_goals decide

theorem figures_of_fraction (h : cs ∈ 1 + fraction) : ∀ c ∈ cs, Figure c := by
  rcases h with rfl | ⟨_, ⟨w, hw, rfl⟩, ds, hds, rfl⟩
  · exact fun c hc => nomatch hc
  · obtain rfl := List.mem_singleton.mp hw
    exact List.forall_mem_cons.mpr ⟨by decide, fun c hc => Or.inl (hds.2 c hc)⟩

theorem figures_of_exponent (h : cs ∈ 1 + Core.exponent) : ∀ c ∈ cs, Figure c := by
  obtain rfl | ⟨e, rest, rfl, he, -, -, hrest⟩ :=
    Core.exponent_cases (Core.isExponent_iff.mpr h)
  · exact fun c hc => nomatch hc
  · refine List.forall_mem_cons.mpr ⟨?_, fun c hc => ?_⟩
    · rcases he with rfl | rfl <;> decide
    · rcases hrest c hc with rfl | rfl | hdigit
      · decide
      · decide
      · exact Or.inl hdigit

theorem figures_of_number (h : cs ∈ number) : ∀ c ∈ cs, Figure c := by
  obtain ⟨w, hw, ds, hds, f, hf, e, he, rfl, -⟩ := number_cases h
  have hsign : ∀ c ∈ w.toList, Figure c := by
    simp only [List.mem_cons, List.not_mem_nil, or_false] at hw
    rcases hw with rfl | rfl
    · exact fun c hc => nomatch hc
    · exact List.forall_mem_singleton.mpr (by decide)
  refine List.forall_mem_append.mpr ⟨hsign, List.forall_mem_append.mpr ⟨?_, ?_⟩⟩
  · exact fun c hc => Or.inl (hds.2 c hc)
  · exact List.forall_mem_append.mpr ⟨figures_of_fraction hf, figures_of_exponent he⟩

/-- A number begins with a digit, or with a hyphen and a digit behind it. -/
theorem begin_of_number (h : cs ∈ number) : ∃ d, Decimal d
    ∧ ((∃ rest, cs = d :: rest) ∨ ∃ rest, cs = '-' :: d :: rest) := by
  obtain ⟨w, hw, ds, ⟨hne, hds⟩, f, hf, e, he, rfl, -⟩ := number_cases h
  obtain ⟨d, ds, rfl⟩ := List.exists_cons_of_ne_nil hne
  refine ⟨d, hds d List.mem_cons_self, ?_⟩
  simp only [List.mem_cons, List.not_mem_nil, or_false] at hw
  rcases hw with rfl | rfl
  · exact Or.inl ⟨_, rfl⟩
  · exact Or.inr ⟨_, rfl⟩

/-- An integer of the core schema is made of signs and digits, or has a mark of its base. -/
theorem integer_cases (h : cs ∈ Core.integer) :
    (∀ c ∈ cs, c = '-' ∨ c = '+' ∨ Decimal c) ∨ 'o' ∈ cs ∨ 'x' ∈ cs := by
  rcases h with (h | h) | h
  · have hds := (Core.mem_sign_mul_iff Core.unsigned_run_decimal).mp h
    rw [Core.unsigned_eq] at hds
    exact Or.inl fun c hc => (Core.mem_of_splitSign rfl hc).imp_right (Or.imp_right (hds.2 c))
  · obtain ⟨_, ⟨w, hw, rfl⟩, ds, -, rfl⟩ := h
    obtain rfl := List.mem_singleton.mp hw
    exact Or.inr (Or.inl (List.mem_cons_of_mem '0' List.mem_cons_self))
  · obtain ⟨_, ⟨w, hw, rfl⟩, ds, -, rfl⟩ := h
    obtain rfl := List.mem_singleton.mp hw
    exact Or.inr (Or.inr (List.mem_cons_of_mem '0' List.mem_cons_self))

/-- A number with a fraction or an exponent is no integer of the core schema. -/
theorem notMem_integer (h : cs ∈ number) (hint : cs ∉ integer) : cs ∉ Core.integer := by
  intro hcore
  have hfigures := figures_of_number h
  obtain ⟨w, hw, ds, hds, f, hf, e, he, rfl, hinteger⟩ := number_cases h
  -- a point or the letter of an exponent stands behind the digits
  have hpoint : ∃ c ∈ f ++ e, c = '.' ∨ c = 'e' ∨ c = 'E' := by
    rcases hf with rfl | ⟨_, ⟨v, hv, rfl⟩, fs, -, rfl⟩
    · obtain rfl | ⟨c, rest, rfl, hc, -⟩ := Core.exponent_cases (Core.isExponent_iff.mpr he)
      · rw [List.append_nil, List.append_nil] at hint
        exact absurd hinteger hint
      · exact ⟨c, List.mem_cons_self, Or.inr hc⟩
    · obtain rfl := List.mem_singleton.mp hv
      exact ⟨'.', List.mem_cons_self, Or.inl rfl⟩
  obtain ⟨c, hc, hkind⟩ := hpoint
  rcases integer_cases hcore with hall | ho | hx
  · have hc' := hall c (List.mem_append_right _ (List.mem_append_right _ hc))
    rcases hkind with rfl | rfl | rfl <;> exact absurd hc' (by decide)
  · exact absurd (hfigures 'o' ho) (by decide)
  · exact absurd (hfigures 'x' hx) (by decide)

/-! ## Texts of one number -/

theorem inWord_of_figure {c : Char} (h : Figure c) : InWord c := by
  have hkinds : isAllowed c = true ∧ isGap (some c) = false ∧ c ≠ ':' ∧ c ≠ '\uFEFF' := by
    have hlt := toNat_lt_of_figure h
    revert h
    exact Text.forall_ascii hlt (by decide)
  exact ⟨hkinds.1, hkinds.2.1, hkinds.2.2.1, hkinds.2.2.2⟩

/-- A digit starts a plain scalar, and so does a hyphen in front of one. -/
theorem startsPlain_of_decimal {d : Char} (h : Decimal d) (following : Option Char) :
    Lexer.startsPlain false d following = true ∧ Lexer.startsPlain false '-' (some d) = true := by
  have hgap := (inWord_of_figure (Or.inl h)).gap
  have hindicators : "-?:".toList.contains d = false
      ∧ ("," ++ "[]\x7b\x7d#&*!|>'\"%@`").toList.contains d = false := by
    have hlt := toNat_lt_of_figure (Or.inl h)
    revert h
    exact Text.forall_ascii hlt (by decide)
  constructor
  · rw [Lexer.startsPlain, hgap, hindicators.1, hindicators.2]
    rfl
  · rw [Lexer.startsPlain, hgap]
    rfl

theorem isWord_of_number (h : cs ∈ number) : IsWord cs := by
  have hinside : ∀ c ∈ cs, InWord c := fun c hc => inWord_of_figure (figures_of_number h c hc)
  obtain ⟨d, hd, ⟨rest, rfl⟩ | ⟨rest, rfl⟩⟩ := begin_of_number h
  · refine ⟨⟨d, rest, rfl, (startsPlain_of_decimal hd rest.head?).1⟩, hinside, ?_, ?_⟩
    · rintro heq
      obtain rfl := (List.cons.inj heq).1
      exact absurd hd (by decide)
    · rintro heq
      obtain rfl := (List.cons.inj heq).1
      exact absurd hd (by decide)
  · refine ⟨⟨'-', d :: rest, rfl, (startsPlain_of_decimal hd none).2⟩, hinside, ?_, ?_⟩
    · rintro heq
      obtain rfl := (List.cons.inj (List.cons.inj heq).2).1
      exact absurd hd (by decide)
    · rintro heq
      exact absurd (List.cons.inj heq).1 (by decide)

/-- A text that is a number denotes what is made of it under the tag of the core schema. -/
theorem load_of_number (h : cs ∈ number) :
    load cs = Scalar.value (Core.tag cs) (String.ofList cs) .origin := by
  have hfigure : ∀ c ∈ cs, c ≠ '\n' ∧ c ≠ '!' ∧ c ≠ '&' ∧ c ≠ '*' := by
    intro c hc
    have hc := figures_of_number h c hc
    refine ⟨?_, ?_, ?_, ?_⟩ <;> rintro rfl <;> exact absurd hc (by decide)
  have hresolve : Schema.resolve (String.ofList cs) = Core.tag (String.ofList cs).toList := by
    refine resolve_eq_tag ?_ ?_
    · rw [String.toList_ofList]
      exact fun hlast => (hfigure '\n' (List.mem_of_getLast? hlast)).1 rfl
    · rw [String.toList_ofList]
      exact fun c hc => (hfigure c (List.mem_of_head? hc)).2
  rw [load_word (isWord_of_number h), hresolve, String.toList_ofList]

theorem number_of_integer (h : cs ∈ integer) : cs ∈ number := by
  obtain ⟨s, hs, ds, hds, rfl⟩ := h
  refine ⟨s, hs, ds, ⟨ds, hds, [], ⟨[], Or.inl rfl, [], Or.inl rfl, rfl⟩, List.append_nil ds⟩, rfl⟩

/-- An integer is read as the one that it writes, unless it is too long. -/
theorem load_integer (h : cs ∈ integer) {n : Int} (hn : Core.Denotes cs n)
    (hlong : cs ∉ Core.long) : load cs = .ok (.int n) := by
  rw [load_of_number (number_of_integer h), Core.tag_of_integer (integer_of_integer h)]
  rw [← String.toList_ofList (l := cs)] at hn hlong
  exact Core.int_of_denotes hn hlong

/-- Every other number is read as a number. -/
theorem load_number (h : cs ∈ number) (hint : cs ∉ integer) : ∃ x, load cs = .ok (.float x) := by
  have hcore := float_of_number h
  rw [load_of_number h, Core.tag_of_float hcore (notMem_integer h hint)]
  rw [← String.toList_ofList (l := cs)] at hcore
  exact Core.exists_float hcore

theorem load_literals : load "true".toList = .ok (.bool true)
    ∧ load "false".toList = .ok (.bool false) ∧ load "null".toList = .ok .null :=
  ⟨rfl, rfl, rfl⟩

end Json

end ComposeNix.Yaml
