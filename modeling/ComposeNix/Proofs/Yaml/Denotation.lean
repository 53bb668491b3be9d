import ComposeNix.Proofs.Number.Literal
import ComposeNix.Proofs.Yaml.Grammar
import ComposeNix.Proofs.Yaml.Schema

/-!
# What scalars of the core schema stand for

An integer stands for the number that its digits write in the base that its beginning shows, with
its sign (`Core.Denotes`).  `int_of_denotes`: this is the value that it is given, unless it has more
decimal digits than are converted (`Core.long`).  Every number has a value (`exists_float`).
-/

namespace ComposeNix.Yaml

namespace Core

/-! ## Integers and what they write -/

instance (c : Char) : Decidable (Decimal c) := inferInstanceAs (Decidable (_ ∧ _))

instance (c : Char) : Decidable (Octal c) := inferInstanceAs (Decidable (_ ∧ _))

instance (c : Char) : Decidable (Hexadecimal c) := inferInstanceAs (Decidable (_ ∨ _))

/-- The value of a digit, letters counting from ten. -/
def digit (c : Char) : Nat :=
  if c ≤ '9' then c.toNat - '0'.toNat
  else if 'a' ≤ c then c.toNat - 'a'.toNat + 10
  else c.toNat - 'A'.toNat + 10

/-- The number that digits write in a base. -/
def number (base : Nat) (ds : List Char) : Nat := Nat.ofDigits base (ds.map digit).reverse

/-- The number that an integer writes. -/
inductive Denotes : List Char → Int → Prop
  | decimal {ds : List Char} (h : ds ∈ run Decimal) : Denotes ds (number 10 ds)
  | positive {ds : List Char} (h : ds ∈ run Decimal) : Denotes ('+' :: ds) (number 10 ds)
  | negative {ds : List Char} (h : ds ∈ run Decimal) : Denotes ('-' :: ds) (-(number 10 ds))
  | octal {ds : List Char} (h : ds ∈ run Octal) : Denotes ('0' :: 'o' :: ds) (number 8 ds)
  | hexadecimal {ds : List Char} (h : ds ∈ run Hexadecimal) :
    Denotes ('0' :: 'x' :: ds) (number 16 ds)

/-- More decimal digits than are converted. -/
def manyDigits : Language Char := {ds | ds ∈ run Decimal ∧ 4300 < ds.length}

/-- The integers of that many digits. -/
def long : Language Char := sign * manyDigits

variable {cs : List Char} {c : Char}

/-- Every integer writes a number. -/
theorem exists_denotes_iff : (∃ n, Denotes cs n) ↔ cs ∈ integer := by
  constructor
  · rintro ⟨n, h⟩
    cases h with
    | decimal h => exact Or.inl (Or.inl ⟨[], ⟨"", by simp, rfl⟩, _, h, rfl⟩)
    | positive h => exact Or.inl (Or.inl ⟨['+'], ⟨"+", by simp, rfl⟩, _, h, rfl⟩)
    | negative h => exact Or.inl (Or.inl ⟨['-'], ⟨"-", by simp, rfl⟩, _, h, rfl⟩)
    | octal h => exact Or.inl (Or.inr ⟨['0', 'o'], ⟨"0o", by simp, rfl⟩, _, h, rfl⟩)
    | hexadecimal h => exact Or.inr ⟨['0', 'x'], ⟨"0x", by simp, rfl⟩, _, h, rfl⟩
  · rintro ((h | h) | h)
    · obtain ⟨_, ⟨w, hw, rfl⟩, ds, hds, rfl⟩ := h
      simp only [List.mem_cons, List.not_mem_nil, or_false] at hw
      rcases hw with rfl | rfl | rfl
      · exact ⟨_, .decimal hds⟩
      · exact ⟨_, .positive hds⟩
      · exact ⟨_, .negative hds⟩
    · obtain ⟨_, ⟨w, hw, rfl⟩, ds, hds, rfl⟩ := h
      obtain rfl := List.mem_singleton.mp hw
      exact ⟨_, .octal hds⟩
    · obtain ⟨_, ⟨w, hw, rfl⟩, ds, hds, rfl⟩ := h
      obtain rfl := List.mem_singleton.mp hw
      exact ⟨_, .hexadecimal hds⟩

theorem unsigned_eq (cs : List Char) : Schema.unsigned cs = (Numeral.splitSign cs).2 := by
  unfold Numeral.splitSign
  split
  · rfl
  · rfl
  · rename_i hminus hplus
    exact Schema.unsigned.eq_3 cs hplus hminus

theorem mem_long_iff : cs ∈ long
    ↔ Schema.unsigned cs ∈ run Decimal ∧ digitLimit < (Schema.unsigned cs).length :=
  mem_sign_mul_iff fun ds hds => unsigned_run_decimal ds hds.1

/-! ## Digits -/

theorem hexadecimal_of_decimal (h : Decimal c) : Hexadecimal c := Or.inl h

theorem decimal_of_octal (h : Octal c) : Decimal c :=  ⟨h.1, Char.le_trans h.2 (by decide)⟩

theorem toNat_lt_of_hexadecimal (h : Hexadecimal c) : c.toNat < 0x80 := by
  rcases h with ⟨-, h⟩ | ⟨-, h⟩ | ⟨-, h⟩
  · exact lt_of_le_of_lt (show c.toNat ≤ '9'.toNat from h) (by decide)
  · exact lt_of_le_of_lt (show c.toNat ≤ 'f'.toNat from h) (by decide)
  · exact lt_of_le_of_lt (show c.toNat ≤ 'F'.toNat from h) (by decide)

/-- A digit is seen, and none of the characters that mean something else in a numeral. -/
theorem seen_of_hexadecimal (h : Hexadecimal c) : Numeral.IsSeen c ∧ c ≠ '_' ∧ c ≠ '-' ∧ c ≠ '+'
    ∧ c ≠ 'o' ∧ c ≠ 'O' ∧ c ≠ 'x' ∧ c ≠ 'X' := by
  have hlt := toNat_lt_of_hexadecimal h
  revert h
  exact Text.forall_ascii hlt (by decide)

theorem digit?_of_hexadecimal (h : Hexadecimal c) : Numeral.digit? 16 c = some (digit c) := by
  have hlt := toNat_lt_of_hexadecimal h
  revert h
  exact Text.forall_ascii hlt (by decide)

/-- A digit that is small enough is one of a smaller base. -/
theorem digit?_of_lt {base : Nat} (h : Hexadecimal c) (hbase : digit c < base) :
    Numeral.digit? base c = some (digit c) := by
  have hsixteen := digit?_of_hexadecimal h
  rw [Numeral.digit?] at hsixteen ⊢
  rw [Option.filter_eq_some_iff] at hsixteen ⊢
  exact ⟨hsixteen.1, decide_eq_true hbase⟩

theorem digit_lt_of_decimal (h : Decimal c) : digit c < 10 := by
  have hnine : c.toNat ≤ '9'.toNat := h.2
  rw [digit, if_pos h.2]
  have hvalues : '9'.toNat = 57 ∧ '0'.toNat = 48 := ⟨rfl, rfl⟩
  omega

theorem digit_lt_of_octal (h : Octal c) : digit c < 8 := by
  have hseven : c.toNat ≤ '7'.toNat := h.2
  rw [digit, if_pos (decimal_of_octal h).2]
  have hvalues : '7'.toNat = 55 ∧ '0'.toNat = 48 := ⟨rfl, rfl⟩
  omega

theorem digit_lt_of_hexadecimal (h : Hexadecimal c) : digit c < 16 := by
  have hfilter := digit?_of_hexadecimal h
  rw [Numeral.digit?, Option.filter_eq_some_iff] at hfilter
  exact of_decide_eq_true hfilter.2

/-! ## Values of integers -/

/-- A text is its sign and what is behind it. -/
theorem mem_of_splitSign {negative : Bool} {ds : List Char}
    (h : Numeral.splitSign cs = (negative, ds)) (hc : c ∈ cs) : c = '-' ∨ c = '+' ∨ c ∈ ds := by
  unfold Numeral.splitSign at h
  split at h
  · obtain ⟨-, rfl⟩ := Prod.mk.inj h
    exact (List.mem_cons.mp hc).imp_right Or.inr
  · obtain ⟨-, rfl⟩ := Prod.mk.inj h
    exact Or.inr (List.mem_cons.mp hc)
  · obtain ⟨-, rfl⟩ := Prod.mk.inj h
    exact Or.inr (Or.inr hc)

/-- What has no sign is left as it is. -/
theorem splitSign_of_hexadecimal {ds : List Char} (h : ∀ c ∈ ds, Hexadecimal c) :
    Numeral.splitSign ds = (false, ds) := by
  unfold Numeral.splitSign
  split
  · exact absurd rfl (seen_of_hexadecimal (h _ List.mem_cons_self)).2.2.1
  · exact absurd rfl (seen_of_hexadecimal (h _ List.mem_cons_self)).2.2.2.1
  · rfl

/-- Digits of a base are read as the number that they write. -/
theorem readInteger_digits (base : Nat) {text : String} {negative : Bool} {ds : List Char}
    (hsign : Numeral.splitSign text.toList = (negative, ds)) (hne : ds ≠ [])
    (hds : ∀ c ∈ ds, Hexadecimal c ∧ digit c < base) :
    readInteger base text = if base = 10 ∧ digitLimit < ds.length
      then .error (.numeralTooLong ds.length)
      else .ok (if negative then -(number base ds : Int) else number base ds) := by
  have hseen : ∀ c ∈ text.toList, Numeral.IsSeen c := by
    intro c hc
    rcases mem_of_splitSign hsign hc with rfl | rfl | hc
    · decide
    · decide
    · exact (seen_of_hexadecimal (hds c hc).1).1
  have hmark : Numeral.splitBaseMark base ds = ds := by
    unfold Numeral.splitBaseMark
    split
    · rename_i m cs
      have hm := (hds m (List.mem_cons_of_mem _ List.mem_cons_self)).1
      obtain ⟨-, -, -, -, ho, hO, hx, hX⟩ := seen_of_hexadecimal hm
      rw [if_neg]
      simp [ho, hO, hx, hX]
    · rfl
  exact readInteger_eq hseen hsign hmark hne fun c hc =>
    ⟨(seen_of_hexadecimal (hds c hc).1).2.1, digit?_of_lt (hds c hc).1 (hds c hc).2⟩

/-- Decimal digits behind a sign. -/
theorem int_of_decimal {text : String} {negative : Bool} {ds : List Char}
    (hsign : Numeral.splitSign text.toList = (negative, ds)) (hds : ds ∈ run Decimal) :
    Scalar.int text = if digitLimit < ds.length
      then .error (.number (.numeralTooLong ds.length))
      else .ok (.int (if negative then -(number 10 ds : Int) else number 10 ds)) := by
  have hmark : ∀ m, m = 'o' ∨ m = 'x' → text.toList.take 2 ≠ ['0', m] := by
    intro m hm htake
    have hmem : m ∈ text.toList := by
      refine List.mem_of_mem_take (i := 2) ?_
      rw [htake]
      exact List.mem_cons_of_mem _ List.mem_cons_self
    rcases mem_of_splitSign hsign hmem with rfl | rfl | hmem
    · exact absurd hm (by decide)
    · exact absurd hm (by decide)
    · obtain ⟨-, -, -, -, ho, -, hx, -⟩ :=
        seen_of_hexadecimal (hexadecimal_of_decimal (hds.2 m hmem))
      exact hm.elim ho hx
  have hread := readInteger_digits 10 hsign hds.1 fun c hc =>
    ⟨hexadecimal_of_decimal (hds.2 c hc), digit_lt_of_decimal (hds.2 c hc)⟩
  simp only [Scalar.int, if_neg (hmark 'o' (Or.inl rfl)), if_neg (hmark 'x' (Or.inr rfl)), hread,
    true_and]
  split <;> rfl

/-- Digits of one of the other bases, behind the mark of the base. -/
theorem readInteger_marked (base : Nat) (hbase : base ≠ 10) {ds : List Char} (hne : ds ≠ [])
    (hds : ∀ c ∈ ds, Hexadecimal c ∧ digit c < base) :
    readInteger base (String.ofList ds) = .ok (number base ds) := by
  have hsign : Numeral.splitSign (String.ofList ds).toList = (false, ds) := by
    rw [String.toList_ofList]
    exact splitSign_of_hexadecimal fun c hc => (hds c hc).1
  rw [readInteger_digits base hsign hne hds, if_neg fun h => hbase h.1]
  rfl

/-- An integer has the number that it writes as its value, unless it has too many digits. -/
theorem int_of_denotes {text : String} {n : Int} (h : Denotes text.toList n)
    (hlong : text.toList ∉ long) : Scalar.int text = .ok (.int n) := by
  have hdecimal : ∀ {negative ds}, Numeral.splitSign text.toList = (negative, ds) →
      ds ∈ run Decimal → Scalar.int text
        = .ok (.int (if negative then -(number 10 ds : Int) else number 10 ds)) := by
    intro negative ds hsign hds
    have hshort : ¬ digitLimit < ds.length := by
      intro hmany
      refine hlong (mem_long_iff.mpr ?_)
      rw [unsigned_eq, hsign]
      exact ⟨hds, hmany⟩
    rw [int_of_decimal hsign hds, if_neg hshort]
  generalize htext : text.toList = cs at h hdecimal
  cases h with
  | decimal hds =>
    have hsign : Numeral.splitSign cs = (false, cs) :=
      splitSign_of_hexadecimal fun c hc => hexadecimal_of_decimal (hds.2 c hc)
    exact hdecimal hsign hds
  | positive hds => exact hdecimal rfl hds
  | negative hds => exact hdecimal rfl hds
  | @octal ds hds =>
    have hread := readInteger_marked 8 (by decide) hds.1 fun c hc =>
      ⟨hexadecimal_of_decimal (decimal_of_octal (hds.2 c hc)), digit_lt_of_octal (hds.2 c hc)⟩
    have htake : ('0' :: 'o' :: ds).take 2 = ['0', 'o'] := rfl
    have hdrop : ('0' :: 'o' :: ds).drop 2 = ds := rfl
    simp only [Scalar.int, htext, if_pos htake, hdrop, hread]
    rfl
  | @hexadecimal ds hds =>
    have hread := readInteger_marked 16 (by decide) hds.1 fun c hc =>
      ⟨hds.2 c hc, digit_lt_of_hexadecimal (hds.2 c hc)⟩
    have htake : ('0' :: 'x' :: ds).take 2 = ['0', 'x'] := rfl
    have hoctal : ('0' :: 'x' :: ds).take 2 ≠ ['0', 'o'] := by simp
    have hdrop : ('0' :: 'x' :: ds).drop 2 = ds := rfl
    simp only [Scalar.int, htext, if_pos htake, if_neg hoctal, hdrop, hread]
    rfl

theorem int_of_long {text : String} (h : text.toList ∈ long) : Scalar.int text
    = .error (.number (.numeralTooLong (Schema.unsigned text.toList).length)) := by
  obtain ⟨hds, hmany⟩ := mem_long_iff.mp h
  rw [unsigned_eq] at hds hmany ⊢
  generalize hsign : Numeral.splitSign text.toList = split at hds hmany ⊢
  obtain ⟨negative, ds⟩ := split
  rw [int_of_decimal hsign hds]
  exact if_pos hmany

/-! ## Values of numbers -/

theorem decimal_of_isDigit (h : Schema.isDigit c = true) : Decimal c := (isDigit_iff c).mp h

/-- A decimal digit is one in every script, and has no case. -/
theorem decimalDigit?_of_decimal (h : Decimal c) :
    (Numeral.decimalDigit? c).isSome = true ∧ c.toLower = c := by
  have hlt := toNat_lt_of_hexadecimal (hexadecimal_of_decimal h)
  revert h
  exact Text.forall_ascii hlt (by decide)

theorem map_toLower_of_digits {ds : List Char} (h : ∀ c ∈ ds, Schema.isDigit c = true) :
    ds.map Char.toLower = ds := by
  refine (List.map_congr_left fun c hc => ?_).trans (List.map_id ds)
  exact (decimalDigit?_of_decimal (decimal_of_isDigit (h c hc))).2

/-- An exponent: its letter, and what is behind it. -/
theorem exponent_cases {tail : List Char} (h : Schema.isExponent tail = true) : tail = []
    ∨ ∃ e cs, tail = e :: cs ∧ (e = 'e' ∨ e = 'E') ∧ (Numeral.splitSign cs).2 ≠ []
      ∧ (∀ c ∈ (Numeral.splitSign cs).2, Decimal c) ∧ ∀ c ∈ cs, c = '-' ∨ c = '+' ∨ Decimal c := by
  cases tail with
  | nil => exact Or.inl rfl
  | cons e cs =>
    rw [Schema.isExponent, Bool.and_eq_true, Bool.or_eq_true, beq_iff_eq, beq_iff_eq,
      isRun_iff isDigit_iff, unsigned_eq] at h
    refine Or.inr ⟨e, cs, rfl, h.1, h.2.1, h.2.2, fun c hc => ?_⟩
    exact (mem_of_splitSign rfl hc).imp_right (Or.imp_right (h.2.2 c))

theorem isExponent_map_toLower {tail : List Char} (h : Schema.isExponent tail = true) :
    Schema.isExponent (tail.map Char.toLower) = true := by
  obtain rfl | ⟨e, cs, rfl, he, -, -, hcs⟩ := exponent_cases h
  · rfl
  · have hsame : cs.map Char.toLower = cs := by
      refine (List.map_congr_left fun c hc => ?_).trans (List.map_id cs)
      rcases hcs c hc with rfl | rfl | hdigit
      · rfl
      · rfl
      · exact (decimalDigit?_of_decimal hdigit).2
    rw [List.map_cons, hsame]
    rcases he with rfl | rfl
    · exact h
    · exact h

theorem isSome_exponent?_of_isExponent {tail : List Char} (h : Schema.isExponent tail = true) :
    (Numeral.exponent? tail).isSome = true := by
  obtain rfl | ⟨e, cs, rfl, he, hne, hds, -⟩ := exponent_cases h
  · rfl
  · exact Numeral.isSome_exponent? he hne fun c hc => (decimalDigit?_of_decimal (hds c hc)).1

/-- Where an exponent begins there is no digit and no point. -/
theorem head?_of_isExponent {tail : List Char} (h : Schema.isExponent tail = true) :
    ∀ c ∈ tail.head?, c ≠ '.' ∧ Numeral.decimalDigit? c = none := by
  obtain rfl | ⟨e, cs, rfl, he, -⟩ := exponent_cases h
  · exact fun c hc => nomatch hc
  · intro c hc
    obtain rfl := Option.some.inj hc
    rcases he with rfl | rfl <;> decide

namespace Parts

/-- A number in small letters. -/
theorem map_toLower (h : Parts cs) : Parts (cs.map Char.toLower) := by
  obtain ⟨hwhole, hfraction, hne, htail⟩ | ⟨hwhole, hne, htail⟩ := h
  · rw [List.map_append, List.map_cons, List.map_append, map_toLower_of_digits hwhole,
      map_toLower_of_digits hfraction]
    exact .pointed hwhole hfraction hne (isExponent_map_toLower htail)
  · rw [List.map_append, map_toLower_of_digits hwhole]
    exact .pointless hwhole hne (isExponent_map_toLower htail)

theorem isSome_unsigned? (h : Parts cs) (negative : Bool) :
    (Numeral.unsigned? negative cs).isSome = true := by
  have hdigits : ∀ {ds : List Char}, (∀ c ∈ ds, Schema.isDigit c = true) →
      ∀ c ∈ ds, (Numeral.decimalDigit? c).isSome = true := fun hds c hc =>
    (decimalDigit?_of_decimal (decimal_of_isDigit (hds c hc))).1
  obtain ⟨hwhole, hfraction, hne, htail⟩ | ⟨hwhole, hne, htail⟩ := h
  · exact Numeral.isSome_unsigned?_pointed negative (hdigits hwhole) (hdigits hfraction) hne
      (fun c hc => (head?_of_isExponent htail c hc).2) (isSome_exponent?_of_isExponent htail)
  · exact Numeral.isSome_unsigned?_pointless negative (hdigits hwhole) hne
      (head?_of_isExponent htail) (isSome_exponent?_of_isExponent htail)

theorem isSeen (h : Parts cs) : ∀ c ∈ cs, Numeral.IsSeen c ∧ c ≠ '_' := by
  have hdecimal : ∀ {c}, Decimal c → Numeral.IsSeen c ∧ c ≠ '_' := fun hc =>
    have hseen := seen_of_hexadecimal (hexadecimal_of_decimal hc)
    ⟨hseen.1, hseen.2.1⟩
  have hdigits : ∀ {ds : List Char}, (∀ c ∈ ds, Schema.isDigit c = true) →
      ∀ c ∈ ds, Numeral.IsSeen c ∧ c ≠ '_' := fun hds c hc =>
    hdecimal (decimal_of_isDigit (hds c hc))
  have hexponent : ∀ {tail : List Char}, Schema.isExponent tail = true →
      ∀ c ∈ tail, Numeral.IsSeen c ∧ c ≠ '_' := by
    intro tail htail
    obtain rfl | ⟨e, cs, rfl, he, -, -, hcs⟩ := exponent_cases htail
    · exact fun c hc => nomatch hc
    · refine List.forall_mem_cons.mpr ⟨?_, fun c hc => ?_⟩
      · rcases he with rfl | rfl <;> decide
      · rcases hcs c hc with rfl | rfl | hdigit
        · decide
        · decide
        · exact hdecimal hdigit
  obtain ⟨hwhole, hfraction, hne, htail⟩ | ⟨hwhole, hne, htail⟩ := h
  · exact List.forall_mem_append.mpr ⟨hdigits hwhole, List.forall_mem_cons.mpr ⟨by decide,
      List.forall_mem_append.mpr ⟨hdigits hfraction, hexponent htail⟩⟩⟩
  · exact List.forall_mem_append.mpr ⟨hdigits hwhole, hexponent htail⟩

/-- A number without sign has a value. -/
theorem exists_readFloat (h : Parts cs) : ∃ x, readFloat (String.ofList cs) = .ok x := by
  have hsign : Numeral.splitSign cs = (false, cs) := by
    obtain ⟨c, hc, hkind⟩ := head?_of_parts h
    unfold Numeral.splitSign
    split
    · obtain rfl := Option.some.inj hc
      exact absurd hkind (by decide)
    · obtain rfl := Option.some.inj hc
      exact absurd hkind (by decide)
    · rfl
  refine ComposeNix.exists_readFloat ?_ ?_ ?_
  · rw [String.toList_ofList]
    exact fun c hc => (h.isSeen c hc).1
  · rw [String.toList_ofList]
    exact fun hmem => (h.isSeen '_' hmem).2 rfl
  · rw [String.toList_ofList, hsign]
    exact h.isSome_unsigned? false

end Parts

/-- In the texts for numbers nothing is left out, and their letters become small ones. -/
theorem letters_of_isFloat (h : Schema.isFloat cs = true) :
    Text.toLower (cs.filter (· != '_')) = cs.map Char.toLower := by
  have hsober := (Schema.isSober_of_isFloat h).2
  have hall : ∀ c ∈ cs, (c != '_') = true := fun c hc => bne_iff_ne.mpr (hsober c hc).2.1
  have hletters : ∀ c ∈ cs, Text.lowerCase c = [c.toLower] := fun c hc => if_pos (hsober c hc).1
  rw [List.filter_eq_self.mpr hall, Text.toLower, List.flatMap_def, List.map_congr_left hletters,
    ← List.flatMap_def]
  exact List.flatMap_pure_eq_map Char.toLower cs

theorem drop_sign (cs : List Char) :
    (if (cs.head? == some '-' || cs.head? == some '+') = true then cs.drop 1 else cs)
      = Schema.unsigned cs := by
  cases cs with
  | nil => rfl
  | cons c cs =>
    by_cases hplus : c = '+'
    · subst hplus
      rfl
    · by_cases hminus : c = '-'
      · subst hminus
        rfl
      · have hsign : ¬ ((c :: cs).head? == some '-' || (c :: cs).head? == some '+') = true := by
          simp [hplus, hminus]
        rw [if_neg hsign]
        exact (Schema.unsigned.eq_3 (c :: cs) (fun _ heq => hplus (List.cons.inj heq).1)
          fun _ heq => hminus (List.cons.inj heq).1).symm

/-- A number has a value if what is behind its sign is one of the words or can be read. -/
theorem exists_float_of_body {text : String} (h : Schema.isFloat text.toList = true)
    (hbody : Schema.unsigned (text.toList.map Char.toLower) = ".inf".toList
      ∨ Schema.unsigned (text.toList.map Char.toLower) = ".nan".toList
      ∨ ∃ x, readFloat (String.ofList (Schema.unsigned (text.toList.map Char.toLower))) = .ok x) :
    ∃ x, Scalar.float text = .ok (.float x) := by
  obtain ⟨hne, hcolon⟩ := Schema.body_of_isFloat h
  rw [letters_of_isFloat h] at hne hcolon
  rw [Scalar.float, letters_of_isFloat h]
  simp only [drop_sign, List.isEmpty_eq_false_iff.mpr hne]
  have hbodyColon := Schema.contains_drop_sign hcolon
  rw [drop_sign] at hbodyColon
  generalize Schema.unsigned (text.toList.map Char.toLower) = body at hbody hbodyColon ⊢
  by_cases hinf : body = ".inf".toList
  · simp only [if_pos hinf]
    exact ⟨_, rfl⟩
  · by_cases hnan : body = ".nan".toList
    · simp only [if_neg hinf, if_pos hnan]
      exact ⟨_, rfl⟩
    · obtain ⟨x, hx⟩ := (hbody.resolve_left hinf).resolve_left hnan
      simp only [if_neg hinf, if_neg hnan, hbodyColon, hx]
      exact ⟨_, rfl⟩

/-- What stands behind a sign, in small letters. -/
theorem unsigned_map_toLower {l : Language Char} (h : cs ∈ sign * l)
    (hl : ∀ rest ∈ l, (rest.map Char.toLower).head? ≠ some '+'
      ∧ (rest.map Char.toLower).head? ≠ some '-') :
    ∃ rest ∈ l, Schema.unsigned (cs.map Char.toLower) = rest.map Char.toLower := by
  obtain ⟨_, ⟨w, hw, rfl⟩, rest, hrest, rfl⟩ := h
  refine ⟨rest, hrest, ?_⟩
  obtain ⟨hplus, hminus⟩ := hl rest hrest
  simp only [List.mem_cons, List.not_mem_nil, or_false] at hw
  rcases hw with rfl | rfl | rfl
  · refine Schema.unsigned.eq_3 (rest.map Char.toLower) (fun _ heq => hplus ?_)
      fun _ heq => hminus ?_
    · rw [heq]; rfl
    · rw [heq]; rfl
  · rfl
  · rfl

/-- Every number of the core schema has a value. -/
theorem exists_float {text : String} (h : text.toList ∈ float) :
    ∃ x, Scalar.float text = .ok (.float x) := by
  refine exists_float_of_body (isFloat_iff.mpr h) ?_
  rcases h with (h | h) | ⟨w, hw, htext⟩
  · obtain ⟨rest, hrest, hbody⟩ := unsigned_map_toLower h fun rest hrest => by
      obtain ⟨c, hc, hkind⟩ := head?_of_parts (parts_iff.mpr hrest).map_toLower
      rw [hc]
      constructor <;> rintro heq <;> obtain rfl := Option.some.inj heq <;>
        exact absurd hkind (by decide)
    rw [hbody]
    exact Or.inr (Or.inr (parts_iff.mpr hrest).map_toLower.exists_readFloat)
  · have hwords : ∀ w ∈ [".inf", ".Inf", ".INF"],
        w.toList.map Char.toLower = ".inf".toList := by decide
    obtain ⟨_, ⟨w, hw, rfl⟩, hbody⟩ := unsigned_map_toLower h fun _ ⟨w, hw, hrest⟩ => by
      rw [← hrest, hwords w hw]
      decide
    rw [hbody]
    exact Or.inl (hwords w hw)
  · have hwords : ∀ w ∈ [".nan", ".NaN", ".NAN"],
        Schema.unsigned (w.toList.map Char.toLower) = ".nan".toList := by decide
    rw [← htext]
    exact Or.inr (Or.inl (hwords w hw))

end Core

end ComposeNix.Yaml
