import ComposeNix.Proofs.Yaml.Json
import ComposeNix.Proofs.Yaml.Lexer

/-!
# Plain scalars and the core schema

`plainScalar_core`: the text of every plain scalar has the tag that the core schema gives it, tried
in full; an integer has the number that it writes as its value; and making a value fails only for
decimal integers that are too long and for the key that merges.  That key has a place among the
entries of a mapping and no value of its own, so a document in which it stands elsewhere has none
(`not_succeeds_merge`).
-/

namespace ComposeNix.Yaml

/-- The text of a plain scalar: one that the lexer finds in some document, or none at all. -/
def IsPlainText (s : String) : Prop :=
  s = "" ∨ ∃ cs, ∃ t ∈ (Tokens.ofText cs).tokens, t.kind = .scalar s true

variable {s : String}

/-! ## Its tag -/

theorem resolve_plainText (h : IsPlainText s) : Schema.resolve s = Core.tag s.toList := by
  obtain rfl | ⟨cs, t, ht, hkind⟩ := h
  · exact resolve_eq_tag (by decide) fun c hc => nomatch hc
  · have hscanned : t.kind.Scanned := Tokens.scanned_ofText cs t ht
    rw [hkind] at hscanned
    refine resolve_eq_tag hscanned.ends fun c hc => ?_
    obtain ⟨inFlow, following, hstart⟩ := hscanned.begins c hc
    have hnone := (Lexer.indicators_of_startsPlain hstart).1
    exact ⟨hnone '!' (by decide), hnone '&' (by decide), hnone '*' (by decide)⟩

/-! ## Its value -/

theorem Core.integer_of_long {cs : List Char} (h : cs ∈ Core.long) : cs ∈ Core.integer := by
  obtain ⟨w, hw, ds, hds, rfl⟩ := h
  exact Or.inl (Or.inl ⟨w, hw, ds, hds.1, rfl⟩)

theorem succeeds_bool (h : s.toList ∈ Core.boolean) : Succeeds (Scalar.bool s) := by
  obtain ⟨w, hw, heq⟩ := h
  obtain rfl := String.toList_injective heq
  have hall : ∀ w ∈ ["true", "True", "TRUE", "false", "False", "FALSE"],
      Succeeds (Scalar.bool w) := by decide
  exact hall w hw

/-- A value is made of every text except of long integers and the key that merges. -/
theorem succeeds_value_iff (s : String) (place : Mark) :
    Succeeds (Scalar.value (Core.tag s.toList) s place) ↔ s.toList ∉ Core.long ∧ s ≠ "<<" := by
  by_cases hlong : s.toList ∈ Core.long
  · rw [Core.tag_of_integer (Core.integer_of_long hlong), Scalar.value, Core.int_of_long hlong]
    exact iff_of_false (not_succeeds_error _) fun h => h.1 hlong
  · by_cases hmerge : s = "<<"
    · subst hmerge
      have htag : Core.tag "<<".toList = .merge := by decide
      rw [htag]
      exact iff_of_false (not_succeeds_error _) fun h => h.2 rfl
    · refine iff_of_true ?_ ⟨hlong, hmerge⟩
      rw [Core.tag]
      split_ifs with hnull hbool hint hfloat hkey
      · exact succeeds_ok _
      · exact succeeds_bool hbool
      · obtain ⟨n, hn⟩ := Core.exists_denotes_iff.mpr hint
        exact ⟨_, Core.int_of_denotes hn hlong⟩
      · obtain ⟨x, hx⟩ := Core.exists_float hfloat
        exact ⟨_, hx⟩
      · exact absurd (String.toList_injective hkey) hmerge
      · exact succeeds_ok _

/-- Plain scalars have the tags of the core schema, and the values that go with them. -/
theorem plainScalar_core :
    (∀ s, IsPlainText s → Schema.resolve s = Core.tag s.toList
      ∧ (∀ p : Properties, p.tag = none → Reader.scalarTag p s true = Core.tag s.toList)
      ∧ (s.toList ∈ Core.integer → ∃ n, Core.Denotes s.toList n)
      ∧ ∀ (d : Document) (place : Mark),
        (∀ n, Core.Denotes s.toList n → s.toList ∉ Core.long →
          d.scalar (.scalar (Core.tag s.toList) s place) = .ok (.int n))
        ∧ (Succeeds (d.scalar (.scalar (Core.tag s.toList) s place))
          ↔ s.toList ∉ Core.long ∧ s ≠ "<<"))
    ∧ (∀ cs ∈ Json.integer, (∃ n, Core.Denotes cs n)
      ∧ ∀ n, Core.Denotes cs n → cs ∉ Core.long → load cs = .ok (.int n))
    ∧ (∀ cs ∈ Json.number, cs ∉ Json.integer → ∃ x, load cs = .ok (.float x))
    ∧ load "true".toList = .ok (.bool true) ∧ load "false".toList = .ok (.bool false)
    ∧ load "null".toList = .ok .null := by
  refine ⟨fun s hs => ?_, fun cs hcs => ?_, fun cs hcs hint => Json.load_number hcs hint,
    Json.load_literals⟩
  · have hresolve := resolve_plainText hs
    refine ⟨hresolve, fun p hp => ?_, Core.exists_denotes_iff.mpr, fun d place => ⟨?_, ?_⟩⟩
    · rw [Reader.scalarTag, hp]
      exact hresolve
    · intro n hn hlong
      rw [Core.tag_of_integer (Core.exists_denotes_iff.mp ⟨n, hn⟩)]
      exact Core.int_of_denotes hn hlong
    · exact succeeds_value_iff s place
  · have hdenotes := Core.exists_denotes_iff.mpr (Json.integer_of_integer hcs)
    exact ⟨hdenotes, fun n hn hlong => Json.load_integer hcs hn hlong⟩

/-- An integer with a zero in front, and numbers that are texts by themselves. -/
theorem plainScalar_negative : IsPlainText "-012" ∧ Schema.resolve "-012" = .int
    ∧ (∀ (d : Document) (place : Mark), d.scalar (.scalar .int "-012" place) = .ok (.int (-12)))
    ∧ load "-12".toList = .ok (.int (-12)) ∧ ∃ x, load "-0.5".toList = .ok (.float x) := by
  have hplain : IsPlainText "-012" :=
    Or.inr ⟨"-012".toList, ⟨.scalar "-012" true, ⟨0, 0, 0⟩, ⟨4, 0, 4⟩⟩, List.mem_cons_self, rfl⟩
  obtain ⟨hscalar, hinteger, hnumber, -⟩ := plainScalar_core
  obtain ⟨hresolve, -, -, hvalue⟩ := hscalar "-012" hplain
  have htag : Core.tag "-012".toList = .int := by decide
  rw [htag] at hresolve hvalue
  have hshort : "-012".toList ∉ Core.long ∧ "-12".toList ∉ Core.long :=
    ⟨fun h => absurd (Core.mem_long_iff.mp h).2 (by decide),
      fun h => absurd (Core.mem_long_iff.mp h).2 (by decide)⟩
  have hrun : ∀ {cs}, Schema.isRun Schema.isDigit cs = true → cs ∈ Core.run Core.Decimal :=
    (Core.isRun_iff Core.isDigit_iff).mp
  have hhyphen : ['-'] ∈ Core.words ["", "-"] := ⟨"-", by decide, rfl⟩
  refine ⟨hplain, hresolve, fun d place => ?_, ?_, ?_⟩
  · have hdigits : "012".toList ∈ Core.run Core.Decimal := hrun rfl
    exact (hvalue d place).1 (-12) (.negative hdigits) hshort.1
  · have hwhole : "12".toList ∈ Json.whole :=
      Or.inr ⟨['1'], ⟨'1', ⟨by decide, by decide⟩, rfl⟩, ['2'], Or.inr (hrun rfl), rfl⟩
    have hdigits : "12".toList ∈ Core.run Core.Decimal := hrun rfl
    exact (hinteger _ ⟨['-'], hhyphen, _, hwhole, rfl⟩).2 (-12) (.negative hdigits) hshort.2
  · have hwhole : "0".toList ∈ Json.whole := Or.inl ⟨"0", by decide, rfl⟩
    have hfraction : ".5".toList ∈ Json.fraction :=
      ⟨['.'], ⟨".", by decide, rfl⟩, ['5'], hrun rfl, rfl⟩
    refine hnumber "-0.5".toList ⟨['-'], hhyphen, "0.5".toList, ?_, rfl⟩ fun h => ?_
    · exact ⟨_, hwhole, ".5".toList, ⟨_, Or.inr hfraction, [], Or.inl rfl, rfl⟩, rfl⟩
    · exact absurd (Json.integer_of_integer h) (by decide)

/-- The key that merges has no value of its own. -/
theorem not_succeeds_merge : IsPlainText "<<" ∧ "<<".toList ∉ Core.long
    ∧ (∀ d : Document, ∀ place, ¬ Succeeds (d.scalar (.scalar (Schema.resolve "<<") "<<" place)))
    ∧ ¬ Succeeds (load "[<<]".toList) := by
  have hplain : IsPlainText "<<" :=
    Or.inr ⟨"<<".toList, ⟨.scalar "<<" true, ⟨0, 0, 0⟩, ⟨2, 0, 2⟩⟩, List.mem_cons_self, rfl⟩
  refine ⟨hplain, ?_, ?_, ?_⟩
  · exact fun h => absurd (Core.mem_long_iff.mp h).2 (by decide)
  · exact fun d place => not_succeeds_error _
  · decide +kernel

end ComposeNix.Yaml
