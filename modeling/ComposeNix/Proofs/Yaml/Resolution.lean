import ComposeNix.Proofs.Yaml.Grammar
import ComposeNix.Proofs.Yaml.Lexer
import ComposeNix.Proofs.Yaml.Schema
import ComposeNix.Yaml.Node.Reader

/-!
# Which tag a plain scalar gets

A plain scalar without a tag is held against the grammars that are filed under its first character,
and the first that takes it counts.  `resolve_eq_tag`: this is the tag that the core schema gives,
tried in full, because a grammar that takes a text is filed under its first character
(`mem_candidates_of_takes`), and those that are filed under one character stand there in the order
of the schema (`candidates_sublist`).
-/

namespace ComposeNix.Yaml

open Schema

/-! ## Looking up a part of a row -/

/-- What is looked for is found first in a part of the row, if all of its kind are in that part. -/
theorem find?_eq_of_sublist {α : Type} {p : α → Bool} {part row : List α} (h : part.Sublist row)
    (hrow : row.Nodup) (hpart : ∀ a ∈ row, p a = true → a ∈ part) :
    part.find? p = row.find? p := by
  induction h with
  | slnil => rfl
  | cons a h ih =>
    obtain ⟨ha, hrow⟩ := List.nodup_cons.mp hrow
    have hnot : ¬ p a = true := fun hp => ha (h.subset (hpart a List.mem_cons_self hp))
    rw [List.find?_cons_of_neg hnot]
    exact ih hrow fun b hb => hpart b (List.mem_cons_of_mem a hb)
  | cons_cons a h ih =>
    obtain ⟨ha, hrow⟩ := List.nodup_cons.mp hrow
    rw [List.find?_cons, List.find?_cons, ih hrow fun b hb hp => ?_]
    rcases List.mem_cons.mp (hpart b (List.mem_cons_of_mem a hb) hp) with rfl | hb'
    · exact absurd hb ha
    · exact hb'

/-! ## The grammars under a character -/

/-- The tags of the core schema in its order, and the key that merges. -/
def Core.order : List Tag := [.null, .bool, .int, .float, .merge]

variable {cs : List Char} {c : Char}

theorem Core.tag_eq (cs : List Char) :
    Core.tag cs = (Core.order.find? fun tag => takes tag cs).getD .str := by
  have hmerge : isMerge cs = true ↔ cs = "<<".toList := beq_iff_eq
  simp only [Core.tag, Core.order, List.find?_cons, List.find?_nil, takes, ← Core.isInt_iff,
    ← Core.isFloat_iff, ← hmerge]
  have hnull : isNull cs = true ↔ cs ∈ Core.null := Core.any_words_iff
  have hbool : isBool cs = true ↔ cs ∈ Core.boolean := Core.any_words_iff
  simp only [← hnull, ← hbool]
  split_ifs <;> simp_all

theorem candidates_of_isDigit (h : isDigit c = true) : candidates (some c) = [.int, .float] := by
  have hne : ∀ d, isDigit d = false → (c == d) = false := by
    intro d hd
    rw [beq_eq_false_iff_ne]
    rintro rfl
    rw [h] at hd
    exact nomatch hd
  simp only [candidates, hne '~' rfl, hne 'n' rfl, hne 'N' rfl, hne '<' rfl, hne 't' rfl,
    hne 'T' rfl, hne 'f' rfl, hne 'F' rfl, h, Bool.or_false, Bool.or_true, Bool.false_eq_true,
    if_false, if_true]

/-- The grammars that are filed under a character stand in the order of the schema. -/
theorem candidates_sublist (h : ∀ d ∈ cs.head?, d ≠ '!' ∧ d ≠ '&' ∧ d ≠ '*') :
    (candidates cs.head?).Sublist Core.order := by
  cases cs with
  | nil => decide
  | cons c cs =>
    obtain ⟨htag, hanchor, halias⟩ := h c rfl
    rw [List.head?_cons, candidates]
    split_ifs with _ _ _ _ _ hindicator
    · decide
    · decide
    · decide
    · decide
    · decide
    · simp [htag, hanchor, halias] at hindicator
    · decide

/-- A text with a sign that may be left out begins with the sign or as it would without. -/
theorem signed_or_mem {l : Language Char} (h : cs ∈ Core.sign * l) :
    cs.head? = some '+' ∨ cs.head? = some '-' ∨ cs ∈ l := by
  obtain ⟨_, ⟨w, hw, rfl⟩, rest, hrest, rfl⟩ := h
  simp only [List.mem_cons, List.not_mem_nil, or_false] at hw
  rcases hw with rfl | rfl | rfl
  · exact Or.inr (Or.inr hrest)
  · exact Or.inl rfl
  · exact Or.inr (Or.inl rfl)

theorem mem_candidates_of_word {ws : List String} {tag : Tag}
    (hws : ∀ w ∈ ws, tag ∈ candidates w.toList.head?) (h : cs ∈ Core.words ws) :
    tag ∈ candidates cs.head? := by
  obtain ⟨w, hw, rfl⟩ := h
  exact hws w hw

theorem mem_candidates_of_int (h : cs ∈ Core.integer) : Tag.int ∈ candidates cs.head? := by
  rcases h with (h | h) | h
  · rcases signed_or_mem h with h | h | ⟨hne, hall⟩
    · rw [h]; decide
    · rw [h]; decide
    · obtain ⟨c, cs, rfl⟩ := List.exists_cons_of_ne_nil hne
      rw [List.head?_cons,
        candidates_of_isDigit ((Core.isDigit_iff c).mpr (hall c List.mem_cons_self))]
      decide
  · obtain ⟨_, ⟨w, hw, rfl⟩, ds, -, rfl⟩ := h
    obtain rfl := List.mem_singleton.mp hw
    exact List.mem_cons_self
  · obtain ⟨_, ⟨w, hw, rfl⟩, ds, -, rfl⟩ := h
    obtain rfl := List.mem_singleton.mp hw
    exact List.mem_cons_self

theorem mem_candidates_of_float (h : cs ∈ Core.float) : Tag.float ∈ candidates cs.head? := by
  rcases h with (h | h) | h
  · rcases signed_or_mem h with h | h | h
    · rw [h]; decide
    · rw [h]; decide
    · obtain ⟨c, hc, hdigit | rfl⟩ := Core.head?_of_parts (Core.parts_iff.mpr h)
      · rw [hc, candidates_of_isDigit hdigit]; decide
      · rw [hc]; decide
  · rcases signed_or_mem h with h | h | h
    · rw [h]; decide
    · rw [h]; decide
    · exact mem_candidates_of_word (by decide) h
  · exact mem_candidates_of_word (by decide) h

/-- A grammar that takes a text is filed under its first character. -/
theorem mem_candidates_of_takes {tag : Tag} (htag : tag ∈ Core.order)
    (h : takes tag cs = true) : tag ∈ candidates cs.head? := by
  simp only [Core.order, List.mem_cons, List.not_mem_nil, or_false] at htag
  rcases htag with rfl | rfl | rfl | rfl | rfl
  · exact mem_candidates_of_word (by decide) (Core.any_words_iff.mp h)
  · exact mem_candidates_of_word (by decide) (Core.any_words_iff.mp h)
  · exact mem_candidates_of_int (Core.isInt_iff.mp h)
  · exact mem_candidates_of_float (Core.isFloat_iff.mp h)
  · obtain rfl : cs = ['<', '<'] := beq_iff_eq.mp h
    decide

/-- A grammar that is not filed under the first character of any word takes none of the words. -/
theorem notMem_words {ws : List String} {tag : Tag}
    (hws : ∀ w ∈ ws, tag ∉ candidates w.toList.head?) (h : tag ∈ candidates cs.head?) :
    cs ∉ Core.words ws := by
  rintro ⟨w, hw, rfl⟩
  exact hws w hw h

theorem Core.tag_of_integer (h : cs ∈ Core.integer) : Core.tag cs = .int := by
  have hfiled := mem_candidates_of_int h
  have hnull : cs ∉ Core.null := notMem_words (by decide) hfiled
  have hbool : cs ∉ Core.boolean := notMem_words (by decide) hfiled
  rw [Core.tag, if_neg hnull, if_neg hbool, if_pos h]

theorem Core.tag_of_float (h : cs ∈ Core.float) (hint : cs ∉ Core.integer) :
    Core.tag cs = .float := by
  have hfiled := mem_candidates_of_float h
  have hnull : cs ∉ Core.null := notMem_words (by decide) hfiled
  have hbool : cs ∉ Core.boolean := notMem_words (by decide) hfiled
  rw [Core.tag, if_neg hnull, if_neg hbool, if_neg hint, if_pos h]

/-- A text has the tag that the core schema gives it, tried in full. -/
theorem resolve_eq_tag {text : String} (hends : text.toList.getLast? ≠ some '\n')
    (hbegins : ∀ c ∈ text.toList.head?, c ≠ '!' ∧ c ≠ '&' ∧ c ≠ '*') :
    resolve text = Core.tag text.toList := by
  have hfind := find?_eq_of_sublist (candidates_sublist hbegins) (by decide : Core.order.Nodup)
    (p := fun tag => takes tag text.toList) fun tag htag h => mem_candidates_of_takes htag h
  rw [resolve, Core.tag_eq, ← hfind, withoutFinalBreak_of_ne hends]

end ComposeNix.Yaml
