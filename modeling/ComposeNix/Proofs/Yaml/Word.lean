import ComposeNix.Proofs.Yaml.Untagged
import ComposeNix.Yaml.Load

/-!
# Texts of one word

A text that is a single plain scalar and nothing else makes two tokens, the scalar and the end
(`ofText_word`): the first round of the lexer takes the whole text (`round_start`) and the second
one only adds the end (`AtEnd.round`).  The text denotes what the schema makes of it (`load_word`).
-/

namespace ComposeNix.Yaml

/-- A character that may stand in a document, and does not end a plain scalar. -/
structure InWord (c : Char) : Prop where
  allowed : isAllowed c = true
  gap : isGap (some c) = false
  colon : c ≠ ':'
  order : c ≠ '\uFEFF'

/-- A text that is one plain scalar. -/
structure IsWord (cs : List Char) : Prop where
  begins : ∃ c rest, cs = c :: rest ∧ Lexer.startsPlain false c rest.head? = true
  inside : ∀ c ∈ cs, InWord c
  unmarked : cs ≠ "---".toList ∧ cs ≠ "...".toList

variable {c : Char} {cs : List Char}

/-! ## Its tokens -/

/-- A plain scalar of such characters goes on to the end. -/
theorem Plain.scan_word (h : ∀ c ∈ cs, InWord c) (indent : Int) (done : List Char) (m : Mark) :
    ∃ stop, Plain.scan false indent .text done m cs m
      = ⟨done.reverse ++ cs, stop, ⟨[], stop⟩, false⟩ := by
  induction cs generalizing done m with
  | nil => exact ⟨m, by rw [Plain.scan.eq_def, List.append_nil]; rfl⟩
  | cons c cs ih =>
    obtain ⟨⟨-, hgap, hcolon, -⟩, hcs⟩ := List.forall_mem_cons.mp h
    have hbreak : isBreak c = false ∧ c ≠ ' ' := by
      simp only [isGap, Bool.or_eq_false_iff, beq_eq_false_iff_ne] at hgap
      exact ⟨hgap.2, hgap.1.1⟩
    have hreturn : c ≠ '\r' := by
      rintro rfl
      exact nomatch hbreak.1
    have hends : Plain.terminates false c cs.head? = false := by
      simp [Plain.terminates, hgap, hcolon]
    obtain ⟨stop, hstop⟩ := ih hcs (c :: done) (m.advance c cs.head?)
    refine ⟨stop, ?_⟩
    rw [Plain.scan.eq_def]
    simp only [hreturn, false_and, if_false, hbreak.2, hbreak.1, Bool.false_eq_true, hends,
      Bool.false_and, Bool.or_self, Plain.State.held, List.nil_append, hstop, List.reverse_cons,
      List.append_assoc, List.singleton_append]

namespace Lexer

variable {lx : Lexer}

/-- Behind the text and outside all block collections, where nothing has to turn out to be a key. -/
structure AtEnd (lx : Lexer) : Prop where
  rest : lx.cursor.rest = []
  outer : lx.outer = []
  pending : ∀ key ∈ lx.pending, key.required = false

theorem AtEnd.toToken (h : lx.AtEnd) : lx.toToken = lx := by
  obtain ⟨⟨rest, mark⟩, tokens, count, indent, outer, depth, keyAllowed, pending, finished⟩ := lx
  obtain rfl : rest = [] := h.rest
  rw [Lexer.toToken, if_neg fun h => nomatch h.2]
  rfl

theorem AtEnd.dropStale (h : lx.AtEnd) : ∃ after, lx.dropStale = .ok after ∧ after.AtEnd
    ∧ after.tokens = lx.tokens ∧ after.mark = lx.mark := by
  have hnone : (lx.pending.find? fun key => lx.isStale key && key.required) = none := by
    rw [List.find?_eq_none]
    intro key hkey
    rw [h.pending key hkey, Bool.and_false]
    exact Bool.false_ne_true
  rw [Lexer.dropStale, hnone]
  have hpending : ∀ key ∈ lx.pending.filter fun key => !lx.isStale key, key.required = false :=
    fun key hkey => h.pending key (List.mem_filter.mp hkey).1
  exact ⟨_, rfl, ⟨h.rest, h.outer, hpending⟩, rfl, rfl⟩

theorem AtEnd.dropPending (h : lx.AtEnd) : ∃ after, lx.dropPending = .ok after
    ∧ after.tokens = lx.tokens ∧ after.mark = lx.mark := by
  rw [Lexer.dropPending]
  split
  · rename_i key hkey
    rw [h.pending key (List.mem_of_find?_eq_some hkey), if_neg Bool.false_ne_true]
    exact ⟨_, rfl, rfl, rfl⟩
  · exact ⟨lx, rfl, rfl, rfl⟩

theorem AtEnd.unwind (h : lx.AtEnd) (column : Int) : lx.unwind column = lx := by
  obtain ⟨cursor, tokens, count, indent, outer, depth, keyAllowed, pending, finished⟩ := lx
  obtain rfl : outer = [] := h.outer
  rw [Lexer.unwind]
  split
  · rfl
  · rfl

/-- The last round only adds the end. -/
theorem AtEnd.round (h : lx.AtEnd) : ∃ after, lx.round = .ok after ∧ after.finished = true
    ∧ after.tokens = ⟨.streamEnd, lx.mark, lx.mark⟩ :: lx.tokens := by
  obtain ⟨fresh, hfresh, hend, htokens, hmark⟩ := h.dropStale
  obtain ⟨free, hfree, htokens', hmark'⟩ := hend.dropPending
  have htoken : fresh.token = fresh.streamEnd := by simp only [Lexer.token, hend.rest]
  have hround : lx.round = fresh.token := by
    rw [Lexer.round, h.toToken, hfresh]
    exact congrArg Lexer.token (hend.unwind _)
  rw [hround, htoken, Lexer.streamEnd, hend.unwind, hfree, ← htokens, ← htokens', ← hmark,
    ← hmark']
  exact ⟨_, rfl, rfl, rfl⟩

/-- A plain scalar begins with none of the indicators, and one that is an indicator only in front of
a gap has none behind it. -/
theorem indicators_of_startsPlain {inFlow : Bool} {following : Option Char}
    (h : startsPlain inFlow c following = true) :
    (∀ d ∈ ",[]\x7b\x7d#&*!|>'\"%@`".toList, c ≠ d)
      ∧ ((c = '-' ∨ c = '?' ∨ c = ':') → isGap following = false) := by
  rw [startsPlain] at h
  split_ifs at h with hgap hhead
  · have hc : c ∈ "-?:".toList := List.contains_iff_mem.mp hhead
    rw [Bool.and_eq_true, Bool.not_eq_true'] at h
    refine ⟨?_, fun _ => h.1⟩
    rintro d hd rfl
    simp only [String.reduceToList, List.mem_cons, List.not_mem_nil, or_false] at hc
    rcases hc with rfl | rfl | rfl <;> exact absurd hd (by decide)
  · rw [Bool.not_eq_true', Bool.eq_false_iff, Ne, List.contains_iff_mem] at h
    refine ⟨fun d hd => ?_, fun hc => absurd (List.contains_iff_mem.mpr ?_) hhead⟩
    · rintro rfl
      exact h hd
    · rcases hc with rfl | rfl | rfl <;> decide

/-- What can start a plain scalar does so, unless it is a document marker. -/
theorem token_of_startsPlain {rest : List Char} (hrest : lx.cursor.rest = c :: rest)
    (hdepth : lx.depth = 0) (hstart : startsPlain false c rest.head? = true)
    (hmarker : Cursor.startsMarker (c :: rest) = false) : lx.token = lx.plainScalar := by
  obtain ⟨hnone, hgap⟩ := indicators_of_startsPlain hstart
  have hcloses : ∀ d, (d = '-' ∨ d = '?' ∨ d = ':') → ¬ (c = d ∧ isGap rest.head? = true) := by
    rintro d hd ⟨rfl, hspace⟩
    rw [hgap hd] at hspace
    exact nomatch hspace
  have hmarks : ∀ m, (m = "---".toList ∨ m = "...".toList) →
      ¬ (lx.mark.column == 0 && (c :: rest).take 3 == m && isGap (c :: rest)[3]?) = true := by
    intro m hm h
    rw [Bool.and_eq_true, Bool.and_eq_true] at h
    rw [Cursor.startsMarker, h.2, Bool.and_true, Bool.or_eq_false_iff] at hmarker
    rcases hm with rfl | rfl
    · exact absurd h.1.2 (Bool.eq_false_iff.mp hmarker.1)
    · exact absurd h.1.2 (Bool.eq_false_iff.mp hmarker.2)
  have hflow : (lx.depth != 0) = false := by rw [hdepth]; rfl
  rw [Lexer.token]
  simp only [hrest, hflow, Bool.false_or]
  rw [if_neg fun h => hnone '%' (by decide) h.1, if_neg (hmarks _ (Or.inl rfl)),
    if_neg (hmarks _ (Or.inr rfl)), if_neg (hnone '[' (by decide)),
    if_neg (hnone '\x7b' (by decide)), if_neg (hnone ']' (by decide)),
    if_neg (hnone '\x7d' (by decide)), if_neg (hnone ',' (by decide)),
    if_neg (hcloses '-' (Or.inl rfl)), if_neg (hcloses '?' (Or.inr (Or.inl rfl))),
    if_neg (hcloses ':' (Or.inr (Or.inr rfl))), if_neg (hnone '*' (by decide)),
    if_neg (hnone '&' (by decide)), if_neg (hnone '!' (by decide)),
    if_neg fun h => hnone '|' (by decide) h.1, if_neg fun h => hnone '>' (by decide) h.1,
    if_neg (hnone '\'' (by decide)), if_neg (hnone '"' (by decide)), if_pos hstart]

theorem startsMarker_of_isWord (h : IsWord cs) : Cursor.startsMarker cs = false := by
  by_contra hmarker
  rw [Bool.not_eq_false, Cursor.startsMarker, Bool.and_eq_true, Bool.or_eq_true, beq_iff_eq,
    beq_iff_eq] at hmarker
  obtain ⟨htake, hgap⟩ := hmarker
  have hend : cs[3]? = none := by
    cases hc : cs[3]? with
    | none => rfl
    | some c =>
      rw [hc, (h.inside c (List.mem_of_getElem? hc)).gap] at hgap
      exact nomatch hgap
  rw [List.take_of_length_le (List.getElem?_eq_none_iff.mp hend)] at htake
  exact htake.elim h.unmarked.1 h.unmarked.2

/-- When a plain scalar has been read at the start of a text. -/
def behindScalar (r : Plain.Result) : Lexer :=
  { cursor := r.cursor, tokens := [⟨.scalar (String.ofList r.content) true, .origin, r.stop⟩]
    count := 1, indent := -1, outer := [], depth := 0, keyAllowed := r.brokeLine
    pending := [⟨0, 0, false, .origin⟩], finished := false }

theorem plainScalar_start (cs : List Char) : (start cs).plainScalar
    = .ok (behindScalar (Plain.scan false 0 .text [] .origin cs .origin)) := rfl

/-- The first round takes the word. -/
theorem round_start (h : IsWord cs) : ∃ after stop, (start cs).round = .ok after ∧ after.AtEnd
    ∧ after.tokens = [⟨.scalar (String.ofList cs) true, .origin, stop⟩] ∧ after.mark = stop
    ∧ after.finished = false := by
  obtain ⟨c, rest, rfl, hstart⟩ := h.begins
  obtain ⟨-, hgap, -, horder⟩ := h.inside c List.mem_cons_self
  have hhash : c ≠ '#' := (indicators_of_startsPlain hstart).1 '#' (by decide)
  have hbreak : isBreak c = false ∧ (c == ' ') = false := by
    simp only [isGap, Bool.or_eq_false_iff] at hgap
    exact ⟨hgap.2, hgap.1.1⟩
  have htoToken : (start (c :: rest)).toToken = start (c :: rest) := by
    have hskip : skipGap false false true (c :: rest) .origin = (⟨c :: rest, .origin⟩, true) := by
      simp [skipGap, hbreak.1, hbreak.2, hhash]
    have horder' : ¬ (start (c :: rest)).cursor.peek = some '\uFEFF' := fun h =>
      horder (Option.some.inj h)
    rw [toToken, if_neg fun h => horder' h.2]
    exact congrArg (fun r : Cursor × Bool =>
      { start (c :: rest) with cursor := r.1, keyAllowed := r.2 }) hskip
  have hround : (start (c :: rest)).round = (start (c :: rest)).plainScalar := by
    have hrest : (start (c :: rest)).cursor.rest = c :: rest := rfl
    rw [Lexer.round, htoToken]
    exact token_of_startsPlain hrest rfl hstart (startsMarker_of_isWord h)
  obtain ⟨stop, hscan⟩ := Plain.scan_word h.inside 0 [] .origin
  rw [hround, plainScalar_start, hscan]
  exact ⟨_, stop, rfl, ⟨rfl, rfl, List.forall_mem_singleton.mpr rfl⟩, rfl, rfl, rfl⟩

end Lexer

theorem forbidden?_of_allowed (h : ∀ c ∈ cs, isAllowed c = true) (position : Nat) :
    forbidden? position cs = none := by
  induction cs generalizing position with
  | nil => rfl
  | cons c cs ih =>
    obtain ⟨hc, hcs⟩ := List.forall_mem_cons.mp h
    rw [forbidden?, if_pos hc]
    exact ih hcs _

/-- A word is the one token in front of the end. -/
theorem Tokens.ofText_word (h : IsWord cs) : ∃ stop, Tokens.ofText cs
    = ⟨[⟨.scalar (String.ofList cs) true, .origin, stop⟩, ⟨.streamEnd, stop, stop⟩], none⟩ := by
  obtain ⟨after, stop, hround, hend, htokens, hmark, hunfinished⟩ := Lexer.round_start h
  obtain ⟨fresh, hfresh, hend', htokens', hmark'⟩ := hend.dropStale
  obtain ⟨last, hlast, hfinished, htokens''⟩ := hend'.round
  refine ⟨stop, ?_⟩
  obtain ⟨c, rest, rfl, -⟩ := h.begins
  rw [Tokens.ofText, forbidden?_of_allowed fun c hc => (h.inside c hc).allowed]
  dsimp only
  rw [List.length_cons, Lexer.run, hround]
  simp only [hunfinished, Bool.false_eq_true, if_false, hfresh]
  rw [Lexer.run, hlast]
  simp only [hfinished, if_true]
  rw [htokens'', htokens', htokens, hmark', hmark]
  rfl

/-! ## Its value -/

/-- A scalar and the end make a document that is this scalar. -/
theorem Document.ofTokens_scalar (text : String) (place stop : Mark) :
    Document.ofTokens ⟨[⟨.scalar text true, place, stop⟩, ⟨.streamEnd, stop, stop⟩], none⟩
      = .ok (some ⟨.scalar (Schema.resolve text) text place, [], 0⟩) := rfl

/-- The value of a document that is a scalar. -/
theorem Document.value_scalar {tag : Tag} (htag : tag.isCollection = false) (text : String)
    (place : Mark) :
    (⟨.scalar tag text place, [], 0⟩ : Document).value = Scalar.value tag text place := by
  have htag' : (Node.scalar tag text place).tag.isCollection = false := htag
  have hscalar : ∀ d : Document, d.scalar (.scalar tag text place) = Scalar.value tag text place :=
    fun _ => rfl
  have hexamine : (⟨.scalar tag text place, [], 0⟩ : Document).examine
      = (Scalar.value tag text place).map fun _ => () := by
    rw [Document.examine]
    simp only [Document.resolve, Document.examineNode, htag', Bool.false_eq_true, if_false, hscalar,
      Document.unseen, Bool.not_false, if_true]
    cases Scalar.value tag text place with
    | ok v => rfl
    | error e => rfl
  rw [Document.value, hexamine, Document.valueIn]
  simp only [Document.resolve, htag', Bool.not_false, if_true, hscalar]
  cases Scalar.value tag text place with
  | ok v => rfl
  | error e => rfl

/-- A text of one word denotes what the schema makes of the word. -/
theorem load_word (h : IsWord cs) :
    load cs = Scalar.value (Schema.resolve (String.ofList cs)) (String.ofList cs) .origin := by
  obtain ⟨stop, htokens⟩ := Tokens.ofText_word h
  rw [load, htokens, Document.ofTokens_scalar]
  exact Document.value_scalar (isCollection_resolve _) _ _

end ComposeNix.Yaml
