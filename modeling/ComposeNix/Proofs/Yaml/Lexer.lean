import ComposeNix.Proofs.Outcome
import ComposeNix.Yaml.Token.Lexer
import Mathlib.Data.List.InsertIdx

/-!
# Where plain scalars begin and end

The blanks and line ends behind the last character of a plain scalar are read but do not belong
to it, so no plain scalar ends with a line feed.  It begins with the character at which it was
found, which is none of the indicators.  The lexer keeps this up in the row of tokens it makes
(`Lexer.Scanned`): whatever it does in a round, the only plain scalars that it adds come from
`Plain.scan`.
-/

namespace ComposeNix.Yaml

/-- The text of a plain scalar begins as one can, and has no line feed at its end. -/
structure Plain.Scanned (text : String) : Prop where
  begins : ∀ c ∈ text.toList.head?, ∃ inFlow following,
    Lexer.startsPlain inFlow c following = true
  ends : text.toList.getLast? ≠ some '\n'

/-- A token whose text was scanned, if it is a plain scalar. -/
def TokenKind.Scanned : TokenKind → Prop
  | .scalar text true => Plain.Scanned text
  | _ => True

/-- What has been read of a plain scalar stays in front. -/
theorem Plain.prefix_content_scan (flow : Bool) (indent : Int) (state : Plain.State)
    (done : List Char) (stop : Mark) (cs : List Char) (m : Mark) :
    done.reverse <+: (Plain.scan flow indent state done stop cs m).content := by
  induction cs generalizing state done stop m with
  | nil =>
    rw [Plain.scan.eq_def]
    exact List.prefix_rfl
  | cons c cs ih =>
    have hnext : ∀ held, done.reverse <+: (Plain.scan flow indent .text (c :: (held ++ done))
        (m.advance c cs.head?) cs (m.advance c cs.head?)).content := by
      intro held
      refine List.IsPrefix.trans ⟨held.reverse ++ [c], ?_⟩ (ih _ _ _ _)
      rw [List.reverse_cons, List.reverse_append, List.append_assoc]
    rw [Plain.scan.eq_def]
    dsimp only
    split
    · exact ih _ _ _ _
    · split
      · split
        · exact ih _ _ _ _
        · exact ih _ _ _ _
        · exact ih _ _ _ _
      · split
        · split
          · exact List.prefix_rfl
          · exact ih _ _ _ _
        · split
          · split
            · exact List.prefix_rfl
            · exact hnext _
          · split
            · exact List.prefix_rfl
            · exact hnext _

theorem Lexer.isGap_of_startsPlain {inFlow : Bool} {c : Char} {following : Option Char}
    (h : Lexer.startsPlain inFlow c following = true) : isGap (some c) = false := by
  rw [Lexer.startsPlain] at h
  split at h
  · exact nomatch h
  · rename_i hgap
    exact Bool.eq_false_iff.mpr hgap

/-- A plain scalar begins with the character at which it was found. -/
theorem Plain.begins_content_scan {inFlow : Bool} {c : Char} {cs : List Char}
    (h : Lexer.startsPlain inFlow c cs.head? = true) (flow : Bool) (indent : Int) (stop m : Mark) :
    ∀ d ∈ (Plain.scan flow indent .text [] stop (c :: cs) m).content.head?,
      ∃ inFlow following, Lexer.startsPlain inFlow d following = true := by
  have hgap := Lexer.isGap_of_startsPlain h
  simp only [isGap, Bool.or_eq_false_iff, beq_eq_false_iff_ne] at hgap
  obtain ⟨⟨hblank, -⟩, hbreak⟩ := hgap
  have hreturn : ¬ (c = '\r' ∧ cs.head? = some '\n') := by
    rintro ⟨rfl, -⟩
    exact nomatch hbreak
  intro d hd
  rw [Plain.scan.eq_def] at hd
  simp only [if_neg hreturn, if_neg hblank, hbreak, Bool.false_eq_true, if_false] at hd
  split at hd
  · exact nomatch hd
  · obtain ⟨more, hcontent⟩ := Plain.prefix_content_scan flow indent .text
      (c :: (State.text.held ++ [])) (m.advance c cs.head?) cs (m.advance c cs.head?)
    rw [← hcontent] at hd
    obtain rfl := Option.some.inj hd
    exact ⟨inFlow, cs.head?, h⟩

/-- What has been read of a plain scalar ends with text. -/
theorem Plain.getLast?_content_scan (flow : Bool) (indent : Int) (state : Plain.State)
    (done : List Char) (stop : Mark) (cs : List Char) (m : Mark) (h : done.head? ≠ some '\n') :
    (Plain.scan flow indent state done stop cs m).content.getLast? ≠ some '\n' := by
  have hdone : done.reverse.getLast? ≠ some '\n' := by rwa [List.getLast?_reverse]
  induction cs generalizing state done stop m with
  | nil =>
    rw [Plain.scan.eq_def]
    exact hdone
  | cons c cs ih =>
    rw [Plain.scan.eq_def]
    dsimp only
    split
    · exact ih _ _ _ _ h hdone
    · split
      · split
        · exact ih _ _ _ _ h hdone
        · exact ih _ _ _ _ h hdone
        · exact ih _ _ _ _ h hdone
      · split
        · split
          · exact hdone
          · exact ih _ _ _ _ h hdone
        · rename_i hbreak
          have hc : c ≠ '\n' := by
            rintro rfl
            exact hbreak rfl
          have hnext : ∀ held, (Plain.scan flow indent .text (c :: (held ++ done))
              (m.advance c cs.head?) cs (m.advance c cs.head?)).content.getLast? ≠ some '\n' := by
            intro held
            have hhead : (c :: (held ++ done)).head? ≠ some '\n' := fun heq =>
              hc (Option.some.inj heq)
            exact ih _ _ _ _ hhead (by rwa [List.getLast?_reverse])
          split
          · split
            · exact hdone
            · exact hnext _
          · split
            · exact hdone
            · exact hnext _

namespace Lexer

/-- No plain scalar among the tokens so far has a line feed at its end. -/
def Scanned (lx : Lexer) : Prop := ∀ t ∈ lx.tokens, t.kind.Scanned

/-- A computation whose lexer has only such tokens. -/
abbrev KeepsScanned : Except FormFault Lexer → Prop := Ensures (fun _ => True) Scanned

variable {lx : Lexer}

/-! ## Adding tokens -/

theorem Scanned.emit (h : lx.Scanned) {kind : TokenKind} (hkind : kind.Scanned)
    (start stop : Mark) : (lx.emit kind start stop).Scanned :=
  List.forall_mem_cons.mpr ⟨hkind, h⟩

theorem Scanned.indicator (h : lx.Scanned) {kind : TokenKind} (hkind : kind.Scanned)
    (width : Nat) : (lx.indicator kind width).Scanned :=
  h.emit hkind lx.mark (lx.cursor.advance width).mark

theorem Scanned.take (h : lx.Scanned) {kind : TokenKind} (hkind : kind.Scanned) (after : Cursor) :
    (lx.take kind after).Scanned := h.emit hkind lx.mark after.mark

theorem Scanned.emitBefore (h : lx.Scanned) (number : Nat) {kind : TokenKind}
    (hkind : kind.Scanned) (place : Mark) : (lx.emitBefore number kind place).Scanned := by
  intro t ht
  rcases List.eq_or_mem_of_mem_insertIdx ht with rfl | ht
  · exact hkind
  · exact h t ht

/-! ## Indentation and pending keys -/

theorem scanned_closeDeeper (column : Int) (place : Mark) (indent : Int) (outer : List Int)
    {tokens : List Token} (count : Nat) (h : ∀ t ∈ tokens, t.kind.Scanned) :
    ∀ t ∈ (closeDeeper column place indent outer tokens count).2.2.1, t.kind.Scanned := by
  induction outer generalizing indent tokens count with
  | nil => exact h
  | cons next outer ih =>
    rw [closeDeeper]
    split
    · exact ih next (count + 1) (List.forall_mem_cons.mpr ⟨trivial, h⟩)
    · exact h

theorem Scanned.unwind (h : lx.Scanned) (column : Int) : (lx.unwind column).Scanned := by
  rw [Lexer.unwind]
  split
  · exact h
  · exact scanned_closeDeeper column lx.mark lx.indent lx.outer lx.count h

theorem Scanned.deepen (h : lx.Scanned) {column : Int} {deeper : Lexer}
    (hdeeper : lx.deepen column = some deeper) : deeper.Scanned := by
  rw [Lexer.deepen] at hdeeper
  split at hdeeper
  · obtain rfl := Option.some.inj hdeeper
    exact h
  · exact nomatch hdeeper

theorem Scanned.openBlock (h : lx.Scanned) {kind : TokenKind} (hkind : kind.Scanned) :
    (lx.openBlock kind).Scanned := by
  rw [Lexer.openBlock]
  split
  · rename_i deeper hdeeper
    exact (h.deepen hdeeper).emit hkind lx.mark lx.mark
  · exact h

theorem Scanned.dropPending (h : lx.Scanned) : KeepsScanned lx.dropPending := by
  rw [Lexer.dropPending]
  split
  · split
    · trivial
    · exact h
  · exact h

theorem Scanned.dropStale (h : lx.Scanned) : KeepsScanned lx.dropStale := by
  rw [Lexer.dropStale]
  split
  · trivial
  · exact h

theorem Scanned.savePending (h : lx.Scanned) : KeepsScanned lx.savePending := by
  rw [Lexer.savePending]
  split
  · exact h
  · exact h.dropPending.bind fun lx hlx => hlx

/-! ## One token -/

theorem Scanned.streamEnd (h : lx.Scanned) : KeepsScanned lx.streamEnd := by
  have hend : TokenKind.Scanned .streamEnd := trivial
  rw [Lexer.streamEnd]
  exact (h.unwind (-1)).dropPending.bind fun lx hlx => hlx.emit hend lx.mark lx.mark

theorem Scanned.directive (h : lx.Scanned) : KeepsScanned lx.directive := by
  have hdirective : ∀ content, TokenKind.Scanned (.directive content) := fun _ => trivial
  rw [Lexer.directive]
  refine (h.unwind (-1)).dropPending.bind fun lx hlx => ?_
  refine (Ensures.any (Property.directive lx.cursor)).bind fun line _ => ?_
  exact hlx.emit (hdirective line.1) lx.mark line.2.1

theorem Scanned.documentMarker (h : lx.Scanned) {kind : TokenKind} (hkind : kind.Scanned) :
    KeepsScanned (lx.documentMarker kind) := by
  rw [Lexer.documentMarker]
  exact (h.unwind (-1)).dropPending.bind fun lx hlx => hlx.indicator hkind 3

theorem Scanned.flowStart (h : lx.Scanned) {kind : TokenKind} (hkind : kind.Scanned) :
    KeepsScanned (lx.flowStart kind) := by
  rw [Lexer.flowStart]
  exact h.savePending.bind fun lx hlx => hlx.indicator hkind 1

theorem Scanned.flowEnd (h : lx.Scanned) {kind : TokenKind} (hkind : kind.Scanned) :
    KeepsScanned (lx.flowEnd kind) := by
  rw [Lexer.flowEnd]
  exact h.dropPending.bind fun lx hlx => hlx.indicator hkind 1

theorem Scanned.flowEntry (h : lx.Scanned) : KeepsScanned lx.flowEntry := by
  have hentry : TokenKind.Scanned .flowEntry := trivial
  rw [Lexer.flowEntry]
  exact h.dropPending.bind fun lx hlx => hlx.indicator hentry 1

/-- The lexer when an indicator has opened a block collection, if it had to. -/
theorem Scanned.openIf (h : lx.Scanned) (c : Prop) [Decidable c] {kind : TokenKind}
    (hkind : kind.Scanned) : (if c then lx.openBlock kind else lx).Scanned := by
  split
  · exact h.openBlock hkind
  · exact h

theorem Scanned.blockEntry (h : lx.Scanned) : KeepsScanned lx.blockEntry := by
  have hentry : TokenKind.Scanned .blockEntry := trivial
  have hstart : TokenKind.Scanned .blockSequenceStart := trivial
  rw [Lexer.blockEntry]
  dsimp only
  split
  · trivial
  · exact (h.openIf _ hstart).dropPending.bind fun lx hlx => hlx.indicator hentry 1

theorem Scanned.key (h : lx.Scanned) : KeepsScanned lx.key := by
  have hkey : TokenKind.Scanned .key := trivial
  have hstart : TokenKind.Scanned .blockMappingStart := trivial
  rw [Lexer.key]
  dsimp only
  split
  · trivial
  · exact (h.openIf _ hstart).dropPending.bind fun lx hlx => hlx.indicator hkey 1

theorem Scanned.value (h : lx.Scanned) : KeepsScanned lx.value := by
  have hkey : TokenKind.Scanned .key := trivial
  have hvalue : TokenKind.Scanned .value := trivial
  have hstart : TokenKind.Scanned .blockMappingStart := trivial
  rw [Lexer.value]
  split
  · rename_i key hpending
    have hkeyed : ∀ pending, ({ lx with pending := pending }.emitBefore key.number .key
        key.mark).Scanned := fun pending =>
      have hpending : Scanned { lx with pending := pending } := h
      hpending.emitBefore key.number hkey key.mark
    refine Scanned.indicator ?_ hvalue 1
    split
    · split
      · rename_i deeper hdeeper
        exact ((hkeyed _).deepen hdeeper).emitBefore key.number hstart key.mark
      · exact hkeyed _
    · exact hkeyed _
  · dsimp only
    split
    · trivial
    · have hopen := h.openIf ((lx.depth == 0) = true) hstart
      have hpending : ∀ allowed, Scanned
          { (if (lx.depth == 0) = true then lx.openBlock .blockMappingStart else lx) with
            keyAllowed := allowed } := fun _ => hopen
      exact (hpending _).dropPending.bind fun lx hlx => hlx.indicator hvalue 1

theorem Scanned.reference (h : lx.Scanned) (activity : Activity) {kind : String → TokenKind}
    (hkind : ∀ name, (kind name).Scanned) : KeepsScanned (lx.reference activity kind) := by
  rw [Lexer.reference]
  refine h.savePending.bind fun lx hlx => ?_
  refine (Ensures.any (Property.reference activity lx.cursor)).bind fun name _ => ?_
  exact hlx.take (hkind name.1) name.2

theorem Scanned.tag (h : lx.Scanned) : KeepsScanned lx.tag := by
  have htag : ∀ name, TokenKind.Scanned (.tag name) := fun _ => trivial
  rw [Lexer.tag]
  refine h.savePending.bind fun lx hlx => ?_
  refine (Ensures.any (Property.tag lx.cursor)).bind fun name _ => ?_
  exact hlx.take (htag name.1) name.2

theorem Scanned.blockScalar (h : lx.Scanned) (folded : Bool) :
    KeepsScanned (lx.blockScalar folded) := by
  have hscalar : ∀ text, TokenKind.Scanned (.scalar text false) := fun _ => trivial
  rw [Lexer.blockScalar]
  refine h.dropPending.bind fun lx hlx => ?_
  refine (Ensures.any (Block.scan folded lx.indent lx.cursor)).bind fun content _ => ?_
  exact hlx.take (hscalar _) content.2

theorem Scanned.quotedScalar (h : lx.Scanned) (double : Bool) :
    KeepsScanned (lx.quotedScalar double) := by
  have hscalar : ∀ text, TokenKind.Scanned (.scalar text false) := fun _ => trivial
  rw [Lexer.quotedScalar]
  refine h.savePending.bind fun lx hlx => ?_
  refine (Ensures.any (Quoted.scan double lx.mark .text [] lx.cursor.next.rest
    lx.cursor.next.mark)).bind fun content _ => ?_
  exact hlx.take (hscalar _) content.2

/-- Remembering a place leaves the cursor where it is. -/
theorem cursor_dropPending (lx : Lexer) :
    Ensures (fun _ => True) (fun after => after.cursor = lx.cursor) lx.dropPending := by
  rw [Lexer.dropPending]
  split
  · exact .ite trivial rfl
  · rfl

theorem cursor_savePending (lx : Lexer) :
    Ensures (fun _ => True) (fun after => after.cursor = lx.cursor) lx.savePending := by
  rw [Lexer.savePending]
  split
  · rfl
  · exact lx.cursor_dropPending.bind fun after hafter => hafter

theorem Scanned.plainScalar (h : lx.Scanned) {inFlow : Bool} {c : Char} {cs : List Char}
    (hrest : lx.cursor.rest = c :: cs) (hstart : startsPlain inFlow c cs.head? = true) :
    KeepsScanned lx.plainScalar := by
  rw [Lexer.plainScalar]
  refine (Ensures.and h.savePending lx.cursor_savePending).bind fun after ⟨hafter, hcursor⟩ => ?_
  generalize hscan : Plain.scan (after.depth ≠ 0) (after.indent + 1) .text [] after.mark
    after.cursor.rest after.mark = r
  have hscalar : TokenKind.Scanned (.scalar (String.ofList r.content) true) := by
    constructor
    · rw [String.toList_ofList, ← hscan, hcursor, hrest]
      exact Plain.begins_content_scan hstart _ _ _ _
    · rw [String.toList_ofList, ← hscan]
      exact Plain.getLast?_content_scan _ _ _ _ _ _ _ (by simp)
  exact hafter.emit hscalar after.mark _

/-- Whatever token stands at the cursor. -/
theorem Scanned.token (h : lx.Scanned) : KeepsScanned lx.token := by
  have hkinds : TokenKind.Scanned .documentStart ∧ TokenKind.Scanned .documentEnd
      ∧ TokenKind.Scanned .flowSequenceStart ∧ TokenKind.Scanned .flowMappingStart
      ∧ TokenKind.Scanned .flowSequenceEnd ∧ TokenKind.Scanned .flowMappingEnd :=
    ⟨trivial, trivial, trivial, trivial, trivial, trivial⟩
  obtain ⟨hds, hde, hss, hms, hse, hme⟩ := hkinds
  rw [Lexer.token]
  dsimp only
  split
  · exact h.streamEnd
  · rename_i c cs hrest
    refine .ite h.directive (.ite (h.documentMarker hds) (.ite (h.documentMarker hde) ?_))
    refine .ite (h.flowStart hss) (.ite (h.flowStart hms) ?_)
    refine .ite (h.flowEnd hse) (.ite (h.flowEnd hme) (.ite h.flowEntry ?_))
    refine .ite h.blockEntry (.ite h.key (.ite h.value ?_))
    refine .ite (h.reference .alias fun _ => trivial) ?_
    refine .ite (h.reference .anchor fun _ => trivial) ?_
    refine .ite h.tag (.ite (h.blockScalar false) (.ite (h.blockScalar true) ?_))
    refine .ite (h.quotedScalar false) (.ite (h.quotedScalar true) ?_)
    split
    · rename_i hstart
      exact h.plainScalar hrest hstart
    · trivial

/-! ## All tokens -/

theorem Scanned.round (h : lx.Scanned) : KeepsScanned lx.round := by
  have hnext : lx.toToken.Scanned := h
  rw [Lexer.round]
  exact hnext.dropStale.bind fun lx hlx => (hlx.unwind lx.mark.column).token

theorem Scanned.readable (h : lx.Scanned) : ∀ t ∈ lx.readable, t.kind.Scanned := fun t ht =>
  h t (List.mem_reverse.mp (List.mem_of_mem_take ht))

/-- Any number of rounds gives only such tokens. -/
theorem Scanned.run (h : lx.Scanned) (rounds : Nat) :
    ∀ t ∈ (run rounds lx).tokens, t.kind.Scanned := by
  induction rounds generalizing lx with
  | zero => exact h.readable
  | succ rounds ih =>
    rw [Lexer.run]
    have hround := h.round
    cases hafter : lx.round with
    | error fault => exact h.readable
    | ok after =>
      rw [hafter] at hround
      have hstale := Scanned.dropStale hround
      dsimp only
      split
      · exact fun t ht => hround t (List.mem_reverse.mp ht)
      · split
        · exact h.readable
        · rename_i hdrop
          rw [hdrop] at hstale
          exact ih hstale

end Lexer

/-- No plain scalar of a text has a line feed at its end. -/
theorem Tokens.scanned_ofText (cs : List Char) :
    ∀ t ∈ (Tokens.ofText cs).tokens, t.kind.Scanned := by
  rw [Tokens.ofText]
  split
  · exact fun t ht => nomatch ht
  · have hstart : (Lexer.start cs).Scanned := fun t ht => absurd ht List.not_mem_nil
    exact hstart.run (cs.length + 1)

end ComposeNix.Yaml
