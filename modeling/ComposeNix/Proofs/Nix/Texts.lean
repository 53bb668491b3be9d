import ComposeNix.Proofs.Nix.Layout

/-!
# The texts of a layout

Which texts does collapsing a layout reach?  Every text of an expression stands in its layout,
escaped (`escape_textOf_infix_expr`), and a run of line feeds is no shorter for being escaped.
So a block is left alone exactly if none of its texts has three line feeds in a row: a text
that has them cannot stand in what was collapsed, and without such texts there is nothing to
drop (`collapse_of_textsKept`).  `renderBlock_infix_collapse_iff` is both directions at once,
for a block at any place of a collapsed text.
-/

namespace ComposeNix.Nix

/-! ## Texts that are left alone -/

/-- The text of a literal, without its antiquotations. -/
def textOf (letters : List Letter) : List Char :=
  letters.filterMap fun letter =>
    match letter with
    | .char c => some c
    | .hole _ => none

theorem textOf_map_char (cs : List Char) : textOf (cs.map .char) = cs := by
  rw [textOf, List.filterMap_map]
  exact List.filterMap_some

theorem textOf_append (a b : List Letter) : textOf (a ++ b) = textOf a ++ textOf b :=
  List.filterMap_append

/-- The text of a string is the text of its last piece. -/
theorem textOf_pieces_hole (path : String) (ps : List Piece) :
    textOf ((Piece.hole path :: ps).flatMap Piece.letters) = textOf (ps.flatMap Piece.letters) := by
  rw [List.flatMap_cons, textOf_append]
  rfl

/-- The text of a string stands in its layout, escaped. -/
theorem escape_textOf_infix_pieces {pieces : List Piece} (h : PiecesWellFormed pieces) :
    escape (textOf (pieces.flatMap Piece.letters)) <:+: pieces.flatMap Piece.render := by
  fun_induction PiecesWellFormed pieces with
  | case1 => exact List.infix_rfl
  | case2 cs =>
    simp only [List.flatMap_singleton, Piece.letters, Piece.render, textOf_map_char]
    exact List.infix_rfl
  | case3 path ps ih =>
    rw [textOf_pieces_hole, List.flatMap_cons]
    exact (ih h.2).trans (List.suffix_append _ _).isInfix
  | case4 => exact h.elim

/-- A string whose text has no long run is left alone. -/
theorem map_collapse_pieces {pieces : List Piece} (h : PiecesWellFormed pieces)
    (ht : collapse (textOf (pieces.flatMap Piece.letters))
      = textOf (pieces.flatMap Piece.letters)) :
    pieces.map Piece.collapse = pieces := by
  fun_induction PiecesWellFormed pieces with
  | case1 => rfl
  | case2 cs =>
    simp only [List.flatMap_singleton, Piece.letters, textOf_map_char] at ht
    rw [List.map_singleton, Piece.collapse, ht]
  | case3 path ps ih =>
    rw [textOf_pieces_hole] at ht
    rw [List.map_cons, ih h.2 ht]
    rfl
  | case4 => exact h.elim

/-- Whether no text between quotes has a long run. -/
def TextsKept (literals : List (List Letter)) : Prop :=
  ∀ ls ∈ literals, ¬ longRun <:+: textOf ls

theorem textsKept_append {a b : List (List Letter)} :
    TextsKept (a ++ b) ↔ TextsKept a ∧ TextsKept b := List.forall_mem_append

theorem collapse_attr_of_textsKept {a : Attr} (h : TextsKept a.token.literal?.toList) :
    a.collapse = a := by
  cases a with
  | word name => rfl
  | quoted name =>
    have hname := h _ (List.mem_singleton_self _)
    rw [textOf_map_char, ← collapse_eq_self_iff] at hname
    rw [Attr.collapse, collapseName, hname, String.ofList_toList]
  | named name =>
    rw [Attr.collapse, collapseName]
    by_cases hplain : isPlainName name.toList = true
    · rw [collapse_of_isPlainName hplain, String.ofList_toList]
    · rw [Attr.token, if_neg hplain] at h
      have hname := h _ (List.mem_singleton_self _)
      rw [textOf_map_char, ← collapse_eq_self_iff] at hname
      rw [hname, String.ofList_toList]

/-- A path without long runs in its quoted names is left alone. -/
theorem map_collapse_path {path : List Attr}
    (h : TextsKept (path.flatMap fun a => a.token.literal?.toList)) :
    path.map Attr.collapse = path := by
  induction path with
  | nil => rfl
  | cons a path ih =>
    rw [List.flatMap_cons, textsKept_append] at h
    rw [List.map_cons, collapse_attr_of_textsKept h.1, ih h.2]

mutual

/-- An expression without long runs in its texts is left alone. -/
theorem collapse_of_textsKept : ∀ e : Expr, e.WellFormed → TextsKept e.literals → e.collapse = e
  | .string pieces, h, ht => by
    have hpieces := ht _ (List.mem_singleton_self _)
    rw [← collapse_eq_self_iff] at hpieces
    rw [Expr.collapse, map_collapse_pieces h hpieces]
  | .word _, _, _ => rfl
  | .override value, h, ht => by rw [Expr.collapse, collapse_of_textsKept value h ht]
  | .row items, h, ht => by rw [Expr.collapse, collapseItems_of_textsKept items h ht]
  | .column items, h, ht => by rw [Expr.collapse, collapseItems_of_textsKept items h ht]
  | .set _ bindings, h, ht => by rw [Expr.collapse, collapseBindings_of_textsKept bindings h ht]

theorem collapseItems_of_textsKept : ∀ es : List Expr, ItemsWellFormed es →
    TextsKept (itemLiterals es) → collapseItems es = es
  | [], _, _ => rfl
  | e :: es, h, ht => by
    rw [itemLiterals, textsKept_append] at ht
    rw [collapseItems, collapse_of_textsKept e h.1 ht.1, collapseItems_of_textsKept es h.2 ht.2]

theorem collapseBindings_of_textsKept : ∀ bs : List Binding, BindingsWellFormed bs →
    TextsKept (bindingsLiterals bs) → collapseBindings bs = bs
  | [], _, _ => rfl
  | b :: bs, h, ht => by
    rw [bindingsLiterals, textsKept_append] at ht
    rw [collapseBindings, collapseBinding_of_textsKept b h.1 ht.1,
      collapseBindings_of_textsKept bs h.2 ht.2]

theorem collapseBinding_of_textsKept : ∀ b : Binding, BindingWellFormed b →
    TextsKept (bindingLiterals b) → collapseBinding b = b
  | (path, value), h, ht => by
    rw [bindingLiterals, textsKept_append] at ht
    rw [collapseBinding, map_collapse_path ht.1, collapse_of_textsKept value h.2 ht.2]

end

/-! ## Where the texts stand -/

/-- What stands in front of a line feed is escaped on its own. -/
theorem escape_append_newline (a b : List Char) :
    escape (a ++ '\n' :: b) = escape a ++ '\n' :: escape b := by
  fun_induction escape a with
  | case1 =>
    rw [List.nil_append, escape_cons (by decide) (by decide) fun h => absurd h (by decide)]
    rfl
  | case2 a ih => simp [escape, ih]
  | case3 a ih => simp [escape, ih]
  | case4 a ih => simp [escape, ih]
  | case5 c a hb hq hd ih =>
    have hdollar : c = '$' → (a ++ '\n' :: b).head? ≠ some '{' := by
      intro hc ha
      cases a with
      | nil => simp at ha
      | cons d a =>
        rw [List.cons_append, List.head?_cons, Option.some.injEq] at ha
        exact hd a hc (by rw [ha])
    rw [List.cons_append, escape_cons hb hq hdollar, ih]
    rfl

/-- A long run of line feeds is still one when it is escaped. -/
theorem longRun_infix_escape {cs : List Char} (h : longRun <:+: cs) : longRun <:+: escape cs := by
  obtain ⟨a, b, rfl⟩ := h
  refine ⟨escape a, escape b, ?_⟩
  have hrun : a ++ longRun ++ b = a ++ '\n' :: ([] ++ '\n' :: ([] ++ '\n' :: b)) := by
    simp [longRun]
  rw [hrun, escape_append_newline, escape_append_newline, escape_append_newline]
  simp [longRun, escape]

/-- The text of a quoted name stands in a path, escaped. -/
theorem escape_textOf_infix_attr {a : Attr} {ls : List Letter}
    (h : ls ∈ a.token.literal?.toList) : escape (textOf ls) <:+: a.render := by
  have hquote : ∀ cs : List Char, escape cs <:+: quote cs := fun cs => ⟨['"'], ['"'], rfl⟩
  cases a with
  | word name => simp [Attr.token, Token.literal?] at h
  | quoted name =>
    obtain rfl : ls = name.toList.map .char := by simpa [Attr.token, Token.literal?] using h
    rw [textOf_map_char]
    exact hquote name.toList
  | named name =>
    by_cases hplain : isPlainName name.toList = true
    · simp [Attr.token, hplain, Token.literal?] at h
    · obtain rfl : ls = name.toList.map .char := by
        simpa [Attr.token, hplain, Token.literal?] using h
      rw [textOf_map_char, Attr.render, attributeName, if_neg hplain]
      exact hquote name.toList

/-- A part of an interspersed row is a part of the row's text. -/
theorem infix_intercalate {sep x : List Char} {xs : List (List Char)} (h : x ∈ xs) :
    x <:+: sep.intercalate xs := by
  induction xs with
  | nil => simp at h
  | cons y ys ih =>
    cases ys with
    | nil =>
      obtain rfl : x = y := by simpa using h
      simp
    | cons z zs =>
      have hsplit : sep.intercalate (y :: z :: zs) = y ++ (sep ++ sep.intercalate (z :: zs)) := by
        simp [List.intercalate]
      rw [hsplit]
      rcases List.mem_cons.mp h with rfl | h
      · exact (List.prefix_append _ _).isInfix
      · exact ((ih h).trans (List.suffix_append _ _).isInfix).trans
          (List.suffix_append _ _).isInfix

mutual

/-- Every text of an expression stands in its layout, escaped. -/
theorem escape_textOf_infix_expr : ∀ (e : Expr) (depth : Nat), e.WellFormed →
    ∀ ls ∈ e.literals, escape (textOf ls) <:+: e.render depth
  | .string pieces, depth, h, ls, hls => by
    obtain rfl := List.mem_singleton.mp hls
    exact (escape_textOf_infix_pieces h).trans ⟨['"'], ['"'], rfl⟩
  | .word _, _, _, ls, hls => absurd hls List.not_mem_nil
  | .override value, depth, h, ls, hls =>
    (escape_textOf_infix_expr value depth h ls hls).trans (List.suffix_append _ _).isInfix
  | .row items, depth, h, ls, hls => by
    rw [Expr.render_row]
    exact (escape_textOf_infix_row items depth h ls hls).trans ⟨['['], " ]".toList, rfl⟩
  | .column items, depth, h, ls, hls => by
    rw [Expr.render_column, List.append_assoc]
    exact (escape_textOf_infix_column items (depth + 1) h ls hls).trans
      ⟨"[\n".toList, indent depth ++ [']'], rfl⟩
  | .set gaps bindings, depth, h, ls, hls => by
    rw [Expr.render_set, List.append_assoc]
    exact (escape_textOf_infix_bindings bindings (depth + 1) gaps h ls hls).trans
      ⟨"\x7b\n".toList, indent depth ++ ['}'], rfl⟩

theorem escape_textOf_infix_row : ∀ (es : List Expr) (depth : Nat), ItemsWellFormed es →
    ∀ ls ∈ itemLiterals es, escape (textOf ls) <:+: renderRow depth es
  | [], _, _, _, hls => absurd hls List.not_mem_nil
  | e :: es, depth, h, ls, hls => by
    rw [renderRow_cons]
    rcases List.mem_append.mp hls with hls | hls
    · exact (escape_textOf_infix_expr e depth h.1 ls hls).trans ⟨[' '], renderRow depth es, rfl⟩
    · exact (escape_textOf_infix_row es depth h.2 ls hls).trans (List.suffix_append _ _).isInfix

theorem escape_textOf_infix_column : ∀ (es : List Expr) (depth : Nat), ItemsWellFormed es →
    ∀ ls ∈ itemLiterals es, escape (textOf ls) <:+: renderColumn depth es
  | [], _, _, _, hls => absurd hls List.not_mem_nil
  | e :: es, depth, h, ls, hls => by
    rw [renderColumn_cons]
    rcases List.mem_append.mp hls with hls | hls
    · exact (escape_textOf_infix_expr e depth h.1 ls hls).trans
        ⟨indent depth, '\n' :: renderColumn depth es, rfl⟩
    · exact ((escape_textOf_infix_column es depth h.2 ls hls).trans
        (List.suffix_cons '\n' _).isInfix).trans (List.suffix_append _ _).isInfix

theorem escape_textOf_infix_bindings : ∀ (bs : List Binding) (depth : Nat) (gaps : Bool),
    BindingsWellFormed bs →
      ∀ ls ∈ bindingsLiterals bs, escape (textOf ls) <:+: renderBindings depth gaps bs
  | [], _, _, _, _, hls => absurd hls List.not_mem_nil
  | b :: bs, depth, gaps, h, ls, hls => by
    rw [renderBindings_cons]
    rcases List.mem_append.mp hls with hls | hls
    · rw [List.append_assoc]
      exact (escape_textOf_infix_binding b depth h.1 ls hls).trans ⟨indent depth, _, rfl⟩
    · exact (escape_textOf_infix_bindings bs depth gaps h.2 ls hls).trans
        (List.suffix_append _ _).isInfix

theorem escape_textOf_infix_binding : ∀ (b : Binding) (depth : Nat), BindingWellFormed b →
    ∀ ls ∈ bindingLiterals b, escape (textOf ls) <:+: renderBinding depth b
  | (path, value), depth, h, ls, hls => by
    rw [renderBinding_mk]
    rcases List.mem_append.mp hls with hls | hls
    · obtain ⟨a, ha, hls⟩ := List.mem_flatMap.mp hls
      have hattr : a.render <:+: renderPath path :=
        infix_intercalate (List.mem_map_of_mem ha)
      rw [List.append_assoc, List.append_assoc]
      exact ((escape_textOf_infix_attr hls).trans hattr).trans (List.prefix_append _ _).isInfix
    · exact (escape_textOf_infix_expr value depth h.2 ls hls).trans
        ⟨renderPath path ++ " = ".toList, [';'], rfl⟩

end

/-! ## Blocks -/

/-- Every text of a block stands in it, escaped. -/
theorem escape_textOf_infix_block {bs : List Binding} (h : BindingsWellFormed bs) :
    ∀ ls ∈ bindingsLiterals bs, escape (textOf ls) <:+: renderBlock bs := by
  induction bs with
  | nil => exact fun ls hls => absurd hls List.not_mem_nil
  | cons b bs ih =>
    intro ls hls
    have hb : indent 1 ++ renderBinding 1 b <:+: renderBlock (b :: bs) :=
      infix_intercalate List.mem_cons_self
    have hbs : renderBlock bs <:+: renderBlock (b :: bs) := by
      cases bs with
      | nil => exact List.nil_infix
      | cons b' bs =>
        refine ⟨indent 1 ++ renderBinding 1 b ++ ['\n'], [], ?_⟩
        simp [renderBlock, List.intercalate]
    rcases List.mem_append.mp hls with hls | hls
    · exact ((escape_textOf_infix_binding b 1 h.1 ls hls).trans
        (List.suffix_append _ _).isInfix).trans hb
    · exact (ih h.2 ls hls).trans hbs

/-- A block stands in a collapsed text as it was laid out exactly if none of its texts has a
long run. -/
theorem renderBlock_infix_collapse_iff {bs : List Binding} (h : BindingsWellFormed bs)
    {text : List Char} (hbs : renderBlock (collapseBindings bs) <:+: collapse text) :
    renderBlock bs <:+: collapse text ↔ TextsKept (bindingsLiterals bs) := by
  constructor
  · intro hkept ls hls hrun
    have hescaped := (longRun_infix_escape hrun).trans (escape_textOf_infix_block h ls hls)
    exact not_longRun_infix_collapse text (hescaped.trans hkept)
  · intro hkept
    rwa [collapseBindings_of_textsKept bs h hkept] at hbs

/-- No collapsed text has a long run. -/
theorem textsKept_collapseBindings {bs : List Binding} (h : BindingsWellFormed bs) :
    TextsKept (bindingsLiterals (collapseBindings bs)) := by
  by_cases hbs : bs = []
  · rw [hbs]
    exact fun ls hls => absurd hls List.not_mem_nil
  · intro ls hls hrun
    have hblock := escape_textOf_infix_block (bindingsWellFormed_collapse bs h) ls hls
    rw [← (solid_renderBlock h hbs).collapse_eq] at hblock
    exact not_longRun_infix_collapse _ ((longRun_infix_escape hrun).trans hblock)

/-- Collapsing leaves the texts of bindings as they were exactly if none has a long run. -/
theorem bindingsLiterals_collapse_eq_iff {bs : List Binding} (h : BindingsWellFormed bs) :
    bindingsLiterals (collapseBindings bs) = bindingsLiterals bs
      ↔ TextsKept (bindingsLiterals bs) := by
  constructor
  · intro heq
    rw [← heq]
    exact textsKept_collapseBindings h
  · intro hkept
    rw [collapseBindings_of_textsKept bs h hkept]

end ComposeNix.Nix
