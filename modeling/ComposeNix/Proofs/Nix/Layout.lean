import ComposeNix.Proofs.Nix.Collapse
import ComposeNix.Proofs.Nix.Nesting

/-!
# Empty lines in a layout

The layout of an expression has no two empty lines in a row of its own making.  What
`collapse` drops from it are line feeds inside of texts: collapsing the layout of an
expression is laying out the expression with each of its texts collapsed
(`solid_expr`, `solid_renderBlock`).  So the pass never touches what is written around the
texts, and it reaches into every text.

The proof follows the layout.  A text is `Solid` if it begins and ends away from line feeds, so
that what it collapses to does not depend on what stands before it and it leaves no run
behind; it `Leads` if it can stand in front of any solid text.
-/

namespace ComposeNix.Nix

/-! ## Texts in front of each other -/

/-- Wherever `a` stands it is collapsed to `b`, and it does not end with a line feed. -/
def Solid (a b : List Char) : Prop := ∀ run, collapseAfter run a = b ∧ runAfter run a = 0

/-- In front of a solid text, `a` is collapsed to `b`, and the whole is solid again. -/
def Leads (a b : List Char) : Prop := ∀ t t', Solid t t' → Solid (a ++ t) (b ++ t')

theorem Solid.collapse_eq {a b : List Char} (h : Solid a b) : collapse a = b := (h 0).1

theorem Solid.append {a a' b b' : List Char} (ha : Solid a a') (hb : Solid b b') :
    Solid (a ++ b) (a' ++ b') := by
  intro run
  rw [collapseAfter_append, runAfter_append, (ha run).1, (ha run).2, (hb 0).1, (hb 0).2]
  exact ⟨rfl, rfl⟩

theorem Solid.leads {a b : List Char} (h : Solid a b) : Leads a b := fun _ _ ht => h.append ht

theorem leads_nil : Leads [] [] := fun _ _ ht => ht

theorem Leads.append {a a' b b' : List Char} (ha : Leads a a') (hb : Leads b b') :
    Leads (a ++ b) (a' ++ b') := by
  intro t t' ht
  rw [List.append_assoc, List.append_assoc]
  exact ha _ _ (hb t t' ht)

theorem collapseAfter_of_notMem {a : List Char} (h : '\n' ∉ a) (run : Nat) :
    collapseAfter run a = a := by
  induction a generalizing run with
  | nil => rfl
  | cons c a ih =>
    rw [List.mem_cons, not_or] at h
    rw [collapseAfter, if_neg (Ne.symm h.1), ih h.2]

theorem runAfter_of_notMem {a : List Char} (h : '\n' ∉ a) (ha : a ≠ []) (run : Nat) :
    runAfter run a = 0 := by
  induction a generalizing run with
  | nil => exact absurd rfl ha
  | cons c a ih =>
    rw [List.mem_cons, not_or] at h
    rw [runAfter, if_neg (Ne.symm h.1)]
    cases a with
    | nil => rfl
    | cons d a => exact ih h.2 (List.cons_ne_nil d a) 0

/-- A text without line feeds is solid. -/
theorem solid_of_notMem {a : List Char} (h : '\n' ∉ a) (ha : a ≠ []) : Solid a a := by
  intro run
  exact ⟨collapseAfter_of_notMem h run, runAfter_of_notMem h ha run⟩

theorem leads_of_notMem {a : List Char} (h : '\n' ∉ a) : Leads a a := by
  by_cases ha : a = []
  · exact ha ▸ leads_nil
  · exact (solid_of_notMem h ha).leads

theorem leads_indent (depth : Nat) : Leads (indent depth) (indent depth) := by
  refine leads_of_notMem ?_
  intro h
  exact absurd (List.eq_of_mem_replicate h) (by decide)

/-- A line feed behind a solid text is kept. -/
theorem Solid.newline {a b : List Char} (h : Solid a b) :
    Leads (a ++ ['\n']) (b ++ ['\n']) := by
  intro t t' ht run
  have hline : collapseAfter 0 ['\n'] = ['\n'] ∧ runAfter 0 ['\n'] = 1 := by decide
  simp only [collapseAfter_append, runAfter_append, (h run).1, (h run).2, hline.1, hline.2,
    (ht 1).1, (ht 1).2, and_self]

/-- An empty line behind a solid text is kept. -/
theorem Solid.gap {a b : List Char} (h : Solid a b) :
    Leads (a ++ ['\n', '\n']) (b ++ ['\n', '\n']) := by
  intro t t' ht run
  have hgap : collapseAfter 0 ['\n', '\n'] = ['\n', '\n'] ∧ runAfter 0 ['\n', '\n'] = 2 := by
    decide
  simp only [collapseAfter_append, runAfter_append, (h run).1, (h run).2, hgap.1, hgap.2,
    (ht 2).1, (ht 2).2, and_self]

/-! ## Literals -/

theorem head?_collapse (cs : List Char) : (collapse cs).head? = cs.head? := by
  cases cs with
  | nil => rfl
  | cons c cs =>
    rw [collapse, collapseAfter, if_pos Nat.two_pos]
    split_ifs <;> rfl

/-- A character that needs no backslash is written as it is. -/
theorem escape_cons {c : Char} {cs : List Char} (hb : c ≠ '\\') (hq : c ≠ '"')
    (hd : c = '$' → cs.head? ≠ some '{') : escape (c :: cs) = c :: escape cs := by
  rw [escape.eq_def]
  split <;> simp_all

/-- Escaping and collapsing do not get in each other's way. -/
theorem collapseAfter_escape (run : Nat) (cs : List Char) :
    collapseAfter run (escape cs) = escape (collapseAfter run cs) := by
  fun_induction escape cs generalizing run with
  | case1 => rfl
  | case2 cs ih => simp [collapseAfter, escape, ih]
  | case3 cs ih => simp [collapseAfter, escape, ih]
  | case4 cs ih => simp [collapseAfter, escape, ih]
  | case5 c cs hb hq hd ih =>
    have hdollar : c = '$' → (collapse cs).head? ≠ some '{' := by
      intro hc hcs
      rw [head?_collapse] at hcs
      obtain ⟨cs', rfl⟩ := List.head?_eq_some_iff.mp hcs
      exact hd cs' hc rfl
    simp only [collapseAfter]
    split_ifs with hc hlt
    · rw [ih, escape_cons hb hq fun h => absurd (hc.symm.trans h) (by decide)]
    · exact ih run
    · rw [ih]
      exact (escape_cons hb hq hdollar).symm

theorem collapse_escape (cs : List Char) : collapse (escape cs) = escape (collapse cs) :=
  collapseAfter_escape 0 cs

/-- A text between two characters that are no line feeds is collapsed on its own. -/
theorem solid_enclosed {c d : Char} (hc : c ≠ '\n') (hd : d ≠ '\n') (cs : List Char) :
    Solid (c :: cs ++ [d]) (c :: collapse cs ++ [d]) := by
  intro run
  constructor
  · rw [List.cons_append, collapseAfter, if_neg hc, collapseAfter_append, collapseAfter,
      if_neg hd]
    rfl
  · rw [List.cons_append, runAfter, if_neg hc, runAfter_append, runAfter, if_neg hd]
    rfl

theorem solid_quote (cs : List Char) : Solid (quote cs) (quote (collapse cs)) := by
  have h := solid_enclosed (c := '"') (d := '"') (by decide) (by decide) (escape cs)
  rwa [collapse_escape] at h

/-! ## Expressions with collapsed texts -/

/-- A piece with its text collapsed. -/
def Piece.collapse : Piece → Piece
  | .text cs => .text (Nix.collapse cs)
  | .hole path => .hole path

/-- A name with its runs of line feeds cut down. -/
def collapseName (name : String) : String := String.ofList (Nix.collapse name.toList)

/-- A step of a path with its name collapsed. -/
def Attr.collapse : Attr → Attr
  | .word name => .word name
  | .quoted name => .quoted (collapseName name)
  | .named name => .named (collapseName name)

mutual

/-- An expression with every text in it collapsed. -/
def Expr.collapse : Expr → Expr
  | .string pieces => .string (pieces.map Piece.collapse)
  | .word name => .word name
  | .override value => .override value.collapse
  | .row items => .row (collapseItems items)
  | .column items => .column (collapseItems items)
  | .set gaps bindings => .set gaps (collapseBindings bindings)
termination_by structural e => e

def collapseItems : List Expr → List Expr
  | [] => []
  | e :: es => e.collapse :: collapseItems es
termination_by structural es => es

/-- Bindings with every text in them collapsed. -/
def collapseBindings : List (List Attr × Expr) → List (List Attr × Expr)
  | [] => []
  | b :: bs => collapseBinding b :: collapseBindings bs
termination_by structural bs => bs

/-- A binding with every text in it collapsed. -/
def collapseBinding : List Attr × Expr → List Attr × Expr
  | (path, value) => (path.map Attr.collapse, value.collapse)
termination_by structural b => b

end

theorem collapseBindings_eq_map (bs : List Binding) :
    collapseBindings bs = bs.map collapseBinding := by
  induction bs with
  | nil => rfl
  | cons b bs ih => rw [collapseBindings, ih, List.map_cons]

/-- A path of names has no line feed. -/
theorem newline_notMem_of_isPathChar {path : List Char} (h : ∀ c ∈ path, isPathChar c = true) :
    '\n' ∉ path := fun hmem => absurd (h '\n' hmem) (by decide)

/-- A string is collapsed piece by piece. -/
theorem collapse_flatMap_pieces {pieces : List Piece} (h : PiecesWellFormed pieces) :
    collapse (pieces.flatMap Piece.render)
      = (pieces.map Piece.collapse).flatMap Piece.render := by
  fun_induction PiecesWellFormed pieces with
  | case1 => rfl
  | case2 cs => simp [Piece.render, Piece.collapse, collapse_escape]
  | case3 path ps ih =>
    have hpath : '\n' ∉ (Piece.hole path).render := by
      simp [Piece.render, newline_notMem_of_isPathChar h.1]
    have hsolid := solid_of_notMem hpath (by simp [Piece.render])
    rw [List.flatMap_cons, List.map_cons, List.flatMap_cons, ← ih h.2, collapse,
      collapseAfter_append, (hsolid 0).1, (hsolid 0).2]
    rfl
  | case4 => exact h.elim

/-! ## Names -/

theorem newline_notMem_of_isWord {w : List Char} (h : isWord w = true) : '\n' ∉ w := by
  intro hmem
  cases w with
  | nil => simp at hmem
  | cons c cs =>
    rw [isWord, Bool.and_eq_true, List.all_eq_true] at h
    rcases List.mem_cons.mp hmem with rfl | hcs
    · exact absurd h.1 (by decide)
    · exact absurd (h.2 '\n' hcs) (by decide)

/-- A plain name is a word, or a word with one line feed behind it. -/
theorem eq_word_or_word_newline {name : List Char} (h : isPlainName name = true) :
    ∃ w, isWord w = true ∧ (name = w ∨ name = w ++ ['\n']) := by
  obtain ⟨hword, hend⟩ := isWord_takeWhile_of_isPlainName h
  have hsplit := List.takeWhile_append_dropWhile (p := isWordChar) (l := name)
  refine ⟨name.takeWhile isWordChar, hword, ?_⟩
  rcases hend with hend | hend <;> rw [hend] at hsplit
  · exact Or.inl (by rw [List.append_nil] at hsplit; exact hsplit.symm)
  · exact Or.inr hsplit.symm

theorem count_newline_of_isPlainName {name : List Char} (h : isPlainName name = true) :
    name.count '\n' ≤ 1 := by
  obtain ⟨w, hw, rfl | rfl⟩ := eq_word_or_word_newline h
  · rw [List.count_eq_zero.mpr (newline_notMem_of_isWord hw)]
    exact Nat.zero_le 1
  · rw [List.count_append, List.count_eq_zero.mpr (newline_notMem_of_isWord hw)]
    exact le_rfl

/-- A plain name is left alone. -/
theorem collapse_of_isPlainName {name : List Char} (h : isPlainName name = true) :
    collapse name = name := by
  refine (collapse_eq_self_iff name).mpr fun hrun => ?_
  have hcount : 3 ≤ name.count '\n' := hrun.sublist.count_le '\n'
  have hname := count_newline_of_isPlainName h
  omega

/-- Which names are written bare does not depend on runs of line feeds. -/
theorem isPlainName_collapse (name : List Char) :
    isPlainName (collapse name) = isPlainName name := by
  by_cases h : collapse name = name
  · rw [h]
  · -- neither name is plain: the collapsed one has an empty line
    have hname : isPlainName name = false := by
      by_contra hname
      exact h (collapse_of_isPlainName (by simpa using hname))
    have hcollapse : isPlainName (collapse name) = false := by
      by_contra hplain
      have hrun := (gap_infix_collapseAfter_or_eq 0 name).resolve_left h
      have hcount : 2 ≤ (collapse name).count '\n' := hrun.sublist.count_le '\n'
      have hname := count_newline_of_isPlainName (by simpa using hplain)
      omega
    rw [hname, hcollapse]

theorem leads_attr {a : Attr} (h : a.WellFormed) : Leads a.render a.collapse.render := by
  cases a with
  | word name => exact leads_of_notMem (newline_notMem_of_isWord h)
  | quoted name =>
    simpa [Attr.render, Attr.collapse, collapseName] using (solid_quote name.toList).leads
  | named name =>
    simp only [Attr.render, Attr.collapse, collapseName, attributeName, String.toList_ofList,
      isPlainName_collapse]
    split_ifs with hname
    · rw [collapse_of_isPlainName hname]
      obtain ⟨w, hw, hend⟩ := eq_word_or_word_newline hname
      have hw' : w ≠ [] := by rintro rfl; simp [isWord] at hw
      have hsolid := solid_of_notMem (newline_notMem_of_isWord hw) hw'
      rcases hend with hend | hend <;> rw [hend]
      · exact hsolid.leads
      · exact hsolid.newline
    · exact (solid_quote name.toList).leads

theorem leads_renderPath {path : List Attr} (h : ∀ a ∈ path, a.WellFormed) :
    Leads (renderPath path) (renderPath (path.map Attr.collapse)) := by
  induction path with
  | nil => exact leads_nil
  | cons a path ih =>
    have ha := leads_attr (h a List.mem_cons_self)
    have hpath := ih fun b hb => h b (List.mem_cons_of_mem a hb)
    cases path with
    | nil => simpa [renderPath] using ha
    | cons b path =>
      have hdot : Leads ['.'] ['.'] := leads_of_notMem (by decide)
      simpa [renderPath, List.intercalate] using ha.append (hdot.append hpath)

/-! ## Layouts -/

/-- A dotted name has no line feed, and it is not empty. -/
theorem solid_name {name : String} (h : ∀ w ∈ dottedWords name, isWord w = true) :
    Solid name.toList name.toList := by
  have hjoin : ['.'].intercalate (dottedWords name) = name.toList := List.intercalate_splitOn '.'
  refine solid_of_notMem (fun hmem => ?_) fun hempty => ?_
  · rw [← hjoin, List.intercalate, List.mem_flatten] at hmem
    obtain ⟨w, hw, hmem⟩ := hmem
    rcases mem_or_eq_of_mem_intersperse hw with hw | rfl
    · exact newline_notMem_of_isWord (h w hw) hmem
    · exact absurd hmem (by decide)
  · have hword := h [] (by rw [dottedWords, hempty]; decide)
    exact absurd hword (by decide)

mutual

/-- A layout is collapsed by collapsing the texts in it. -/
theorem solid_expr : ∀ (e : Expr) (depth : Nat), e.WellFormed →
    Solid (e.render depth) (e.collapse.render depth)
  | .string pieces, depth, h => by
    have hpieces := solid_enclosed (c := '"') (d := '"') (by decide) (by decide)
      (pieces.flatMap Piece.render)
    rw [collapse_flatMap_pieces h] at hpieces
    exact hpieces
  | .word name, _, h => solid_name h
  | .override value, depth, h => by
    have hlead : Leads "lib.mkOverride 90 ".toList "lib.mkOverride 90 ".toList :=
      leads_of_notMem (by decide)
    exact hlead _ _ (solid_expr value depth h)
  | .row items, depth, h => by
    have hopen : Leads ['['] ['['] := leads_of_notMem (by decide)
    have hclose : Solid " ]".toList " ]".toList := solid_of_notMem (by decide) (by decide)
    exact hopen.append (leads_renderRow items depth h) _ _ hclose
  | .column items, depth, h => by
    have hopen : Leads "[\n".toList "[\n".toList :=
      (solid_of_notMem (a := ['[']) (by decide) (by decide)).newline
    have hclose : Solid [']'] [']'] := solid_of_notMem (by decide) (by decide)
    have hcolumn := hopen.append (leads_renderColumn items (depth + 1) h)
    exact hcolumn.append (leads_indent depth) _ _ hclose
  | .set gaps bindings, depth, h => by
    have hopen : Leads "\x7b\n".toList "\x7b\n".toList :=
      (solid_of_notMem (a := ['{']) (by decide) (by decide)).newline
    have hclose : Solid ['}'] ['}'] := solid_of_notMem (by decide) (by decide)
    have hset := hopen.append (leads_renderBindings bindings (depth + 1) gaps h)
    exact hset.append (leads_indent depth) _ _ hclose

theorem leads_renderRow : ∀ (es : List Expr) (depth : Nat), ItemsWellFormed es →
    Leads (renderRow depth es) (renderRow depth (collapseItems es))
  | [], _, _ => leads_nil
  | e :: es, depth, h => by
    have hspace : Leads [' '] [' '] := leads_of_notMem (by decide)
    have hitem := hspace.append (solid_expr e depth h.1).leads
    exact hitem.append (leads_renderRow es depth h.2)

theorem leads_renderColumn : ∀ (es : List Expr) (depth : Nat), ItemsWellFormed es →
    Leads (renderColumn depth es) (renderColumn depth (collapseItems es))
  | [], _, _ => leads_nil
  | e :: es, depth, h => by
    have hitem := (leads_indent depth).append (solid_expr e depth h.1).newline
    rw [collapseItems, renderColumn_cons, renderColumn_cons]
    simpa using hitem.append (leads_renderColumn es depth h.2)

theorem leads_renderBindings : ∀ (bs : List Binding) (depth : Nat) (gaps : Bool),
    BindingsWellFormed bs →
      Leads (renderBindings depth gaps bs) (renderBindings depth gaps (collapseBindings bs))
  | [], _, _, _ => leads_nil
  | b :: bs, depth, gaps, h => by
    have hb := (leads_indent depth) _ _ (solid_renderBinding b depth h.1)
    have hbs := leads_renderBindings bs depth gaps h.2
    have hempty : (collapseBindings bs).isEmpty = bs.isEmpty := by cases bs <;> rfl
    rw [collapseBindings, renderBindings_cons, renderBindings_cons, hempty]
    split
    · simpa using hb.gap.append hbs
    · simpa using hb.newline.append hbs

theorem solid_renderBinding : ∀ (b : Binding) (depth : Nat), BindingWellFormed b →
    Solid (renderBinding depth b) (renderBinding depth (collapseBinding b))
  | (path, value), depth, h => by
    have hequals : Leads " = ".toList " = ".toList := leads_of_notMem (by decide)
    have hend : Solid [';'] [';'] := solid_of_notMem (by decide) (by decide)
    have hvalue := (solid_expr value depth h.2).append hend
    have hbinding := leads_renderPath h.1.attrs _ _ (hequals _ _ hvalue)
    simpa [renderBinding_mk, collapseBinding] using hbinding

end

/-! ## Collapsed expressions can be read -/

theorem Attr.WellFormed.collapse {a : Attr} (h : a.WellFormed) : a.collapse.WellFormed := by
  cases a with
  | word name => exact h
  | quoted name => trivial
  | named name => trivial

theorem PathWellFormed.collapse {path : List Attr} (h : PathWellFormed path) :
    PathWellFormed (path.map Attr.collapse) := by
  fun_induction PathWellFormed path with
  | case1 => exact h.elim
  | case2 a => exact Attr.WellFormed.collapse h
  | case3 a b path ih => exact ⟨h.1.collapse, ih h.2⟩

theorem piecesWellFormed_collapse {pieces : List Piece} (h : PiecesWellFormed pieces) :
    PiecesWellFormed (pieces.map Piece.collapse) := by
  fun_induction PiecesWellFormed pieces with
  | case1 => trivial
  | case2 cs => trivial
  | case3 path ps ih => exact ⟨h.1, ih h.2⟩
  | case4 => exact h.elim

mutual

theorem wellFormed_collapse : ∀ e : Expr, e.WellFormed → e.collapse.WellFormed
  | .string _, h => piecesWellFormed_collapse h
  | .word _, h => h
  | .override value, h => wellFormed_collapse value h
  | .row items, h => itemsWellFormed_collapse items h
  | .column items, h => itemsWellFormed_collapse items h
  | .set _ bindings, h => bindingsWellFormed_collapse bindings h

theorem itemsWellFormed_collapse :
    ∀ es : List Expr, ItemsWellFormed es → ItemsWellFormed (collapseItems es)
  | [], _ => trivial
  | e :: es, h => ⟨wellFormed_collapse e h.1, itemsWellFormed_collapse es h.2⟩

theorem bindingsWellFormed_collapse :
    ∀ bs : List Binding, BindingsWellFormed bs → BindingsWellFormed (collapseBindings bs)
  | [], _ => trivial
  | b :: bs, h => ⟨bindingWellFormed_collapse b h.1, bindingsWellFormed_collapse bs h.2⟩

theorem bindingWellFormed_collapse :
    ∀ b : Binding, BindingWellFormed b → BindingWellFormed (collapseBinding b)
  | (_, value), h => ⟨h.1.collapse, wellFormed_collapse value h.2⟩

end

/-! ## Antiquotations are left alone -/

theorem holesOf_pieces_collapse (pieces : List Piece) :
    holesOf [(pieces.map Piece.collapse).flatMap Piece.letters]
      = holesOf [pieces.flatMap Piece.letters] := by
  induction pieces with
  | nil => rfl
  | cons p ps ih =>
    have hp : holesOf [p.collapse.letters] = holesOf [p.letters] := by
      cases p with
      | text cs => exact (holesOf_chars _).trans (holesOf_chars cs).symm
      | hole path => rfl
    rw [List.map_cons, List.flatMap_cons, List.flatMap_cons, holesOf_singleton_append,
      holesOf_singleton_append, hp, ih]

mutual

/-- An expression has the same antiquotations when its texts are collapsed. -/
theorem holes_collapse : ∀ e : Expr, e.collapse.holes = e.holes
  | .string pieces => holesOf_pieces_collapse pieces
  | .word _ => rfl
  | .override value => holes_collapse value
  | .row items => by
    rw [Expr.collapse, Expr.holes_row, Expr.holes_row, holes_collapseItems items]
  | .column items => by
    rw [Expr.collapse, Expr.holes_column, Expr.holes_column, holes_collapseItems items]
  | .set gaps bindings => by
    rw [Expr.collapse, Expr.holes_set, Expr.holes_set, holes_collapseBindings bindings]

theorem holes_collapseItems :
    ∀ es : List Expr, (collapseItems es).flatMap Expr.holes = es.flatMap Expr.holes
  | [] => rfl
  | e :: es => by
    rw [collapseItems, List.flatMap_cons, List.flatMap_cons, holes_collapse e,
      holes_collapseItems es]

theorem holes_collapseBindings : ∀ bs : List Binding,
    ((collapseBindings bs).flatMap fun b => b.2.holes) = bs.flatMap fun b => b.2.holes
  | [] => rfl
  | b :: bs => by
    rw [collapseBindings, List.flatMap_cons, List.flatMap_cons, holes_collapseBinding b,
      holes_collapseBindings bs]

theorem holes_collapseBinding : ∀ b : Binding, (collapseBinding b).2.holes = b.2.holes
  | (_, value) => holes_collapse value

end

/-! ## Blocks -/

/-- A block begins and ends away from line feeds, and is collapsed by collapsing its texts. -/
theorem solid_renderBlock {bs : List Binding} (h : BindingsWellFormed bs) (hbs : bs ≠ []) :
    Solid (renderBlock bs) (renderBlock (collapseBindings bs)) := by
  induction bs with
  | nil => exact absurd rfl hbs
  | cons b bs ih =>
    have hb := leads_indent 1 _ _ (solid_renderBinding b 1 h.1)
    cases bs with
    | nil => simpa [renderBlock, collapseBindings] using hb
    | cons b' bs =>
      simpa [renderBlock, collapseBindings, List.intercalate]
        using hb.newline _ _ (ih h.2 (List.cons_ne_nil b' bs))

end ComposeNix.Nix
