import ComposeNix.Proofs.Nix.Token

/-!
# Brackets that nest

Tokens are grouped by their brackets, one token at a time: an opening bracket puts what
stands in front of it aside, and a closing one has to be of the innermost open kind.  So
a text has groups at all (`nest?`) exactly if it is lexically closed: its literals and
antiquotations end, its brackets nest, and nothing is open at the end.

The layout of an expression is always closed.  `reads_expr` says more: wherever it
stands, it is read as the groups `Expr.nodes` of the expression and leaves everything
around it alone, whatever texts are in it.  Those groups hold one literal for every string
of the expression and no other, which is `literalsOf_nodes`.
-/

namespace ComposeNix.Nix

/-! ## Groups -/

/-- A kind of brackets. -/
inductive Bracket
  | brace
  | square
  deriving DecidableEq, Repr

/-- The kind that a mark opens. -/
def Bracket.openedBy? : Char → Option Bracket
  | '{' => some .brace
  | '[' => some .square
  | _ => none

/-- The kind that a mark closes. -/
def Bracket.closedBy? : Char → Option Bracket
  | '}' => some .brace
  | ']' => some .square
  | _ => none

/-- A token, or what stands between two brackets. -/
inductive Node
  | token (t : Token)
  | group (bracket : Bracket) (nodes : List Node)

/-- Groups tokens by their brackets.  `before` is what stands between the innermost open
bracket and here, and `around` what stands in front of every open bracket, innermost
first. -/
def nest (around : List (Bracket × List Node)) (before : List Node) :
    List Token → Option (List Node)
  | [] => if around.isEmpty then some before else none
  | .fault :: _ => none
  | .mark c :: ts =>
    match Bracket.openedBy? c with
    | some b => nest ((b, before) :: around) [] ts
    | none =>
      match Bracket.closedBy? c with
      | none => nest around (before ++ [.token (.mark c)]) ts
      | some b =>
        match around with
        | [] => none
        | (b', outer) :: around =>
          if b = b' then nest around (outer ++ [.group b before]) ts else none
  | t :: ts => nest around (before ++ [.token t]) ts

/-- The groups of a text that is lexically closed. -/
def nest? (text : List Char) : Option (List Node) := nest [] [] (lex .code text)

/-- A token that is neither a bracket nor a fault. -/
def Token.IsFlat : Token → Prop
  | .mark c => Bracket.openedBy? c = none ∧ Bracket.closedBy? c = none
  | .fault => False
  | .word _ | .literal _ => True

/-- Tokens without brackets are lined up. -/
theorem nest_append_of_isFlat {ts : List Token} (h : ∀ t ∈ ts, t.IsFlat)
    (around : List (Bracket × List Node)) (before : List Node) (rest : List Token) :
    nest around before (ts ++ rest) = nest around (before ++ ts.map .token) rest := by
  induction ts generalizing before with
  | nil => simp
  | cons t ts ih =>
    have ht := h t List.mem_cons_self
    have hstep : nest around before (t :: (ts ++ rest))
        = nest around (before ++ [.token t]) (ts ++ rest) := by
      cases t with
      | word w => rfl
      | literal ls => rfl
      | mark c => simp [nest, ht.1, ht.2]
      | fault => exact ht.elim
    rw [List.cons_append, hstep, ih fun u hu => h u (List.mem_cons_of_mem t hu)]
    simp

section Marks

variable (around : List (Bracket × List Node)) (before outer : List Node) (ts : List Token)

theorem nest_openBrace :
    nest around before (.mark '{' :: ts) = nest ((.brace, before) :: around) [] ts := rfl

theorem nest_closeBrace :
    nest ((.brace, outer) :: around) before (.mark '}' :: ts)
      = nest around (outer ++ [.group .brace before]) ts := rfl

theorem nest_openSquare :
    nest around before (.mark '[' :: ts) = nest ((.square, before) :: around) [] ts := rfl

theorem nest_closeSquare :
    nest ((.square, outer) :: around) before (.mark ']' :: ts)
      = nest around (outer ++ [.group .square before]) ts := rfl

end Marks

/-! ## Texts that are read as groups -/

/-- Wherever the text stands, it is read as these groups and leaves what is around it
alone. -/
def Reads (text : List Char) (nodes : List Node) : Prop :=
  ∀ around before rest, Delimits rest →
    nest around before (lex .code (text ++ rest)) = nest around (before ++ nodes) (lex .code rest)

theorem Reads.nest? {text : List Char} {nodes : List Node} (h : Reads text nodes) :
    nest? text = some nodes := by
  have hread := h [] [] [] delimits_nil
  rwa [List.append_nil] at hread

theorem reads_nil : Reads [] [] := by
  intro around before rest _
  simp

/-- Texts are read one after the other, if the second begins with a character that
prolongs no word. -/
theorem Reads.append {a b : List Char} {c : Char} {m n : List Node} (ha : Reads a m)
    (hc : isWordChar c = false) (hb : Reads (c :: b) n) : Reads (a ++ c :: b) (m ++ n) := by
  intro around before rest hrest
  rw [List.append_assoc, List.cons_append, ha _ _ _ (delimits_cons hc (b ++ rest)),
    ← List.cons_append, hb _ _ _ hrest, List.append_assoc]

theorem Reads.space_cons {a : List Char} {m : List Node} (h : Reads a m) :
    Reads (' ' :: a) m := h

theorem Reads.newline_cons {a : List Char} {m : List Node} (h : Reads a m) :
    Reads ('\n' :: a) m := h

theorem Reads.indent_append {a : List Char} {m : List Node} (h : Reads a m) (depth : Nat) :
    Reads (indent depth ++ a) m := by
  intro around before rest hrest
  rw [List.append_assoc, lex_indent, h _ _ _ hrest]

theorem Reads.append_indent {a : List Char} {m : List Node} (h : Reads a m) (depth : Nat) :
    Reads (a ++ indent depth) m := by
  intro around before rest hrest
  have hindent : Delimits (indent depth ++ rest) := by
    cases depth with
    | zero => exact hrest
    | succ depth => exact delimits_cons (by decide) _
  rw [List.append_assoc, h _ _ _ hindent, lex_indent]

theorem Reads.append_newline {a : List Char} {m : List Node} (h : Reads a m) :
    Reads (a ++ ['\n']) m := by
  intro around before rest _
  rw [List.append_assoc, List.singleton_append, h _ _ _ (delimits_cons (by decide) rest),
    lex_newline]

/-- A mark that is no bracket is a group of its own. -/
theorem Reads.mark_cons {a : List Char} {m : List Node} (h : Reads a m) {c : Char}
    (hc : c ∈ marks) (hflat : (Token.mark c).IsFlat) :
    Reads (c :: a) (.token (.mark c) :: m) := by
  intro around before rest hrest
  have hmark : ∀ t ∈ [Token.mark c], t.IsFlat := by simpa using hflat
  have hnest := nest_append_of_isFlat hmark around before (lex .code (a ++ rest))
  rw [List.singleton_append, List.map_singleton] at hnest
  rw [List.cons_append, lex_mark hc, hnest, h _ _ _ hrest, List.append_assoc,
    List.singleton_append]

/-- What stands between braces is one group. -/
theorem Reads.brace {a : List Char} {m : List Node} (h : Reads a m) :
    Reads ('{' :: a ++ ['}']) [.group .brace m] := by
  intro around before rest _
  have hclose : isWordChar '}' = false := by decide
  rw [List.cons_append, List.cons_append, List.append_assoc, List.singleton_append,
    lex_mark (by decide), nest_openBrace, h _ _ _ (delimits_cons hclose rest),
    lex_mark (by decide), nest_closeBrace, List.nil_append]

/-- What stands between square brackets is one group. -/
theorem Reads.square {a : List Char} {m : List Node} (h : Reads a m) :
    Reads ('[' :: a ++ [']']) [.group .square m] := by
  intro around before rest _
  have hclose : isWordChar ']' = false := by decide
  rw [List.cons_append, List.cons_append, List.append_assoc, List.singleton_append,
    lex_mark (by decide), nest_openSquare, h _ _ _ (delimits_cons hclose rest),
    lex_mark (by decide), nest_closeSquare, List.nil_append]

/-- A text without brackets is read as its tokens. -/
theorem reads_of_lex {text : List Char} (ts : List Token) (hts : ∀ t ∈ ts, t.IsFlat)
    (h : ∀ rest, Delimits rest → lex .code (text ++ rest) = ts ++ lex .code rest) :
    Reads text (ts.map .token) := by
  intro around before rest hrest
  rw [h rest hrest, nest_append_of_isFlat hts]

/-! ## Expressions that can be read -/

mutual

/-- The words of an expression can be told from what stands around them, and so can the
pieces of its strings. -/
def Expr.WellFormed : Expr → Prop
  | .string pieces => PiecesWellFormed pieces
  | .word name => ∀ w ∈ dottedWords name, isWord w = true
  | .override value => value.WellFormed
  | .row items => ItemsWellFormed items
  | .column items => ItemsWellFormed items
  | .set _ bindings => BindingsWellFormed bindings
termination_by structural e => e

def ItemsWellFormed : List Expr → Prop
  | [] => True
  | e :: es => e.WellFormed ∧ ItemsWellFormed es
termination_by structural es => es

def BindingsWellFormed : List (List Attr × Expr) → Prop
  | [] => True
  | b :: bs => BindingWellFormed b ∧ BindingsWellFormed bs
termination_by structural bs => bs

def BindingWellFormed : List Attr × Expr → Prop
  | (path, value) => PathWellFormed path ∧ value.WellFormed
termination_by structural b => b

end

theorem wellFormed_word {name : String} (h : ∀ w ∈ dottedWords name, isWord w = true) :
    (Expr.word name).WellFormed := h

theorem wellFormed_ofText (s : String) : (Expr.ofText s).WellFormed := trivial

theorem bindingWellFormed_word {key : String} (hkey : isWord key.toList = true) {value : Expr}
    (h : value.WellFormed) : BindingWellFormed ([.word key], value) :=
  ⟨hkey, h⟩

theorem itemsWellFormed_iff {es : List Expr} : ItemsWellFormed es ↔ ∀ e ∈ es, e.WellFormed := by
  induction es with
  | nil => simp [ItemsWellFormed]
  | cons e es ih => rw [ItemsWellFormed, ih, List.forall_mem_cons]

theorem bindingsWellFormed_iff {bs : List Binding} :
    BindingsWellFormed bs ↔ ∀ b ∈ bs, BindingWellFormed b := by
  induction bs with
  | nil => simp [BindingsWellFormed]
  | cons b bs ih => rw [BindingsWellFormed, ih, List.forall_mem_cons]

mutual

/-- The groups that an expression is read as. -/
def Expr.nodes : Expr → List Node
  | .string pieces => [.token (.literal (pieces.flatMap Piece.letters))]
  | .word name => (nameTokens name).map .token
  | .override value =>
    (nameTokens "lib.mkOverride" ++ [Token.word ['9', '0']]).map .token ++ value.nodes
  | .row items => [.group .square (itemNodes items)]
  | .column items => [.group .square (itemNodes items)]
  | .set _ bindings => [.group .brace (bindingsNodes bindings)]
termination_by structural e => e

def itemNodes : List Expr → List Node
  | [] => []
  | e :: es => e.nodes ++ itemNodes es
termination_by structural es => es

/-- The groups that bindings are read as. -/
def bindingsNodes : List (List Attr × Expr) → List Node
  | [] => []
  | b :: bs => bindingNodes b ++ bindingsNodes bs
termination_by structural bs => bs

def bindingNodes : List Attr × Expr → List Node
  | (path, value) =>
    (pathTokens path).map .token ++ .token (.mark '=') :: value.nodes ++ [.token (.mark ';')]
termination_by structural b => b

end

theorem bindingsNodes_eq_flatMap (bs : List Binding) :
    bindingsNodes bs = bs.flatMap bindingNodes := by
  induction bs with
  | nil => rfl
  | cons b bs ih => rw [bindingsNodes, ih, List.flatMap_cons]

/-- Tokens with dots between them are flat if they are flat themselves. -/
theorem isFlat_of_mem_dotted {ts : List Token} (h : ∀ t ∈ ts, t.IsFlat) :
    ∀ t ∈ dotted ts, t.IsFlat := by
  intro t ht
  rcases mem_or_eq_of_mem_intersperse ht with ht | rfl
  · exact h t ht
  · exact ⟨rfl, rfl⟩

theorem Attr.isFlat_token (a : Attr) : a.token.IsFlat := by
  cases a with
  | word name => trivial
  | quoted name => trivial
  | named name =>
    rw [Attr.token]
    split <;> trivial

theorem reads_renderPath {path : List Attr} (h : ∀ a ∈ path, a.WellFormed) :
    Reads (renderPath path) ((pathTokens path).map .token) := by
  refine reads_of_lex _ (isFlat_of_mem_dotted fun t ht => ?_) fun rest hrest =>
    lex_renderPath h hrest
  obtain ⟨a, -, rfl⟩ := List.mem_map.mp ht
  exact a.isFlat_token

theorem reads_name {name : String} (h : ∀ w ∈ dottedWords name, isWord w = true) :
    Reads name.toList ((nameTokens name).map .token) := by
  refine reads_of_lex _ (isFlat_of_mem_dotted fun t ht => ?_) fun rest hrest => lex_name h hrest
  obtain ⟨w, -, rfl⟩ := List.mem_map.mp ht
  trivial

theorem Spells.reads {text : List Char} {t : Token} (h : Spells text t) (ht : t.IsFlat) :
    Reads text [.token t] :=
  reads_of_lex [t] (by simpa using ht) h

/-! ## The layout of an expression is closed -/

/-- A row is closed off by a space. -/
theorem renderRow_append_space (depth : Nat) (es : List Expr) :
    ∃ b, renderRow depth es ++ [' '] = ' ' :: b := by
  cases es with
  | nil => exact ⟨[], rfl⟩
  | cons e es => exact ⟨e.render depth ++ renderRow depth es ++ [' '], by simp [renderRow_cons]⟩

mutual

/-- Whatever texts an expression holds, its layout is read as its groups. -/
theorem reads_expr : ∀ (e : Expr) (depth : Nat), e.WellFormed → Reads (e.render depth) e.nodes
  | .string pieces, depth, h => (spells_string h depth).reads trivial
  | .word name, _, h => reads_name h
  | .override value, depth, h => by
    have hname : Reads "lib.mkOverride".toList ((nameTokens "lib.mkOverride").map .token) :=
      reads_name (by decide)
    have hnumber : Reads ['9', '0'] [.token (.word ['9', '0'])] :=
      (spells_word (by decide)).reads trivial
    have hvalue := hnumber.append (by decide) (reads_expr value depth h).space_cons
    simpa [Expr.render_override, Expr.nodes] using hname.append (by decide) hvalue.space_cons
  | .row items, depth, h => by
    rw [Expr.render_row]
    simpa [Expr.nodes] using (reads_renderRow items depth h).square
  | .column items, depth, h => by
    have hcolumn := (reads_renderColumn items (depth + 1) h).newline_cons.append_indent depth
    rw [Expr.render_column]
    simpa [Expr.nodes] using hcolumn.square
  | .set gaps bindings, depth, h => by
    have hset := (reads_renderBindings bindings (depth + 1) gaps h).newline_cons
    rw [Expr.render_set]
    simpa [Expr.nodes] using (hset.append_indent depth).brace

theorem reads_renderRow : ∀ (es : List Expr) (depth : Nat), ItemsWellFormed es →
    Reads (renderRow depth es ++ [' ']) (itemNodes es)
  | [], _, _ => reads_nil.space_cons
  | e :: es, depth, h => by
    obtain ⟨b, hb⟩ := renderRow_append_space depth es
    have hes := reads_renderRow es depth h.2
    rw [hb] at hes
    have he := (reads_expr e depth h.1).append (by decide) hes
    rw [renderRow_cons, List.append_assoc, hb]
    exact he.space_cons

theorem reads_renderColumn : ∀ (es : List Expr) (depth : Nat), ItemsWellFormed es →
    Reads (renderColumn depth es) (itemNodes es)
  | [], _, _ => reads_nil
  | e :: es, depth, h => by
    have he := (reads_expr e depth h.1).append (by decide)
      (reads_renderColumn es depth h.2).newline_cons
    rw [renderColumn_cons, List.append_assoc]
    exact he.indent_append depth

theorem reads_renderBindings : ∀ (bs : List Binding) (depth : Nat) (gaps : Bool),
    BindingsWellFormed bs → Reads (renderBindings depth gaps bs) (bindingsNodes bs)
  | [], _, _, _ => reads_nil
  | b :: bs, depth, gaps, h => by
    have hbs := reads_renderBindings bs depth gaps h.2
    have hgap : Reads ((if gaps && !bs.isEmpty then ['\n'] else [])
        ++ renderBindings depth gaps bs) (bindingsNodes bs) := by
      split
      · exact hbs.newline_cons
      · exact hbs
    have hb := (reads_renderBinding b depth h.1).append (by decide) hgap.newline_cons
    rw [renderBindings_cons, List.append_assoc, List.append_assoc]
    exact hb.indent_append depth

theorem reads_renderBinding : ∀ (b : Binding) (depth : Nat), BindingWellFormed b →
    Reads (renderBinding depth b) (bindingNodes b)
  | (path, value), depth, h => by
    have hend : Reads [';'] [.token (.mark ';')] :=
      reads_nil.mark_cons (by decide) ⟨rfl, rfl⟩
    have hvalue := (reads_expr value depth h.2).append (by decide) hend
    have hequals := hvalue.space_cons.mark_cons (c := '=') (by decide) ⟨rfl, rfl⟩
    have hpath := (reads_renderPath h.1.attrs).append (by decide) hequals.space_cons
    simpa [renderBinding_mk, bindingNodes] using hpath

end

/-- A block is read as the groups of its bindings. -/
theorem reads_renderBlock {bs : List Binding} (h : BindingsWellFormed bs) :
    Reads (renderBlock bs) (bindingsNodes bs) := by
  induction bs with
  | nil => exact reads_nil
  | cons b bs ih =>
    have hb := (reads_renderBinding b 1 h.1).indent_append 1
    cases bs with
    | nil => simpa [renderBlock, bindingsNodes] using hb
    | cons b' bs =>
      have hblock : renderBlock (b :: b' :: bs)
          = (indent 1 ++ renderBinding 1 b) ++ '\n' :: renderBlock (b' :: bs) := by
        simp [renderBlock, List.intercalate]
      rw [hblock]
      exact hb.append (by decide) (ih h.2).newline_cons

/-! ## Literals -/

/-- The letters of a literal. -/
def Token.literal? : Token → Option (List Letter)
  | .literal ls => some ls
  | _ => none

mutual

/-- The literals in a group, in order. -/
def Node.literals : Node → List (List Letter)
  | .token t => t.literal?.toList
  | .group _ nodes => literalsOf nodes
termination_by structural n => n

/-- The literals in groups, in order. -/
def literalsOf : List Node → List (List Letter)
  | [] => []
  | n :: ns => n.literals ++ literalsOf ns
termination_by structural ns => ns

end

/-- The antiquotations in literals, in order. -/
def holesOf (literals : List (List Letter)) : List (List Char) :=
  literals.flatten.filterMap fun letter =>
    match letter with
    | .hole path => some path
    | .char _ => none

mutual

/-- The strings of an expression and its quoted names, in order. -/
def Expr.literals : Expr → List (List Letter)
  | .string pieces => [pieces.flatMap Piece.letters]
  | .word _ => []
  | .override value => value.literals
  | .row items => itemLiterals items
  | .column items => itemLiterals items
  | .set _ bindings => bindingsLiterals bindings
termination_by structural e => e

def itemLiterals : List Expr → List (List Letter)
  | [] => []
  | e :: es => e.literals ++ itemLiterals es
termination_by structural es => es

/-- The strings of bindings and their quoted names, in order. -/
def bindingsLiterals : List (List Attr × Expr) → List (List Letter)
  | [] => []
  | b :: bs => bindingLiterals b ++ bindingsLiterals bs
termination_by structural bs => bs

def bindingLiterals : List Attr × Expr → List (List Letter)
  | (path, value) => (path.flatMap fun a => a.token.literal?.toList) ++ value.literals
termination_by structural b => b

end

theorem itemLiterals_eq_flatMap (es : List Expr) :
    itemLiterals es = es.flatMap Expr.literals := by
  induction es with
  | nil => rfl
  | cons e es ih => rw [itemLiterals, ih, List.flatMap_cons]

theorem bindingsLiterals_eq_flatMap (bs : List Binding) :
    bindingsLiterals bs = bs.flatMap bindingLiterals := by
  induction bs with
  | nil => rfl
  | cons b bs ih => rw [bindingsLiterals, ih, List.flatMap_cons]

theorem literalsOf_append (ns ms : List Node) :
    literalsOf (ns ++ ms) = literalsOf ns ++ literalsOf ms := by
  induction ns with
  | nil => rfl
  | cons n ns ih => rw [List.cons_append, literalsOf, literalsOf, ih, List.append_assoc]

theorem literalsOf_map_token (ts : List Token) :
    literalsOf (ts.map .token) = ts.filterMap Token.literal? := by
  induction ts with
  | nil => rfl
  | cons t ts ih =>
    rw [List.map_cons, literalsOf, Node.literals, ih, List.filterMap_cons]
    cases t.literal? <;> rfl

theorem filterMap_literal?_dotted (ts : List Token) :
    (dotted ts).filterMap Token.literal? = ts.filterMap Token.literal? := by
  induction ts with
  | nil => rfl
  | cons t ts ih =>
    cases ts with
    | nil => rfl
    | cons u us =>
      rw [dotted] at ih ⊢
      rw [List.intersperse_cons_cons, List.filterMap_cons, List.filterMap_cons, ih,
        List.filterMap_cons (a := t)]
      rfl

theorem literalsOf_nameTokens (name : String) :
    literalsOf ((nameTokens name).map .token) = [] := by
  rw [literalsOf_map_token, nameTokens, filterMap_literal?_dotted, List.filterMap_map]
  exact List.filterMap_eq_nil_iff.mpr fun w _ => rfl

mutual

/-- The literals that an expression is read with are its strings and quoted names. -/
theorem literalsOf_nodes : ∀ e : Expr, literalsOf e.nodes = e.literals
  | .string pieces => by simp [Expr.nodes, Expr.literals, literalsOf, Node.literals, Token.literal?]
  | .word name => by rw [Expr.nodes, Expr.literals, literalsOf_nameTokens]
  | .override value => by
    rw [Expr.nodes, Expr.literals, literalsOf_append, List.map_append, literalsOf_append,
      literalsOf_nameTokens, literalsOf_nodes value]
    rfl
  | .row items => by
    simp [Expr.nodes, Expr.literals, literalsOf, Node.literals, literalsOf_itemNodes items]
  | .column items => by
    simp [Expr.nodes, Expr.literals, literalsOf, Node.literals, literalsOf_itemNodes items]
  | .set _ bindings => by
    simp [Expr.nodes, Expr.literals, literalsOf, Node.literals, literalsOf_bindingsNodes bindings]

theorem literalsOf_itemNodes : ∀ es : List Expr, literalsOf (itemNodes es) = itemLiterals es
  | [] => rfl
  | e :: es => by
    rw [itemNodes, itemLiterals, literalsOf_append, literalsOf_nodes e, literalsOf_itemNodes es]

theorem literalsOf_bindingsNodes :
    ∀ bs : List Binding, literalsOf (bindingsNodes bs) = bindingsLiterals bs
  | [] => rfl
  | b :: bs => by
    rw [bindingsNodes, bindingsLiterals, literalsOf_append, literalsOf_bindingNodes b,
      literalsOf_bindingsNodes bs]

theorem literalsOf_bindingNodes :
    ∀ b : Binding, literalsOf (bindingNodes b) = bindingLiterals b
  | (path, value) => by
    have hpath : literalsOf ((pathTokens path).map .token)
        = path.flatMap fun a => a.token.literal?.toList := by
      rw [literalsOf_map_token, pathTokens, filterMap_literal?_dotted, List.filterMap_map,
        List.filterMap_eq_flatMap_toList]
      rfl
    have hend : literalsOf [.token (.mark ';')] = [] := rfl
    have hequals : literalsOf (.token (.mark '=') :: value.nodes) = value.literals :=
      literalsOf_nodes value
    rw [bindingNodes, bindingLiterals, literalsOf_append, literalsOf_append, hpath, hequals, hend,
      List.append_nil]

end

/-! ## Antiquotations -/

theorem holesOf_append (a b : List (List Letter)) : holesOf (a ++ b) = holesOf a ++ holesOf b := by
  rw [holesOf, List.flatten_append, List.filterMap_append]
  rfl

theorem holesOf_flatMap {α : Type} (f : α → List (List Letter)) (xs : List α) :
    holesOf (xs.flatMap f) = xs.flatMap fun x => holesOf (f x) := by
  induction xs with
  | nil => rfl
  | cons x xs ih => rw [List.flatMap_cons, List.flatMap_cons, holesOf_append, ih]

/-- Letters of one literal are looked at one after the other. -/
theorem holesOf_singleton_append (ls ms : List Letter) :
    holesOf [ls ++ ms] = holesOf [ls] ++ holesOf [ms] := by
  simp [holesOf]

/-- A text without antiquotations has none. -/
theorem holesOf_chars (cs : List Char) : holesOf [cs.map .char] = [] := by
  rw [holesOf, List.flatten_singleton, List.filterMap_map]
  exact List.filterMap_eq_nil_iff.mpr fun c _ => rfl

theorem Attr.holesOf_literal? (a : Attr) : holesOf a.token.literal?.toList = [] := by
  cases a with
  | word name => rfl
  | quoted name => exact holesOf_chars name.toList
  | named name =>
    rw [Attr.token]
    split
    · rfl
    · exact holesOf_chars name.toList

/-- The antiquotations of an expression, in order. -/
def Expr.holes (e : Expr) : List (List Char) := holesOf e.literals

theorem Expr.holes_ofText (s : String) : (Expr.ofText s).holes = [] := by
  have hletters : [Piece.text s.toList].flatMap Piece.letters = s.toList.map .char := by
    simp [Piece.letters]
  rw [Expr.holes, Expr.ofText, Expr.literals, hletters, holesOf_chars]

theorem Expr.holes_word (name : String) : (Expr.word name).holes = [] := rfl

theorem Expr.holes_override (value : Expr) : (Expr.override value).holes = value.holes := rfl

theorem Expr.holes_row (items : List Expr) : (Expr.row items).holes = items.flatMap holes := by
  rw [holes, literals, itemLiterals_eq_flatMap, holesOf_flatMap]
  rfl

theorem Expr.holes_column (items : List Expr) :
    (Expr.column items).holes = items.flatMap holes := by
  rw [holes, literals, itemLiterals_eq_flatMap, holesOf_flatMap]
  rfl

/-- All antiquotations of a binding are in its value. -/
theorem holesOf_bindingLiterals (b : Binding) : holesOf (bindingLiterals b) = b.2.holes := by
  obtain ⟨path, value⟩ := b
  have hpath : holesOf (path.flatMap fun a => a.token.literal?.toList) = [] := by
    rw [holesOf_flatMap, List.flatMap_eq_nil_iff]
    exact fun a _ => a.holesOf_literal?
  rw [bindingLiterals, holesOf_append, hpath, List.nil_append]
  rfl

theorem holesOf_bindingsLiterals (bs : List Binding) :
    holesOf (bindingsLiterals bs) = bs.flatMap fun b => b.2.holes := by
  rw [bindingsLiterals_eq_flatMap, holesOf_flatMap]
  exact congrArg (bs.flatMap ·) (funext holesOf_bindingLiterals)

theorem Expr.holes_set (gaps : Bool) (bindings : List Binding) :
    (Expr.set gaps bindings).holes = bindings.flatMap fun b => b.2.holes :=
  holesOf_bindingsLiterals bindings

end ComposeNix.Nix
