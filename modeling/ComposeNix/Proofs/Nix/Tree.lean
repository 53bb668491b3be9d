import ComposeNix.Proofs.Nix.Nesting

/-!
# Reading a block back

Groups are read as the attributes that they spell: a text or a name is a value, what stands
between square brackets a list, and what stands between braces a set of bindings, each with
a path of keys on the left of its equals sign.  Values that stand next to each other in a list are
items of it; on the right of an equals sign they are one application.  A key is the same key
whether it is quoted or not.

The reader is strict, as the readers of tokens and of groups below it: where a mark stands
that it does not expect, nothing is read at all.

`readBlock_renderBlock`: what is read from the layout of bindings is exactly what they say,
`bindingsTrees`.  The proof looks at the items of one value at a time.  They `Yield` its terms:
they hold none of the marks that end a value, so wherever they stand they are read as these terms
and leave what follows alone.
-/

namespace ComposeNix.Nix

/-! ## What is read -/

/-- What a name or a text in quotes says: its letters. -/
abbrev Key := List Letter

/-- A value as it is read. -/
inductive Tree
  /-- A path of words. -/
  | name (words : List (List Char))
  | text (letters : List Letter)
  | list (items : List Tree)
  | set (bindings : List (List Key × Tree))
  /-- Values next to each other, the first of them applied to the others. -/
  | apply (terms : List Tree)

/-- What a set is read as. -/
abbrev Fields := List (List Key × Tree)

/-- A value or a mark between values. -/
inductive Item
  | term (t : Tree)
  | mark (c : Char)

/-- Whether an item is this mark. -/
def Item.isMark (c : Char) : Item → Bool
  | .mark d => d == c
  | .term _ => false

/-- The key that a value is when it stands in front of an equals sign. -/
def Tree.key? : Tree → Option Key
  | .name [w] => some (w.map .char)
  | .text ls => some ls
  | _ => none

/-! ## Values, paths and bindings -/

/-- Values next to each other.  A dot joins two names. -/
def terms? : List Item → Option (List Tree)
  | [] => some []
  | .term (.name ws) :: .mark '.' :: items =>
    match terms? items with
    | some (.name vs :: ts) => some (.name (ws ++ vs) :: ts)
    | _ => none
  | .term t :: items => (terms? items).map (t :: ·)
  | .mark _ :: _ => none

/-- The keys of a path. -/
def keys? : List Item → Option (List Key)
  | [.term t] => t.key?.map ([·])
  | .term t :: .mark '.' :: items => do return (← t.key?) :: (← keys? items)
  | _ => none

/-- One value, or several that are an application. -/
def Tree.ofTerms : List Tree → Tree
  | [t] => t
  | ts => .apply ts

/-- The binding that stands in front of a semicolon. -/
def binding? (items : List Item) : Option (List Key × Tree) :=
  match items.splitOnP (Item.isMark '=') with
  | [path, value] => do
    let keys ← keys? path
    let terms ← terms? value
    if terms.isEmpty then none else some (keys, Tree.ofTerms terms)
  | _ => none

/-- Bindings that have been cut at their semicolons.  Nothing stands behind the last one. -/
def statements? : List (List Item) → Option Fields
  | [] => none
  | [items] => if items.isEmpty then some [] else none
  | items :: rest => do return (← binding? items) :: (← statements? rest)

/-- The bindings of a set. -/
def bindings? (items : List Item) : Option Fields := statements? (items.splitOnP (Item.isMark ';'))

/-! ## Groups -/

/-- What a token is read as. -/
def Token.item? : Token → Option Item
  | .word w => some (.term (.name [w]))
  | .literal ls => some (.term (.text ls))
  | .mark c => some (.mark c)
  | .fault => none

mutual

/-- What a group is read as. -/
def Node.item? : Node → Option Item
  | .token t => t.item?
  | .group .square nodes => ((itemsOf? nodes).bind terms?).map fun ts => .term (.list ts)
  | .group .brace nodes => ((itemsOf? nodes).bind bindings?).map fun bs => .term (.set bs)
termination_by structural n => n

/-- What groups are read as. -/
def itemsOf? : List Node → Option (List Item)
  | [] => some []
  | n :: ns => n.item?.bind fun i => (itemsOf? ns).map (i :: ·)
termination_by structural ns => ns

end

/-- The bindings that a text spells. -/
def readBlock (text : List Char) : Option Fields :=
  (nest? text).bind fun nodes => (itemsOf? nodes).bind bindings?

theorem itemsOf?_append {ns ms : List Node} {is js : List Item} (hn : itemsOf? ns = some is)
    (hm : itemsOf? ms = some js) : itemsOf? (ns ++ ms) = some (is ++ js) := by
  induction ns generalizing is with
  | nil =>
    obtain rfl : [] = is := Option.some.inj hn
    exact hm
  | cons n ns ih =>
    rw [itemsOf?] at hn
    obtain ⟨i, hi, hn⟩ := Option.bind_eq_some_iff.mp hn
    obtain ⟨is', his, rfl⟩ := Option.map_eq_some_iff.mp hn
    rw [List.cons_append, itemsOf?, hi, ih his]
    rfl

/-! ## What bindings say -/

/-- The key that a step of a path says. -/
def Attr.key : Attr → Key
  | .word name => name.toList.map .char
  | .quoted name => name.toList.map .char
  | .named name =>
    if isPlainName name.toList then (name.toList.takeWhile isWordChar).map .char
    else name.toList.map .char

mutual

/-- The values that an expression says. -/
def Expr.terms : Expr → List Tree
  | .string pieces => [.text (pieces.flatMap Piece.letters)]
  | .word name => [.name (dottedWords name)]
  | .override value => .name (dottedWords "lib.mkOverride") :: .name [['9', '0']] :: value.terms
  | .row items => [.list (itemTerms items)]
  | .column items => [.list (itemTerms items)]
  | .set _ bindings => [.set (bindingsTrees bindings)]
termination_by structural e => e

def itemTerms : List Expr → List Tree
  | [] => []
  | e :: es => e.terms ++ itemTerms es
termination_by structural es => es

/-- The bindings that are said, with their paths as keys. -/
def bindingsTrees : List (List Attr × Expr) → List (List Key × Tree)
  | [] => []
  | b :: bs => bindingTree b :: bindingsTrees bs
termination_by structural bs => bs

def bindingTree : List Attr × Expr → List Key × Tree
  | (path, value) => (path.map Attr.key, .ofTerms value.terms)
termination_by structural b => b

end

theorem Expr.terms_ne_nil (e : Expr) : e.terms ≠ [] := by
  cases e <;> exact List.cons_ne_nil _ _

/-! ## Items with dots between them -/

/-- Items with a dot between them. -/
def dottedItems (is : List Item) : List Item := is.intersperse (.mark '.')

theorem dottedItems_cons_cons (i j : Item) (is : List Item) :
    dottedItems (i :: j :: is) = i :: .mark '.' :: dottedItems (j :: is) :=
  List.intersperse_cons_cons

theorem isMark_of_mem_dottedItems {is : List Item} {c : Char} (hc : c ≠ '.')
    (h : ∀ i ∈ is, i.isMark c = false) : ∀ i ∈ dottedItems is, i.isMark c = false := by
  intro i hi
  rcases mem_or_eq_of_mem_intersperse hi with hi | rfl
  · exact h i hi
  · exact beq_eq_false_iff_ne.mpr (Ne.symm hc)

/-- Tokens with dots between them are read as their items with dots between them. -/
theorem itemsOf?_dotted {α : Type} (token : α → Token) (item : α → Item) {xs : List α}
    (h : ∀ x ∈ xs, (token x).item? = some (item x)) :
    itemsOf? ((dotted (xs.map token)).map .token) = some (dottedItems (xs.map item)) := by
  induction xs with
  | nil => rfl
  | cons x xs ih =>
    have hx : (Node.token (token x)).item? = some (item x) := h x List.mem_cons_self
    have hxs := ih fun y hy => h y (List.mem_cons_of_mem x hy)
    cases xs with
    | nil =>
      show itemsOf? [.token (token x)] = some [item x]
      rw [itemsOf?, hx]
      rfl
    | cons y ys =>
      have hdot : (dotted ((x :: y :: ys).map token)).map Node.token
          = .token (token x) :: .token (.mark '.')
            :: (dotted ((y :: ys).map token)).map Node.token := by
        simp [dotted]
      rw [hdot, itemsOf?, hx, itemsOf?, hxs]
      rfl

/-- The value that a step of a path is read as. -/
def Attr.tree : Attr → Tree
  | .word name => .name [name.toList]
  | .quoted name => .text (name.toList.map .char)
  | .named name =>
    if isPlainName name.toList then .name [name.toList.takeWhile isWordChar]
    else .text (name.toList.map .char)

theorem Attr.item?_token (a : Attr) : a.token.item? = some (.term a.tree) := by
  cases a with
  | word name => rfl
  | quoted name => rfl
  | named name =>
    rw [Attr.token, Attr.tree]
    split <;> rfl

theorem Attr.key?_tree (a : Attr) : a.tree.key? = some a.key := by
  cases a with
  | word name => rfl
  | quoted name => rfl
  | named name =>
    rw [Attr.tree, Attr.key]
    split <;> rfl

/-- The keys of a path are read as they were said. -/
theorem keys?_path {path : List Attr} (h : PathWellFormed path) :
    keys? (dottedItems (path.map fun a => .term a.tree)) = some (path.map Attr.key) := by
  fun_induction PathWellFormed path with
  | case1 => exact h.elim
  | case2 a =>
    show a.tree.key?.map ([·]) = some [a.key]
    rw [a.key?_tree]
    rfl
  | case3 a b path ih =>
    rw [List.map_cons, List.map_cons, dottedItems_cons_cons, keys?, a.key?_tree]
    rw [List.map_cons] at ih
    rw [ih h.2]
    rfl

/-! ## The items of a value -/

/-- The text does not go on with a dot. -/
def NoDot (items : List Item) : Prop := ∀ i ∈ items.head?, i.isMark '.' = false

/-- Wherever the items stand, they are read as these values, and neither an equals sign nor a
semicolon is among them. -/
structure Yields (items : List Item) (ts : List Tree) : Prop where
  terms : ∀ rest, NoDot rest → terms? (items ++ rest) = (terms? rest).map (ts ++ ·)
  head : NoDot items
  equals : ∀ i ∈ items, i.isMark '=' = false
  semicolon : ∀ i ∈ items, i.isMark ';' = false

theorem Yields.terms? {items : List Item} {ts : List Tree} (h : Yields items ts) :
    terms? items = some ts := by
  have hread := h.terms [] (by simp [NoDot])
  rw [List.append_nil] at hread
  rw [hread]
  exact congrArg some (List.append_nil ts)

theorem yields_nil : Yields [] [] where
  terms rest _ := by simp
  head := by simp [NoDot]
  equals := by simp
  semicolon := by simp

/-- Values that stand next to each other are read one after the other. -/
theorem Yields.append {is js : List Item} {ts us : List Tree} (hi : Yields is ts)
    (hj : Yields js us) : Yields (is ++ js) (ts ++ us) where
  terms rest hrest := by
    have hnext : NoDot (js ++ rest) := by
      cases js with
      | nil => exact hrest
      | cons j js => exact hj.head
    rw [List.append_assoc, hi.terms _ hnext, hj.terms _ hrest, Option.map_map]
    simp [Function.comp_def]
  head := by
    cases is with
    | nil => exact hj.head
    | cons i is => exact hi.head
  equals := List.forall_mem_append.mpr ⟨hi.equals, hj.equals⟩
  semicolon := List.forall_mem_append.mpr ⟨hi.semicolon, hj.semicolon⟩

/-- A value is read as itself, if no dot follows. -/
theorem terms?_term (t : Tree) {rest : List Item} (h : NoDot rest) :
    Nix.terms? (.term t :: rest) = (Nix.terms? rest).map (t :: ·) := by
  rw [terms?.eq_def]
  split
  · rename_i heq
    simp at heq
  · rename_i heq
    obtain ⟨-, rfl⟩ := List.cons.inj heq
    exact absurd (h _ rfl) (by decide)
  · rename_i heq
    obtain ⟨ht, rfl⟩ := List.cons.inj heq
    obtain rfl := Item.term.inj ht
    rfl
  · rename_i heq
    exact Item.noConfusion (List.cons.inj heq).1

theorem yields_term (t : Tree) : Yields [.term t] [t] where
  terms rest hrest := terms?_term t hrest
  head := by simp [NoDot, Item.isMark]
  equals := by simp [Item.isMark]
  semicolon := by simp [Item.isMark]

theorem terms?_dot (ws : List (List Char)) (rest : List Item) :
    Nix.terms? (.term (.name ws) :: .mark '.' :: rest)
      = match Nix.terms? rest with
        | some (.name vs :: ts) => some (.name (ws ++ vs) :: ts)
        | _ => none := rfl

/-- The items of a dotted name. -/
def nameItems (ws : List (List Char)) : List Item :=
  dottedItems (ws.map fun w => .term (.name [w]))

theorem terms?_nameItems {ws : List (List Char)} (h : ws ≠ []) {rest : List Item}
    (hrest : NoDot rest) :
    Nix.terms? (nameItems ws ++ rest) = (Nix.terms? rest).map (.name ws :: ·) := by
  induction ws with
  | nil => exact absurd rfl h
  | cons w ws ih =>
    cases ws with
    | nil => exact terms?_term (.name [w]) hrest
    | cons v ws =>
      have hread := ih (List.cons_ne_nil v ws)
      have hitems : nameItems (w :: v :: ws)
          = .term (.name [w]) :: .mark '.' :: nameItems (v :: ws) := rfl
      rw [hitems, List.cons_append, List.cons_append, terms?_dot, hread]
      cases Nix.terms? rest with
      | none => rfl
      | some ts => rfl

/-- A dotted name is read as one value. -/
theorem yields_name {ws : List (List Char)} (h : ws ≠ []) : Yields (nameItems ws) [.name ws] where
  terms rest hrest := terms?_nameItems h hrest
  head := by
    obtain ⟨w, ws, rfl⟩ := List.exists_cons_of_ne_nil h
    cases ws with
    | nil => simp [NoDot, nameItems, dottedItems, Item.isMark]
    | cons v ws => simp [NoDot, nameItems, dottedItems, Item.isMark]
  equals := isMark_of_mem_dottedItems (by decide) (by simp [Item.isMark])
  semicolon := isMark_of_mem_dottedItems (by decide) (by simp [Item.isMark])

theorem itemsOf?_nameTokens (name : String) :
    itemsOf? ((nameTokens name).map .token) = some (nameItems (dottedWords name)) :=
  itemsOf?_dotted Token.word (fun w => .term (.name [w])) fun _ _ => rfl

/-! ## Bindings -/

/-- What stands in front of a semicolon is read as a binding. -/
theorem binding?_of_yields {path : List Attr} (hpath : PathWellFormed path) {items : List Item}
    {ts : List Tree} (h : Yields items ts) (hts : ts ≠ []) :
    binding? (dottedItems (path.map fun a => .term a.tree) ++ .mark '=' :: items)
      = some (path.map Attr.key, .ofTerms ts) := by
  have hleft : ∀ i ∈ dottedItems (path.map fun a => .term a.tree), i.isMark '=' = false :=
    isMark_of_mem_dottedItems (by decide) (by simp [Item.isMark])
  have hsplit := List.splitOnP_append_cons_of_forall_mem hleft (.mark '=') rfl items
  rw [List.splitOnP_eq_singleton h.equals] at hsplit
  rw [binding?, hsplit]
  simp [keys?_path hpath, h.terms?, hts]

/-- Bindings are read one after the other. -/
theorem bindings?_cons {items rest : List Item} {b : List Key × Tree} {bs : Fields}
    (hitems : ∀ i ∈ items, i.isMark ';' = false) (hb : binding? items = some b)
    (hbs : bindings? rest = some bs) : bindings? (items ++ .mark ';' :: rest) = some (b :: bs) := by
  have hsplit := List.splitOnP_append_cons_of_forall_mem hitems (.mark ';') rfl rest
  obtain ⟨first, others, hrest⟩ :=
    List.exists_cons_of_ne_nil (List.splitOnP_ne_nil (Item.isMark ';') rest)
  rw [bindings?, hrest] at hbs
  rw [bindings?, hsplit, hrest, statements?, hb, hbs]
  · rfl
  · exact List.cons_ne_nil first others

mutual

/-- The groups of an expression are read as the values that it says. -/
theorem itemsOf?_nodes : ∀ e : Expr, e.WellFormed →
    ∃ items, itemsOf? e.nodes = some items ∧ Yields items e.terms
  | .string pieces, _ => ⟨_, rfl, yields_term (.text (pieces.flatMap Piece.letters))⟩
  | .word name, _ =>
    ⟨_, itemsOf?_nameTokens name, yields_name (List.splitOn_ne_nil '.' name.toList)⟩
  | .override value, h => by
    obtain ⟨items, hitems, hyields⟩ := itemsOf?_nodes value h
    have hnumber : Yields [.term (.name [['9', '0']])] [.name [['9', '0']]] := yields_term _
    have hlead : itemsOf? ((nameTokens "lib.mkOverride" ++ [Token.word ['9', '0']]).map .token)
        = some (nameItems (dottedWords "lib.mkOverride") ++ [.term (.name [['9', '0']])]) := by
      rw [List.map_append]
      exact itemsOf?_append (itemsOf?_nameTokens "lib.mkOverride") rfl
    have hname : Yields (nameItems (dottedWords "lib.mkOverride"))
        [.name (dottedWords "lib.mkOverride")] := yields_name (by decide)
    exact ⟨_, itemsOf?_append hlead hitems, (hname.append hnumber).append hyields⟩
  | .row items, h => by
    obtain ⟨is, his, hyields⟩ := itemsOf?_itemNodes items h
    refine ⟨[.term (.list (itemTerms items))], ?_, yields_term _⟩
    simp [Expr.nodes, itemsOf?, Node.item?, his, hyields.terms?]
  | .column items, h => by
    obtain ⟨is, his, hyields⟩ := itemsOf?_itemNodes items h
    refine ⟨[.term (.list (itemTerms items))], ?_, yields_term _⟩
    simp [Expr.nodes, itemsOf?, Node.item?, his, hyields.terms?]
  | .set _ bindings, h => by
    obtain ⟨is, his, hread⟩ := itemsOf?_bindingsNodes bindings h
    refine ⟨[.term (.set (bindingsTrees bindings))], ?_, yields_term _⟩
    simp [Expr.nodes, itemsOf?, Node.item?, his, hread]

theorem itemsOf?_itemNodes : ∀ es : List Expr, ItemsWellFormed es →
    ∃ items, itemsOf? (itemNodes es) = some items ∧ Yields items (itemTerms es)
  | [], _ => ⟨[], rfl, yields_nil⟩
  | e :: es, h => by
    obtain ⟨is, his, hyields⟩ := itemsOf?_nodes e h.1
    obtain ⟨js, hjs, hyields'⟩ := itemsOf?_itemNodes es h.2
    exact ⟨is ++ js, itemsOf?_append his hjs, hyields.append hyields'⟩

theorem itemsOf?_bindingsNodes : ∀ bs : List Binding, BindingsWellFormed bs →
    ∃ items, itemsOf? (bindingsNodes bs) = some items ∧ bindings? items = some (bindingsTrees bs)
  | [], _ => ⟨[], rfl, rfl⟩
  | b :: bs, h => by
    obtain ⟨is, his, hplain, hb⟩ := itemsOf?_bindingNodes b h.1
    obtain ⟨js, hjs, hbs⟩ := itemsOf?_bindingsNodes bs h.2
    refine ⟨is ++ .mark ';' :: js, ?_, bindings?_cons hplain hb hbs⟩
    have hitems := itemsOf?_append his hjs
    rwa [List.append_assoc, List.singleton_append] at hitems

theorem itemsOf?_bindingNodes : ∀ b : Binding, BindingWellFormed b →
    ∃ items, itemsOf? (bindingNodes b) = some (items ++ [.mark ';'])
      ∧ (∀ i ∈ items, i.isMark ';' = false) ∧ binding? items = some (bindingTree b)
  | (path, value), h => by
    obtain ⟨is, his, hyields⟩ := itemsOf?_nodes value h.2
    have hpath : itemsOf? ((pathTokens path).map .token)
        = some (dottedItems (path.map fun a => .term a.tree)) :=
      itemsOf?_dotted Attr.token (fun a => .term a.tree) fun a _ => a.item?_token
    have hequals : itemsOf? (.token (.mark '=') :: value.nodes) = some (.mark '=' :: is) := by
      rw [itemsOf?, his]
      rfl
    have hend : itemsOf? [.token (.mark ';')] = some [.mark ';'] := rfl
    refine ⟨dottedItems (path.map fun a => .term a.tree) ++ .mark '=' :: is,
      itemsOf?_append (itemsOf?_append hpath hequals) hend, ?_,
      binding?_of_yields h.1 hyields value.terms_ne_nil⟩
    refine List.forall_mem_append.mpr ⟨?_, List.forall_mem_cons.mpr ⟨rfl, hyields.semicolon⟩⟩
    exact isMark_of_mem_dottedItems (by decide) (by simp [Item.isMark])

end

/-- What is read from the layout of bindings is what they say. -/
theorem readBlock_renderBlock {bs : List Binding} (h : BindingsWellFormed bs) :
    readBlock (renderBlock bs) = some (bindingsTrees bs) := by
  obtain ⟨items, hitems, hread⟩ := itemsOf?_bindingsNodes bs h
  rw [readBlock, (reads_renderBlock h).nest?, Option.bind_some, hitems, Option.bind_some, hread]

end ComposeNix.Nix
