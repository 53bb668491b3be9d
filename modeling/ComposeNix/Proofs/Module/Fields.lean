import ComposeNix.Proofs.Module.Texts
import ComposeNix.Proofs.Nix.Fields

/-!
# Reading a module back

A module is a set behind its arguments.  `readModule` reads the bindings of that set, and
`readModule_toModule` says which they are: those of the outline, in order, with their texts as the
pass over empty lines leaves them (`said`).

Several bindings of a module may stand under one path.  `Fields.under` takes together whatever
their sets hold, as the module system does.
-/

namespace ComposeNix.Nix

/-! ## What a module binds -/

/-- The bindings of a module, which is a set behind its arguments. -/
def readModule (text : List Char) : Option Fields :=
  match nest? text with
  | some [.group .brace _, .token (.mark ':'), .group .brace body] =>
    (itemsOf? body).bind bindings?
  | _ => none

/-- What a binding of an outline says in the module. -/
def said (b : Binding) : List Key × Tree := bindingTree (collapseBinding b)

theorem bindingsTrees_collapseBindings (bs : List Binding) :
    bindingsTrees (collapseBindings bs) = bs.map said := by
  induction bs with
  | nil => rfl
  | cons b bs ih => rw [collapseBindings, bindingsTrees, ih, List.map_cons, said]

theorem said_mk (path : List Attr) (value : Expr) :
    said (path, value) = (path.map fun a => a.collapse.key, .ofTerms value.collapse.terms) := by
  rw [said, collapseBinding, bindingTree, List.map_map]
  rfl

theorem said_set (path : List Attr) (gaps : Bool) (bs : List Binding) :
    said (path, .set gaps bs) = (path.map fun a => a.collapse.key, .set (bs.map said)) := by
  rw [said_mk, Expr.collapse, Expr.terms, bindingsTrees_collapseBindings]
  rfl

/-! ## Saying what bindings bind -/

/-- A way of saying what bindings bind, which is made up as they are: a set says what its bindings
say.  Names and texts may be changed on the way, but words stay as they are. -/
structure Telling (tell : Binding → List Key × Tree) (step : Attr → Key)
    (keep : String → String) : Prop where
  word : ∀ w, step (.word w) = wordKey w
  text : ∀ path s, tell (path, .ofText s) = (path.map step, .ofText (keep s))
  set : ∀ path gaps bs, tell (path, .set gaps bs) = (path.map step, .set (bs.map tell))

theorem Telling.text_word {tell : Binding → List Key × Tree} {step : Attr → Key}
    {keep : String → String} (h : Telling tell step keep) (w s : String) :
    tell ([.word w], .ofText s) = ([wordKey w], .ofText (keep s)) := by
  rw [h.text, List.map_singleton, h.word]

theorem collapse_ofText (s : String) : (Expr.ofText s).collapse = .ofText (collapseName s) := by
  rw [Expr.ofText, Expr.ofText, collapseName, String.toList_ofList]
  rfl

/-- In a module bindings are as the pass over empty lines leaves them. -/
theorem telling_said : Telling said (fun a => a.collapse.key) collapseName where
  word _ := rfl
  text path s := by
    rw [said_mk, collapse_ofText, terms_ofText]
    rfl
  set := said_set

theorem bindingsTrees_eq_map (bs : List Binding) : bindingsTrees bs = bs.map bindingTree := by
  induction bs with
  | nil => rfl
  | cons b bs ih => rw [bindingsTrees, ih, List.map_cons]

/-- In a block that stands alone they are as they were. -/
theorem telling_bindingTree : Telling bindingTree Attr.key id where
  word _ := rfl
  text path s := by
    rw [bindingTree, terms_ofText]
    rfl
  set path gaps bs := by
    rw [bindingTree, Expr.terms, bindingsTrees_eq_map]
    rfl

/-! ## What stands under a path -/

/-- The bindings of a value that is a set. -/
def Tree.bindings : Tree → Fields
  | .set bindings => bindings
  | _ => []

/-- The bindings of all sets that are bound at a path. -/
def Fields.under (path : List Key) (fields : Fields) : Fields :=
  fields.flatMap fun b => if b.1 = path then b.2.bindings else []

theorem under_append (path : List Key) (fields more : Fields) :
    Fields.under path (fields ++ more) = Fields.under path fields ++ Fields.under path more :=
  List.flatMap_append

/-- What stands under other paths does not count. -/
theorem under_eq_nil {path : List Key} {fields : Fields} (h : ∀ b ∈ fields, b.1 ≠ path) :
    Fields.under path fields = [] :=
  List.flatMap_eq_nil_iff.mpr fun b hb => if_neg (h b hb)

theorem under_singleton (path : List Key) (bindings : Fields) :
    Fields.under path [(path, .set bindings)] = bindings := by
  rw [Fields.under, List.flatMap_singleton, if_pos rfl, Tree.bindings]

end ComposeNix.Nix

namespace ComposeNix.Manifest

variable (backend : Backend) (rules : List RoutingRule) (m : Manifest)

/-- A module is read as the bindings of its outline. -/
theorem readModule_toModule : Nix.readModule (m.toModule backend rules).toList
    = some ((m.beforeUnits backend ++ m.units backend
      ++ Routing.configuration (rules ++ m.routes)).map Nix.said) := by
  have h := m.wellFormed_outline backend rules
  obtain ⟨items, hitems, hread⟩ := Nix.itemsOf?_bindingsNodes _
    (Nix.bindingsWellFormed_collapse _ h.wellFormed_bindings)
  have hnest := h.nest?_render_document
  rw [document_outline] at hnest
  rw [Nix.readModule, toModule, String.toList_ofList, hnest, ← bindings_outline,
    ← Nix.bindingsTrees_collapseBindings, ← hread]
  exact congrArg (Option.bind · Nix.bindings?) hitems

end ComposeNix.Manifest
