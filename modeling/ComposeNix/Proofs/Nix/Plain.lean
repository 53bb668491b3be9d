import ComposeNix.Proofs.Nix.Nesting

/-!
# Plain bindings

Most bindings of a module hold texts and words and nothing else.  Such a binding is plain: it can be
read, whatever its texts are, and it has no antiquotations.  Sets of plain bindings are plain
again, so for a block it is enough to look at its pieces.
-/

namespace ComposeNix.Nix

/-- A binding that can be read and has no antiquotations. -/
structure IsPlain (b : Binding) : Prop where
  wellFormed : BindingWellFormed b
  holes : b.2.holes = []

section Plain

variable {path : List Attr} (hpath : PathWellFormed path)
include hpath

theorem isPlain_text (s : String) : IsPlain (path, .ofText s) :=
  ⟨⟨hpath, wellFormed_ofText s⟩, Expr.holes_ofText s⟩

theorem isPlain_word {name : String} (h : ∀ w ∈ dottedWords name, isWord w = true) :
    IsPlain (path, .word name) :=
  ⟨⟨hpath, wellFormed_word h⟩, Expr.holes_word name⟩

theorem isPlain_override (s : String) : IsPlain (path, .override (.ofText s)) :=
  ⟨⟨hpath, wellFormed_ofText s⟩, (Expr.holes_override _).trans (Expr.holes_ofText s)⟩

omit hpath in
/-- Strings without antiquotations next to each other. -/
theorem plain_map_ofText (items : List String) :
    ItemsWellFormed (items.map .ofText) ∧ (items.map Expr.ofText).flatMap Expr.holes = [] := by
  constructor
  · rw [itemsWellFormed_iff]
    intro e he
    obtain ⟨s, -, rfl⟩ := List.mem_map.mp he
    exact wellFormed_ofText s
  · rw [List.flatMap_map, List.flatMap_eq_nil_iff]
    exact fun s _ => Expr.holes_ofText s

theorem isPlain_row (items : List String) : IsPlain (path, .row (items.map .ofText)) :=
  ⟨⟨hpath, (plain_map_ofText items).1⟩, (Expr.holes_row _).trans (plain_map_ofText items).2⟩

theorem isPlain_texts (items : List String) : IsPlain (path, .texts items) :=
  ⟨⟨hpath, (plain_map_ofText items).1⟩, (Expr.holes_column _).trans (plain_map_ofText items).2⟩

/-- A set is plain if all its bindings are. -/
theorem isPlain_set {gaps : Bool} {bs : List Binding} (h : ∀ b ∈ bs, IsPlain b) :
    IsPlain (path, .set gaps bs) := by
  refine ⟨⟨hpath, bindingsWellFormed_iff.mpr fun b hb => (h b hb).wellFormed⟩, ?_⟩
  rw [Expr.holes_set, List.flatMap_eq_nil_iff]
  exact fun b hb => (h b hb).holes

end Plain

end ComposeNix.Nix
