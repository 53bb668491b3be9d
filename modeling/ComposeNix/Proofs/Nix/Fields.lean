import ComposeNix.Proofs.Nix.Tree

/-!
# Reading the fields of a set

A set is read as bindings, and what they bind is a text, a list of texts or a set of texts
under names.  A text is one only without antiquotations.  A field may be absent (`optional`),
but a value that is there has to be of the right kind.

The sets of a module are put together from pieces that are there or not.  If the keys of the pieces
are different, every field is read as its own piece, whatever stands around it
(`lookup_fieldsOf`), and no other key is in the set (`keys_fieldsOf_sublist`).
-/

namespace ComposeNix.Nix

/-! ## Kinds of values -/

/-- The character that a letter is, if it is no antiquotation. -/
def Letter.char? : Letter → Option Char
  | .char c => some c
  | .hole _ => none

/-- The text that letters spell, if there is no antiquotation among them. -/
def string? (letters : List Letter) : Option String := (letters.mapM Letter.char?).map String.ofList

namespace Tree

/-- A value as a text. -/
def text? : Tree → Option String
  | .text letters => string? letters
  | _ => none

/-- A value as a list of texts. -/
def texts? : Tree → Option (List String)
  | .list items => items.mapM text?
  | _ => none

/-- A binding as a text under a name. -/
def pair? : List Key × Tree → Option (String × String)
  | ([key], value) => do return (← string? key, ← value.text?)
  | _ => none

/-- A value as texts under names. -/
def entries? : Tree → Option (List (String × String))
  | .set bindings => bindings.mapM pair?
  | _ => none

/-- The value of a text. -/
def ofText (s : String) : Tree := .text (s.toList.map .char)

/-- The value of a list of texts. -/
def ofTexts (items : List String) : Tree := .list (items.map ofText)

/-- The value of texts under names. -/
def ofEntries (d : List (String × String)) : Tree :=
  .set (d.map fun e => ([e.1.toList.map .char], ofText e.2))

end Tree

/-- If every entry is read back, so is a list of them. -/
theorem mapM_map_of_forall {α β : Type} {f : α → β} {g : β → Option α} (h : ∀ a, g (f a) = some a)
    (xs : List α) : (xs.map f).mapM g = some xs := by
  induction xs with
  | nil => rfl
  | cons x xs ih =>
    rw [List.map_cons, List.mapM_cons, h x, ih]
    rfl

theorem string?_map_char (s : String) : string? (s.toList.map .char) = some s := by
  rw [string?, mapM_map_of_forall (f := Letter.char) (g := Letter.char?) (fun _ => rfl),
    Option.map_some, String.ofList_toList]

namespace Tree

theorem text?_ofText (s : String) : (ofText s).text? = some s := string?_map_char s

theorem texts?_ofTexts (items : List String) : (ofTexts items).texts? = some items :=
  mapM_map_of_forall text?_ofText items

theorem entries?_ofEntries (d : List (String × String)) : (ofEntries d).entries? = some d := by
  refine mapM_map_of_forall (fun e => ?_) d
  rw [pair?, string?_map_char, text?_ofText]
  rfl

end Tree

/-! ## What the expressions of a module say -/

theorem terms_ofText (s : String) : (Expr.ofText s).terms = [.ofText s] := by
  rw [Expr.ofText, Expr.terms, List.flatMap_singleton]
  rfl

theorem itemTerms_map_ofText (items : List String) :
    itemTerms (items.map .ofText) = items.map .ofText := by
  induction items with
  | nil => rfl
  | cons s items ih =>
    rw [List.map_cons, itemTerms, terms_ofText, ih]
    rfl

theorem terms_column_ofText (items : List String) :
    (Expr.column (items.map .ofText)).terms = [.ofTexts items] := by
  rw [Expr.terms, itemTerms_map_ofText]
  rfl

theorem terms_row_ofText (items : List String) :
    (Expr.row (items.map .ofText)).terms = [.ofTexts items] := by
  rw [Expr.terms, itemTerms_map_ofText]
  rfl

theorem bindingsTrees_append (bs cs : List Binding) :
    bindingsTrees (bs ++ cs) = bindingsTrees bs ++ bindingsTrees cs := by
  induction bs with
  | nil => rfl
  | cons b bs ih => rw [List.cons_append, bindingsTrees, bindingsTrees, ih, List.cons_append]

/-! ## Fields -/

/-- A word as a key. -/
def wordKey (key : String) : Key := key.toList.map .char

theorem wordKey_injective {k l : String} (h : wordKey k = wordKey l) : k = l := by
  have hstring := congrArg string? h
  rw [wordKey, wordKey, string?_map_char, string?_map_char] at hstring
  exact Option.some.inj hstring

/-- A binding under a word, if there is a value for it. -/
def field (key : String) (t? : Option Tree) : Fields := (t?.map fun t => ([wordKey key], t)).toList

/-- Fields that are there or not, one after the other. -/
def fieldsOf (pieces : List (String × Option Tree)) : Fields :=
  pieces.flatMap fun e => field e.1 e.2

/-- A field that may be absent. -/
def Fields.optional {α : Type} (read : Tree → Option α) (key : String) (fields : Fields) :
    Option (Option α) :=
  match List.lookup [wordKey key] fields with
  | none => some none
  | some t => (read t).map some

theorem fieldsOf_nil : fieldsOf [] = [] := rfl

theorem fieldsOf_cons (key : String) (t? : Option Tree) (pieces : List (String × Option Tree)) :
    fieldsOf ((key, t?) :: pieces) = field key t? ++ fieldsOf pieces := rfl

/-- No other key is in the set, and none is there twice. -/
theorem keys_fieldsOf_sublist (pieces : List (String × Option Tree)) :
    ((fieldsOf pieces).map Prod.fst).Sublist (pieces.map fun e => [wordKey e.1]) := by
  induction pieces with
  | nil => exact List.Sublist.slnil
  | cons e pieces ih =>
    obtain ⟨key, t?⟩ := e
    rw [fieldsOf_cons, List.map_append, List.map_cons]
    cases t? with
    | none => exact ih.cons _
    | some t => exact ih.cons_cons _

theorem lookup_fieldsOf_of_notMem {key : String} {pieces : List (String × Option Tree)}
    (h : key ∉ pieces.map Prod.fst) : List.lookup [wordKey key] (fieldsOf pieces) = none := by
  induction pieces with
  | nil => rfl
  | cons e pieces ih =>
    obtain ⟨k, t?⟩ := e
    rw [List.map_cons, List.mem_cons, not_or] at h
    have hk : ([wordKey key] == [wordKey k]) = false :=
      beq_eq_false_iff_ne.mpr fun heq => h.1 (wordKey_injective (List.cons.inj heq).1)
    cases t? with
    | none => exact ih h.2
    | some t =>
      show List.lookup [wordKey key] (([wordKey k], t) :: fieldsOf pieces) = none
      rw [List.lookup_cons, hk]
      exact ih h.2

/-- If the keys are different, a field is read as its own piece. -/
theorem lookup_fieldsOf {pieces : List (String × Option Tree)}
    (h : (pieces.map Prod.fst).Nodup) {key : String} {t? : Option Tree}
    (hmem : (key, t?) ∈ pieces) : List.lookup [wordKey key] (fieldsOf pieces) = t? := by
  induction pieces with
  | nil => exact absurd hmem List.not_mem_nil
  | cons e pieces ih =>
    obtain ⟨k, u?⟩ := e
    rw [List.map_cons, List.nodup_cons] at h
    rcases List.mem_cons.mp hmem with heq | hrest
    · obtain ⟨rfl, rfl⟩ := Prod.mk.inj heq
      cases t? with
      | none =>
        show List.lookup [wordKey key] (fieldsOf pieces) = none
        exact lookup_fieldsOf_of_notMem h.1
      | some t =>
        show List.lookup [wordKey key] (([wordKey key], t) :: fieldsOf pieces) = some t
        rw [List.lookup_cons, beq_self_eq_true]
    · have hne : key ≠ k := by
        rintro rfl
        exact h.1 (List.mem_map.mpr ⟨(key, t?), hrest, rfl⟩)
      have hk : ([wordKey key] == [wordKey k]) = false :=
        beq_eq_false_iff_ne.mpr fun heq => hne (wordKey_injective (List.cons.inj heq).1)
      cases u? with
      | none => exact ih h.2 hrest
      | some u =>
        show List.lookup [wordKey key] (([wordKey k], u) :: fieldsOf pieces) = t?
        rw [List.lookup_cons, hk]
        exact ih h.2 hrest

/-- A field whose piece is a value that is there or not is read as what is read of that value. -/
theorem optional_fieldsOf_map {α β : Type} {read : Tree → Option β} {tree : α → Tree} {f : α → β}
    (hread : ∀ a, read (tree a) = some (f a)) {pieces : List (String × Option Tree)}
    (h : (pieces.map Prod.fst).Nodup) {key : String} {a? : Option α}
    (hmem : (key, a?.map tree) ∈ pieces) :
    Fields.optional read key (fieldsOf pieces) = some (a?.map f) := by
  rw [Fields.optional, lookup_fieldsOf h hmem]
  cases a? with
  | none => rfl
  | some a =>
    show (read (tree a)).map some = some (some (f a))
    rw [hread a, Option.map_some]

theorem optional_fieldsOf {α : Type} {read : Tree → Option α} {tree : α → Tree}
    (hread : ∀ a, read (tree a) = some a) {pieces : List (String × Option Tree)}
    (h : (pieces.map Prod.fst).Nodup) {key : String} {a? : Option α}
    (hmem : (key, a?.map tree) ∈ pieces) :
    Fields.optional read key (fieldsOf pieces) = some a? := by
  have hfield := optional_fieldsOf_map (f := id) hread h hmem
  rwa [Option.map_id, id] at hfield

end ComposeNix.Nix
