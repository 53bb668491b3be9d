import ComposeNix.Dictionary
import ComposeNix.Proofs.Yaml.Schema

/-!
# Documents without tags of their own

The node of an untagged document has the tag that its form gives it: a sequence and a mapping the
usual one, a plain scalar the one of the core schema, any other scalar that of a text.  Reading
its value can fail, but only as foreseen (`foreseen_value`): the readings that can be taken by
surprise are those for tags that somebody wrote.

The argument follows the examination of a document.  What is said of a node holds of the node
that an alias stands for, of the entries that merge keys bring in, and so of all nodes on
all levels.
-/

namespace ComposeNix.Yaml

/-- A node with the tag that its form gives it. -/
inductive Node.Untagged : Node → Prop
  | text (text : String) (start : Mark) : Untagged (.scalar .str text start)
  | plain (text : String) (start : Mark) (h : text.toList.getLast? ≠ some '\n') :
      Untagged (.scalar (Schema.resolve text) text start)
  | sequence (number : Nat) (items : List Node) (start : Mark) (h : ∀ item ∈ items, Untagged item) :
      Untagged (.sequence number .seq items start)
  | mapping (number : Nat) (entries : List (Node × Node)) (start : Mark)
      (hkeys : ∀ e ∈ entries, Untagged e.1) (hvalues : ∀ e ∈ entries, Untagged e.2) :
      Untagged (.mapping number .map entries start)
  | reference (anchor : String) : Untagged (.alias anchor)

/-- Entries of untagged nodes. -/
def UntaggedEntries (entries : List (Node × Node)) : Prop :=
  ∀ e ∈ entries, e.1.Untagged ∧ e.2.Untagged

/-- A document of untagged nodes. -/
structure Document.Untagged (d : Document) : Prop where
  root : d.root.Untagged
  anchored : ∀ e ∈ d.anchored, e.2.Untagged

/-! ## Tags -/

/-- A tag that no grammar takes a text for is given to no text. -/
theorem Schema.resolve_ne {tag : Tag} (hstr : tag ≠ .str) (h : ∀ cs, takes tag cs = false)
    (text : String) : resolve text ≠ tag := by
  intro heq
  have htakes := takes_of_resolve_ne (heq ▸ hstr)
  rw [heq, h] at htakes
  exact nomatch htakes

theorem isCollection_resolve (text : String) : (Schema.resolve text).isCollection = false := by
  have hne : ∀ {tag : Tag}, tag ≠ .str → (∀ cs, Schema.takes tag cs = false) →
      Schema.resolve text ≠ tag := fun hstr h => Schema.resolve_ne hstr h text
  cases htag : Schema.resolve text with
  | orderedMap => exact absurd htag (hne (by decide) fun _ => rfl)
  | pairs => exact absurd htag (hne (by decide) fun _ => rfl)
  | set => exact absurd htag (hne (by decide) fun _ => rfl)
  | seq => exact absurd htag (hne (by decide) fun _ => rfl)
  | map => exact absurd htag (hne (by decide) fun _ => rfl)
  | _ => rfl

theorem Node.Untagged.tag_ne_value {node : Node} (h : node.Untagged) : node.tag ≠ .value := by
  cases h with
  | plain text start h => exact Schema.resolve_ne (by decide) (fun _ => rfl) text
  | _ => exact fun h => nomatch h

/-- Every fault of meaning is foreseen. -/
theorem foreseen_meaning {α : Type} {P : α → Prop} (cause : MeaningFault) (place : Mark) :
    Foreseen P (.error (.meaning cause place) : Except Fault α) := fun h => nomatch h

namespace Document

/-! ## Rows -/

/-- What every part of a row ensures of its results, the row ensures of all of them. -/
theorem foreseen_collect {α β : Type} {P : β → Prop} {f : α → Except Fault (List β)} {xs : List α}
    (h : ∀ x ∈ xs, Foreseen (fun ys => ∀ y ∈ ys, P y) (f x)) :
    Foreseen (fun ys => ∀ y ∈ ys, P y) (collect f xs) := by
  induction xs with
  | nil => exact fun y hy => absurd hy List.not_mem_nil
  | cons x xs ih =>
    rw [collect]
    refine (h x List.mem_cons_self).bind fun ys hys => ?_
    refine (ih fun x' hx' => h x' (List.mem_cons_of_mem x hx')).bind fun zs hzs => ?_
    exact List.forall_mem_append.mpr ⟨hys, hzs⟩

/-! ## Scalars -/

theorem foreseen_scalarText (d : Document) (depth : Nat) (node : Node) :
    Foreseen (fun _ => True) (d.scalarText depth node) := by
  induction depth generalizing node with
  | zero =>
    rw [scalarText]
    cases d.resolve node with
    | scalar tag text start => trivial
    | _ => exact foreseen_meaning _ _
  | succ depth ih =>
    rw [scalarText]
    cases d.resolve node with
    | scalar tag text start => trivial
    | mapping number tag entries start =>
      cases hdefault : entries.find? fun e => (d.resolve e.1).tag == .value with
      | none =>
        simp only [hdefault]
        exact foreseen_meaning _ _
      | some e =>
        simp only [hdefault]
        exact ih e.2
    | _ => exact foreseen_meaning _ _

/-- The value of an untagged node that is no collection. -/
theorem foreseen_scalar (d : Document) {node : Node} (h : node.Untagged) :
    Foreseen (fun _ => True) (d.scalar node) := by
  cases h with
  | text text start => trivial
  | plain text start h =>
    exact Schema.foreseen_value_resolve h start
  | sequence number items start h =>
    exact (d.foreseen_scalarText _ _).bind fun _ _ => foreseen_meaning _ _
  | mapping number entries start hkeys hvalues =>
    exact (d.foreseen_scalarText _ _).bind fun _ _ => foreseen_meaning _ _
  | reference anchor => exact (d.foreseen_scalarText _ _).bind fun _ _ => trivial

/-! ## Nodes of the document -/

theorem mem_of_lookup {α : Type} {key : String} {rows : List (String × α)} {a : α}
    (h : rows.lookup key = some a) : (key, a) ∈ rows := Dictionary.mem_of_get?_eq_some h

variable {d : Document} (hd : d.Untagged)
include hd

theorem Untagged.resolve {node : Node} (h : node.Untagged) : (d.resolve node).Untagged := by
  cases h with
  | reference anchor =>
    show ((d.anchored.lookup anchor).getD (.alias anchor)).Untagged
    cases hlookup : d.anchored.lookup anchor with
    | none => exact .reference anchor
    | some node => exact hd.anchored _ (mem_of_lookup hlookup)
  | text text start => exact .text text start
  | plain text start h => exact .plain text start h
  | sequence number items start h => exact .sequence number items start h
  | mapping number entries start hkeys hvalues => exact .mapping number entries start hkeys hvalues

theorem Untagged.entryKey {key : Node} (h : key.Untagged) : (d.entryKey key).Untagged := by
  have hkey := hd.resolve h
  rw [Document.entryKey, if_neg hkey.tag_ne_value]
  exact hkey

/-! ## Merge keys -/

theorem foreseen_mergedEntries (depth : Nat) (merging : List Nat) {node : Node}
    (h : node.Untagged) : Foreseen UntaggedEntries (d.mergedEntries merging depth node) := by
  induction depth generalizing merging node with
  | zero => exact fun e he => absurd he List.not_mem_nil
  | succ depth ih =>
    cases h with
    | mapping number entries start hkeys hvalues =>
      have hown : UntaggedEntries (entries.filter fun e => (d.resolve e.1).tag != .merge) :=
        fun e he => ⟨hkeys e (List.mem_filter.mp he).1, hvalues e (List.mem_filter.mp he).1⟩
      rw [mergedEntries]
      split
      · exact hown
      · refine Ensures.bind (foreseen_collect fun e he => ?_) fun merged hmerged =>
          List.forall_mem_append.mpr ⟨hmerged, hown⟩
        obtain ⟨key, value⟩ := e
        have hvalue := hd.resolve (hvalues _ he)
        dsimp only at hvalue ⊢
        split
        · exact fun e he => absurd he List.not_mem_nil
        · generalize d.resolve value = value at hvalue
          cases hvalue with
          | mapping n es m hkeys hvalues => exact ih _ (.mapping n es m hkeys hvalues)
          | sequence n items m hitems =>
            refine Ensures.bind (Ensures.mapM (Q := UntaggedEntries) fun item hitem => ?_)
              fun rows hrows e he => ?_
            · have hitem := hd.resolve (hitems item hitem)
              generalize d.resolve item = item at hitem
              cases hitem with
              | mapping n es m hkeys hvalues => exact ih _ (.mapping n es m hkeys hvalues)
              | _ => exact foreseen_meaning _ _
            · obtain ⟨row, hrow, he⟩ := List.mem_flatten.mp he
              exact hrows row (List.mem_reverse.mp hrow) e he
          | _ => exact foreseen_meaning _ _
    | _ => exact fun e he => absurd he List.not_mem_nil

theorem foreseen_entries {node : Node} (h : node.Untagged) :
    Foreseen UntaggedEntries (d.entries node) := foreseen_mergedEntries hd _ _ h

/-! ## Examination -/

omit hd in
theorem foreseen_examineNode (d : Document) {node : Node} (h : node.Untagged) :
    Foreseen (fun _ => True) (d.examineNode node) := by
  rw [examineNode]
  split
  · trivial
  · exact (d.foreseen_scalar h).map fun _ _ => trivial

theorem foreseen_examineEntries (start : Mark) {entries : List (Node × Node)}
    (h : UntaggedEntries entries) :
    Foreseen (fun nodes => ∀ node ∈ nodes, node.Untagged) (d.examineEntries start entries) := by
  induction entries with
  | nil => exact fun node hnode => absurd hnode List.not_mem_nil
  | cons e entries ih =>
    obtain ⟨key, value⟩ := e
    obtain ⟨hkey, hvalue⟩ := h (key, value) List.mem_cons_self
    rw [examineEntries]
    refine (d.foreseen_examineNode (hd.entryKey hkey)).bind fun _ _ => ?_
    dsimp only
    split
    · exact foreseen_meaning _ _
    · refine (d.foreseen_examineNode (hd.resolve hvalue)).bind fun _ _ => ?_
      refine (ih fun e he => h e (List.mem_cons_of_mem _ he)).bind fun nodes hnodes => ?_
      exact List.forall_mem_cons.mpr ⟨hd.resolve hvalue, hnodes⟩

/-- Examining what a node holds gives untagged nodes. -/
theorem foreseen_examineContent {node : Node} (h : node.Untagged) :
    Foreseen (fun nodes => ∀ node ∈ nodes, node.Untagged) (d.examineContent node) := by
  have hscalar : ∀ tag text start, Foreseen (fun nodes => ∀ node ∈ nodes, node.Untagged)
      (d.examineContent (.scalar tag text start)) := by
    intro tag text start
    cases tag with
    | seq => exact foreseen_meaning _ _
    | map => exact foreseen_meaning _ _
    | set => exact foreseen_meaning _ _
    | orderedMap => exact foreseen_meaning _ _
    | pairs => exact foreseen_meaning _ _
    | _ => exact fun node hnode => absurd hnode List.not_mem_nil
  cases h with
  | text text start => exact hscalar _ _ _
  | plain text start h => exact hscalar _ _ _
  | sequence number items start h =>
    refine Ensures.mapM fun item hitem => ?_
    have hitem := hd.resolve (h item hitem)
    exact (d.foreseen_examineNode hitem).bind fun _ _ => hitem
  | mapping number entries start hkeys hvalues =>
    refine (foreseen_entries hd (.mapping number entries start hkeys hvalues)).bind
      fun merged hmerged => ?_
    exact foreseen_examineEntries hd start hmerged
  | reference anchor => exact fun node hnode => absurd hnode List.not_mem_nil

omit hd in
/-- The nodes that are new are nodes of the row. -/
theorem unseen_subset (seen : List Nat) (nodes : List Node) : (unseen seen nodes).1 ⊆ nodes := by
  induction nodes generalizing seen with
  | nil => exact List.Subset.refl _
  | cons node nodes ih =>
    have hskip : ∀ seen, (unseen seen nodes).1 ⊆ node :: nodes := fun seen =>
      List.Subset.trans (ih seen) (List.subset_cons_self node nodes)
    have htake : ∀ seen, node :: (unseen seen nodes).1 ⊆ node :: nodes := fun seen =>
      List.cons_subset_cons node (ih seen)
    rw [unseen]
    split
    · exact hskip seen
    · split
      · split
        · exact hskip seen
        · exact htake _
      · exact htake _

theorem foreseen_examineLevels (depth : Nat) (seen : List Nat) {level : List Node}
    (h : ∀ node ∈ level, node.Untagged) :
    Foreseen (fun _ => True) (d.examineLevels depth seen level) := by
  induction depth generalizing seen level with
  | zero => trivial
  | succ depth ih =>
    rw [examineLevels]
    split
    · trivial
    · refine (foreseen_collect fun node hnode => foreseen_examineContent hd (h node hnode)).bind
        fun nodes hnodes => ?_
      exact ih _ fun node hnode => hnodes node (unseen_subset seen nodes hnode)

theorem foreseen_examine : Foreseen (fun _ => True) d.examine := by
  have hroot := hd.resolve hd.root
  rw [examine]
  refine (d.foreseen_examineNode hroot).bind fun _ _ => ?_
  refine foreseen_examineLevels hd _ _ fun node hnode => ?_
  rw [List.mem_singleton.mp (unseen_subset [] _ hnode)]
  exact hroot

/-! ## Values -/

theorem foreseen_valueIn (depth : Nat) (inside : List Nat) {node : Node} (h : node.Untagged) :
    Foreseen (fun _ => True) (d.valueIn depth inside node) := by
  induction depth generalizing inside node with
  | zero => trivial
  | succ depth ih =>
    have hnode := hd.resolve h
    rw [valueIn]
    generalize d.resolve node = node at hnode
    cases hnode with
    | text text start => exact d.foreseen_scalar (.text text start)
    | plain text start h =>
      have hscalar : (!(Schema.resolve text).isCollection) = true := by rw [isCollection_resolve]; rfl
      rw [Node.tag, if_pos hscalar]
      exact d.foreseen_scalar (.plain text start h)
    | reference anchor => exact d.foreseen_scalar (.reference anchor)
    | sequence number items start h =>
      rw [Node.tag, if_neg (by decide)]
      dsimp only [Node.number?]
      split
      · trivial
      · exact Ensures.bind (Ensures.mapM fun item hitem => ih _ (h item hitem)) fun _ _ => trivial
    | mapping number entries start hkeys hvalues =>
      rw [Node.tag, if_neg (by decide)]
      dsimp only [Node.number?]
      split
      · trivial
      · refine (foreseen_entries hd (.mapping number entries start hkeys hvalues)).bind
          fun merged hmerged => ?_
        refine Ensures.bind (Ensures.mapM (Q := fun _ => True) fun e he => ?_) fun _ _ => trivial
        obtain ⟨hkey, hvalue⟩ := hmerged e he
        exact (ih _ (hd.entryKey hkey)).bind fun _ _ => (ih _ hvalue).bind fun _ _ => trivial

/-- Reading the value of an untagged document fails only as foreseen. -/
theorem foreseen_value : Foreseen (fun _ => True) d.value :=
  (foreseen_examine hd).bind fun _ _ => foreseen_valueIn hd _ _ hd.root

end Document
end ComposeNix.Yaml
