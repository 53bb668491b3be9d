import ComposeNix.Proofs.Nix.Texts

/-!
# A document as bindings

A document whose blocks are laid out from bindings is given by its `Outline`: titles, and
below each the blocks as bindings.  What the document's text says can then be read off the
outline.

* `render_document_eq` --- the text of the document is the frame around the chapters, laid
  out with their texts collapsed;
* `nest?_render_document` --- the text is lexically closed, and between its outer braces stand
  the bindings of the outline, one after the other, and nothing else;
* `renderBlock_infix_render_iff` --- a block of the outline stands in the text as it was laid
  out exactly if none of its texts has a long run.
-/

namespace ComposeNix.Nix

/-! ## Blocks that are written -/

/-- A character that is not blank is not trimmed away. -/
theorem mem_dropWhile_of_not {p : Char → Bool} {cs : List Char} {c : Char} (h : c ∈ cs)
    (hc : p c = false) : c ∈ cs.dropWhile p := by
  have hsplit : c ∈ cs.takeWhile p ++ cs.dropWhile p := by rwa [List.takeWhile_append_dropWhile]
  refine (List.mem_append.mp hsplit).resolve_left fun htake => ?_
  have htrue : p c = true := List.all_eq_true.mp List.all_takeWhile c htake
  rw [htrue] at hc
  exact Bool.noConfusion hc

theorem mem_trim {cs : List Char} {c : Char} (h : c ∈ cs) (hc : Text.isBlank c = false) :
    c ∈ Text.trim cs := by
  have hstart : c ∈ Text.trimStart cs := mem_dropWhile_of_not h hc
  rw [Text.trim, Text.trimEnd, List.mem_reverse]
  exact mem_dropWhile_of_not (List.mem_reverse.mpr hstart) hc

/-- A block with a binding in it is not blank. -/
theorem semicolon_mem_renderBlock {bs : List Binding} (h : bs ≠ []) : ';' ∈ renderBlock bs := by
  obtain ⟨b, bs, rfl⟩ := List.exists_cons_of_ne_nil h
  have hb : indent 1 ++ renderBinding 1 b <:+: renderBlock (b :: bs) :=
    infix_intercalate List.mem_cons_self
  refine hb.subset (List.mem_append_right _ ?_)
  rw [show b = (b.1, b.2) from rfl, renderBinding_mk]
  exact List.mem_append_right _ (List.mem_singleton_self _)

theorem trim_renderBlock_isEmpty (bs : List Binding) :
    (Text.trim (renderBlock bs)).isEmpty = bs.isEmpty := by
  by_cases h : bs = []
  · rw [h]
    rfl
  · have hmem := mem_trim (semicolon_mem_renderBlock h) (by decide)
    rw [List.isEmpty_eq_false_iff.mpr h, List.isEmpty_eq_false_iff]
    exact List.ne_nil_of_mem hmem

/-! ## Chapters -/

/-- A section whose blocks are not laid out yet. -/
structure Chapter where
  title : List Char
  blocks : List (List Binding)

namespace Chapter

/-- The section that a chapter is laid out as. -/
def laidOut (c : Chapter) : Section := ⟨c.title, c.blocks.map renderBlock⟩

/-- The blocks of a chapter that hold a binding. -/
def written (c : Chapter) : List (List Binding) := c.blocks.filter fun b => !b.isEmpty

/-- A chapter with all its texts collapsed. -/
def collapse (c : Chapter) : Chapter := ⟨c.title, c.blocks.map collapseBindings⟩

/-- The title fits on a line, and the bindings can be read. -/
structure WellFormed (c : Chapter) : Prop where
  title : '\n' ∉ c.title
  blocks : ∀ b ∈ c.blocks, BindingsWellFormed b

theorem content_laidOut (c : Chapter) : c.laidOut.content = c.written.map renderBlock := by
  rw [Section.content, laidOut, List.filter_map, written]
  congr 2
  funext b
  exact congrArg _ (trim_renderBlock_isEmpty b)

theorem isEmpty_laidOut (c : Chapter) : c.laidOut.isEmpty = c.written.isEmpty := by
  rw [Section.isEmpty, content_laidOut, List.isEmpty_map]

theorem written_collapse (c : Chapter) : c.collapse.written = c.written.map collapseBindings := by
  rw [written, collapse, List.filter_map, written]
  congr 2
  funext b
  cases b <;> rfl

theorem render_laidOut (c : Chapter) :
    c.laidOut.render = "  # ".toList ++ c.title ++ '\n'
      :: "\n\n".toList.intercalate (c.written.map renderBlock) := by
  rw [Section.render, content_laidOut]
  rfl

theorem WellFormed.written {c : Chapter} (h : c.WellFormed) :
    ∀ b ∈ c.written, BindingsWellFormed b ∧ b ≠ [] := by
  intro b hb
  obtain ⟨hmem, hne⟩ := List.mem_filter.mp hb
  exact ⟨h.blocks b hmem, by simpa using hne⟩

end Chapter

/-! ## Texts with empty lines between them -/

section Rows

variable {α : Type} {f g : α → List Char} {xs : List α}

/-- Solid texts with an empty line between them are solid. -/
theorem solid_gaps (h : ∀ x ∈ xs, Solid (f x) (g x)) (hxs : xs ≠ []) :
    Solid ("\n\n".toList.intercalate (xs.map f)) ("\n\n".toList.intercalate (xs.map g)) := by
  induction xs with
  | nil => exact absurd rfl hxs
  | cons x xs ih =>
    have hx := h x List.mem_cons_self
    cases xs with
    | nil => simpa using hx
    | cons y ys =>
      have hrest := ih (fun z hz => h z (List.mem_cons_of_mem x hz)) (List.cons_ne_nil y ys)
      simpa [List.intercalate] using hx.gap _ _ hrest

/-- Texts with an empty line between them are read one after the other. -/
theorem reads_gaps {m : α → List Node} (h : ∀ x ∈ xs, Reads (f x) (m x)) :
    Reads ("\n\n".toList.intercalate (xs.map f)) (xs.flatMap m) := by
  induction xs with
  | nil => exact reads_nil
  | cons x xs ih =>
    have hx := h x List.mem_cons_self
    cases xs with
    | nil => simpa using hx
    | cons y ys =>
      have hrest := ih fun z hz => h z (List.mem_cons_of_mem x hz)
      have hgap := hx.append (by decide) hrest.newline_cons.newline_cons
      simpa [List.intercalate] using hgap

end Rows

/-- A comment is not read. -/
theorem Reads.comment {title a : List Char} {m : List Node} (ht : '\n' ∉ title) (h : Reads a m) :
    Reads ("  # ".toList ++ title ++ '\n' :: a) m := by
  intro around before rest hrest
  have hskip : lex .code ("  # ".toList ++ title ++ '\n' :: a ++ rest)
      = lex .code (a ++ rest) := by
    rw [List.append_assoc, List.append_assoc]
    exact lex_comment ht (a ++ rest)
  rw [hskip, h _ _ _ hrest]

namespace Chapter

variable {c : Chapter}

/-- A chapter that is written begins and ends away from line feeds, and is collapsed by
collapsing its texts. -/
theorem WellFormed.solid (h : c.WellFormed) (hc : c.written ≠ []) :
    Solid c.laidOut.render c.collapse.laidOut.render := by
  have hlead : Solid ("  # ".toList ++ c.title) ("  # ".toList ++ c.title) := by
    refine solid_of_notMem (fun hmem => ?_) (by simp)
    rcases List.mem_append.mp hmem with hmem | hmem
    · exact absurd hmem (by decide)
    · exact h.title hmem
  have hblocks := solid_gaps (f := renderBlock) (g := fun b => renderBlock (collapseBindings b))
    (fun b hb => solid_renderBlock (h.written b hb).1 (h.written b hb).2) hc
  have hchapter := hlead.newline _ _ hblocks
  rw [render_laidOut, render_laidOut, written_collapse, List.map_map]
  simpa [Chapter.collapse, Function.comp_def] using hchapter

/-- A chapter is read as the groups of its bindings. -/
theorem WellFormed.reads (h : c.WellFormed) :
    Reads c.laidOut.render (c.written.flatMap bindingsNodes) := by
  rw [render_laidOut]
  exact (reads_gaps fun b hb => reads_renderBlock (h.written b hb).1).comment h.title

theorem WellFormed.collapse (h : c.WellFormed) : c.collapse.WellFormed := by
  refine ⟨h.title, fun b hb => ?_⟩
  obtain ⟨b', hb', rfl⟩ := List.mem_map.mp hb
  exact bindingsWellFormed_collapse b' (h.blocks b' hb')

end Chapter

/-! ## Outlines -/

/-- The chapters of a document, in order. -/
abbrev Outline := List Chapter

namespace Outline

/-- The document with the blocks laid out. -/
def document (o : Outline) : Document := o.map Chapter.laidOut

/-- The chapters with all their texts collapsed. -/
def collapse (o : Outline) : Outline := o.map Chapter.collapse

/-- The bindings of all chapters, in order. -/
def bindings (o : Outline) : List Binding := o.flatMap fun c => c.blocks.flatten

/-- The chapters that have something to say. -/
def written (o : Outline) : Outline := o.filter fun c => !c.written.isEmpty

/-- What stands around the body of a document. -/
def frame (body : List Char) : List Char :=
  Document.header ++ "\n\n\x7b\n".toList ++ body ++ "\n\x7d\n".toList

theorem render_document (o : Outline) : o.document.render = Nix.collapse (frame o.document.body) :=
  rfl

theorem body_document (o : Outline) :
    o.document.body = "\n\n".toList.intercalate (o.written.map fun c => c.laidOut.render) := by
  rw [Document.body, document, List.filter_map, List.map_map, written]
  simp only [Function.comp_def, Chapter.isEmpty_laidOut]

theorem written_collapse (o : Outline) : o.collapse.written = o.written.map Chapter.collapse := by
  rw [written, collapse, List.filter_map, written]
  simp only [Function.comp_def, Chapter.written_collapse, List.isEmpty_map]

/-- Every chapter can be read, and one at least has something to say. -/
structure WellFormed (o : Outline) : Prop where
  chapters : ∀ c ∈ o, c.WellFormed
  written : o.written ≠ []

variable {o : Outline}

theorem WellFormed.wellFormed_bindings (h : o.WellFormed) : BindingsWellFormed o.bindings := by
  rw [bindingsWellFormed_iff]
  intro b hb
  obtain ⟨c, hc, hb⟩ := List.mem_flatMap.mp hb
  obtain ⟨block, hblock, hb⟩ := List.mem_flatten.mp hb
  exact bindingsWellFormed_iff.mp ((h.chapters c hc).blocks block hblock) b hb

theorem WellFormed.of_mem_written (h : o.WellFormed) {c : Chapter} (hc : c ∈ o.written) :
    c.WellFormed ∧ c.written ≠ [] := by
  obtain ⟨hmem, hne⟩ := List.mem_filter.mp hc
  exact ⟨h.chapters c hmem, by simpa using hne⟩

theorem WellFormed.collapse (h : o.WellFormed) : o.collapse.WellFormed := by
  constructor
  · intro c hc
    obtain ⟨c', hc', rfl⟩ := List.mem_map.mp hc
    exact (h.chapters c' hc').collapse
  · rw [written_collapse, Ne, List.map_eq_nil_iff]
    exact h.written

/-- The body of a document begins and ends away from line feeds. -/
theorem WellFormed.solid_body (h : o.WellFormed) :
    Solid o.document.body o.collapse.document.body := by
  have hchapters := solid_gaps (f := fun c : Chapter => c.laidOut.render)
    (g := fun c : Chapter => c.collapse.laidOut.render)
    (fun c hc => (h.of_mem_written hc).1.solid (h.of_mem_written hc).2) h.written
  rw [body_document, body_document, written_collapse, List.map_map]
  exact hchapters

/-- What stands around a body is left alone. -/
theorem collapse_frame {body body' : List Char} (h : Solid body body') :
    Nix.collapse (frame body) = frame body' := by
  have hhead : Solid (Document.header) (Document.header) :=
    solid_of_notMem (by decide) (by decide)
  have hopen : Leads "\x7b\n".toList "\x7b\n".toList :=
    (solid_of_notMem (a := ['{']) (by decide) (by decide)).newline
  have hclose : Solid ['}'] ['}'] := solid_of_notMem (by decide) (by decide)
  have hbody := hhead.gap.append (hopen.append h.newline) _ _ hclose
  have hsplit : ∀ body, frame body
      = ((Document.header ++ ['\n', '\n']) ++ ("\x7b\n".toList ++ (body ++ ['\n']))) ++ ['}']
        ++ ['\n'] := by
    intro body
    simp [frame]
  rw [hsplit, hsplit, Nix.collapse, collapseAfter_append, (hbody 0).1, (hbody 0).2]
  rfl

/-- Collapsing the text of a document is collapsing the texts in its outline. -/
theorem WellFormed.render_document_eq (h : o.WellFormed) :
    o.document.render = frame o.collapse.document.body := by
  rw [render_document, collapse_frame h.solid_body]

/-- The arguments of a module. -/
def arguments : List Node :=
  [.group .brace ([.word "pkgs".toList, .mark ',', .word "lib".toList, .mark ',', .mark '.',
    .mark '.', .mark '.'].map .token), .token (.mark ':')]

/-- What contributes nothing can be left out before or after. -/
theorem flatMap_filter {α β : Type} {p : α → Bool} {f : α → List β} {xs : List α}
    (h : ∀ x ∈ xs, p x = false → f x = []) : (xs.filter p).flatMap f = xs.flatMap f := by
  induction xs with
  | nil => rfl
  | cons x xs ih =>
    have hxs := ih fun y hy => h y (List.mem_cons_of_mem x hy)
    by_cases hx : p x = true
    · rw [List.filter_cons_of_pos hx, List.flatMap_cons, List.flatMap_cons, hxs]
    · rw [List.filter_cons_of_neg hx, List.flatMap_cons, hxs,
        h x List.mem_cons_self (Bool.eq_false_iff.mpr hx), List.nil_append]

theorem nodes_written (c : Chapter) :
    c.written.flatMap bindingsNodes = bindingsNodes c.blocks.flatten := by
  rw [bindingsNodes_eq_flatMap, ← List.flatMap_id, List.flatMap_assoc, Chapter.written,
    flatMap_filter]
  · exact congrArg (c.blocks.flatMap ·) (funext bindingsNodes_eq_flatMap)
  · intro b _ hb
    obtain rfl : b = [] := by simpa using hb
    rfl

theorem reads_header : Reads Document.header arguments := by
  have hdots : Reads " ... ".toList ([.mark '.', .mark '.', .mark '.'].map .token) := by
    have hend : Reads [' '] [] := reads_nil.space_cons
    have hdot := hend.mark_cons (c := '.') (by decide) ⟨rfl, rfl⟩
    have hdots := hdot.mark_cons (c := '.') (by decide) ⟨rfl, rfl⟩
    exact (hdots.mark_cons (c := '.') (by decide) ⟨rfl, rfl⟩).space_cons
  have hlib : Reads "lib".toList [.token (.word "lib".toList)] :=
    (spells_word (by decide)).reads trivial
  have hpkgs : Reads "pkgs".toList [.token (.word "pkgs".toList)] :=
    (spells_word (by decide)).reads trivial
  have hrest := hlib.append (by decide) (hdots.mark_cons (c := ',') (by decide) ⟨rfl, rfl⟩)
  have hlist := hpkgs.append (by decide)
    (hrest.space_cons.mark_cons (c := ',') (by decide) ⟨rfl, rfl⟩)
  have hcolon := reads_nil.mark_cons (c := ':') (by decide) ⟨rfl, rfl⟩
  exact hlist.space_cons.brace.append (by decide) hcolon

/-- The body of a document is read as the bindings of its outline. -/
theorem WellFormed.reads_body (h : o.WellFormed) :
    Reads o.document.body (bindingsNodes o.bindings) := by
  have hchapters := reads_gaps (f := fun c : Chapter => c.laidOut.render)
    (m := fun c : Chapter => c.written.flatMap bindingsNodes)
    fun c hc => (h.of_mem_written hc).1.reads
  have hnodes : o.written.flatMap (fun c => c.written.flatMap bindingsNodes)
      = bindingsNodes o.bindings := by
    rw [Outline.written, flatMap_filter]
    · simp only [nodes_written, bindingsNodes_eq_flatMap, bindings, List.flatMap_assoc]
    · intro c _ hc
      obtain hc : c.written = [] := by simpa using hc
      rw [hc, List.flatMap_nil]
  rw [body_document, ← hnodes]
  exact hchapters

theorem bindings_collapse (o : Outline) : o.collapse.bindings = collapseBindings o.bindings := by
  simp only [bindings, collapse, Chapter.collapse, collapseBindings_eq_map, List.flatMap_map,
    List.map_flatMap, List.map_flatten]
  congr 1
  funext c
  congr 2
  exact funext collapseBindings_eq_map

/-- The text of a document is lexically closed: its header, and between the outer braces the
bindings of the outline, with their texts collapsed. -/
theorem WellFormed.nest?_render_document (h : o.WellFormed) :
    nest? o.document.render
      = some (arguments ++ [.group .brace (bindingsNodes (collapseBindings o.bindings))]) := by
  have hbody : Reads ('\n' :: o.collapse.document.body) (bindingsNodes o.collapse.bindings) :=
    h.collapse.reads_body.newline_cons
  have hend : Reads ['\n'] [] := reads_nil.newline_cons
  have hset := (hbody.append (by decide) hend).brace.newline_cons.newline_cons
  have hmodule := reads_header.append (by decide) (hset.append_newline)
  rw [h.render_document_eq, ← bindings_collapse]
  simpa [frame] using hmodule.nest?

/-! ## Where the blocks stand -/

/-- A block that is written stands in the body. -/
theorem renderBlock_infix_body {c : Chapter} (hc : c ∈ o) {b : List Binding} (hb : b ∈ c.blocks) :
    renderBlock b <:+: o.document.body := by
  by_cases hne : b = []
  · rw [hne]
    exact List.nil_infix
  · have hwritten : b ∈ c.written := List.mem_filter.mpr ⟨hb, by simpa using hne⟩
    have hc' : c ∈ o.written :=
      List.mem_filter.mpr ⟨hc, by simpa using List.ne_nil_of_mem hwritten⟩
    have hsection : renderBlock b <:+: c.laidOut.render := by
      rw [Chapter.render_laidOut]
      exact (infix_intercalate (List.mem_map_of_mem hwritten)).trans
        ((List.suffix_cons _ _).trans (List.suffix_append _ _)).isInfix
    rw [body_document]
    exact hsection.trans (infix_intercalate (List.mem_map_of_mem hc'))

variable {c : Chapter} {b : List Binding}

/-- Every block stands in the text of the document with its texts collapsed. -/
theorem WellFormed.renderBlock_collapse_infix_render (h : o.WellFormed) (hc : c ∈ o)
    (hb : b ∈ c.blocks) : renderBlock (collapseBindings b) <:+: o.document.render := by
  have hbody : renderBlock (collapseBindings b) <:+: o.collapse.document.body :=
    renderBlock_infix_body (List.mem_map_of_mem hc) (List.mem_map_of_mem hb)
  rw [h.render_document_eq]
  exact hbody.trans ⟨_, _, rfl⟩

/-- A block stands in the text of the document as it was laid out exactly if none of its
texts has a long run. -/
theorem WellFormed.renderBlock_infix_render_iff (h : o.WellFormed) (hc : c ∈ o)
    (hb : b ∈ c.blocks) :
    renderBlock b <:+: o.document.render ↔ TextsKept (bindingsLiterals b) :=
  renderBlock_infix_collapse_iff ((h.chapters c hc).blocks b hb)
    (h.renderBlock_collapse_infix_render hc hb)

end Outline
end ComposeNix.Nix
