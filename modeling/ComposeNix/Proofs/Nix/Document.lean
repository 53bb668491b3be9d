import ComposeNix.Proofs.Nix.Outline
import Mathlib.Data.List.TakeWhile

/-!
# Documents that are put together step by step

A document grows in two ways: a section is added at its end, and a block is appended to a section
that is there.  What a run of such steps leaves can be read off the run (`build?_eq_some_iff`): the
sections in the order in which they were added, and below each the blocks that it came with and then
those that were appended to it.

Blocks that hold nothing but white space are not written, and neither are sections without any other
block.  `Document.prune` leaves them out, and rendering does not see the difference
(`Document.render_prune`).  Texts without long runs and without line feeds at their edges are
`Tight`: the pass over empty lines leaves them and the empty lines between them alone, so a document
of such texts is written as it is (`Document.render_of_tight`).
-/

namespace ComposeNix.Nix

/-! ## Blank blocks -/

/-- A block is trimmed to nothing exactly if it is blank. -/
theorem isEmpty_trim (cs : List Char) : (Text.trim cs).isEmpty = cs.all Text.isBlank := by
  by_cases h : cs.all Text.isBlank = true
  · have hstart : Text.trimStart cs = [] :=
      List.dropWhile_eq_nil_iff.mpr (List.all_eq_true.mp h)
    rw [h, Text.trim, hstart]
    rfl
  · obtain ⟨c, hc, hblank⟩ : ∃ c ∈ cs, Text.isBlank c = false := by
      simpa [List.all_eq_true] using h
    rw [Bool.not_eq_true] at h
    rw [h, List.isEmpty_eq_false_iff]
    exact List.ne_nil_of_mem (mem_trim hc hblank)

namespace Section

/-- The section without its blank blocks. -/
def prune (s : Section) : Section :=
  { s with blocks := s.blocks.filter fun b => !b.all Text.isBlank }

theorem blocks_prune (s : Section) : s.prune.blocks = s.content := by
  rw [prune, content]
  simp only [isEmpty_trim]

theorem prune_prune (s : Section) : s.prune.prune = s.prune := by
  simp only [prune, List.filter_filter, Bool.and_self]

end Section

namespace Document

/-- The document without its blank blocks, and without the sections that are left without a
block. -/
def prune (d : Document) : Document :=
  (d.map Section.prune).filter fun s => !s.blocks.isEmpty

variable {d : Document}

theorem prune_of_mem_prune {s : Section} (hs : s ∈ d.prune) : s.prune = s ∧ s.blocks ≠ [] := by
  obtain ⟨hmem, hblocks⟩ := List.mem_filter.mp hs
  obtain ⟨t, -, rfl⟩ := List.mem_map.mp hmem
  exact ⟨t.prune_prune, by simpa using hblocks⟩

theorem prune_prune (d : Document) : d.prune.prune = d.prune := by
  have hsections : d.prune.map Section.prune = d.prune :=
    (List.map_congr_left fun s hs => (prune_of_mem_prune hs).1).trans (List.map_id _)
  rw [prune, hsections, prune, List.filter_filter]
  simp only [Bool.and_self]

/-- The sections that are written are those that are left. -/
theorem body_eq (d : Document) :
    d.body = "\n\n".toList.intercalate (d.prune.map fun s =>
      "  # ".toList ++ s.title ++ '\n' :: "\n\n".toList.intercalate s.blocks) := by
  have hfilter : d.prune = (d.filter (!·.isEmpty)).map Section.prune := by
    rw [prune, List.filter_map]
    congr 2
    funext s
    rw [Function.comp_apply, Section.blocks_prune]
    rfl
  rw [body, hfilter, List.map_map]
  refine congrArg _ (List.map_congr_left fun s _ => ?_)
  rw [Section.render, ← Section.blocks_prune]
  rfl

/-- Blank blocks, and sections without any other, make no difference to the text. -/
theorem render_prune (d : Document) : d.prune.render = d.render := by
  rw [render, render, body_eq, body_eq, prune_prune]

end Document

/-! ## Texts that are left alone -/

/-- A text without long runs and without line feeds at its edges. -/
structure Tight (cs : List Char) : Prop where
  run : ¬ longRun <:+: cs
  head : cs.head? ≠ some '\n'
  last : cs.getLast? ≠ some '\n'

instance (cs : List Char) : Decidable (Tight cs) :=
  decidable_of_iff (¬ longRun <:+: cs ∧ cs.head? ≠ some '\n' ∧ cs.getLast? ≠ some '\n')
    ⟨fun h => ⟨h.1, h.2.1, h.2.2⟩, fun h => ⟨h.run, h.head, h.last⟩⟩

theorem Tight.solid {cs : List Char} (h : Tight cs) (hne : cs ≠ []) : Solid cs cs := by
  intro run
  constructor
  · obtain ⟨c, rest, rfl⟩ := List.exists_cons_of_ne_nil hne
    have hc : c ≠ '\n' := fun hc => h.head (by rw [hc]; rfl)
    have hcollapse := (collapse_eq_self_iff (c :: rest)).mpr h.run
    rw [collapse, collapseAfter, if_neg hc] at hcollapse
    rw [collapseAfter, if_neg hc, hcollapse]
  · obtain ⟨start, c, rfl⟩ := (List.eq_nil_or_concat' cs).resolve_left hne
    have hc : c ≠ '\n' := fun hc => h.last (by rw [hc, List.getLast?_concat])
    rw [runAfter_append, runAfter, if_neg hc]
    rfl

/-- A section of tight texts is solid, if it is written. -/
theorem solid_section {s : Section} (h : Tight s.title ∧ ∀ b ∈ s.blocks, Tight b)
    (hs : s.prune = s ∧ s.blocks ≠ []) :
    Solid ("  # ".toList ++ s.title ++ '\n' :: "\n\n".toList.intercalate s.blocks)
      ("  # ".toList ++ s.title ++ '\n' :: "\n\n".toList.intercalate s.blocks) := by
  have hlead : Solid ("  # ".toList ++ s.title) ("  # ".toList ++ s.title) := by
    have hmark : Solid "  # ".toList "  # ".toList := solid_of_notMem (by decide) (by decide)
    by_cases htitle : s.title = []
    · rwa [htitle, List.append_nil]
    · exact hmark.append (h.1.solid htitle)
  have hrows : Solid ("\n\n".toList.intercalate s.blocks)
      ("\n\n".toList.intercalate s.blocks) := by
    have hblocks : ∀ b ∈ s.blocks, Solid (id b) (id b) := by
      refine fun b hb => (h.2 b hb).solid fun hnil => ?_
      -- an empty block would have been left out
      rw [← hs.1, Section.prune, hnil] at hb
      simp at hb
    have hgaps := solid_gaps hblocks hs.2
    rwa [List.map_id] at hgaps
  have hchapter := hlead.newline _ _ hrows
  rwa [List.append_assoc, List.singleton_append] at hchapter

namespace Document

variable {d : Document}

/-- If the texts that are left are tight, the document is written as it is. -/
theorem render_of_tight (h : ∀ s ∈ d.prune, Tight s.title ∧ ∀ b ∈ s.blocks, Tight b) :
    d.render = header ++ "\n\n\x7b\n".toList
      ++ "\n\n".toList.intercalate (d.prune.map fun s =>
        "  # ".toList ++ s.title ++ '\n' :: "\n\n".toList.intercalate s.blocks)
      ++ "\n\x7d\n".toList := by
  rw [← body_eq]
  have hbody : d.prune ≠ [] → Solid d.body d.body := by
    intro hne
    rw [body_eq]
    exact solid_gaps (fun s hs => solid_section (h s hs) (prune_of_mem_prune hs)) hne
  by_cases hne : d.prune = []
  · rw [render, body_eq, hne]
    decide
  · exact Outline.collapse_frame (hbody hne)

/-! ## Putting a document together -/

/-- A step that a document grows by. -/
inductive Step
  /-- A section with its first blocks is added at the end. -/
  | add (title : List Char) (blocks : List (List Char))
  /-- A block is appended to the section at this place. -/
  | append (index : Nat) (block : List Char)

namespace Step

/-- The document behind a step.  A block can only be appended to a section that is there. -/
def result? (d : Document) : Step → Option Document
  | add title blocks => some (d.add title blocks)
  | append index block => d.append? index block

/-- The section that a step adds. -/
def added? : Step → Option Section
  | add title blocks => some ⟨title, blocks⟩
  | append _ _ => none

/-- The block that a step appends to the section at a place. -/
def appended? (place : Nat) : Step → Option (List Char)
  | add _ _ => none
  | append index block => if index = place then some block else none

end Step

/-- Whether every block of a run is appended to a section that is there, if `count` sections are
there before. -/
def InPlace (count : Nat) : List Step → Prop
  | [] => True
  | .add _ _ :: steps => InPlace (count + 1) steps
  | .append index _ :: steps => index < count ∧ InPlace count steps

/-- The sections of a document and those that a run adds, in this order; below each stand the blocks
that it had and then those that the run appends to it. -/
def grown (d : Document) (steps : List Step) : Document :=
  (d ++ steps.filterMap Step.added?).mapIdx fun place s =>
    { s with blocks := s.blocks ++ steps.filterMap (Step.appended? place) }

/-- The document that a run puts together. -/
def build? (steps : List Step) : Option Document := steps.foldlM Step.result? []

variable {steps : List Step}

theorem grown_nil (d : Document) : d.grown [] = d := by
  rw [grown, List.filterMap_nil, List.append_nil]
  refine List.ext_getElem? fun place => ?_
  rw [List.getElem?_mapIdx]
  simp

/-- What a step does may be done before the rest of the run. -/
theorem grown_cons {d' : Document} {step : Step} (h : step.result? d = some d') :
    d.grown (step :: steps) = d'.grown steps := by
  cases step with
  | add title blocks =>
    obtain rfl := Option.some.inj h
    have hadded : (Step.add title blocks :: steps).filterMap Step.added?
        = ⟨title, blocks⟩ :: steps.filterMap Step.added? := rfl
    rw [grown, grown, add, hadded, List.append_assoc]
    rfl
  | append index block =>
    obtain ⟨s, hs, rfl⟩ := Option.map_eq_some_iff.mp h
    have hindex : index < d.length := (List.getElem?_eq_some_iff.mp hs).1
    have hset (added : Document) : d.set index { s with blocks := s.blocks ++ [block] } ++ added
        = (d ++ added).set index { s with blocks := s.blocks ++ [block] } :=
      (List.set_append_left index _ hindex).symm
    have hadded : (Step.append index block :: steps).filterMap Step.added?
        = steps.filterMap Step.added? := rfl
    rw [grown, grown, hset, hadded]
    refine List.ext_getElem? fun place => ?_
    rw [List.getElem?_mapIdx, List.getElem?_mapIdx, List.getElem?_set]
    by_cases hplace : index = place
    · subst hplace
      have hthere : (d ++ steps.filterMap Step.added?)[index]? = some s := by
        rw [List.getElem?_append_left hindex, hs]
      have hlength := (List.getElem?_eq_some_iff.mp hthere).1
      have happended : (Step.append index block :: steps).filterMap (Step.appended? index)
          = block :: steps.filterMap (Step.appended? index) :=
        List.filterMap_cons_some (if_pos rfl)
      rw [if_pos rfl, if_pos hlength, hthere, Option.map_some, Option.map_some, happended,
        List.append_assoc, List.singleton_append]
    · have happended : (Step.append index block :: steps).filterMap (Step.appended? place)
          = steps.filterMap (Step.appended? place) := List.filterMap_cons_none (if_neg hplace)
      rw [if_neg hplace, happended]

theorem inPlace_cons_iff {step : Step} : InPlace d.length (step :: steps)
    ↔ ∃ d', step.result? d = some d' ∧ InPlace d'.length steps := by
  cases step with
  | add title blocks =>
    have hlength : (d.add title blocks).length = d.length + 1 := List.length_append
    simp only [InPlace, Step.result?, Option.some.injEq, exists_eq_left', hlength]
  | append index block =>
    by_cases hindex : index < d.length
    · simp [InPlace, Step.result?, append?, hindex]
    · simp [InPlace, Step.result?, append?, hindex]

/-- A step can be taken exactly if it is in place. -/
theorem foldlM_result?_eq_some_iff {d' : Document} :
    steps.foldlM Step.result? d = some d' ↔ InPlace d.length steps ∧ d' = d.grown steps := by
  induction steps generalizing d with
  | nil =>
    rw [grown_nil]
    simp [InPlace, eq_comm]
  | cons step steps ih =>
    rw [List.foldlM_cons, Option.bind_eq_bind, Option.bind_eq_some_iff, inPlace_cons_iff]
    constructor
    · rintro ⟨next, hnext, hrun⟩
      obtain ⟨hplace, rfl⟩ := ih.mp hrun
      exact ⟨⟨next, hnext, hplace⟩, (grown_cons hnext).symm⟩
    · rintro ⟨⟨next, hnext, hplace⟩, rfl⟩
      exact ⟨next, hnext, ih.mpr ⟨hplace, grown_cons hnext⟩⟩

/-- A run puts a document together exactly if it is in place, and which one can be read off the
run. -/
theorem build?_eq_some_iff : build? steps = some d ↔ InPlace 0 steps ∧ d = grown [] steps :=
  foldlM_result?_eq_some_iff

/-- What is rendered of a document that was put together in any run of steps.  The run can be taken
if every block is appended to a section that is there, and leaves the sections in the order in which
they were added, each with its blocks in order.  Blank blocks, and sections without any other, make
no difference to the text.  If the other texts are tight, the text is the header, the sections with
their titles and blocks, all with an empty line between them, and the closing brace.  Whatever the
texts are, no two lines in a row are empty. -/
theorem render_of_inPlace (h : InPlace 0 steps) : ∃ d, build? steps = some d
    ∧ d = ((steps.filterMap Step.added?).mapIdx fun place s =>
        { s with blocks := s.blocks ++ steps.filterMap (Step.appended? place) })
    ∧ d.render = d.prune.render
    ∧ ((∀ s ∈ d.prune, Tight s.title ∧ ∀ b ∈ s.blocks, Tight b) →
      d.render = header ++ "\n\n\x7b\n".toList
        ++ "\n\n".toList.intercalate (d.prune.map fun s =>
          "  # ".toList ++ s.title ++ '\n' :: "\n\n".toList.intercalate s.blocks)
        ++ "\n\x7d\n".toList)
    ∧ ¬ longRun <:+: d.render := by
  refine ⟨_, build?_eq_some_iff.mpr ⟨h, rfl⟩, rfl, (render_prune _).symm, render_of_tight, ?_⟩
  exact not_longRun_infix_collapse _

/-- A run with blank blocks, and with a section that has no other. -/
def patchedRun : List Step := [
  .add "A".toList ["  a = 1;".toList],
  .add "B".toList ["".toList, "\n".toList],
  .append 0 " ".toList,
  .append 0 "  b = 2;".toList,
  .append 1 "\n\n\n".toList,
  .add "C".toList [],
  .append 2 "  c = 3;".toList]

/-- The text of its document. -/
theorem render_of_inPlace_patchedRun : InPlace 0 patchedRun
    ∧ ∃ d, build? patchedRun = some d
      ∧ d.render = header ++ "\n\n\x7b\n".toList
        ++ ("  # A\n  a = 1;\n\n  b = 2;".toList ++ "\n\n".toList ++ "  # C\n  c = 3;".toList)
        ++ "\n\x7d\n".toList := by
  have hplace : InPlace 0 patchedRun := by simp [InPlace, patchedRun]
  obtain ⟨d, hbuild, rfl, -, htext, -⟩ := render_of_inPlace hplace
  refine ⟨hplace, _, hbuild, (htext ?_).trans (by decide +kernel)⟩
  decide +kernel

end Document
end ComposeNix.Nix
