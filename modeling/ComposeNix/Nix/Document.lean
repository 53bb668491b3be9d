import ComposeNix.Text.Blank

/-!
# The document around the blocks

A module is a header line, an opening brace, sections and a closing brace.  A section
is a title, written as a comment, over its blocks.  Blocks that hold nothing but white
space are left out, and so are sections without any other block.

What is written last is a normal form of the whole text: no more than one line in a
row is empty (`collapse`).
-/

namespace ComposeNix.Nix

/-! ## Empty lines -/

/-- The text with its runs of line feeds cut down to two, if `run` line feeds stand
right before it. -/
def collapseAfter (run : Nat) : List Char → List Char
  | [] => []
  | c :: cs =>
    if c = '\n' then
      if run < 2 then c :: collapseAfter (run + 1) cs else collapseAfter run cs
    else c :: collapseAfter 0 cs

/-- The text with its runs of line feeds cut down to two. -/
def collapse (cs : List Char) : List Char := collapseAfter 0 cs

/-! ## Sections -/

/-- A title over blocks of text. -/
structure Section where
  title : List Char
  blocks : List (List Char)
  deriving DecidableEq, Repr

namespace Section

/-- The blocks that hold more than white space. -/
def content (s : Section) : List (List Char) := s.blocks.filter fun b => !(Text.trim b).isEmpty

/-- Whether nothing in the section is worth writing. -/
def isEmpty (s : Section) : Bool := s.content.isEmpty

/-- The title as a comment, and below it the blocks with an empty line between them. -/
def render (s : Section) : List Char :=
  "  # ".toList ++ s.title ++ '\n' :: "\n\n".toList.intercalate s.content

end Section

/-! ## Documents -/

/-- The sections of a module, in order. -/
abbrev Document := List Section

namespace Document

/-- The line that every module begins with: the arguments it takes. -/
def header : List Char := "\x7b pkgs, lib, ... \x7d:".toList

/-- Adds a section at the end. -/
def add (d : Document) (title : List Char) (blocks : List (List Char)) : Document :=
  d ++ [⟨title, blocks⟩]

/-- Adds a block to a section, if there is one at that place. -/
def append? (d : Document) (index : Nat) (block : List Char) : Option Document :=
  d[index]?.map fun s => d.set index { s with blocks := s.blocks ++ [block] }

/-- The sections that are not empty, with an empty line between them. -/
def body (d : Document) : List Char :=
  "\n\n".toList.intercalate ((d.filter (!·.isEmpty)).map Section.render)

/-- The text of the module. -/
def render (d : Document) : List Char :=
  collapse (header ++ "\n\n\x7b\n".toList ++ d.body ++ "\n\x7d\n".toList)

end Document
end ComposeNix.Nix
