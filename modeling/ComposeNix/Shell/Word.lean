/-!
# Words of a POSIX shell

A text is made one word of a command line by single quotes, inside which every
character but the quote stands for itself; a quote in the text is written outside of
them, in double quotes of its own.  A text of harmless characters needs no quotes, and
the empty one needs them to be a word at all.
-/

namespace ComposeNix.Shell

/-- A character that the shell takes for itself wherever it stands. -/
def isHarmless (c : Char) : Bool :=
  c.isAlphanum || "_@%+=:,./-".toList.contains c

/-- A text between single quotes: a quote inside closes them and opens them again. -/
def escape : List Char → List Char
  | [] => []
  | '\'' :: cs => "'\"'\"'".toList ++ escape cs
  | c :: cs => c :: escape cs

/-- A text as one word. -/
def quote (cs : List Char) : List Char :=
  if cs ≠ [] ∧ cs.all isHarmless then cs else '\'' :: escape cs ++ ['\'']

end ComposeNix.Shell
