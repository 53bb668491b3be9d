/-!
# Line ends of a text file

A line of a file ends with a line feed, a carriage return, or both.  Inside the program
it always ends with a line feed.
-/

namespace ComposeNix.Text

/-- A text whose lines all end with a line feed. -/
def unifyLineEnds : List Char → List Char
  | [] => []
  | '\r' :: '\n' :: cs => '\n' :: unifyLineEnds cs
  | '\r' :: cs => '\n' :: unifyLineEnds cs
  | c :: cs => c :: unifyLineEnds cs

end ComposeNix.Text
