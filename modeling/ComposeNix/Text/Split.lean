/-!
# Parts of a text

* `after?` --- what stands behind a given beginning;
* `startsWith` --- whether a text has that beginning;
* `splitAt` --- the parts between the occurrences of one character, which are one more
  than the occurrences.
-/

namespace ComposeNix.Text

/-- The rest of a text that begins with `lead`. -/
def after? (lead s : String) : Option String := (lead.toList.isPrefixOf? s.toList).map String.ofList

/-- Whether a text begins with `lead`. -/
def startsWith (lead s : String) : Bool := (after? lead s).isSome

/-- The parts of a text between the occurrences of a character. -/
def splitAt (mark : Char) (s : String) : List String :=
  (s.toList.splitOnP (· == mark)).map String.ofList

end ComposeNix.Text
