/-!
# Texts that look alike

Two texts are the more alike the more of their characters pair up: the longest run that
they share is taken out, and so are, in turn, the longest runs to its left and right.
A text looks like a word if at least three fifths of the characters of both pair up.
-/

namespace ComposeNix.Text

/-- How many characters two texts begin with in common. -/
def commonStart : List Char → List Char → Nat
  | a :: as, b :: bs => if a = b then commonStart as bs + 1 else 0
  | _, _ => 0

/-- The longest run that two texts share: where it begins in each, and its length.  Of
runs of one length the first is taken. -/
def longestRun (as bs : List Char) : Nat × Nat × Nat :=
  let starts := (List.range as.length).flatMap fun i => (List.range bs.length).map fun j => (i, j)
  starts.foldl (fun best p =>
    let length := commonStart (as.drop p.1) (bs.drop p.2)
    if best.2.2 < length then (p.1, p.2, length) else best) (0, 0, 0)

/-- How many characters pair up, of runs at most `fuel` deep. -/
def pairedWithin : Nat → List Char → List Char → Nat
  | 0, _, _ => 0
  | fuel + 1, as, bs =>
    let (i, j, length) := longestRun as bs
    if length = 0 then 0
    else pairedWithin fuel (as.take i) (bs.take j) + length
      + pairedWithin fuel (as.drop (i + length)) (bs.drop (j + length))

/-- How many characters of two texts pair up. -/
def paired (as bs : List Char) : Nat := pairedWithin as.length as bs

/-- Whether a text looks like a word. -/
def looksLike (word text : String) : Bool :=
  3 * (word.length + text.length) ≤ 10 * paired word.toList text.toList

end ComposeNix.Text
