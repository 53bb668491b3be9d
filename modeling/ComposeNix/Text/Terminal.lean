/-!
# Text for a terminal

A terminal takes some characters for commands: a *control sequence* is an escape
character, an opening bracket, a row of parameters and a letter.  Where no terminal shows
a text, its control sequences are left out; an escape character that begins none of them
stays.
-/

namespace ComposeNix.Text

/-- What follows the control sequence that a text is in the middle of, behind its
opening bracket. -/
def controlEnd? : List Char → Option (List Char)
  | [] => none
  | c :: cs =>
    if c.isAlpha then some cs
    else if c.isDigit || c == ';' || c == '?' then controlEnd? cs
    else none

/-- What follows the control sequence that a text begins with. -/
def afterControl? : List Char → Option (List Char)
  | '\x1b' :: '[' :: cs => controlEnd? cs
  | _ => none

theorem length_of_controlEnd? {cs after : List Char} (h : controlEnd? cs = some after) :
    after.length < cs.length := by
  induction cs with
  | nil => simp [controlEnd?] at h
  | cons c cs ih =>
    rw [controlEnd?] at h
    split at h
    · simp only [Option.some.injEq] at h
      simp [h]
    · split at h
      · exact Nat.lt_succ_of_lt (ih h)
      · simp at h

/-- A control sequence leaves less than it was given. -/
theorem length_of_afterControl? {cs after : List Char} (h : afterControl? cs = some after) :
    after.length < cs.length := by
  unfold afterControl? at h
  split at h
  · exact Nat.lt_succ_of_lt (Nat.lt_succ_of_lt (length_of_controlEnd? h))
  · simp at h

/-- A text without its control sequences. -/
def withoutControls (cs : List Char) : List Char :=
  match cs with
  | [] => []
  | c :: rest =>
    match _h : afterControl? (c :: rest) with
    | some after => withoutControls after
    | none => c :: withoutControls rest
termination_by cs.length
decreasing_by
  · exact length_of_afterControl? _h
  · simp

end ComposeNix.Text
