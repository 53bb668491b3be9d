import ComposeNix.Text.Quoted

/-!
# Base 64, read leniently

Binary data in a document is written in base 64, broken into lines at will.  The
reading skips every character that is not of the alphabet, and stops at the padding
that completes a group of four.  What is left over decides success: two or three data
characters of an unfinished group lack their padding, and a single one can never be
completed.
-/

namespace ComposeNix.Text

/-- Why a text is no binary data. -/
inductive Base64Fault
  /-- From this position on stands a run of code points outside ASCII. -/
  | notAscii (position : Nat) (run : List Point)
  /-- This many data characters, one more than a multiple of four. -/
  | loneCharacter (count : Nat)
  | incorrectPadding
  deriving DecidableEq, Repr

/-- The number of a code point outside ASCII, with the fewest digits that fit. -/
def codeEscape (p : Point) : String :=
  let n := p.code
  String.ofList <|
    if n ≤ 0xFF then '\\' :: 'x' :: hex 2 n
    else if n ≤ 0xFFFF then '\\' :: 'u' :: hex 4 n
    else '\\' :: 'U' :: hex 8 n

/-- The wording of a fault. -/
def Base64Fault.message : Base64Fault → String
  | .notAscii position run =>
    let place := match run with
      | [p] => "character '" ++ codeEscape p ++ "' in position " ++ toString position
      | _ => "characters in position " ++ toString position ++ "-"
          ++ toString (position + run.length - 1)
    "failed to convert base64 data into ascii: 'ascii' codec can't encode " ++ place
      ++ ": ordinal not in range(128)"
  | .loneCharacter count =>
    "failed to decode base64 data: Invalid base64-encoded string: number of data characters ("
      ++ toString count ++ ") cannot be 1 more than a multiple of 4"
  | .incorrectPadding => "failed to decode base64 data: Incorrect padding"

/-- The six bits that a character of the alphabet stands for. -/
def sextet? (c : Char) : Option Nat :=
  if c.isUpper then some (c.toNat - 0x41)
  else if c.isLower then some (c.toNat - 0x61 + 26)
  else if c.isDigit then some (c.toNat - 0x30 + 52)
  else if c = '+' then some 62
  else if c = '/' then some 63
  else none

/-- Reads on inside a group: `filled` of its four places are taken, `bits` are the bits
not yet in a byte, `pads` counts the padding just read and `written` the bytes so far. -/
def base64From (filled bits pads written : Nat) : List Char → Except Base64Fault (List UInt8)
  | [] =>
    if filled = 0 then .ok []
    else if filled = 1 then .error (.loneCharacter (written / 3 * 4 + 1))
    else .error .incorrectPadding
  | c :: cs =>
    if c = '=' then
      if 2 ≤ filled then
        if 4 ≤ filled + pads + 1 then .ok [] else base64From filled bits (pads + 1) written cs
      else base64From filled bits pads written cs
    else
      match sextet? c with
      | none => base64From filled bits pads written cs
      | some v =>
        let byte (n : Nat) (rest : Except Base64Fault (List UInt8)) :=
          rest.map (UInt8.ofNat n :: ·)
        match filled with
        | 0 => base64From 1 v 0 written cs
        | 1 => byte (bits * 4 + v / 16) (base64From 2 (v % 16) 0 (written + 1) cs)
        | 2 => byte (bits * 16 + v / 4) (base64From 3 (v % 4) 0 (written + 1) cs)
        | _ => byte (bits * 64 + v) (base64From 0 0 0 (written + 1) cs)

/-- The bytes that a text denotes. -/
def decodeBase64 (s : String) : Except Base64Fault (List UInt8) :=
  let cs := s.toList
  let isAscii (c : Char) : Bool := c.toNat < 0x80
  match cs.dropWhile isAscii with
  | [] => base64From 0 0 0 0 cs
  | rest => .error (.notAscii (cs.takeWhile isAscii).length
      (pointsFrom false (rest.takeWhile (!isAscii ·))))

end ComposeNix.Text
