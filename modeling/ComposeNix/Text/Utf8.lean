import ComposeNix.Text.Quoted

/-!
# Reading bytes as UTF-8

A row of bytes is read as text under RFC 3629.  Where it is not well formed the
reading says which bytes are at fault: those from the position of the lead byte up to
the byte that cannot continue it.

The least and greatest value that the first tail byte may have depends on the lead
byte (`tailBounds`), which shuts out overlong forms, surrogates and code points above
`U+10FFFF`; every later tail byte is between `0x80` and `0xBF`.
-/

namespace ComposeNix.Text

/-- Why a row of bytes is no text. -/
inductive Utf8Fault
  /-- No character starts with this byte. -/
  | invalidStart
  /-- A character was begun and the next byte cannot continue it. -/
  | invalidContinuation
  /-- The row ends inside a character. -/
  | unexpectedEnd
  deriving DecidableEq, Repr

/-- A fault, the bytes from the lead byte to the last that was accepted, and where
the lead byte stands. -/
structure Utf8Error where
  fault : Utf8Fault
  position : Nat
  seen : List UInt8
  deriving DecidableEq, Repr

/-- The wording of a fault. -/
def Utf8Fault.message : Utf8Fault → String
  | .invalidStart => "invalid start byte"
  | .invalidContinuation => "invalid continuation byte"
  | .unexpectedEnd => "unexpected end of data"

/-- The wording of an error: one byte at fault is shown, of several the span. -/
def Utf8Error.message (e : Utf8Error) : String :=
  let place := match e.seen with
    | [b] => "byte 0x" ++ String.ofList (hex 2 b.toNat) ++ " in position " ++ toString e.position
    | bs => "bytes in position " ++ toString e.position ++ "-"
        ++ toString (e.position + bs.length - 1)
  "'utf-8' codec can't decode " ++ place ++ ": " ++ e.fault.message

/-- How many tail bytes follow a lead byte, the bits of the code point that the lead
byte holds, and the bounds of the first tail byte. -/
def leadByte (b : UInt8) : Option (Nat × Nat × UInt8 × UInt8) :=
  if 0xC2 ≤ b ∧ b ≤ 0xDF then some (1, b.toNat - 0xC0, 0x80, 0xBF)
  else if b = 0xE0 then some (2, 0, 0xA0, 0xBF)
  else if b = 0xED then some (2, 0xD, 0x80, 0x9F)
  else if 0xE1 ≤ b ∧ b ≤ 0xEF then some (2, b.toNat - 0xE0, 0x80, 0xBF)
  else if b = 0xF0 then some (3, 0, 0x90, 0xBF)
  else if 0xF1 ≤ b ∧ b ≤ 0xF3 then some (3, b.toNat - 0xF0, 0x80, 0xBF)
  else if b = 0xF4 then some (3, 4, 0x80, 0x8F)
  else none

/-- A character that has been begun: tail bytes still owed, the code point so far, the
bounds of the next tail byte, where the character starts and its bytes so far. -/
structure Utf8Pending where
  owed : Nat
  code : Nat
  low : UInt8
  high : UInt8
  start : Nat
  seen : List UInt8

/-- Reads bytes from `position` on, inside the character `pending` if there is one. -/
def decodeUtf8From (position : Nat) (pending : Option Utf8Pending) :
    List UInt8 → Except Utf8Error (List Char)
  | [] =>
    match pending with
    | none => .ok []
    | some p => .error ⟨.unexpectedEnd, p.start, p.seen⟩
  | b :: bs =>
    match pending with
    | none =>
      if b < 0x80 then
        (decodeUtf8From (position + 1) none bs).map (Char.ofNat b.toNat :: ·)
      else
        match leadByte b with
        | none => .error ⟨.invalidStart, position, [b]⟩
        | some (owed, code, low, high) =>
          decodeUtf8From (position + 1) (some ⟨owed, code, low, high, position, [b]⟩) bs
    | some p =>
      if p.low ≤ b ∧ b ≤ p.high then
        let code := p.code * 64 + (b.toNat - 0x80)
        if p.owed ≤ 1 then
          (decodeUtf8From (position + 1) none bs).map (Char.ofNat code :: ·)
        else
          decodeUtf8From (position + 1)
            (some ⟨p.owed - 1, code, 0x80, 0xBF, p.start, p.seen ++ [b]⟩) bs
      else .error ⟨.invalidContinuation, p.start, p.seen⟩

/-- The text that a row of bytes spells. -/
def decodeUtf8 (bs : List UInt8) : Except Utf8Error String :=
  (decodeUtf8From 0 none bs).map String.ofList

end ComposeNix.Text
