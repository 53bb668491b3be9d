/-!
# Calendar dates and moments

A timestamp is a date of the Gregorian calendar, or a date with a time of day and
perhaps an offset from Coordinated Universal Time.

* `Timestamp.read` --- the written forms `2024-01-31` and
  `2024-01-31T10:20:30.5 +02:00` with their variants; it fails when the text has
  neither form, and when a part is out of its range;
* `Timestamp.text` --- the standard written form;
* `Timestamp.literal` --- the constructor form that stands inside written collections;
* `Timestamp.same` --- equality of dates and of moments: two moments with an offset are
  equal when they are the same instant.
-/

namespace ComposeNix

/-- A day of the calendar. -/
structure Date where
  year : Nat
  month : Nat
  day : Nat
  deriving DecidableEq, Repr

/-- A time of day, to the microsecond. -/
structure Clock where
  hour : Nat
  minute : Nat
  second : Nat
  microsecond : Nat
  deriving DecidableEq, Repr

/-- A date, or a moment with its offset in minutes where one is known. -/
inductive Timestamp
  | date (day : Date)
  | moment (day : Date) (clock : Clock) (offset : Option Int)
  deriving DecidableEq, Repr

/-- Why a text is no timestamp. -/
inductive TimestampFault
  /-- The text has the form of neither a date nor a moment. -/
  | malformed
  | yearOutOfRange (year : Nat)
  | monthOutOfRange
  | dayOutOfRange
  | hourOutOfRange
  | minuteOutOfRange
  | secondOutOfRange
  /-- The offset, in minutes, is a day or more. -/
  | offsetOutOfRange (minutes : Int)
  deriving DecidableEq, Repr

namespace Timestamp

/-! ## The calendar -/

/-- Every fourth year is a leap year, except three centuries out of four. -/
def isLeap (year : Nat) : Bool := year % 4 == 0 && (year % 100 != 0 || year % 400 == 0)

/-- The length of a month. -/
def daysInMonth (year month : Nat) : Nat :=
  if month = 2 then (if isLeap year then 29 else 28)
  else if month = 4 ∨ month = 6 ∨ month = 9 ∨ month = 11 then 30 else 31

/-- Days before a date, counted from the first of January of the year 1. -/
def dayNumber (d : Date) : Nat :=
  let y := d.year - 1
  y * 365 + y / 4 - y / 100 + y / 400
    + ((List.range (d.month - 1)).map fun m => daysInMonth d.year (m + 1)).foldl (· + ·) 0 + d.day

/-- A moment in microseconds. -/
def instant (d : Date) (c : Clock) (offset : Int) : Int :=
  let minutes : Int := ((dayNumber d * 24 + c.hour) * 60 + c.minute : Nat) - offset
  (minutes * 60 + c.second) * 1000000 + c.microsecond

/-- Equality of timestamps: a date never equals a moment, and a moment with an offset
never equals one without. -/
def same : Timestamp → Timestamp → Bool
  | .moment d c (some o), .moment d' c' (some o') => instant d c o == instant d' c' o'
  | t, t' => t == t'

/-! ## Reading -/

/-- Between `least` and `most` decimal digits, as many as there are. -/
def digits? (least most : Nat) (cs : List Char) : Option (Nat × List Char) :=
  let run := (cs.take most).takeWhile Char.isDigit
  if run.length < least then none
  else some (run.foldl (fun n c => n * 10 + (c.toNat - 0x30)) 0, cs.drop run.length)

/-- One given character. -/
def expect? (c : Char) : List Char → Option (List Char)
  | d :: cs => if d = c then some cs else none
  | [] => none

/-- A space or a tab. -/
def isGap (c : Char) : Bool := c == ' ' || c == '\t'

/-- The parts of a moment after its date. -/
structure ClockParts where
  clock : Clock
  /-- Minus sign, hours and minutes of the offset. -/
  offset : Option (Bool × Nat × Nat)

/-- The microseconds that the digits of a fraction stand for; the seventh digit and
those after it are left out. -/
def microseconds (fraction : List Char) : Nat :=
  let six := fraction.take 6
  (six ++ List.replicate (6 - six.length) '0').foldl (fun n c => n * 10 + (c.toNat - 0x30)) 0

/-- The offset at the end of a moment. -/
def offset? : List Char → Option (Option (Bool × Nat × Nat))
  | [] => some none
  | cs =>
    match cs.dropWhile isGap with
    | ['Z'] => some (some (false, 0, 0))
    | sign :: rest =>
      if sign = '+' ∨ sign = '-' then do
        let (hours, rest) ← digits? 1 2 rest
        match rest with
        | [] => some (some (sign = '-', hours, 0))
        | _ =>
          let rest ← expect? ':' rest
          let (minutes, rest) ← digits? 2 2 rest
          if rest.isEmpty then some (some (sign = '-', hours, minutes)) else none
      else none
    | [] => none

/-- A time of day with its offset. -/
def clock? (cs : List Char) : Option ClockParts := do
  let (hour, cs) ← digits? 1 2 cs
  let cs ← expect? ':' cs
  let (minute, cs) ← digits? 2 2 cs
  let cs ← expect? ':' cs
  let (second, cs) ← digits? 2 2 cs
  let (fraction, cs) := match cs with
    | '.' :: rest => (rest.takeWhile Char.isDigit, rest.dropWhile Char.isDigit)
    | _ => ([], cs)
  let offset ← offset? cs
  some ⟨⟨hour, minute, second, microseconds fraction⟩, offset⟩

/-- The time of day that may follow a date, behind a `T` or a gap. -/
def clockAfterDate? : List Char → Option (Option ClockParts)
  | [] => some none
  | c :: cs =>
    if c = 'T' ∨ c = 't' then (clock? cs).map some
    else if isGap c then (clock? (cs.dropWhile isGap)).map some
    else none

/-- The parts of a written timestamp, whatever their range. -/
def parts? (cs : List Char) : Option (Date × Option ClockParts) := do
  let (year, cs) ← digits? 4 4 cs
  let cs ← expect? '-' cs
  let (month, cs) ← digits? 1 2 cs
  let cs ← expect? '-' cs
  let (day, cs) ← digits? 1 2 cs
  let clock ← clockAfterDate? cs
  some (⟨year, month, day⟩, clock)

/-- The range of a date. -/
def checkDate (d : Date) : Except TimestampFault Unit :=
  if d.year = 0 then .error (.yearOutOfRange d.year)
  else if d.month = 0 ∨ 12 < d.month then .error .monthOutOfRange
  else if d.day = 0 ∨ daysInMonth d.year d.month < d.day then .error .dayOutOfRange
  else .ok ()

/-- The range of a time of day. -/
def checkClock (c : Clock) : Except TimestampFault Unit :=
  if 23 < c.hour then .error .hourOutOfRange
  else if 59 < c.minute then .error .minuteOutOfRange
  else if 59 < c.second then .error .secondOutOfRange
  else .ok ()

/-- The offset in minutes; it must be less than a day either way. -/
def checkOffset : Option (Bool × Nat × Nat) → Except TimestampFault (Option Int)
  | none => .ok none
  | some (negative, hours, minutes) =>
    let total : Int := (hours * 60 + minutes : Nat)
    let total := if negative then -total else total
    if -1440 < total ∧ total < 1440 then .ok (some total) else .error (.offsetOutOfRange total)

/-- The timestamp that a text denotes.  One line feed at the end is overlooked. -/
def read (text : String) : Except TimestampFault Timestamp := do
  let cs := text.toList
  let cs := if cs.getLast? = some '\n' then cs.dropLast else cs
  match parts? cs with
  | none => .error .malformed
  | some (day, none) => do
    checkDate day
    return .date day
  | some (day, some parts) => do
    let offset ← checkOffset parts.offset
    checkDate day
    checkClock parts.clock
    return .moment day parts.clock offset

/-! ## Writing -/

/-- A number with zeros in front up to a width. -/
def padded (width n : Nat) : String :=
  let ds := Nat.toDigits 10 n
  String.ofList (List.replicate (width - ds.length) '0' ++ ds)

/-- A date as year, month and day. -/
def dateText (d : Date) : String :=
  padded 4 d.year ++ "-" ++ padded 2 d.month ++ "-" ++ padded 2 d.day

/-- An offset as signed hours and minutes. -/
def offsetText (minutes : Int) : String :=
  (if minutes < 0 then "-" else "+") ++ padded 2 (minutes.natAbs / 60) ++ ":"
    ++ padded 2 (minutes.natAbs % 60)

/-- The written form of a timestamp; a fraction of a second is left out when zero. -/
def text : Timestamp → String
  | .date d => dateText d
  | .moment d c offset =>
    dateText d ++ " " ++ padded 2 c.hour ++ ":" ++ padded 2 c.minute ++ ":" ++ padded 2 c.second
      ++ (if c.microsecond = 0 then "" else "." ++ padded 6 c.microsecond)
      ++ (match offset with
          | none => ""
          | some minutes => offsetText minutes)

/-- A span of minutes as whole days and the seconds left over. -/
def spanLiteral (minutes : Int) : String :=
  let days := minutes.fdiv 1440
  let seconds := minutes.fmod 1440 * 60
  let parts := (if days = 0 then [] else ["days=" ++ toString days])
    ++ (if seconds = 0 then [] else ["seconds=" ++ toString seconds])
  "datetime.timedelta(" ++ (if parts.isEmpty then "0" else ", ".intercalate parts) ++ ")"

/-- The constructor form of a timestamp; trailing zero parts of the time are left out. -/
def literal : Timestamp → String
  | .date d =>
    "datetime.date(" ++ ", ".intercalate ([d.year, d.month, d.day].map toString) ++ ")"
  | .moment d c offset =>
    let fields := [d.year, d.month, d.day, c.hour, c.minute]
      ++ (if c.microsecond ≠ 0 then [c.second, c.microsecond]
          else if c.second ≠ 0 then [c.second] else [])
    let zone := match offset with
      | none => []
      | some minutes =>
        ["tzinfo=" ++ (if minutes = 0 then "datetime.timezone.utc"
          else "datetime.timezone(" ++ spanLiteral minutes ++ ")")]
    "datetime.datetime(" ++ ", ".intercalate (fields.map toString ++ zone) ++ ")"

end Timestamp

/-- The wording of a fault. -/
def TimestampFault.message : TimestampFault → String
  | .malformed => "'NoneType' object has no attribute 'groupdict'"
  | .yearOutOfRange year => "year " ++ toString year ++ " is out of range"
  | .monthOutOfRange => "month must be in 1..12"
  | .dayOutOfRange => "day is out of range for month"
  | .hourOutOfRange => "hour must be in 0..23"
  | .minuteOutOfRange => "minute must be in 0..59"
  | .secondOutOfRange => "second must be in 0..59"
  | .offsetOutOfRange minutes =>
    "offset must be a timedelta strictly between -timedelta(hours=24) and timedelta(hours=24), not "
      ++ Timestamp.spanLiteral minutes ++ "."

end ComposeNix
