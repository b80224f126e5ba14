import ShEx.Number.Decimal

/-!
# Dates and times

The lexical forms of `xsd:date` (`-?YYYY-MM-DD`), `xsd:time` (`hh:mm:ss(.s+)?`) and
`xsd:dateTime` (both with a `T` between them), each with an optional time zone.

Beyond the grammar, a day has to exist in its month of the proleptic Gregorian calendar, the
hour 24 means midnight only, a time zone is at most fourteen hours away, a year fits in 64 bits,
and the instant has to be a decimal number of seconds counted from the year 1.
-/

set_option autoImplicit false

namespace ShEx.Datatype.Calendar

open ShEx.Number

/-- Reads exactly so many digits. -/
def digits? : Nat → List Char → Option (List Char × List Char)
  | 0, text => some ([], text)
  | n + 1, c :: rest =>
    if c.isDigit then (digits? n rest).map fun (ds, left) => (c :: ds, left) else none
  | _ + 1, [] => none

/-- Reads a number of two digits. -/
def twoDigits? (text : List Char) : Option (Nat × List Char) :=
  (digits? 2 text).map fun (ds, rest) => (digitsValue ds, rest)

/-- Reads a given character. -/
def char? (c : Char) : List Char → Option (List Char)
  | d :: rest => if d = c then some rest else none
  | [] => none

/-- Reads a year: at least four digits, of which the first is no zero if there are more. -/
def year? (text : List Char) : Option (Int × List Char) :=
  let (negative, body) : Bool × List Char :=
    match text with
    | '-' :: rest => (true, rest)
    | _ => (false, text)
  let ds := body.takeWhile Char.isDigit
  let year := signed negative (digitsValue ds)
  if ds.length < 4 || (4 < ds.length && ds.head? = some '0') then none
  else if year < -(twoTo 63) || twoTo 63 ≤ year then none
  else some (year, body.dropWhile Char.isDigit)

/-- A leap year of the proleptic Gregorian calendar. -/
def isLeapYear (year : Int) : Bool :=
  year % 400 = 0 || (year % 4 = 0 && year % 100 != 0)

/-- The number of days of a month. -/
def daysInMonth (year : Int) (month : Nat) : Nat :=
  if month = 2 then (if isLeapYear year then 29 else 28)
  else if month = 4 || month = 6 || month = 9 || month = 11 then 30
  else 31

/-- A day of the calendar. -/
structure Date where
  year : Int
  month : Nat
  day : Nat

/-- Reads a date that exists. -/
def date? (text : List Char) : Option (Date × List Char) := do
  let (year, text) ← year? text
  let text ← char? '-' text
  let (month, text) ← twoDigits? text
  let text ← char? '-' text
  let (day, text) ← twoDigits? text
  if 1 ≤ month ∧ month ≤ 12 ∧ 1 ≤ day ∧ day ≤ daysInMonth year month then
    some (⟨year, month, day⟩, text)
  else none

/-- A time of the day; the seconds are counted in units of a decimal number. -/
structure Time where
  hour : Nat
  minute : Nat
  second : Decimal

/-- Reads seconds: two digits, and possibly a point with more. -/
def seconds? (text : List Char) : Option (Decimal × List Char) := do
  let (whole, rest) ← digits? 2 text
  match rest with
  | '.' :: after =>
    let fraction := after.takeWhile Char.isDigit
    if fraction.isEmpty then none
    else
      let s ← Decimal.ofDigits? false whole fraction
      some (s, after.dropWhile Char.isDigit)
  | _ =>
    let s ← Decimal.ofDigits? false whole []
    some (s, rest)

/-- Reads a time of the day. -/
def time? (text : List Char) : Option (Time × List Char) := do
  let (hour, text) ← twoDigits? text
  let text ← char? ':' text
  let (minute, text) ← twoDigits? text
  let text ← char? ':' text
  let (second, text) ← seconds? text
  if hour ≤ 24 ∧ minute ≤ 59 ∧ second.scaled < 60 * Decimal.unit ∧
      (hour = 24 → minute = 0 ∧ second.scaled = 0) then
    some (⟨hour, minute, second⟩, text)
  else none

/-- Reads the time zone at the end of a text, in minutes; without one it is zero. -/
def zone? (text : List Char) : Option Int :=
  match text with
  | [] => some 0
  | ['Z'] => some 0
  | sign :: rest => do
    if sign != '+' && sign != '-' then none
    else
      let (hours, rest) ← twoDigits? rest
      let rest ← char? ':' rest
      let (minutes, rest) ← twoDigits? rest
      if rest.isEmpty ∧ minutes ≤ 59 ∧ 60 * hours + minutes ≤ 14 * 60 then
        some (signed (sign = '-') (60 * hours + minutes))
      else none

/-- The seconds from the start of the year 1 to the start of a day. -/
def Date.seconds (d : Date) : Int :=
  let y := d.year - 1
  let monthDays :=
    (List.range (d.month - 1)).foldl (fun days m => days + daysInMonth d.year (m + 1)) 0
  31536000 * y + 86400 * (y.fdiv 400 - y.fdiv 100 + y.fdiv 4) + 86400 * (monthDays : Int) +
    86400 * ((d.day : Int) - 1)

/-- Does an instant, counted in whole seconds and a decimal rest, lie in the range of decimal
numbers? -/
def onTimeline (seconds : Int) (rest : Int) : Bool :=
  (Decimal.ofScaled? (seconds * Decimal.unit)).isSome &&
    (Decimal.ofScaled? (seconds * Decimal.unit + rest)).isSome

/-- Is the text an `xsd:date`? -/
def isDate (text : List Char) : Bool :=
  match date? text with
  | none => false
  | some (d, rest) =>
    match zone? rest with
    | none => false
    | some zone => onTimeline (d.seconds - 60 * zone) 0

/-- Is the text an `xsd:time`? -/
def isTime (text : List Char) : Bool :=
  match time? text with
  | none => false
  | some (_, rest) => (zone? rest).isSome

/-- Is the text an `xsd:dateTime`? -/
def isDateTime (text : List Char) : Bool :=
  match date? text with
  | none => false
  | some (d, rest) =>
    match (char? 'T' rest).bind time? with
    | none => false
    | some (t, rest) =>
      match zone? rest with
      | none => false
      | some zone =>
        onTimeline (d.seconds + 3600 * t.hour + 60 * (t.minute - zone)) t.second.scaled

end ShEx.Datatype.Calendar
