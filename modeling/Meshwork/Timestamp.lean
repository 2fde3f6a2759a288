import Meshwork.Number.Decimal
import Meshwork.Text.Blank

/-!
# Points in time

A container records when it was written, as a date and a time of the
Gregorian calendar with its distance from universal time. A `Timestamp` is
the same moment in universal time, counted in seconds from 1970; within a
leap second the count stands still and the nanoseconds go on beyond a
billion.

Reading is lenient: white space may precede a number, the letters may be
small, a blank may separate date and time, and a colon may be missing in the
distance. Writing is not (`Timestamp.text`): two digits for everything, and
as many groups of three digits of a second as are needed.
-/

namespace Meshwork

/-! ## The calendar

Days are numbered, and a date is computed from the number by way of cycles of 400 years.
Counting years from March puts the leap day at the end. -/

/-- **A day of the Gregorian calendar.** -/
structure Date where
  /-- The year; the year before 1 is 0. -/
  year : Int
  /-- The month, from 1. -/
  month : Nat
  /-- The day of the month, from 1. -/
  day : Nat
deriving DecidableEq, Repr

namespace Date

/-- Whether a year has 366 days. -/
def isLeapYear (year : Int) : Bool := year % 4 = 0 && (year % 100 ≠ 0 || year % 400 = 0)

/-- The number of days of a month. -/
def daysInMonth (year : Int) (month : Nat) : Nat :=
  if month = 2 then (if isLeapYear year then 29 else 28)
  else if month = 4 ∨ month = 6 ∨ month = 9 ∨ month = 11 then 30
  else 31

/-- Whether the calendar has such a day. -/
def isValid (d : Date) : Bool :=
  1 ≤ d.month && d.month ≤ 12 && 1 ≤ d.day && d.day ≤ daysInMonth d.year d.month

/-- The days from the first of March of the year 0 to the first of January
of 1970. -/
def epochDay : Int := 719468

/-- The day by its number; day 0 is the first of January of 1970. Years are
counted from March, so that a leap day is the last of its year. -/
def toDays (d : Date) : Int :=
  let year := if d.month ≤ 2 then d.year - 1 else d.year
  let month : Int := if d.month ≤ 2 then d.month + 9 else d.month - 3
  365 * year + year / 4 - year / 100 + year / 400 + (153 * month + 2) / 5 + (d.day - 1) - epochDay

/-- **The date of a day by its number.** A cycle of 400 years has 146097 days. Years are counted
from March here, so that a leap day is the last of its year. -/
def ofDays (days : Int) : Date :=
  let days := days + epochDay
  let cycle := days / 146097
  let dayOfCycle := days % 146097
  let yearOfCycle :=
    (dayOfCycle - dayOfCycle / 1460 + dayOfCycle / 36524 - dayOfCycle / 146096) / 365
  let dayOfYear := dayOfCycle - (365 * yearOfCycle + yearOfCycle / 4 - yearOfCycle / 100)
  let month := (5 * dayOfYear + 2) / 153
  let day := dayOfYear - (153 * month + 2) / 5 + 1
  let year := 400 * cycle + yearOfCycle
  if month < 10 then ⟨year, (month + 3).toNat, day.toNat⟩
  else ⟨year + 1, (month - 9).toNat, day.toNat⟩

/-- The years that are supported. -/
def supportsYear (year : Int) : Bool := -262143 ≤ year && year ≤ 262142

end Date

/-- **A point in time.** A leap second is thus a second that goes on for longer. -/
structure Timestamp where
  /-- The seconds since the start of 1970 in universal time, leap seconds not
  counted. -/
  seconds : Int
  /-- The nanoseconds since then; a billion or more within a leap second. -/
  nanoseconds : Nat
deriving DecidableEq, Repr

/-! ## Writing

A year of four digits is written without a sign; others have one, so that the text tells
where the year ends. -/

namespace Timestamp

/-- A number of at least so many digits. -/
def padded (width n : Nat) : List Char :=
  let digits := Nat.toDigits 10 n
  List.replicate (width - digits.length) '0' ++ digits

/-- A year. One that has not four digits has a sign. -/
def yearText (year : Int) : List Char :=
  if 0 ≤ year ∧ year ≤ 9999 then padded 4 year.toNat
  else (if year < 0 then '-' else '+') :: padded 4 year.natAbs

/-- The digits of a second after the point, with the point. -/
def fractionText (nanoseconds : Nat) : List Char :=
  if nanoseconds = 0 then []
  else if nanoseconds % 1000000 = 0 then '.' :: padded 3 (nanoseconds / 1000000)
  else if nanoseconds % 1000 = 0 then '.' :: padded 6 (nanoseconds / 1000)
  else '.' :: padded 9 nanoseconds

/-- **The text of a point in time.** `zone` is how universal time is called. The date and the time
of day come with fixed widths, and the fraction with as many digits as it needs. -/
def text (zone : String) (t : Timestamp) : String :=
  let date := Date.ofDays (t.seconds / 86400)
  let second := (t.seconds % 86400).toNat
  let leap := t.nanoseconds / 1000000000
  String.ofList (yearText date.year ++ '-' :: padded 2 date.month ++ '-' :: padded 2 date.day
    ++ 'T' :: padded 2 (second / 3600) ++ ':' :: padded 2 (second / 60 % 60)
    ++ ':' :: padded 2 (second % 60 + leap) ++ fractionText (t.nanoseconds % 1000000000))
    ++ zone

/-! ## Reading

Each field has a reader of its own. Whether the fields make a date is looked at when all
of them have been read. -/

/-- **Why a text is no point in time.** -/
inductive Fault where
  /-- A character that cannot stand there. -/
  | invalid
  /-- The text ends too early. -/
  | tooShort
  /-- Something follows. -/
  | tooLong
  /-- A number that cannot stand there. -/
  | outOfRange
  /-- The moment is beyond the calendar. -/
  | impossible
deriving DecidableEq, Repr

/-- The text of a fault. -/
def Fault.message : Fault → String
  | invalid => "input contains invalid characters"
  | tooShort => "premature end of input"
  | tooLong => "trailing input"
  | outOfRange => "input is out of range"
  | impossible => "no possible date and time matching input"

/-- The digits at the start of a text, at most so many. -/
def leadingDigits : (most : Nat) → List Char → List Char × List Char
  | 0, text => ([], text)
  | _, [] => ([], [])
  | most + 1, c :: rest =>
    if isDecimalDigit c then
      let (digits, rest) := leadingDigits most rest
      (c :: digits, rest)
    else ([], c :: rest)

/-- Reads a number of at least one and at most so many digits. -/
def readDigits (most : Nat) (text : List Char) : Except Fault (Nat × List Char) :=
  match leadingDigits most text with
  | ([], []) => .error .tooShort
  | ([], _ :: _) => .error .invalid
  | (digits, rest) =>
    let n := Decimal.ofDigits digits
    if n < Nat.pow 2 63 then .ok (n, rest) else .error .outOfRange

/-- Reads a number of one or two digits that lies between two others. -/
def readField (least greatest : Nat) (text : List Char) : Except Fault (Nat × List Char) := do
  let (n, rest) ← readDigits 2 (text.dropWhile isBlank)
  if least ≤ n ∧ n ≤ greatest then return (n, rest) else throw .outOfRange

/-- Reads a year: four digits, or any number after a sign. -/
def readYear (text : List Char) : Except Fault (Int × List Char) := do
  let text := text.dropWhile isBlank
  let (year, rest) ← match text with
    | '-' :: rest => (fun (n, rest) => (-(n : Int), rest)) <$> readDigits rest.length rest
    | '+' :: rest => (fun (n, rest) => ((n : Int), rest)) <$> readDigits rest.length rest
    | text => (fun (n, rest) => ((n : Int), rest)) <$> readDigits 4 text
  if -2147483648 ≤ year ∧ year < 2147483648 then return (year, rest) else throw .outOfRange

/-- Reads a mark, and white space before it. -/
def readMark (mark : Char) (text : List Char) : Except Fault (List Char) :=
  match text.dropWhile isBlank with
  | [] => .error .tooShort
  | c :: rest => if c = mark then .ok rest else .error .invalid

/-- Reads the digits of a second after the point, in nanoseconds. Digits after
the ninth do not count. -/
def readFraction (text : List Char) : Except Fault (Nat × List Char) :=
  match text with
  | '.' :: rest => do
    let (n, after) ← readDigits 9 rest
    let count := rest.length - after.length
    return (n * Nat.pow 10 (9 - count), after.dropWhile isDecimalDigit)
  | _ => .ok (0, text)

/-- Reads two characters as digits. -/
def readPair (text : List Char) : Except Fault (Nat × Nat × List Char) :=
  match text with
  | [] => .error .tooShort
  | [c] => if c.toNat < 128 then .error .tooShort else .error .invalid
  | a :: b :: rest =>
    if isDecimalDigit a && isDecimalDigit b then .ok (decimalDigit a, decimalDigit b, rest)
    else .error .invalid

/-- Reads hours and minutes of a distance. -/
def readHoursMinutes (text : List Char) : Except Fault (Nat × List Char) := do
  let (h1, h2, rest) ← readPair text
  let (m1, m2, rest) ← readPair (rest.dropWhile fun c => c = ':' || isBlank c)
  if 5 < m1 then throw .outOfRange
  return (60 * (10 * h1 + h2) + (10 * m1 + m2), rest)

/-- **Reads the distance from universal time**, in minutes. Universal time may be written in
several ways. -/
def readZone (text : List Char) : Except Fault (Int × List Char) :=
  match text with
  | [] => .error .tooShort
  | c :: rest =>
    if (text.take 3).map Char.toLower = ['u', 't', 'c'] then .ok (0, text.drop 3)
    else if c = 'Z' ∨ c = 'z' then .ok (0, rest)
    else if c = '+' then (fun (n, rest) => ((n : Int), rest)) <$> readHoursMinutes rest
    else if c = '-' ∨ c = '\u2212' then
      (fun (n, rest) => (-(n : Int), rest)) <$> readHoursMinutes rest
    else .error .invalid

/-- Reads the mark between date and time. -/
def readSeparator (text : List Char) : Except Fault (List Char) :=
  match text with
  | [] => .error .tooShort
  | c :: rest => if c = 'T' ∨ c = 't' ∨ c = ' ' then .ok rest else .error .invalid

/-- The moment of a date and a time at a distance from universal time. -/
def ofParts (date : Date) (hour minute second nanoseconds : Nat) (zone : Int) :
    Except Fault Timestamp := do
  if !Date.supportsYear date.year || !date.isValid then throw .outOfRange
  if 24 * 60 ≤ zone.natAbs then throw .outOfRange
  let minutes := date.toDays * 1440 + (60 * hour + minute : Nat) - zone
  if !Date.supportsYear (Date.ofDays (minutes / 1440)).year then throw .impossible
  if second = 60 then return ⟨60 * minutes + 59, 1000000000 + nanoseconds⟩
  return ⟨60 * minutes + second, nanoseconds⟩

/-- **Reads a point in time.** Nothing but white space may follow. -/
def parse (text : String) : Except Fault Timestamp := do
  let (year, rest) ← readYear text.toList
  let rest ← readMark '-' rest
  let (month, rest) ← readField 1 12 rest
  let rest ← readMark '-' rest
  let (day, rest) ← readField 1 31 rest
  let rest ← readSeparator rest
  let (hour, rest) ← readField 0 23 rest
  let rest ← readMark ':' rest
  let (minute, rest) ← readField 0 59 rest
  let rest ← readMark ':' rest
  let (second, rest) ← readField 0 60 rest
  let (nanoseconds, rest) ← readFraction rest
  let (zone, rest) ← readZone (rest.dropWhile isBlank)
  if !(rest.dropWhile isBlank).isEmpty then throw .tooLong
  ofParts ⟨year, month, day⟩ hour minute second nanoseconds zone

end Timestamp

end Meshwork
