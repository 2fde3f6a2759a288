import Meshwork.Number.Decimal
import Meshwork.Timestamp
import Meshwork.Toml.Value

/-!
# Numbers, dates and times of a TOML document

No setting is a number or a date, but a document with one that is not well
formed is refused. The readers here find where such a value ends: each
returns the rest of the text, or nothing if the text starts with no value of
its kind.
-/

namespace Meshwork.Toml

/-! ## Numbers

Integers come in four bases, and floats have a fraction, an exponent or a name. -/

/-- Reads digits with single underscores between them. The digits are
returned without these. -/
def readDigitsWith (isDigit : Char → Bool) : List Char → Option (List Char × List Char)
  | [] => none
  | c :: rest =>
    if isDigit c then
      match rest with
      | [] => some ([c], [])
      | '_' :: after => do
        let (digits, rest) ← readDigitsWith isDigit after
        return (c :: digits, rest)
      | d :: after =>
        if isDigit d then do
          let (digits, rest) ← readDigitsWith isDigit (d :: after)
          return (c :: digits, rest)
        else some ([c], d :: after)
    else none

/-- Reads decimal digits. -/
def readDecimal : List Char → Option (List Char × List Char) := readDigitsWith isDecimalDigit

/-- Reads the whole part of a number: a zero alone, or digits of which the
first is none. -/
def readWhole : List Char → Option (List Char × List Char)
  | '0' :: rest => some (['0'], rest)
  | s => readDecimal s

/-- The value of a digit of any base up to 16. -/
def digitOf (c : Char) : Nat :=
  if isDecimalDigit c then decimalDigit c
  else if 'a' ≤ c ∧ c ≤ 'f' then c.toNat - 'a'.toNat + 10
  else if 'A' ≤ c ∧ c ≤ 'F' then c.toNat - 'A'.toNat + 10
  else 16

/-- Reads the digits of an integer that names its base. -/
def readBased (base : Nat) (s : List Char) : Option (List Char) := do
  let (digits, rest) ← readDigitsWith (fun c => digitOf c < base) s
  if digits.foldl (fun n c => base * n + digitOf c) 0 < Nat.pow 2 63 then some rest else none

/-- Reads the exponent of a float: its value, and the rest. -/
def readExponent : List Char → Option (Int × List Char)
  | [] => none
  | c :: rest =>
    if c = 'e' ∨ c = 'E' then do
      let (negative, rest) := Decimal.takeSign rest
      let (digits, rest) ← readDecimal rest
      let n : Int := Decimal.ofDigits digits
      return (if negative then -n else n, rest)
    else none

/-- Whether a decimal number is too large for a float. -/
def overflows (d : Decimal) : Bool :=
  BinaryFormat.double.ofDecimal d = BinaryFormat.double.infinity

/-- Reads what follows the whole part of a float: a fraction, an exponent, or
both. One above all floats is refused, one below all is not. -/
def readFloat (negative : Bool) (whole : List Char) (s : List Char) : Option (List Char) := do
  let finish (fraction : List Char) (exponent : Int) (rest : List Char) : Option (List Char) :=
    if !negative && overflows ⟨Decimal.ofDigits (whole ++ fraction), exponent - fraction.length⟩
    then none else some rest
  match s with
  | '.' :: rest =>
    let (fraction, rest) ← readDecimal rest
    match readExponent rest with
    | some (exponent, rest) => finish fraction exponent rest
    | none => finish fraction 0 rest
  | s =>
    let (exponent, rest) ← readExponent s
    finish [] exponent rest

/-- Whether an integer is in range: 64 bits with a sign. -/
def inRange (negative : Bool) (n : Nat) : Bool := if negative then n ≤ Nat.pow 2 63 else n < Nat.pow 2 63

/-- **Reads a number.** Its value is not kept, and only its form and range are checked. -/
def readNumber (s : List Char) : Option (List Char) :=
  match s with
  | '0' :: 'x' :: rest => readBased 16 rest
  | '0' :: 'o' :: rest => readBased 8 rest
  | '0' :: 'b' :: rest => readBased 2 rest
  | s =>
    let (negative, s) := Decimal.takeSign s
    match s with
    | 'i' :: 'n' :: 'f' :: rest => some rest
    | 'n' :: 'a' :: 'n' :: rest => some rest
    | s => do
      let (whole, rest) ← readWhole s
      match rest with
      | '.' :: _ | 'e' :: _ | 'E' :: _ => readFloat negative whole rest
      | rest => if inRange negative (Decimal.ofDigits whole) then some rest else none

/-! ## Dates and times

A date, a time, or both, with or without a distance from universal time. Fields have fixed
widths. -/

/-- Reads so many digits as a number. -/
def readFixed (count : Nat) (s : List Char) : Option (Nat × List Char) :=
  let digits := s.take count
  if digits.length = count ∧ digits.all isDecimalDigit then
    some (Decimal.ofDigits digits, s.drop count)
  else none

/-- Reads a number of two digits that lies between two others. -/
def readPart (least greatest : Nat) (s : List Char) : Option (Nat × List Char) := do
  let (n, rest) ← readFixed 2 s
  if least ≤ n ∧ n ≤ greatest then some (n, rest) else none

/-- Reads a mark. -/
def readMark (mark : Char) : List Char → Option (List Char)
  | [] => none
  | c :: rest => if c = mark then some rest else none

/-- Reads a date. -/
def readDate (s : List Char) : Option (List Char) := do
  let (year, s) ← readFixed 4 s
  let s ← readMark '-' s
  let (month, s) ← readPart 1 12 s
  let s ← readMark '-' s
  let (day, s) ← readPart 1 31 s
  if Date.isValid ⟨year, month, day⟩ then some s else none

/-- The text after a fraction of a second that it may start with. -/
def skipFraction (s : List Char) : List Char :=
  match s with
  | '.' :: c :: rest => if isDecimalDigit c then rest.dropWhile isDecimalDigit else s
  | s => s

/-- Reads a time of the day. -/
def readTime (s : List Char) : Option (List Char) := do
  let (_, s) ← readPart 0 23 s
  let s ← readMark ':' s
  let (_, s) ← readPart 0 59 s
  let s ← readMark ':' s
  let (_, s) ← readPart 0 60 s
  return skipFraction s

/-- Reads the distance from universal time, if there is one. -/
def readOffset (s : List Char) : Option (List Char) :=
  match s with
  | 'Z' :: rest | 'z' :: rest => some rest
  | '+' :: rest | '-' :: rest => do
    let (_, s) ← readPart 0 23 rest
    let s ← readMark ':' s
    let (_, s) ← readPart 0 59 s
    return s
  | s => some s

/-- Reads the time that may follow a date. A blank after a date that no time
follows belongs to the line. -/
def readTimeOfDate (s : List Char) : Option (List Char) :=
  match s with
  | c :: rest =>
    if c = 'T' ∨ c = 't' ∨ c = ' ' then
      match readTime rest with
      | some after => readOffset after
      | none => some s
    else some s
  | [] => some []

/-- **Reads a number, a date or a time.** Dates are tried first, since a number could be their
beginning. -/
def readQuantity (s : List Char) : Option (Value × List Char) :=
  match readDate s with
  | some rest => (readTimeOfDate rest).map (.quantity, ·)
  | none =>
    match readTime s with
    | some rest => some (.quantity, rest)
    | none => (readNumber s).map (.quantity, ·)

end Meshwork.Toml
