import Meshwork.Number.Binary

/-!
# Decimal text of floats

The written forms of a number in mesh files, on the command line and in
requests: an optional sign, then digits with an optional point and an
optional decimal exponent, or one of the names `inf`, `infinity` and `nan`
in any case. A number may start or end with its point but needs a digit.

The text denotes a decimal number exactly; the float is the one nearest to
it.
-/

namespace Meshwork

/-- **A decimal number**: `significand * 10 ^ exponent`. -/
structure Decimal where
  /-- The digits, without the point. -/
  significand : Nat
  /-- The power of ten that the last digit counts. -/
  exponent : Int
deriving DecidableEq, Repr

/-- Whether the character is one of the ten ASCII digits. -/
def isDecimalDigit (c : Char) : Bool := '0' ≤ c && c ≤ '9'

/-- The value of an ASCII digit. -/
def decimalDigit (c : Char) : Nat := c.toNat - '0'.toNat

theorem isDecimalDigit_of_mem_toDigits {n : Nat} {c : Char} (h : c ∈ Nat.toDigits 10 n) :
    isDecimalDigit c = true :=
  Nat.isDigit_of_mem_toDigits (by decide) (Nat.le_refl 10) h

namespace Decimal

/-- The number that a list of digits writes. -/
def ofDigits (digits : List Char) : Nat :=
  digits.foldl (fun n c => 10 * n + decimalDigit c) 0

theorem ofDigits_toDigits (n : Nat) : ofDigits (Nat.toDigits 10 n) = n :=
  Nat.ofDigitChars_ten_toDigits

/-- Zeros in front do not count. -/
theorem ofDigits_replicate_append (count : Nat) (digits : List Char) :
    ofDigits (List.replicate count '0' ++ digits) = ofDigits digits := by
  induction count with
  | zero => rfl
  | succ count ih => exact ih

/-- How many decimal digits a number has; zero has none. -/
def digitCount (n : Nat) : Nat :=
  if n = 0 then 0 else (Nat.toDigits 10 n).length

/-! ## Reading

The text is taken apart first and understood afterwards. Nothing may be left of it, and
there has to be at least one digit. -/

/-- Reads an optional sign: whether it is a minus, and the rest. -/
def takeSign : List Char → Bool × List Char
  | '-' :: rest => (true, rest)
  | '+' :: rest => (false, rest)
  | text => (false, text)

/-- Reads an exponent that ends the text: nothing, or `e` and an integer. -/
def readExponent? : List Char → Option Int
  | [] => some 0
  | c :: rest =>
    if c = 'e' ∨ c = 'E' then
      let (negative, digits) := takeSign rest
      if digits.isEmpty || !digits.all isDecimalDigit then none
      else if negative then some (-(ofDigits digits : Int)) else some (ofDigits digits)
    else none

/-- Reads a number without a sign that fills the text. -/
def ofText? (text : List Char) : Option Decimal := do
  let (whole, rest) := text.span isDecimalDigit
  let (fraction, rest) :=
    match rest with
    | '.' :: rest => rest.span isDecimalDigit
    | rest => ([], rest)
  if whole.isEmpty && fraction.isEmpty then none
  else
    let exponent ← readExponent? rest
    some ⟨ofDigits (whole ++ fraction), exponent - fraction.length⟩

end Decimal

namespace BinaryFormat

/-! ## The nearest float

A decimal number is an exact ratio, so one rounding gives the nearest float. Exponents far
out of range are decided without computing the ratio. -/

/-- **The word nearest to a decimal number.** A number whose leading digit
stands far outside the range of the format needs no power of ten to be
computed. -/
def ofDecimal (f : BinaryFormat) (d : Decimal) : Nat :=
  if d.significand = 0 then 0
  else
    let leading := d.exponent + Decimal.digitCount d.significand
    if 400 < leading then f.infinity
    else if leading < -400 then 0
    else if 0 ≤ d.exponent then f.encodeRatio (d.significand * Nat.pow 10 d.exponent.toNat) 1
    else f.encodeRatio d.significand (Nat.pow 10 (-d.exponent).toNat)

/-- The word that a text denotes, if it is the text of a number. -/
def ofText? (f : BinaryFormat) (text : List Char) : Option Nat :=
  let (negative, rest) := Decimal.takeSign text
  let name := String.ofList (rest.map Char.toLower)
  if name == "inf" || name == "infinity" then some (f.withSign negative f.infinity)
  else if name == "nan" then some (f.withSign negative f.quietNaN)
  else (Decimal.ofText? rest).map fun d => f.withSign negative (f.ofDecimal d)

end BinaryFormat

/-- The 32-bit float that a text denotes. -/
def Single.ofText? (text : List Char) : Option Single :=
  (BinaryFormat.single.ofText? text).map Single.ofNat

/-- The 64-bit float that a text denotes. -/
def Double.ofText? (text : List Char) : Option Double :=
  (BinaryFormat.double.ofText? text).map Double.ofNat

/-- Reads a natural number below `limit`: digits alone, or digits after a
plus sign. -/
def readNat? (limit : Nat) (text : List Char) : Option Nat :=
  let digits := match text with
    | '+' :: rest => rest
    | text => text
  if digits.isEmpty || !digits.all isDecimalDigit then none
  else
    let n := Decimal.ofDigits digits
    if n < limit then some n else none

end Meshwork
