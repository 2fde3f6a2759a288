import Meshwork.Number.Binary
import Meshwork.Number.Decimal

/-!
# The shortest digits that read back

A finite positive float stands for every real number nearer to it than to
its neighbours. Of the decimal numbers in that interval, a printed float
shows one with the fewest digits, and of those the nearest to the float.

`shortest` tries one digit, two digits and so on. For each count the
decimals form a grid, and only the two grid points around the float need a
look: if any point of the grid lies in the interval then so does one of
these two. Seventeen digits always suffice.
-/

namespace Meshwork

/-- Which of two equally near decimals is printed. -/
inductive TieRule where
  /-- The larger one. -/
  | up
  /-- The one whose last digit is even. -/
  | even
deriving DecidableEq, Repr

/-- **Significant digits** of a number `0.d₁d₂… * 10 ^ point`. -/
structure Digits where
  /-- The digits as a number; neither its first nor its last digit is zero. -/
  value : Nat
  /-- How many digits stand before the decimal point; negative if zeros
  follow the point. -/
  point : Int
deriving DecidableEq, Repr

namespace Digits

/-- The digits as characters. -/
def chars (d : Digits) : List Char := Nat.toDigits 10 d.value

/-- How many digits there are. -/
def count (d : Digits) : Nat := d.chars.length

/-- The digits without zeros at their end; the number stays the same. -/
def trim (d : Digits) : (fuel : Nat) → Digits
  | 0 => d
  | fuel + 1 => if d.value ≠ 0 ∧ d.value % 10 = 0 then trim ⟨d.value / 10, d.point⟩ fuel else d

end Digits

/-! ## The interval and the grid

The interval of a float is given by natural numbers over one denominator, so that
everything is compared exactly. -/

/-- **The numbers that round to a float**, over a common denominator: the
interval from `low / den` to `high / den` around `mid / den`, with its ends
if `closed`. -/
structure RoundingInterval where
  /-- The lower end. -/
  low : Nat
  /-- The float itself. -/
  mid : Nat
  /-- The upper end. -/
  high : Nat
  /-- The common denominator. -/
  den : Nat
  /-- Whether the ends belong to it. -/
  closed : Bool

namespace RoundingInterval

/-- Whether the ratio `num / d` lies in the interval. -/
def contains (i : RoundingInterval) (num d : Nat) : Bool :=
  let value := num * i.den
  if i.closed then i.low * d ≤ value && value ≤ i.high * d
  else i.low * d < value && value < i.high * d

end RoundingInterval

namespace BinaryFormat

/-- The interval of the float `significand * 2 ^ exponent`. A tie goes to the
even significand, so the ends belong to the interval of an even one. Below
a power of two the floats lie twice as close, except for the smallest. -/
def roundingInterval (f : BinaryFormat) (significand : Nat) (exponent : Int) :
    RoundingInterval :=
  let narrow := significand = Nat.pow 2 f.fractionWidth ∧ f.leastExponent < exponent
  let scale := Nat.pow 2 exponent.toNat
  { low := (4 * significand - (if narrow then 1 else 2)) * scale
    mid := 4 * significand * scale
    high := (4 * significand + 2) * scale
    den := 4 * Nat.pow 2 (-exponent).toNat
    closed := significand % 2 == 0 }

end BinaryFormat

/-- The `n` with `10 ^ (n - 1) ≤ num / den < 10 ^ n`, for positive `num` and
`den`. The counts of digits give it up to one. -/
def decimalPoint (num den : Nat) : Int :=
  let guess : Int := (Decimal.digitCount num : Int) - Decimal.digitCount den
  let below :=
    if 0 ≤ guess then num < den * Nat.pow 10 guess.toNat
    else num * Nat.pow 10 (-guess).toNat < den
  if below then guess else guess + 1

/-- The candidate with `count` digits: the nearer of the two grid points
around the float that lie in its interval. -/
def RoundingInterval.candidate? (i : RoundingInterval) (tie : TieRule)
    (point : Int) (count : Nat) : Option Digits :=
  -- One step of the grid is `10 ^ (point - count)`, the ratio `up / down`.
  let step := point - count
  let up := Nat.pow 10 step.toNat
  let down := Nat.pow 10 (-step).toNat
  let floor := i.mid * down / (i.den * up)
  let rest := i.mid * down % (i.den * up)
  let lowFits := 0 < floor && i.contains (floor * up) down
  let highFits := i.contains ((floor + 1) * up) down
  let nearerHigh :=
    i.den * up < 2 * rest ||
      (i.den * up == 2 * rest && (tie == .up || floor % 2 == 1))
  let chosen :=
    if lowFits && highFits then some (if nearerHigh then floor + 1 else floor)
    else if lowFits then some floor
    else if highFits then some (floor + 1)
    else none
  chosen.map fun value =>
    if value = Nat.pow 10 count then ⟨1, point + 1⟩ else Digits.trim ⟨value, point⟩ count

/-- **The shortest digits of a positive number** `significand * 2 ^ exponent`
of the format. -/
def BinaryFormat.shortest (f : BinaryFormat) (tie : TieRule) (significand : Nat)
    (exponent : Int) : Digits :=
  let i := f.roundingInterval significand exponent
  let point := decimalPoint i.mid i.den
  ((List.range' 1 17).findSome? (i.candidate? tie point)).getD ⟨0, 0⟩

end Meshwork
