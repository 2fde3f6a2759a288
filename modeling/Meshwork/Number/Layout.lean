import Meshwork.Number.Shortest

/-!
# How a float is written

Three texts show floats: the canonical rendering that a fingerprint covers,
plain text in messages and descriptors, and JSON. They print the same
shortest digits and differ in the rest: when an exponent takes the place of
zeros, whether a whole number keeps `.0`, and how the numbers without
digits are called. A `FloatLayout` lists those decisions.
-/

namespace Meshwork

/-- **The decisions of a float text.** Programs differ in these, and so do the parts of one
program that write JSON, XML and messages. -/
structure FloatLayout where
  /-- The smallest number of digits before the point, zeros after the point
  counting below zero, that is written without an exponent. `none` sets no
  bound. -/
  leastPoint : Option Int
  /-- The largest number of digits before the point that is written without
  an exponent. `none` sets no bound. -/
  greatestPoint : Option Int
  /-- Whether a whole number ends in `.0`. -/
  keepsPoint : Bool
  /-- Whether a positive exponent has a sign. -/
  plusSign : Bool
  /-- Which of two equally near decimals is chosen. -/
  tie : TieRule
  /-- The text of a NaN. -/
  nan : String
  /-- The text of positive infinity. -/
  infinity : String
  /-- The text of negative infinity. -/
  negativeInfinity : String

namespace FloatLayout

/-- **The canonical layout.** From `0.0001` up to `10 ^ 16` digits are
positional; whole numbers keep their point, so that the text shows that the
number is a float. -/
def canonical : FloatLayout where
  leastPoint := some (-3)
  greatestPoint := some 16
  keepsPoint := true
  plusSign := false
  tie := .up
  nan := "NaN"
  infinity := "inf"
  negativeInfinity := "-inf"

/-- **The plain layout.** Never an exponent and no superfluous point. -/
def plain : FloatLayout where
  leastPoint := none
  greatestPoint := none
  keepsPoint := false
  plusSign := false
  tie := .up
  nan := "NaN"
  infinity := "inf"
  negativeInfinity := "-inf"

/-- **The layout of JSON numbers.** JSON has no text for the numbers without
digits and shows `null`. -/
def json : FloatLayout where
  leastPoint := some (-4)
  greatestPoint := some 16
  keepsPoint := true
  plusSign := true
  tie := .even
  nan := "null"
  infinity := "null"
  negativeInfinity := "null"

/-! ## Digits in a layout

The digits are given with the place of their point. Writing them out means putting zeros
where the point lies outside of them. -/

/-- Digits with a point among them, zeros filling the places up to it. -/
def positional (layout : FloatLayout) (d : Digits) : List Char :=
  let digits := d.chars
  if d.point ≤ 0 then
    '0' :: '.' :: List.replicate (-d.point).toNat '0' ++ digits
  else
    let whole := d.point.toNat
    if digits.length ≤ whole then
      digits ++ List.replicate (whole - digits.length) '0'
        ++ (if layout.keepsPoint then ['.', '0'] else [])
    else digits.take whole ++ '.' :: digits.drop whole

/-- Digits with a point after the first and a decimal exponent. -/
def scientific (layout : FloatLayout) (d : Digits) : List Char :=
  let exponent := (toString (d.point - 1)).toList
  let exponent := if layout.plusSign && 1 ≤ d.point then '+' :: exponent else exponent
  match d.chars with
  | [] => []
  | [c] => c :: 'e' :: exponent
  | c :: rest => c :: '.' :: rest ++ 'e' :: exponent

/-- Whether digits are written without an exponent. -/
def isPositional (layout : FloatLayout) (d : Digits) : Bool :=
  layout.leastPoint.all (· ≤ d.point) && layout.greatestPoint.all (d.point ≤ ·)

/-- **The text of a number** of the given format. Zero is a case apart, as it has no digits that
could be shortest. -/
def write (layout : FloatLayout) (f : BinaryFormat) (decoded : Decoded) : String :=
  match decoded with
  | .nan => layout.nan
  | .infinite negative => if negative then layout.negativeInfinity else layout.infinity
  | .finite negative significand exponent =>
    let sign := if negative then ['-'] else []
    if significand = 0 then
      String.ofList (sign ++ '0' :: (if layout.keepsPoint then ['.', '0'] else []))
    else
      let d := f.shortest layout.tie significand exponent
      String.ofList (sign ++
        (if layout.isPositional d then layout.positional d else layout.scientific d))

end FloatLayout

/-- The text of a 32-bit float. -/
def Single.write (layout : FloatLayout) (x : Single) : String :=
  layout.write .single x.decode

/-- The text of a 64-bit float. -/
def Double.write (layout : FloatLayout) (x : Double) : String :=
  layout.write .double x.decode

end Meshwork
