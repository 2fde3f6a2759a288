/-!
# Binary floating-point numbers

Coordinates, normals and float arguments are kept as the bits of their
binary representation. Bits are what a container stores, so a value that
is read and written again has to come back with the very same bits, the
payload of a NaN and the sign of a zero included; and arithmetic on bits
is ordinary arithmetic of natural numbers, so nothing here rests on an
operation that the logic cannot see into.

A `BinaryFormat` says how the bits of a word are cut into sign, exponent
and fraction. `BinaryFormat.decode` reads the number a word stands for and
`BinaryFormat.encodeRatio` finds the word nearest to a ratio of natural
numbers. `Single` and `Double` are the two formats in use.
-/

namespace Meshwork

/-- **A binary interchange format.** A word consists of a sign bit, an
exponent field and the fraction, from the most significant bit down. -/
structure BinaryFormat where
  /-- The width of the fraction field. -/
  fractionWidth : Nat
  /-- The width of the exponent field. -/
  exponentWidth : Nat
deriving DecidableEq, Repr

/-- What the bits of a word stand for. -/
inductive Decoded where
  /-- Not a number. -/
  | nan
  /-- An infinity. -/
  | infinite (negative : Bool)
  /-- The number `significand * 2 ^ exponent`, with a sign that also a zero
  carries. -/
  | finite (negative : Bool) (significand : Nat) (exponent : Int)
deriving DecidableEq, Repr

namespace BinaryFormat

/-- The format of 32-bit floats. -/
def single : BinaryFormat := ⟨23, 8⟩

/-- The format of 64-bit floats. -/
def double : BinaryFormat := ⟨52, 11⟩

/-- The exponent of the last bit of the smallest numbers: every finite
number is a multiple of `2 ^ leastExponent`. -/
def leastExponent (f : BinaryFormat) : Int :=
  2 - (Nat.pow 2 (f.exponentWidth - 1) - 1 : Nat) - (f.fractionWidth + 1 : Nat)

/-- The word of positive infinity: the exponent field full, the fraction
zero. Without their sign bit, the words of finite numbers lie below it and
those of NaN above. -/
def infinity (f : BinaryFormat) : Nat :=
  (Nat.pow 2 f.exponentWidth - 1) * Nat.pow 2 f.fractionWidth

/-- The word whose only set bit is the sign. -/
def signBit (f : BinaryFormat) : Nat :=
  Nat.pow 2 (f.exponentWidth + f.fractionWidth)

/-- The quiet NaN with a clear sign and an empty payload. -/
def quietNaN (f : BinaryFormat) : Nat :=
  f.infinity + Nat.pow 2 (f.fractionWidth - 1)

/-- The NaN that an operation without a meaning gives, such as `0 / 0`: its
sign is set. -/
def invalid (f : BinaryFormat) : Nat :=
  f.signBit + f.quietNaN

/-- The word without its sign bit. -/
def magnitude (f : BinaryFormat) (bits : Nat) : Nat :=
  bits % f.signBit

/-- Whether the sign bit is set. -/
def isNegative (f : BinaryFormat) (bits : Nat) : Bool :=
  bits / f.signBit % 2 == 1

/-- The word with the sign `negative` and the given magnitude. -/
def withSign (f : BinaryFormat) (negative : Bool) (magnitude : Nat) : Nat :=
  if negative then f.signBit + magnitude else magnitude

/-- Whether the word is one of the NaNs. -/
def isNaN (f : BinaryFormat) (bits : Nat) : Bool :=
  f.infinity < f.magnitude bits

/-- **What a word stands for.** The lowest exponent field holds the numbers
whose leading bit is not implied. -/
def decode (f : BinaryFormat) (bits : Nat) : Decoded :=
  let magnitude := f.magnitude bits
  let negative := f.isNegative bits
  if magnitude = f.infinity then .infinite negative
  else if f.infinity < magnitude then .nan
  else
    let unit := Nat.pow 2 f.fractionWidth
    let field := magnitude / unit
    let fraction := magnitude % unit
    if field = 0 then .finite negative fraction f.leastExponent
    else .finite negative (unit + fraction) (f.leastExponent + (field - 1 : Nat))

/-! ## Rounding

Every conversion to a float is a rounding of a ratio. It looks for the exponent first and
then divides; if the division rounds up to a power of two, the next word is the right one. -/

/-- The quotient rounded to the nearest integer, a half going to the even
neighbour. -/
def divNearest (num den : Nat) : Nat :=
  let floor := num / den
  let rest := num % den
  if 2 * rest < den then floor
  else if den < 2 * rest then floor + 1
  else floor + floor % 2

/-- The largest `e` with `2 ^ e ≤ num / den`, for positive `num` and
`den`. -/
def ratioLog (num den : Nat) : Int :=
  let guess : Int := (Nat.log2 num : Int) - (Nat.log2 den : Int)
  let fits :=
    if 0 ≤ guess then den * Nat.pow 2 guess.toNat ≤ num
    else den ≤ num * Nat.pow 2 (-guess).toNat
  if fits then guess else guess - 1

/-- **The word nearest to the positive number `num / den`**, a tie going to
the even word. The exponent is chosen so that the significand has as many
bits as fit; numbers too small for that share the least exponent. A
significand that rounding carries to the next power of two moves into the
exponent field by itself, since the fields adjoin. -/
def encodeRatio (f : BinaryFormat) (num den : Nat) : Nat :=
  if num = 0 then 0
  else
    let exponent := max f.leastExponent (ratioLog num den - f.fractionWidth)
    let significand :=
      if 0 ≤ exponent then divNearest num (den * Nat.pow 2 exponent.toNat)
      else divNearest (num * Nat.pow 2 (-exponent).toNat) den
    let word := (exponent - f.leastExponent).toNat * Nat.pow 2 f.fractionWidth + significand
    min word f.infinity

/-- The word nearest to `significand * 2 ^ exponent`. -/
def encodeScaled (f : BinaryFormat) (significand : Nat) (exponent : Int) : Nat :=
  if 0 ≤ exponent then f.encodeRatio (significand * Nat.pow 2 exponent.toNat) 1
  else f.encodeRatio significand (Nat.pow 2 (-exponent).toNat)

/-- The word nearest to an integer. -/
def ofInt (f : BinaryFormat) (value : Int) : Nat :=
  f.withSign (value < 0) (f.encodeRatio value.natAbs 1)

/-! ## Comparison

Words are not in the order of the numbers: those of negative numbers run backwards. A key
puts them in one line, so that comparing is comparing integers. -/

/-- A number as a point of the order of all numbers that are not NaN: the
words of positive numbers grow with their value, and both zeros are the
same point. -/
def orderKey (f : BinaryFormat) (bits : Nat) : Int :=
  if f.isNegative bits then -(f.magnitude bits : Int) else f.magnitude bits

/-- Whether two words are equal numbers: a NaN equals nothing, and the two
zeros are equal. -/
def eqv (f : BinaryFormat) (a b : Nat) : Bool :=
  !f.isNaN a && !f.isNaN b && f.orderKey a == f.orderKey b

/-- Whether one number is less than another; never so for a NaN. -/
def lt (f : BinaryFormat) (a b : Nat) : Bool :=
  !f.isNaN a && !f.isNaN b && f.orderKey a < f.orderKey b

/-- Whether one number is at most another; never so for a NaN. -/
def le (f : BinaryFormat) (a b : Nat) : Bool :=
  !f.isNaN a && !f.isNaN b && f.orderKey a ≤ f.orderKey b

end BinaryFormat

/-- Whether two lists agree element by element in the sense of `eqv`. -/
def pairwiseEqv {α : Type} (eqv : α → α → Bool) : List α → List α → Bool
  | [], [] => true
  | x :: xs, y :: ys => eqv x y && pairwiseEqv eqv xs ys
  | _, _ => false

/-- **A 32-bit float**, kept as its bits. All operations are defined on the bits, so that every
result is determined to the last of them. -/
structure Single where
  /-- The bits, sign first. -/
  bits : UInt32
deriving DecidableEq, Repr, Inhabited

/-- **A 64-bit float**, kept as its bits. All operations are defined on the bits, so that every
result is determined to the last of them. -/
structure Double where
  /-- The bits, sign first. -/
  bits : UInt64
deriving DecidableEq, Repr, Inhabited

namespace Single

/-- The float whose word is `word`. -/
def ofNat (word : Nat) : Single := ⟨word.toUInt32⟩

/-- The word of the float. -/
def toNat (x : Single) : Nat := x.bits.toNat

@[simp] theorem toNat_ofNat (word : Nat) : (ofNat word).toNat = word % UInt32.size := rfl

@[simp] theorem ofNat_toNat (x : Single) : ofNat x.toNat = x := by
  cases x; simp [ofNat, toNat]

/-- Positive zero. -/
def zero : Single := ⟨0⟩

/-- What the bits stand for. -/
def decode (x : Single) : Decoded := BinaryFormat.single.decode x.toNat

/-- Whether the float is a NaN. -/
def isNaN (x : Single) : Bool := BinaryFormat.single.isNaN x.toNat

/-- Whether the float is neither a NaN nor an infinity. -/
def isFinite (x : Single) : Bool :=
  BinaryFormat.single.magnitude x.toNat < BinaryFormat.single.infinity

/-- Equality of numbers: a NaN equals nothing, and the two zeros are
equal. -/
def eqv (x y : Single) : Bool := BinaryFormat.single.eqv x.toNat y.toNat

/-- Whether one number is less than another; never so for a NaN. -/
def lt (x y : Single) : Bool := BinaryFormat.single.lt x.toNat y.toNat

end Single

namespace Double

/-- The float whose word is `word`. -/
def ofNat (word : Nat) : Double := ⟨word.toUInt64⟩

/-- The word of the float. -/
def toNat (x : Double) : Nat := x.bits.toNat

@[simp] theorem toNat_ofNat (word : Nat) : (ofNat word).toNat = word % UInt64.size := rfl

@[simp] theorem ofNat_toNat (x : Double) : ofNat x.toNat = x := by
  cases x; simp [ofNat, toNat]

/-- Positive zero. -/
def zero : Double := ⟨0⟩

/-- The number one. -/
def one : Double := ofNat (BinaryFormat.double.ofInt 1)

/-- The float nearest to an integer. -/
def ofInt (value : Int) : Double := ofNat (BinaryFormat.double.ofInt value)

/-- What the bits stand for. -/
def decode (x : Double) : Decoded := BinaryFormat.double.decode x.toNat

/-- Whether the float is a NaN. -/
def isNaN (x : Double) : Bool := BinaryFormat.double.isNaN x.toNat

/-- Whether the float is neither a NaN nor an infinity. -/
def isFinite (x : Double) : Bool :=
  BinaryFormat.double.magnitude x.toNat < BinaryFormat.double.infinity

/-- Equality of numbers: a NaN equals nothing, and the two zeros are
equal. -/
def eqv (x y : Double) : Bool := BinaryFormat.double.eqv x.toNat y.toNat

/-- Whether one number is less than another; never so for a NaN. -/
def lt (x y : Double) : Bool := BinaryFormat.double.lt x.toNat y.toNat

/-- Whether one number is at most another; never so for a NaN. -/
def le (x y : Double) : Bool := BinaryFormat.double.le x.toNat y.toNat

/-- The 32-bit float nearest to the number. A NaN stays one and keeps the
upper part of its payload. -/
def toSingle (x : Double) : Single :=
  match x.decode with
  | .nan =>
    let negative := BinaryFormat.double.isNegative x.toNat
    let payload := x.toNat % Nat.pow 2 52 / Nat.pow 2 29
    let quiet := BinaryFormat.single.quietNaN
    .ofNat (BinaryFormat.single.withSign negative (quiet ||| payload))
  | .infinite negative =>
    .ofNat (BinaryFormat.single.withSign negative BinaryFormat.single.infinity)
  | .finite negative significand exponent =>
    .ofNat (BinaryFormat.single.withSign negative
      (BinaryFormat.single.encodeScaled significand exponent))

end Double

end Meshwork
