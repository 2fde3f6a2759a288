import Meshwork.Number.Binary

/-!
# Arithmetic of binary floats

Every operation is the exact result of the two numbers, rounded once to the
nearest float. The exact results are ratios of natural numbers, or, for
the square root, a ratio that rounds the same way, so each operation is one
call of `BinaryFormat.encodeRatio`.

An operation one of whose operands is a NaN gives that NaN, the first of
two, made quiet. An operation without a meaning, such as `inf - inf`, gives
`BinaryFormat.invalid`.

Minimum and maximum do not compute anything: they choose one of two words, and pass over a
NaN where they can.
-/

namespace Meshwork

namespace BinaryFormat

/-- The quiet form of a NaN. -/
def quiet (f : BinaryFormat) (bits : Nat) : Nat :=
  bits ||| Nat.pow 2 (f.fractionWidth - 1)

/-- The first of the two words that is a NaN, made quiet, or else what
`result` gives. -/
def unlessNaN (f : BinaryFormat) (a b : Nat) (result : Nat) : Nat :=
  if f.isNaN a then f.quiet a else if f.isNaN b then f.quiet b else result

/-- The word nearest to an integer multiple of a power of two. A zero result
is positive. -/
def encodeInt (f : BinaryFormat) (significand : Int) (exponent : Int) : Nat :=
  f.withSign (significand < 0) (f.encodeScaled significand.natAbs exponent)

/-- The significand with its sign. -/
def signed (negative : Bool) (significand : Nat) : Int :=
  if negative then -(significand : Int) else significand

/-- **The sum.** Both numbers are written over the smaller of their
exponents. Two zeros of one sign keep it; any other zero sum is
positive. -/
def add (f : BinaryFormat) (a b : Nat) : Nat :=
  f.unlessNaN a b <|
    match f.decode a, f.decode b with
    | .infinite n, .infinite m =>
      if n = m then f.withSign n f.infinity else f.invalid
    | .infinite n, _ => f.withSign n f.infinity
    | _, .infinite m => f.withSign m f.infinity
    | .finite n s e, .finite m t g =>
      if s = 0 ∧ t = 0 then f.withSign (n && m) 0
      else
        let low := min e g
        let left := signed n s * Nat.pow 2 (e - low).toNat
        let right := signed m t * Nat.pow 2 (g - low).toNat
        f.encodeInt (left + right) low
    | _, _ => f.quietNaN

/-- The number with the opposite sign. -/
def neg (f : BinaryFormat) (a : Nat) : Nat :=
  f.withSign (!f.isNegative a) (f.magnitude a)

/-- The difference. A NaN subtracted keeps its sign. -/
def sub (f : BinaryFormat) (a b : Nat) : Nat :=
  f.unlessNaN a b (f.add a (f.neg b))

/-- The product. -/
def mul (f : BinaryFormat) (a b : Nat) : Nat :=
  f.unlessNaN a b <|
    match f.decode a, f.decode b with
    | .infinite n, .infinite m => f.withSign (n != m) f.infinity
    | .infinite n, .finite m t _ =>
      if t = 0 then f.invalid else f.withSign (n != m) f.infinity
    | .finite n s _, .infinite m =>
      if s = 0 then f.invalid else f.withSign (n != m) f.infinity
    | .finite n s e, .finite m t g =>
      f.withSign (n != m) (f.encodeScaled (s * t) (e + g))
    | _, _ => f.quietNaN

/-- The quotient. A number divided by zero is infinite, zero divided by zero
has no meaning. -/
def div (f : BinaryFormat) (a b : Nat) : Nat :=
  f.unlessNaN a b <|
    match f.decode a, f.decode b with
    | .infinite _, .infinite _ => f.invalid
    | .infinite n, .finite m _ _ => f.withSign (n != m) f.infinity
    | .finite n _ _, .infinite m => f.withSign (n != m) 0
    | .finite n s e, .finite m t g =>
      if t = 0 then
        if s = 0 then f.invalid else f.withSign (n != m) f.infinity
      else
        let shift := e - g
        let num := s * Nat.pow 2 shift.toNat
        let den := t * Nat.pow 2 (-shift).toNat
        f.withSign (n != m) (f.encodeRatio num den)
    | _, _ => f.quietNaN

/-- The largest number below `2 ^ bits` whose square is at most `n`, found
bit by bit from the top. -/
def isqrt (n : Nat) : (bits : Nat) → (found : Nat) → Nat
  | 0, found => found
  | k + 1, found =>
    let next := found + Nat.pow 2 k
    isqrt n k (if next * next ≤ n then next else found)

/-- **The square root.** The significand is widened until its integer root
has more bits than a fraction holds. The true root lies between that root
and the next integer; the midpoint of the two rounds the way the true root
does, since no boundary between floats lies strictly between them. -/
def sqrt (f : BinaryFormat) (a : Nat) : Nat :=
  if f.isNaN a then f.quiet a
  else
    match f.decode a with
    | .infinite false => f.infinity
    | .infinite true => f.invalid
    | .nan => f.quietNaN
    | .finite negative s e =>
      if s = 0 then a
      else if negative then f.invalid
      else
        let widen := 2 * (f.fractionWidth + 3) + (e % 2).toNat
        let wide := s * Nat.pow 2 widen
        let root := isqrt wide (Nat.log2 wide / 2 + 1) 0
        let doubled := 2 * root + (if root * root = wide then 0 else 1)
        f.encodeScaled doubled ((e - widen) / 2 - 1)

end BinaryFormat

namespace Single

instance : Add Single := ⟨fun x y => ofNat (BinaryFormat.single.add x.toNat y.toNat)⟩
instance : Sub Single := ⟨fun x y => ofNat (BinaryFormat.single.sub x.toNat y.toNat)⟩
instance : Mul Single := ⟨fun x y => ofNat (BinaryFormat.single.mul x.toNat y.toNat)⟩
instance : Div Single := ⟨fun x y => ofNat (BinaryFormat.single.div x.toNat y.toNat)⟩

/-- The square root. -/
def sqrt (x : Single) : Single := ofNat (BinaryFormat.single.sqrt x.toNat)

/-- The smaller of two numbers, the first if they are equal; if one is a NaN,
the other. -/
def min (x y : Single) : Single := if x.isNaN || y.lt x then y else x

/-- The larger of two numbers, the first if they are equal; if one is a NaN,
the other. -/
def max (x y : Single) : Single := if x.isNaN || x.lt y then y else x

end Single

namespace Double

instance : Mul Double := ⟨fun x y => ofNat (BinaryFormat.double.mul x.toNat y.toNat)⟩
instance : Div Double := ⟨fun x y => ofNat (BinaryFormat.double.div x.toNat y.toNat)⟩

/-- The number with the opposite sign. -/
def neg (x : Double) : Double := ofNat (BinaryFormat.double.neg x.toNat)

end Double

end Meshwork
