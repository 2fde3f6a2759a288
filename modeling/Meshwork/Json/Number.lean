import Meshwork.Json.Value
import Meshwork.Number.Arithmetic
import Meshwork.Number.Decimal

/-!
# Reading JSON numbers

An integer of up to 64 bits is kept as it is. Every other number becomes a
float, and not always the nearest one: the leading digits that fit into 64
bits form an integer, the rest only move the exponent, and the float of the
integer is multiplied or divided by one power of ten. Two roundings may
differ from one in the last bit.
-/

namespace Meshwork.Json

/-- **Why a text is no document**, at the first place where it is none. Which one it is depends on
how far a reader gets. -/
inductive Fault where
  /-- The text ends within a string. -/
  | eofString
  /-- The text ends within an array. -/
  | eofList
  /-- The text ends within an object. -/
  | eofObject
  /-- The text ends where a value should be. -/
  | eofValue
  /-- There is no colon after a key. -/
  | expectedColon
  /-- There is neither a comma nor the end after an item. -/
  | expectedListEnd
  /-- There is neither a comma nor the end after a member. -/
  | expectedObjectEnd
  /-- A name other than `null`, `true` and `false`. -/
  | expectedIdent
  /-- No value starts here. -/
  | expectedValue
  /-- No such escape in a string. -/
  | invalidEscape
  /-- The digits are no number. -/
  | invalidNumber
  /-- The number is beyond the floats. -/
  | numberOutOfRange
  /-- The bytes of a string are not UTF-8. -/
  | invalidUnicode
  /-- A control character in a string. -/
  | controlCharacter
  /-- A key that is no string. -/
  | keyNotString
  /-- A surrogate without its partner. -/
  | loneSurrogate
  /-- A first surrogate that no second one follows. -/
  | unfinishedSurrogate
  /-- A comma before the end of an array or object. -/
  | trailingComma
  /-- Text after the end. -/
  | trailingCharacters
  /-- Values nest too deeply. -/
  | recursionLimit
deriving DecidableEq, Repr

/-- The text of a fault. -/
def Fault.message : Fault → String
  | eofString => "EOF while parsing a string"
  | eofList => "EOF while parsing a list"
  | eofObject => "EOF while parsing an object"
  | eofValue => "EOF while parsing a value"
  | expectedColon => "expected `:`"
  | expectedListEnd => "expected `,` or `]`"
  | expectedObjectEnd => "expected `,` or `\x7d`"
  | expectedIdent => "expected ident"
  | expectedValue => "expected value"
  | invalidEscape => "invalid escape"
  | invalidNumber => "invalid number"
  | numberOutOfRange => "number out of range"
  | invalidUnicode => "invalid unicode code point"
  | controlCharacter => "control character (\\u0000-\\u001F) found while parsing a string"
  | keyNotString => "key must be a string"
  | loneSurrogate => "lone leading surrogate in hex escape"
  | unfinishedSurrogate => "unexpected end of hex escape"
  | trailingComma => "trailing comma"
  | trailingCharacters => "trailing characters"
  | recursionLimit => "recursion limit exceeded"

/-- What a text consists of: characters, and gaps for bytes that belong to no
character. -/
abbrev Symbols := List (Option Char)

/-- The digits that a text starts with, and the rest. -/
def takeDigits : Symbols → List Char × Symbols
  | some c :: rest =>
    if isDecimalDigit c then
      let (digits, rest) := takeDigits rest
      (c :: digits, rest)
    else ([], some c :: rest)
  | rest => ([], rest)

/-- Adds digits to a number for as long as it stays below `UInt64.size`, and counts
them. -/
def absorbDigits (value : Nat) : List Char → Nat × Nat
  | [] => (value, 0)
  | c :: rest =>
    let next := 10 * value + decimalDigit c
    if UInt64.size ≤ next then (value, 0)
    else
      let (value, count) := absorbDigits next rest
      (value, count + 1)

/-- The greatest exponent that is read as such. -/
def exponentLimit : Nat := Nat.pow 2 31 - 1

/-- The float of a power of ten. -/
def powerOfTen (n : Nat) : Double := .ofInt (Nat.pow 10 n : Nat)

/-- Multiplies or divides by a power of ten. One that is no float takes
several divisions; `fuel` bounds their number. -/
def scaleByTen (x : Double) (exponent : Int) : (fuel : Nat) → Option Double
  | 0 => some x
  | fuel + 1 =>
    if exponent.natAbs ≤ 308 then
      if 0 ≤ exponent then
        let y := x * powerOfTen exponent.toNat
        if y.isFinite then some y else none
      else some (x / powerOfTen exponent.natAbs)
    else if x.eqv .zero then some x
    else if 0 ≤ exponent then none
    else scaleByTen (x / powerOfTen 308) (exponent + 308) fuel

/-- The float of a significand and a decimal exponent, with its sign. -/
def floatOfParts (negative : Bool) (significand : Nat) (exponent : Int) : Except Fault Number :=
  match scaleByTen (.ofInt significand) exponent 8 with
  | none => .error .numberOutOfRange
  | some x => .ok (.float (if negative then x.neg else x))

/-- A number without fraction and exponent whose digits fit into 64 bits. -/
def integerOf (negative : Bool) (value : Nat) : Number :=
  if !negative then .natural value
  else if value = 0 ∨ Nat.pow 2 63 < value then .float (Double.ofInt value).neg
  else .negative value

/-- The parts of a number in a text. -/
structure NumberParts where
  /-- Whether it starts with a minus. -/
  negative : Bool
  /-- The digits before the point. -/
  whole : List Char
  /-- The digits after the point, if there is one. -/
  fraction : Option (List Char)
  /-- The exponent, if there is one: whether it is negative, and its
  digits. -/
  exponent : Option (Bool × List Char)

/-- **The number of given parts.** Digits that do not fit a word are dropped and counted instead. -/
def NumberParts.value (p : NumberParts) : Except Fault Number :=
  let (significand, kept) := absorbDigits 0 p.whole
  let dropped : Nat := p.whole.length - kept
  if p.fraction.isNone && p.exponent.isNone && dropped = 0 then
    .ok (integerOf p.negative significand)
  else
    let (significand, places) := absorbDigits significand (p.fraction.getD [])
    let shift : Int := dropped - places
    match p.exponent with
    | none => floatOfParts p.negative significand shift
    | some (down, digits) =>
      let exponent := Decimal.ofDigits digits
      if exponentLimit < exponent then
        if significand ≠ 0 ∧ !down then .error .numberOutOfRange
        else .ok (.float (if p.negative then Double.zero.neg else .zero))
      else floatOfParts p.negative significand (if down then shift - exponent else shift + exponent)

/-- Reads the exponent that may follow. -/
def readExponent (s : Symbols) : Except Fault (Option (Bool × List Char) × Symbols) :=
  match s with
  | some c :: rest =>
    if c = 'e' ∨ c = 'E' then
      let (down, rest) :=
        match rest with
        | some '-' :: rest => (true, rest)
        | some '+' :: rest => (false, rest)
        | rest => (false, rest)
      let (digits, after) := takeDigits rest
      if !digits.isEmpty then .ok (some (down, digits), after)
      else if after.isEmpty then .error .eofValue
      else .error .invalidNumber
    else .ok (none, s)
  | _ => .ok (none, s)

/-- Reads the fraction that may follow. -/
def readFraction (s : Symbols) : Except Fault (Option (List Char) × Symbols) :=
  match s with
  | some '.' :: rest =>
    let (digits, after) := takeDigits rest
    if !digits.isEmpty then .ok (some digits, after)
    else if after.isEmpty then .error .eofValue
    else .error .invalidNumber
  | _ => .ok (none, s)

/-- Reads the digits before the point. A number has no superfluous zero at its
start. -/
def readWhole (s : Symbols) : Except Fault (List Char × Symbols) :=
  match takeDigits s with
  | ([], []) => .error .eofValue
  | ([], _) => .error .invalidNumber
  | ('0' :: _ :: _, _) => .error .invalidNumber
  | (digits, after) => .ok (digits, after)

/-- **Reads a number** whose sign is read already. The parts may be well
formed and yet stand for no float. -/
def readNumber (negative : Bool) (s : Symbols) :
    Except Fault (Except Fault Number × Symbols) := do
  let (whole, s) ← readWhole s
  let (fraction, s) ← readFraction s
  let (exponent, s) ← readExponent s
  return (NumberParts.value ⟨negative, whole, fraction, exponent⟩, s)

end Meshwork.Json
