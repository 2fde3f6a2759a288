import Meshwork.Text.Hex

/-!
# Universally unique identifiers

Filters have identifiers of 128 bits beside their names. The usual text has
32 hexadecimal digits in five groups (`Uuid.text`). Reading accepts digits
of either case, the digits without hyphens, and the usual text within braces
or after `urn:uuid:`.

An identifier is a number below `2 ^ 128`. All spellings are taken down to its digits, and
the digits to the number.
-/

namespace Meshwork

/-- **A universally unique identifier.** No version or variant is asked for. -/
structure Uuid where
  /-- The bits. -/
  bits : BitVec 128
deriving DecidableEq

namespace Uuid

/-- The identifier of a number. -/
def ofNat (n : Nat) : Uuid := ⟨.ofNat 128 n⟩

/-- The digits, without hyphens. -/
def digits (u : Uuid) : List Char :=
  let digits := hexDigits u.bits.toNat
  List.replicate (32 - digits.length) '0' ++ digits

/-- Digits in groups of 8, 4, 4, 4 and 12. -/
def hyphenated (digits : List Char) : List Char :=
  digits.take 8 ++ '-' :: (digits.drop 8).take 4 ++ '-' :: (digits.drop 12).take 4
    ++ '-' :: (digits.drop 16).take 4 ++ '-' :: digits.drop 20

/-- **The usual text.** It has five groups of digits in lower case, with hyphens between them. -/
def text (u : Uuid) : String := String.ofList (hyphenated u.digits)

/-- The value of a digit. -/
def digit? (c : Char) : Option Nat :=
  if c.toNat < 128 then (Hex.digitValue? c.toNat.toUInt8).map UInt8.toNat else none

/-- The number that digits write. -/
def readDigits (value : Nat) : List Char → Option Nat
  | [] => some value
  | c :: rest => (digit? c).bind fun d => readDigits (16 * value + d) rest

/-- Digits without hyphens. -/
def ofDigits? (digits : List Char) : Option Uuid :=
  if digits.length = 32 then (readDigits 0 digits).map ofNat else none

/-- The digits of a text with hyphens at the right places. -/
def groups? (text : List Char) : Option (List Char) :=
  let groups := (text.splitOnP (· = '-'))
  if groups.map List.length = [8, 4, 4, 4, 12] then some groups.flatten else none

/-- The text within braces or after its scheme. -/
def unwrap (text : List Char) : List Char :=
  match text with
  | '\x7b' :: rest => if rest.getLast? = some '\x7d' then rest.dropLast else text
  | _ =>
    let (scheme, rest) := text.splitAt 9
    if scheme.map Char.toLower = "urn:uuid:".toList then rest else text

/-- **Reads an identifier.** A text of that length can only be the digits alone. -/
def ofText? (text : String) : Option Uuid :=
  let chars := text.toList
  if chars.length = 32 then ofDigits? chars
  else (groups? (unwrap chars)).bind ofDigits?

end Uuid

end Meshwork
