import Meshwork.Text.Bytes
import Meshwork.Text.Quoted

/-!
# Hexadecimal text of bytes

Digests and numeric payloads are written as two lowercase digits per byte.
Reading accepts digits of either case and says what is wrong with a text
that is not of this form.

The text is looked at byte by byte, so one character outside of ASCII may be told of by
its first byte.
-/

namespace Meshwork.Hex

/-- The digit of a number below 16. -/
def digit (n : UInt8) : Char :=
  Char.ofNat (if n < 10 then 0x30 + n.toNat else 0x57 + n.toNat)

/-- The value of a digit. -/
def digitValue? (c : UInt8) : Option UInt8 :=
  if 0x30 ≤ c && c ≤ 0x39 then some (c - 0x30)
  else if 0x41 ≤ c && c ≤ 0x46 then some (c - 0x37)
  else if 0x61 ≤ c && c ≤ 0x66 then some (c - 0x57)
  else none

/-- The two digits of every byte. -/
def encodeChars (bytes : Bytes) : List Char :=
  bytes.flatMap fun b => [digit (b / 16), digit (b % 16)]

/-- **The hexadecimal text of bytes.** It has two digits for each byte, in lower case. -/
def encode (bytes : Bytes) : String := String.ofList (encodeChars bytes)

/-- **Why a text is not hexadecimal.** Positions count the bytes of the text, beginning with
zero. -/
inductive Fault where
  /-- The number of digits is odd. -/
  | oddLength
  /-- The byte at `position` is no digit. -/
  | invalidDigit (byte : UInt8) (position : Nat)
deriving DecidableEq, Repr

/-- The text of a fault. A byte is shown as the character of that number. -/
def Fault.message : Fault → String
  | .oddLength => "Odd number of digits"
  | .invalidDigit byte position =>
    let shown := quotedChar (Char.ofNat byte.toNat)
    s!"Invalid character {shown} at position {position}"

/-- Reads pairs of digits from `position` on. -/
def decodeFrom (position : Nat) (read : Bytes) : Bytes → Except Fault Bytes
  | [] => .ok read.reverse
  | [_] => .error .oddLength
  | high :: low :: rest =>
    match digitValue? high, digitValue? low with
    | some h, some l => decodeFrom (position + 2) ((16 * h + l) :: read) rest
    | none, _ => .error (.invalidDigit high position)
    | _, none => .error (.invalidDigit low (position + 1))

/-- **The bytes that a text writes.** The length is checked before any digit. Digits of either
case are read. -/
def decode (text : String) : Except Fault Bytes :=
  let bytes := bytesOf text
  if bytes.length % 2 = 1 then .error .oddLength else decodeFrom 0 [] bytes

end Meshwork.Hex
