/-!
# Bytes and UTF-8

File contents are lists of bytes. Text becomes bytes by UTF-8
(`bytesOf`), and bytes become text if they are well-formed UTF-8
(`Utf8.decode`); the error says where and how they are not, since messages
quote it.

`Utf8.symbols` reads bytes leniently: a byte that is part of no character
stays in the list as a gap. A reader of a format in ASCII can then find its
marks around text that is broken.
-/

namespace Meshwork

/-- The contents of a file. -/
abbrev Bytes := List UInt8

/-- The UTF-8 bytes of a text. -/
def bytesOf (text : String) : Bytes := text.toList.flatMap String.utf8EncodeChar

namespace Utf8

/-- **Why bytes are not UTF-8.** The first place where something is wrong is meant. -/
inductive Fault where
  /-- From `index` on, `length` bytes are no beginning of a character. -/
  | invalid (index length : Nat)
  /-- The bytes end within the character that starts at `index`. -/
  | incomplete (index : Nat)
deriving DecidableEq, Repr

/-- The text of a fault. -/
def Fault.message : Fault → String
  | .invalid index length => s!"invalid utf-8 sequence of {length} bytes from index {index}"
  | .incomplete index => s!"incomplete utf-8 byte sequence from index {index}"

/-! ## One character

The first byte says how many follow, and within which range the second one must be. Longer
forms of a shorter character, surrogates and numbers beyond the last are all excluded by
this range. -/

/-- What the first byte of a character of several bytes says. -/
structure Lead where
  /-- How many bytes follow it. -/
  following : Nat
  /-- The least second byte. -/
  low : UInt8
  /-- The greatest second byte. -/
  high : UInt8
  /-- The bits of the character in the first byte. -/
  payload : Nat

/-- The reading of a first byte above 127. The ranges of the second byte
exclude longer forms of shorter characters, surrogates, and what lies beyond
the last code point. -/
def lead? (b : UInt8) : Option Lead :=
  if b < 0xC2 then none
  else if b ≤ 0xDF then some ⟨1, 0x80, 0xBF, b.toNat - 0xC0⟩
  else if b = 0xE0 then some ⟨2, 0xA0, 0xBF, 0⟩
  else if b = 0xED then some ⟨2, 0x80, 0x9F, 0xD⟩
  else if b ≤ 0xEF then some ⟨2, 0x80, 0xBF, b.toNat - 0xE0⟩
  else if b = 0xF0 then some ⟨3, 0x90, 0xBF, 0⟩
  else if b ≤ 0xF3 then some ⟨3, 0x80, 0xBF, b.toNat - 0xF0⟩
  else if b = 0xF4 then some ⟨3, 0x80, 0x8F, 4⟩
  else none

/-- How the reading of one character ends. -/
inductive Step where
  /-- A character, and the bytes after it. -/
  | char (c : Char) (rest : Bytes)
  /-- So many bytes are no beginning of a character. -/
  | invalid (length : Nat)
  /-- The bytes end within the character. -/
  | incomplete

/-- Reads the bytes that follow the first one; `read` counts the bytes
before. -/
def follow (read : Nat) (value : Nat) : (following : Nat) → (low high : UInt8) → Bytes → Step
  | 0, _, _, rest => .char (Char.ofNat value) rest
  | _ + 1, _, _, [] => .incomplete
  | n + 1, low, high, b :: rest =>
    if low ≤ b && b ≤ high then
      follow (read + 1) (64 * value + (b.toNat - 0x80)) n 0x80 0xBF rest
    else .invalid read

/-- Reads the character that starts with the byte `b`. -/
def step (b : UInt8) (rest : Bytes) : Step :=
  if b < 0x80 then .char (Char.ofNat b.toNat) rest
  else match lead? b with
    | none => .invalid 1
    | some lead => follow 1 lead.payload lead.following lead.low lead.high rest

/-! ## All characters

The strict reader stops at the first fault and tells its place. The lenient one marks one
byte as a gap and goes on. -/

/-- Reads characters up to the end or the first fault. `fuel` bounds the
number of characters. -/
def decodeFrom (index : Nat) (read : List Char) : (fuel : Nat) → Bytes → Except Fault (List Char)
  | _, [] => .ok read.reverse
  | 0, _ => .ok read.reverse
  | fuel + 1, b :: rest =>
    match step b rest with
    | .char c rest' => decodeFrom (index + c.utf8Size) (c :: read) fuel rest'
    | .invalid length => .error (.invalid index length)
    | .incomplete => .error (.incomplete index)

/-- **The text of bytes**, or why they are none. Every list of bytes has at most one text. -/
def decode (bytes : Bytes) : Except Fault String :=
  (decodeFrom 0 [] bytes.length bytes).map String.ofList

/-- Reads characters and gaps up to the end. -/
def symbolsFrom (read : List (Option Char)) : (fuel : Nat) → Bytes → List (Option Char)
  | _, [] => read.reverse
  | 0, _ => read.reverse
  | fuel + 1, b :: rest =>
    match step b rest with
    | .char c rest' => symbolsFrom (some c :: read) fuel rest'
    | _ => symbolsFrom (none :: read) fuel rest

/-- The characters of bytes, with a gap for each byte that belongs to
none. -/
def symbols (bytes : Bytes) : List (Option Char) := symbolsFrom [] bytes.length bytes

end Utf8

end Meshwork
