import Meshwork.Json.Number
import Meshwork.Text.Hex

/-!
# Reading JSON text

A text is read into a `Tree`: the document as far as it can be read, with
the first fault at the place where it stands. Whoever takes values from the
tree meets either a value of the wrong kind or the fault, whichever comes
first in the text, so the error that is reported is the first one however
the two are mixed.

Faults that concern only what a string or number means, such as a lone
surrogate, do not end the reading: text whose meaning nobody asks for may
contain them. Where the reading does end, whoever asks for a value and
whoever only passes over it may find different faults first, and a reader of
names looks no further than the first character. A broken place therefore
keeps both faults and what it begins like.
-/

namespace Meshwork.Json

/-- How an array ends. -/
inductive ListEnd where
  /-- With its bracket. -/
  | closed
  /-- With its bracket after a comma. -/
  | trailingComma
  /-- The text ends after an item, or before the first. -/
  | eof
  /-- The text ends after a comma. -/
  | eofAfterComma
  /-- Something else follows an item. -/
  | junk
deriving DecidableEq, Repr

/-- How an object ends. -/
inductive ObjectEnd where
  /-- With its brace. -/
  | closed
  /-- With its brace after a comma. -/
  | trailingComma
  /-- The text ends after a member, or before the first. -/
  | eof
  /-- The text ends after a comma. -/
  | eofAfterComma
  /-- Something else follows a member. -/
  | junk
  /-- Something else stands where a key should be. -/
  | badKey
deriving DecidableEq, Repr

/-- What the text begins like at a place where it cannot be read. -/
inductive Opening where
  /-- It has ended. -/
  | nothing
  /-- Like a string. -/
  | string
  /-- Like `null`. -/
  | null
  /-- Like something else. -/
  | other
deriving DecidableEq, Repr

/-- **A document as far as it can be read.** Only the last item of an array
and the last member of an object can be broken. -/
inductive Tree where
  /-- The value `null`. -/
  | null
  /-- A truth value. -/
  | bool (value : Bool)
  /-- A number, or why it is none. -/
  | number (value : Except Fault Number)
  /-- A text, or why it is none. -/
  | string (value : Except Fault String)
  /-- The items of an array. -/
  | array (items : List Tree) (finish : ListEnd)
  /-- The members of an object. A key is a text or no text. -/
  | object (members : List (Except Fault String × Tree)) (finish : ObjectEnd)
  /-- Here the text cannot be read. `fault` is what stops a reader of values,
  and `passing` what stops one who passes over them. -/
  | broken (opening : Opening) (fault passing : Fault)

/-! ## Strings -/

/-- How many bytes symbols take up. -/
def byteCount : Symbols → Nat
  | [] => 0
  | none :: rest => 1 + byteCount rest
  | some c :: rest => c.utf8Size + byteCount rest

/-- The number that four hexadecimal digits write, and the rest. The text ends
too early if fewer than four bytes are left, whatever they are. -/
def readHex4 (s : Symbols) : Except Fault (Nat × Symbols) :=
  match s with
  | a :: b :: c :: d :: rest =>
    let digit (x : Option Char) : Option Nat :=
      x.bind fun c => if c.toNat < 128 then (Hex.digitValue? c.toNat.toUInt8).map UInt8.toNat else none
    match digit a, digit b, digit c, digit d with
    | some a, some b, some c, some d => .ok (4096 * a + 256 * b + 16 * c + d, rest)
    | _, _, _, _ => .error .invalidEscape
  | _ => if byteCount s < 4 then .error .eofString else .error .invalidEscape

/-- The characters of the escapes of one letter. -/
def escapedChar? : Char → Option Char
  | '"' => some '"'
  | '\\' => some '\\'
  | '/' => some '/'
  | 'b' => some '\x08'
  | 'f' => some '\x0c'
  | 'n' => some '\n'
  | 'r' => some '\r'
  | 't' => some '\t'
  | _ => none

/-- Reads the digits of an escape by code point. One beyond the first plane is
written as two surrogates. -/
def readCodePoint (s : Symbols) : Except Fault (Char × Symbols) := do
  let (first, s) ← readHex4 s
  if 0xDC00 ≤ first ∧ first ≤ 0xDFFF then throw .loneSurrogate
  else if first < 0xD800 ∨ 0xDBFF < first then return (Char.ofNat first, s)
  else
    match s with
    | [] => throw .eofString
    | [some '\\'] => throw .eofString
    | some '\\' :: some 'u' :: rest =>
      let (second, rest) ← readHex4 rest
      if second < 0xDC00 ∨ 0xDFFF < second then throw .loneSurrogate
      return (Char.ofNat (0x10000 + (first - 0xD800) * 0x400 + (second - 0xDC00)), rest)
    | _ => throw .unfinishedSurrogate

/-- Reads a string after its quotation mark. `read` holds its characters
backwards; `gap` says whether a byte was no character. `fuel` bounds the
number of symbols. -/
def readString (read : List Char) (gap : Bool) :
    (fuel : Nat) → Symbols → Except Fault (String × Symbols)
  | 0, _ => .error .eofString
  | _ + 1, [] => .error .eofString
  | fuel + 1, none :: rest => readString read true fuel rest
  | fuel + 1, some c :: rest =>
    if c = '"' then
      if gap then .error .invalidUnicode else .ok (String.ofList read.reverse, rest)
    else if c = '\\' then
      match rest with
      | some 'u' :: rest =>
        match readCodePoint rest with
        | .ok (c, rest) => readString (c :: read) gap fuel rest
        | .error fault => .error fault
      | some e :: rest =>
        match escapedChar? e with
        | some c => readString (c :: read) gap fuel rest
        | none => .error .invalidEscape
      | none :: _ => .error .invalidEscape
      | [] => .error .eofString
    else if c.toNat < 0x20 then .error .controlCharacter
    else readString (c :: read) gap fuel rest

/-- Finds the end of a string without asking what it means. -/
def skipString : (fuel : Nat) → Symbols → Except Fault Symbols
  | 0, _ => .error .eofString
  | _ + 1, [] => .error .eofString
  | fuel + 1, none :: rest => skipString fuel rest
  | fuel + 1, some c :: rest =>
    if c = '"' then .ok rest
    else if c = '\\' then
      match rest with
      | some 'u' :: rest =>
        match readHex4 rest with
        | .ok (_, rest) => skipString fuel rest
        | .error fault => .error fault
      | some e :: rest => if (escapedChar? e).isSome then skipString fuel rest else .error .invalidEscape
      | none :: _ => .error .invalidEscape
      | [] => .error .eofString
    else if c.toNat < 0x20 then .error .controlCharacter
    else skipString fuel rest

/-- Reads a string after its quotation mark, past its end even if it means
nothing. Without an end, the faults are the one of its meaning and the one of
its form. `fuel` bounds the number of symbols. -/
def readText (fuel : Nat) (s : Symbols) :
    Except (Fault × Fault) (Except Fault String × Symbols) :=
  match readString [] false fuel s with
  | .ok (text, rest) => .ok (.ok text, rest)
  | .error fault =>
    match skipString fuel s with
    | .ok rest => .ok (.error fault, rest)
    | .error passing => .error (fault, passing)

/-! ## Values -/

/-- The text after white space. -/
def skipSpace : Symbols → Symbols
  | some c :: rest =>
    if c = ' ' ∨ c = '\n' ∨ c = '\t' ∨ c = '\r' then skipSpace rest else some c :: rest
  | rest => rest

/-- Reads the letters of a name after the first. -/
def readIdent : List Char → Symbols → Except Fault Symbols
  | [], rest => .ok rest
  | _ :: _, [] => .error .eofValue
  | c :: name, s :: rest => if s = some c then readIdent name rest else .error .expectedIdent

/-- A value that was read, and the rest of the text; no rest if the reading
cannot go on. -/
abbrev Reading (α : Type) := α × Option Symbols

/-- A place whose form is at fault, so that it stops every reader alike. -/
def Tree.malformed (fault : Fault) : Tree := .broken .other fault fault

/-- A place where a value is expected and the text has ended. -/
def Tree.ended : Tree := .broken .nothing .eofValue .eofValue

/-- A value after whose last letters the reading goes on. -/
def afterIdent (value : Tree) (opening : Opening) (name : List Char) (s : Symbols) :
    Reading Tree :=
  match readIdent name s with
  | .ok rest => (value, some rest)
  | .error fault => (.broken opening fault fault, none)

/-- A number whose sign is read already. Digits that end too early are an
invalid number to whoever passes over it. -/
def afterSign (negative : Bool) (s : Symbols) : Reading Tree :=
  match readNumber negative s with
  | .ok (value, rest) => (.number value, some rest)
  | .error fault => (.broken .other fault .invalidNumber, none)

mutual

/-- **Reads a value.** `fuel` bounds the number of steps. No symbol takes more
than three, so four for each symbol are enough, also for the strings. -/
def readValue : (fuel : Nat) → Symbols → Reading Tree
  | 0, _ => (.ended, none)
  | fuel + 1, s =>
    match skipSpace s with
    | [] => (.ended, none)
    | none :: _ => (.malformed .expectedValue, none)
    | some c :: rest =>
      if c = 'n' then afterIdent .null .null ['u', 'l', 'l'] rest
      else if c = 't' then afterIdent (.bool true) .other ['r', 'u', 'e'] rest
      else if c = 'f' then afterIdent (.bool false) .other ['a', 'l', 's', 'e'] rest
      else if c = '-' then afterSign true rest
      else if isDecimalDigit c then afterSign false (some c :: rest)
      else if c = '"' then
        match readText fuel rest with
        | .ok (text, rest) => (.string text, some rest)
        | .error (fault, passing) => (.broken .string fault passing, none)
      else if c = '[' then
        match readItems fuel true rest with
        | ((items, finish), rest) => (.array items finish, rest)
      else if c = '\x7b' then
        match readMembers fuel true rest with
        | ((members, finish), rest) => (.object members finish, rest)
      else (.malformed .expectedValue, none)

/-- Reads the items of an array up to its end. -/
def readItems : (fuel : Nat) → (first : Bool) → Symbols → Reading (List Tree × ListEnd)
  | 0, _, _ => (([], .eof), none)
  | fuel + 1, first, s =>
    match skipSpace s with
    | [] => (([], .eof), none)
    | some ']' :: rest => (([], .closed), some rest)
    | c :: rest =>
      if first then readItem fuel (c :: rest)
      else if c = some ',' then
        match skipSpace rest with
        | [] => (([], .eofAfterComma), none)
        | some ']' :: _ => (([], .trailingComma), none)
        | rest => readItem fuel rest
      else (([], .junk), none)

/-- Reads an item of an array and those after it. -/
def readItem : (fuel : Nat) → Symbols → Reading (List Tree × ListEnd)
  | 0, _ => (([], .eof), none)
  | fuel + 1, s =>
    match readValue fuel s with
    | (item, none) => (([item], .eof), none)
    | (item, some rest) =>
      match readItems fuel false rest with
      | ((items, finish), rest) => ((item :: items, finish), rest)

/-- Reads the members of an object up to its end. -/
def readMembers : (fuel : Nat) → (first : Bool) → Symbols →
    Reading (List (Except Fault String × Tree) × ObjectEnd)
  | 0, _, _ => (([], .eof), none)
  | fuel + 1, first, s =>
    match skipSpace s with
    | [] => (([], .eof), none)
    | some '\x7d' :: rest => (([], .closed), some rest)
    | c :: rest =>
      if first then readMember fuel (c :: rest)
      else if c = some ',' then
        match skipSpace rest with
        | [] => (([], .eofAfterComma), none)
        | some '\x7d' :: _ => (([], .trailingComma), none)
        | rest => readMember fuel rest
      else (([], .junk), none)

/-- Reads a member of an object and those after it. -/
def readMember : (fuel : Nat) → Symbols →
    Reading (List (Except Fault String × Tree) × ObjectEnd)
  | 0, _ => (([], .eof), none)
  | fuel + 1, s =>
    match s with
    | some '"' :: rest =>
      match readText fuel rest with
      | .error (fault, passing) =>
        (([(.error fault, .broken .string fault passing)], .eof), none)
      | .ok (key, rest) =>
        match skipSpace rest with
        | [] => (([(key, .malformed .eofObject)], .eof), none)
        | some ':' :: rest =>
          match readValue fuel rest with
          | (value, none) => (([(key, value)], .eof), none)
          | (value, some rest) =>
            match readMembers fuel false rest with
            | ((members, finish), rest) => (((key, value) :: members, finish), rest)
        | _ => (([(key, .malformed .expectedColon)], .eof), none)
    | _ => (([], .badKey), none)

end

/-- **Reads a text**: the document, and what follows it except white space. The fuel is enough for
any text of that length. -/
def readDocument (s : Symbols) : Reading Tree :=
  match readValue (4 * s.length + 4) s with
  | (tree, rest) => (tree, rest.map skipSpace)

end Meshwork.Json
