import Meshwork.Number.Layout
import Meshwork.Text.Quoted

/-!
# JSON values and their text

Containers, pipeline files and reports are JSON. A `Json.Value` is a document
that is complete: its objects keep their members in order, and its numbers
are natural numbers, negative integers or floats, which the text tells
apart. `Value.compact` writes it without white space, which is the form
that checksums cover, and `Value.pretty` over indented lines.
-/

namespace Meshwork.Json

/-- **A number of a document.** An integer stays one, so that large ones do not lose digits. -/
inductive Number where
  /-- An integer that is not negative. -/
  | natural (value : Nat)
  /-- The negative integer `-value`. -/
  | negative (value : Nat)
  /-- A number with a fraction or an exponent, or an integer that is too long
  to be kept as one. -/
  | float (value : Double)
deriving DecidableEq, Repr

/-- **A JSON value.** Members keep the order in which they were written. -/
inductive Value where
  /-- The value `null`. -/
  | null
  /-- A truth value. -/
  | bool (value : Bool)
  /-- A number. -/
  | number (value : Number)
  /-- A text. -/
  | string (value : String)
  /-- A list of values. -/
  | array (items : List Value)
  /-- Members in order, each with its key. -/
  | object (members : List (String × Value))
deriving Inhabited

/-- A natural number as a value. -/
def Value.nat (n : Nat) : Value := .number (.natural n)

/-- A text, or `null`. -/
def Value.option : Option String → Value
  | none => .null
  | some text => .string text

/-- The text of a number. A float that is no number is written `null`. -/
def Number.text : Number → String
  | natural value => toString value
  | negative value => "-" ++ toString value
  | float value => value.write .json

/-! ## Writing

Both forms are written by recursion over the value, and differ in what stands between
items. Within strings only what must be escaped is. -/

/-- A character within a string of the text. -/
def escapeStringChar (c : Char) : List Char :=
  if c = '"' then ['\\', '"']
  else if c = '\\' then ['\\', '\\']
  else if c = '\x08' then ['\\', 'b']
  else if c = '\x0c' then ['\\', 'f']
  else if c = '\n' then ['\\', 'n']
  else if c = '\r' then ['\\', 'r']
  else if c = '\t' then ['\\', 't']
  else if c.toNat < 0x10 then ['\\', 'u', '0', '0', '0'] ++ hexDigits c.toNat
  else if c.toNat < 0x20 then ['\\', 'u', '0', '0'] ++ hexDigits c.toNat
  else [c]

/-- A string of the text. -/
def stringChars (text : String) : List Char :=
  '"' :: text.toList.flatMap escapeStringChar ++ ['"']

namespace Value

mutual

/-- The value without white space. -/
def compactChars : Value → List Char
  | null => "null".toList
  | bool true => "true".toList
  | bool false => "false".toList
  | number value => value.text.toList
  | string value => stringChars value
  | array items => '[' :: compactItems items ++ [']']
  | object members => '\x7b' :: compactMembers members ++ ['\x7d']

/-- The items of an array, with commas between them. -/
def compactItems : List Value → List Char
  | [] => []
  | [value] => compactChars value
  | value :: rest => compactChars value ++ ',' :: compactItems rest

/-- The members of an object, with commas between them. -/
def compactMembers : List (String × Value) → List Char
  | [] => []
  | [(key, value)] => stringChars key ++ ':' :: compactChars value
  | (key, value) :: rest =>
    stringChars key ++ ':' :: compactChars value ++ ',' :: compactMembers rest

end

/-- **The value without white space.** Checksums are taken of this text. -/
def compact (value : Value) : String := String.ofList value.compactChars

/-- A new line at the given depth. -/
def newLine (depth : Nat) : List Char := '\n' :: List.replicate (2 * depth) ' '

mutual

/-- The value over indented lines. -/
def prettyChars (depth : Nat) : Value → List Char
  | array [] => ['[', ']']
  | array (value :: rest) =>
    '[' :: prettyItems (depth + 1) (value :: rest) ++ newLine depth ++ [']']
  | object [] => ['\x7b', '\x7d']
  | object (member :: rest) =>
    '\x7b' :: prettyMembers (depth + 1) (member :: rest) ++ newLine depth ++ ['\x7d']
  | null => "null".toList
  | bool true => "true".toList
  | bool false => "false".toList
  | number value => value.text.toList
  | string value => stringChars value

/-- The items of an array, each on a line of its own. -/
def prettyItems (depth : Nat) : List Value → List Char
  | [] => []
  | [value] => newLine depth ++ prettyChars depth value
  | value :: rest => newLine depth ++ prettyChars depth value ++ ',' :: prettyItems depth rest

/-- The members of an object, each on a line of its own. -/
def prettyMembers (depth : Nat) : List (String × Value) → List Char
  | [] => []
  | [(key, value)] =>
    newLine depth ++ stringChars key ++ ':' :: ' ' :: prettyChars depth value
  | (key, value) :: rest =>
    newLine depth ++ stringChars key ++ ':' :: ' ' :: prettyChars depth value
      ++ ',' :: prettyMembers depth rest

end

/-- **The value over indented lines.** Files are written like this, two spaces for each level. -/
def pretty (value : Value) : String := String.ofList (value.prettyChars 0)

end Value

end Meshwork.Json
