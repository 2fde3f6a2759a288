import Meshwork.Text.Combining
import Meshwork.Text.Invisible

/-!
# Quoted text

In canonical renderings a text stands between double quotation marks, and
a single character between single ones. What would end the text, what
starts an escape, and what could not be seen is written as an escape. A
printable ASCII character other than those is written as itself, so the
tables are asked only about the others.

What needs an escape depends on the character alone, with one exception: the other
quotation mark stands for itself.
-/

namespace Meshwork

/-- The lowercase hexadecimal digits of a number. -/
def hexDigits (n : Nat) : List Char := Nat.toDigits 16 n

/-- **A character within quotation marks** `quote`. Characters that show nothing of their own are
given by number, so that a reader sees them. -/
def escapeChar (quote : Char) (c : Char) : List Char :=
  if c = '\x00' then ['\\', '0']
  else if c = '\t' then ['\\', 't']
  else if c = '\r' then ['\\', 'r']
  else if c = '\n' then ['\\', 'n']
  else if c = quote ∨ c = '\\' then ['\\', c]
  else if 0x20 ≤ c.toNat ∧ c.toNat < 0x7F then [c]
  else if isCombining c || isInvisible c then
    ['\\', 'u', '{'] ++ hexDigits c.toNat ++ ['}']
  else [c]

/-- **A text between double quotation marks.** A mark within the text is escaped, so the text can
be found again. -/
def quoted (text : String) : String :=
  String.ofList ('"' :: text.toList.flatMap (escapeChar '"') ++ ['"'])

/-- A character between single quotation marks. -/
def quotedChar (c : Char) : String :=
  String.ofList ('\'' :: escapeChar '\'' c ++ ['\''])

/-- An optional text: `None`, or `Some` with the quoted text. -/
def quotedOption : Option String → String
  | none => "None"
  | some text => "Some(" ++ quoted text ++ ")"

/-- Items between brackets, a comma and a blank between them. -/
def bracketed (items : List String) : String := "[" ++ ", ".intercalate items ++ "]"

end Meshwork
