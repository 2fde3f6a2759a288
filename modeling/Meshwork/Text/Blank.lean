/-!
# White space and lines

White space is the Unicode property `White_Space`. Mesh files are read as
lines of tokens: a line ends at a line feed, a carriage return before it
belongs to the end, and tokens are what white space separates.
-/

namespace Meshwork

/-- Whether a character has the property `White_Space`. -/
def isBlank (c : Char) : Bool :=
  let n := c.toNat
  (9 ≤ n && n ≤ 13) || n == 0x20 || n == 0x85 || n == 0xA0 || n == 0x1680
    || (0x2000 ≤ n && n ≤ 0x200A) || n == 0x2028 || n == 0x2029 || n == 0x202F
    || n == 0x205F || n == 0x3000

/-- Collects tokens: `token` holds the current one backwards, `found` those
before it, the last one first. -/
def tokensFrom (token : List Char) (found : List (List Char)) : List Char → List (List Char)
  | [] => (if token.isEmpty then found else token.reverse :: found).reverse
  | c :: rest =>
    if isBlank c then
      tokensFrom [] (if token.isEmpty then found else token.reverse :: found) rest
    else tokensFrom (c :: token) found rest

/-- **The tokens of a text**: its longest stretches without white space. So a text of white space
alone has none. -/
def tokens (text : List Char) : List (List Char) := tokensFrom [] [] text

/-- A line without the carriage return that its end may have. The line comes
backwards. -/
def endLine : List Char → List Char
  | '\r' :: line => line.reverse
  | line => line.reverse

/-- Collects lines: `line` holds the current one backwards, `found` those
before it, the last one first. -/
def linesFrom (line : List Char) (found : List (List Char)) : List Char → List (List Char)
  | [] => (if line.isEmpty then found else line.reverse :: found).reverse
  | c :: rest =>
    if c = '\n' then linesFrom [] (endLine line :: found) rest
    else linesFrom (c :: line) found rest

/-- **The lines of a text**, without their ends. A text that ends with a line
feed has no empty line after it. -/
def textLines (text : List Char) : List (List Char) := linesFrom [] [] text

end Meshwork
