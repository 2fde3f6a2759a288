import Meshwork.Number.Decimal
import Meshwork.Text.Hex

/-!
# Strings of a TOML document

A string stands between one or three marks of its kind. Between quotation
marks a backslash starts an escape; between apostrophes every character
stands for itself. Between three marks the text goes over several lines: a
line break right after the opening marks does not count, and up to two marks
right before the closing ones belong to the text.

`write` chooses the plainest form that can hold a text.
-/

namespace Meshwork.Toml

/-- The blanks within a line. -/
def isSpace (c : Char) : Bool := c = ' ' || c = '\t'

/-- The characters that stand for themselves: all but controls, of which a
tab is none here. -/
def isPrintable (c : Char) : Bool := c = '\t' || (0x20 ≤ c.toNat && c.toNat ≠ 0x7F)

/-- The text after a line break, if it starts with one. -/
def lineBreak? : List Char → Option (List Char)
  | '\n' :: rest => some rest
  | '\r' :: '\n' :: rest => some rest
  | _ => none

/-- The text after a line break that it may start with. -/
def skipLineBreak (s : List Char) : List Char := (lineBreak? s).getD s

/-! ## Reading

The kinds of strings share their escapes, and differ in where they end. -/

/-- The value of a hexadecimal digit. -/
def hexValue? (c : Char) : Option Nat :=
  if c.toNat < 128 then (Hex.digitValue? c.toNat.toUInt8).map UInt8.toNat else none

/-- Reads so many hexadecimal digits. -/
def readHex (value : Nat) : (count : Nat) → List Char → Option (Nat × List Char)
  | 0, s => some (value, s)
  | _ + 1, [] => none
  | count + 1, c :: rest => do
    let digit ← hexValue? c
    readHex (16 * value + digit) count rest

/-- Reads a character by the digits of its code point. -/
def readCodePoint (count : Nat) (s : List Char) : Option (Char × List Char) := do
  let (code, rest) ← readHex 0 count s
  if code < 0xD800 ∨ (0xDFFF < code ∧ code < 0x110000) then some (Char.ofNat code, rest)
  else none

/-- Reads an escape after its backslash. -/
def readEscape : List Char → Option (Char × List Char)
  | 'b' :: rest => some ('\x08', rest)
  | 't' :: rest => some ('\t', rest)
  | 'n' :: rest => some ('\n', rest)
  | 'f' :: rest => some ('\x0c', rest)
  | 'r' :: rest => some ('\r', rest)
  | '"' :: rest => some ('"', rest)
  | '\\' :: rest => some ('\\', rest)
  | 'u' :: rest => readCodePoint 4 rest
  | 'U' :: rest => readCodePoint 8 rest
  | _ => none

/-- **Reads a string on one line** after its opening mark. `read` holds its
characters backwards; `fuel` bounds their number. -/
def readLine (mark : Char) (read : List Char) :
    (fuel : Nat) → List Char → Option (String × List Char)
  | 0, _ | _, [] => none
  | fuel + 1, c :: rest =>
    if c = mark then some (String.ofList read.reverse, rest)
    else if c = '\\' ∧ mark = '"' then do
      let (c, rest) ← readEscape rest
      readLine mark (c :: read) fuel rest
    else if isPrintable c then readLine mark (c :: read) fuel rest
    else none

/-- The text after a backslash at the end of a line: blanks and line breaks do
not count up to the next other character. `broken` says whether a line break
was passed, without which there is no result. -/
def skipFold (broken : Bool) : (fuel : Nat) → List Char → Option (List Char)
  | 0, s => if broken then some s else none
  | fuel + 1, s =>
    match lineBreak? s with
    | some rest => skipFold true fuel rest
    | none =>
      match s with
      | c :: rest => if isSpace c then skipFold broken fuel rest else if broken then some s else none
      | [] => if broken then some [] else none

/-- **Reads a string over several lines** after its opening marks. A run of
marks shorter than three belongs to the text; a longer one ends it. -/
def readLines (mark : Char) (read : List Char) :
    (fuel : Nat) → List Char → Option (String × List Char)
  | 0, _ => none
  | fuel + 1, s =>
    match lineBreak? s with
    | some rest => readLines mark ('\n' :: read) fuel rest
    | none =>
      match s with
      | [] => none
      | c :: rest =>
        if c = mark then
          let run := (s.takeWhile (· = mark)).length
          let rest := s.dropWhile (· = mark)
          if run < 3 then readLines mark (List.replicate run mark ++ read) fuel rest
          else if run ≤ 5 then
            some (String.ofList (read.reverse ++ List.replicate (run - 3) mark), rest)
          else none
        else if c = '\\' ∧ mark = '"' then
          match skipFold false (rest.length + 1) rest with
          | some rest => readLines mark read fuel rest
          | none =>
            match readEscape rest with
            | some (c, rest) => readLines mark (c :: read) fuel rest
            | none => none
        else if isPrintable c then readLines mark (c :: read) fuel rest
        else none

/-- **Reads a string.** There are four kinds, by which mark begins it and whether it goes over
several lines. -/
def readString (s : List Char) : Option (String × List Char) :=
  match s with
  | '"' :: '"' :: '"' :: rest => readLines '"' [] (s.length + 1) (skipLineBreak rest)
  | '\'' :: '\'' :: '\'' :: rest => readLines '\'' [] (s.length + 1) (skipLineBreak rest)
  | '"' :: rest => readLine '"' [] (s.length + 1) rest
  | '\'' :: rest => readLine '\'' [] (s.length + 1) rest
  | _ => none

/-! ## Writing

Whether a text needs marks of one kind or another is decided by looking through it first. -/

/-- The length of the longest run of a character. -/
def longestRun (mark : Char) (s : List Char) : Nat :=
  (s.foldl (fun (longest, run) c =>
    if c = mark then (max longest (run + 1), run + 1) else (longest, 0)) (0, 0)).1

/-- Whether a character can be written only as an escape. -/
def needsEscape (c : Char) : Bool := !isPrintable c && c ≠ '\n'

/-- An escape of a character. -/
def escape (c : Char) : List Char :=
  if c = '\x08' then ['\\', 'b']
  else if c = '\t' then ['\\', 't']
  else if c = '\n' then ['\\', 'n']
  else if c = '\x0c' then ['\\', 'f']
  else if c = '\r' then ['\\', 'r']
  else if c = '"' then ['\\', '"']
  else if c = '\\' then ['\\', '\\']
  else ['\\', 'u', '0', '0', (Nat.digitChar (c.toNat / 16)).toUpper,
    (Nat.digitChar (c.toNat % 16)).toUpper]

/-- The characters between quotation marks. `allowed` is how many quotation
marks may stand in a row, and `run` how many of them do so far. -/
def escapeAll (lines : Bool) (allowed run : Nat) : List Char → List Char
  | [] => []
  | c :: rest =>
    if c = '"' then
      if run < allowed then c :: escapeAll lines allowed (run + 1) rest
      else escape c ++ escapeAll lines allowed 0 rest
    else if c = '\n' then
      (if lines then [c] else escape c) ++ escapeAll lines allowed 0 rest
    else if c = '\t' ∨ c = '\\' ∨ needsEscape c then escape c ++ escapeAll lines allowed 0 rest
    else c :: escapeAll lines allowed 0 rest

/-- A text between marks on one line. -/
def lineOf (mark : Char) (body : List Char) : List Char := mark :: body ++ [mark]

/-- A text between marks over several lines. A text with line breaks starts
on a line of its own. -/
def linesOf (mark : Char) (broken : Bool) (body : List Char) : List Char :=
  let marks := [mark, mark, mark]
  marks ++ (if broken then ['\n'] else []) ++ body ++ marks

/-- The characters of a string that stands for a text. -/
def stringChars (s : List Char) : List Char :=
  let escapes := s.any needsEscape
  let backslash := s.contains '\\'
  let broken := s.contains '\n'
  let quotes := longestRun '"' s
  let apostrophes := longestRun '\'' s
  if !escapes && !backslash && !broken && quotes = 0 then lineOf '"' (escapeAll false 0 0 s)
  else if !escapes && !broken && apostrophes = 0 then lineOf '\'' s
  else if !escapes && !backslash && quotes ≤ 2 then linesOf '"' broken (escapeAll true 2 0 s)
  else if !escapes && apostrophes ≤ 2 then linesOf '\'' broken s
  else if broken then linesOf '"' true (escapeAll true 2 0 s)
  else lineOf '"' (escapeAll false 0 0 s)

/-- **The string that stands for a text**, in the plainest form that can hold it. Only a text that
cannot stand as it is gets escapes. -/
def string (text : String) : String := String.ofList (stringChars text.toList)

end Meshwork.Toml
