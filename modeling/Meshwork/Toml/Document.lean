import Meshwork.Toml.Quantity
import Meshwork.Toml.Text

/-!
# Reading a TOML document

A document is a list of lines: headers of tables, keys with their values, and
comments. It is read line by line into the table it stands for; a document
that breaks a rule anywhere stands for nothing.

Arrays may go over several lines and hold comments, tables between braces may
not. Both nest below a limit (`nestingLimit`), and so do the parts of a dotted
key.
-/

namespace Meshwork.Toml

/-- Arrays, tables between braces and parts of keys nest less deep than
this. -/
def nestingLimit : Nat := 80

/-! ## Blanks and comments -/

/-- The text after the blanks it starts with. -/
def skipSpaces (s : List Char) : List Char := s.dropWhile isSpace

/-- The text after a comment that it may start with. -/
def skipComment : List Char → List Char
  | '#' :: rest => rest.dropWhile isPrintable
  | s => s

/-- The text after blanks, line breaks and comments. `fuel` bounds their
number. -/
def skipLayout : (fuel : Nat) → List Char → List Char
  | 0, s => s
  | fuel + 1, s =>
    match lineBreak? s with
    | some rest => skipLayout fuel rest
    | none =>
      match s with
      | c :: rest =>
        if isSpace c then skipLayout fuel rest
        else if c = '#' then skipLayout fuel (skipComment s)
        else s
      | [] => []

/-- Reads the end of a line: blanks and a comment, and then a line break or
the end of the text. -/
def readLineEnd (s : List Char) : Option (List Char) :=
  match skipComment (skipSpaces s) with
  | [] => some []
  | s => lineBreak? s

/-! ## Keys

A key is a path of names, each plain or between marks. The last name is where the value
goes. -/

/-- The characters of a key without marks. -/
def isKeyChar (c : Char) : Bool :=
  isDecimalDigit c || ('a' ≤ c && c ≤ 'z') || ('A' ≤ c && c ≤ 'Z') || c = '_' || c = '-'

/-- Reads one part of a key. -/
def readSimpleKey (s : List Char) : Option (String × List Char) :=
  match s with
  | '"' :: rest => readLine '"' [] (s.length + 1) rest
  | '\'' :: rest => readLine '\'' [] (s.length + 1) rest
  | s =>
    match s.takeWhile isKeyChar with
    | [] => none
    | name => some (String.ofList name, s.dropWhile isKeyChar)

/-- Reads at most so many parts of a key, with points between them. -/
def readKeyParts : (most : Nat) → List Char → Option (List String × List Char)
  | 0, _ => none
  | most + 1, s => do
    let (part, s) ← readSimpleKey (skipSpaces s)
    match skipSpaces s with
    | '.' :: rest => do
      let (parts, rest) ← readKeyParts most rest
      return (part :: parts, rest)
    | rest => return ([part], rest)

/-- A key: the path to its table, and its last part. -/
structure Key where
  /-- The parts before the last one. -/
  path : List String
  /-- The last part. -/
  last : String

/-- **Reads a key** and the blanks around it. The last part is the name, and those before it the
tables on the way. -/
def readKey (s : List Char) : Option (Key × List Char) := do
  let (parts, rest) ← readKeyParts (nestingLimit - 1) s
  let last ← parts.getLast?
  return (⟨parts.dropLast, last⟩, rest)

/-! ## Values -/

/-- Reads a name. -/
def readName (name : List Char) (s : List Char) : Option (List Char) :=
  if name.isPrefixOf s then some (s.drop name.length) else none

mutual

/-- **Reads a value** that stands within so many arrays and tables between braces. `fuel` bounds
the number of steps. There is a limit to how deep they may be. -/
def readValue : (fuel depth : Nat) → List Char → Option (Value × List Char)
  | 0, _, _ => none
  | fuel + 1, depth, s =>
    match s with
    | '"' :: _ | '\'' :: _ => (readString s).map fun (text, rest) => (.string text, rest)
    | '[' :: rest =>
      if depth + 1 < nestingLimit then do
        let (items, rest) ← readItems fuel (depth + 1) rest
        return (.array items, rest)
      else none
    | '\x7b' :: rest =>
      if depth + 1 < nestingLimit then do
        let entries ←
          match skipSpaces rest with
          | '\x7d' :: rest => some ([], rest)
          | rest => readMembers fuel (depth + 1) [] rest
        return (.table .inline entries.1, entries.2)
      else none
    | 't' :: _ => (readName ['t', 'r', 'u', 'e'] s).map (.bool true, ·)
    | 'f' :: _ => (readName ['f', 'a', 'l', 's', 'e'] s).map (.bool false, ·)
    | s => readQuantity s

/-- Reads the items of an array after its bracket or after a comma. -/
def readItems : (fuel depth : Nat) → List Char → Option (List Value × List Char)
  | 0, _, _ => none
  | fuel + 1, depth, s =>
    match skipLayout (s.length + 1) s with
    | ']' :: rest => some ([], rest)
    | s => do
      let (item, s) ← readValue fuel depth s
      match skipLayout (s.length + 1) s with
      | ',' :: rest => do
        let (items, rest) ← readItems fuel depth rest
        return (item :: items, rest)
      | ']' :: rest => return ([item], rest)
      | _ => none

/-- Reads the members of a table between braces into the given entries. -/
def readMembers : (fuel depth : Nat) → Entries → List Char → Option (Entries × List Char)
  | 0, _, _, _ => none
  | fuel + 1, depth, entries, s => do
    let (key, s) ← readKey s
    let s ← readMark '=' s
    let (value, s) ← readValue fuel depth (skipSpaces s)
    let entries ← assign key.path key.last value .inline entries
    match skipSpaces s with
    | ',' :: rest => readMembers fuel depth entries rest
    | '\x7d' :: rest => return (entries, rest)
    | _ => none

end

/-! ## Lines

A line is a header or a key with its value. A header changes which table the lines after
it belong to. -/

/-- **A document that is being read.** A header changes where the keys after it go. -/
structure Draft where
  /-- The entries so far. -/
  root : Entries
  /-- The path of the last header; keys go into the table there. -/
  current : List String

/-- Opens the table or the further element that a header names. -/
def Draft.header (d : Draft) (opening : String → Origin → Entries → Option Entries) (key : Key) :
    Option Draft := do
  let root ← extend .header (opening key.last) key.path .header d.root
  return ⟨root, key.path ++ [key.last]⟩

/-- Puts a value into the current table. -/
def Draft.put (d : Draft) (key : Key) (value : Value) : Option Draft := do
  let root ← extend .header (assign key.path key.last value) d.current .header d.root
  return ⟨root, d.current⟩

/-- Reads a line with a key and a value. -/
def readPair (d : Draft) (s : List Char) : Option (Draft × List Char) := do
  let (key, s) ← readKey s
  let s ← readMark '=' s
  let s := skipSpaces s
  let (value, s) ← readValue (2 * s.length + 2) 0 s
  let s ← readLineEnd s
  return (← d.put key value, s)

/-- **Reads the lines of a document.** `fuel` bounds their number. Each of them is blank, a
comment, a header or a key with its value. -/
def readDraft : (fuel : Nat) → Draft → List Char → Option Draft
  | 0, _, _ => none
  | fuel + 1, d, s =>
    match skipSpaces s with
    | [] => some d
    | '#' :: rest => do
      readDraft fuel d (← readLineEnd ('#' :: rest))
    | '\n' :: rest => readDraft fuel d rest
    | '\r' :: '\n' :: rest => readDraft fuel d rest
    | '[' :: '[' :: rest => do
      let (key, s) ← readKey rest
      let s ← readMark ']' s
      let s ← readMark ']' s
      let s ← readLineEnd s
      readDraft fuel (← d.header openElement key) s
    | '[' :: rest => do
      let (key, s) ← readKey rest
      let s ← readMark ']' s
      let s ← readLineEnd s
      readDraft fuel (← d.header openTable key) s
    | s => do
      let (d, s) ← readPair d s
      readDraft fuel d s

/-- **Reads a document**: the entries of its table. A byte order mark at the
start does not count. -/
def read (text : String) : Option Entries :=
  let s := match text.toList with
    | '\uFEFF' :: rest => rest
    | s => s
  (readDraft (s.length + 1) ⟨[], []⟩ s).map Draft.root

end Meshwork.Toml
