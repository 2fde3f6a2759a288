import Meshwork.Keyed

/-!
# Values of a TOML document

A document is a table whose entries are values and further tables. Where a
table may be extended depends on how it came to be, so a table remembers its
`Origin`: one that a header names is closed to dotted keys, one that stands
between braces is closed to everything.

`Value.extend` is the one way into a nested table. It follows a path of keys,
makes the tables that are missing, and refuses those that are closed; an
array of tables stands for its last element.

Two tables never merge by accident: what may be extended is what headers and dotted keys
have made on their way, and nothing that was written down as a whole.
-/

namespace Meshwork.Toml

/-- **How a table came to be.** It decides what may still be added to the table later on. -/
inductive Origin where
  /-- A header names it; so it is for the document itself and for the
  elements of an array of tables. -/
  | header
  /-- It lies on the path of a header. -/
  | implied
  /-- It lies on the path of a dotted key. -/
  | dotted
  /-- It stands between braces. -/
  | inline
deriving DecidableEq, Repr

/-- **A value of a document.** Tables carry how they came to be, which matters while a document is
read. -/
inductive Value where
  /-- A text. -/
  | string (text : String)
  /-- A truth value. -/
  | bool (value : Bool)
  /-- A number, a date or a time. No setting takes one, so what it says is
  not kept. -/
  | quantity
  /-- The items of an array between brackets. -/
  | array (items : List Value)
  /-- A table. -/
  | table (origin : Origin) (entries : List (String × Value))
  /-- An array of tables, which headers extend at its end. -/
  | tables (earlier : List (List (String × Value))) (last : List (String × Value))
deriving Inhabited

/-- The entries of a table. -/
abbrev Entries := Keyed Value

/-- The place at which a table is entered: a header or a dotted key. -/
inductive Entrance where
  /-- A header passes through. -/
  | header
  /-- A dotted key passes through. -/
  | dottedKey
deriving DecidableEq, Repr

/-- The origin of the tables that are made on the way. -/
def Entrance.origin : Entrance → Origin
  | header => .implied
  | dottedKey => .dotted

/-- Whether a table may be entered. -/
def Entrance.admits : Entrance → Origin → Bool
  | _, .inline => false
  | dottedKey, .header => false
  | _, _ => true

/-- **Changes the table that a path of keys leads to**, starting in a table of
the given origin. There is no result if the path is closed or the change
is refused. -/
def extend (entrance : Entrance) (change : Origin → Entries → Option Entries) :
    (path : List String) → Origin → Entries → Option Entries
  | [], origin, entries => change origin entries
  | key :: path, _, entries =>
    match Keyed.find? key entries with
    | none => do
      let inner ← extend entrance change path entrance.origin []
      return Keyed.insert key (.table entrance.origin inner) entries
    | some (.table origin inner) =>
      if entrance.admits origin then do
        let inner ← extend entrance change path origin inner
        return Keyed.insert key (.table origin inner) entries
      else none
    | some (.tables earlier last) => do
      let last ← extend entrance change path .header last
      return Keyed.insert key (.tables earlier last) entries
    | some _ => none

/-- Puts a value under a key. A table on the path of a dotted key takes
values of dotted keys only, and all others take only values of plain ones;
no key is given twice. -/
def place (keyIsDotted : Bool) (key : String) (value : Value) (origin : Origin)
    (entries : Entries) : Option Entries :=
  if decide (origin = .dotted) = keyIsDotted ∧ Keyed.contains key entries = false then
    some (Keyed.insert key value entries)
  else none

/-- **Puts a value under a key that may be dotted.** A key that is there already is an error, and
so is a way through something that is no table. -/
def assign (keys : List String) (key : String) (value : Value) (origin : Origin)
    (entries : Entries) : Option Entries :=
  extend .dottedKey (place (!keys.isEmpty) key value) keys origin entries

/-- Opens a table under the last key of its header. A table that was on the
path of an earlier header is opened with what it holds. -/
def openTable (key : String) (_ : Origin) (entries : Entries) : Option Entries :=
  match Keyed.find? key entries with
  | none => some (Keyed.insert key (.table .header []) entries)
  | some (.table .implied inner) => some (Keyed.insert key (.table .header inner) entries)
  | some _ => none

/-- Opens a further element of an array of tables. -/
def openElement (key : String) (_ : Origin) (entries : Entries) : Option Entries :=
  match Keyed.find? key entries with
  | none => some (Keyed.insert key (.tables [] []) entries)
  | some (.tables earlier last) =>
    some (Keyed.insert key (.tables (earlier ++ [last]) []) entries)
  | some _ => none

end Meshwork.Toml
