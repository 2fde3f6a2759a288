/-!
# Data paths

A data path says where an object lies in a store: the names from a
top-level object down, in text joined by `/`. A name is not empty and holds
no `/`, so the text determines the names (`DataPath.parse` reads back what
`DataPath.text` writes); the type carries both conditions, and no
operation below has to check them again.
-/

namespace Meshwork

/-- The character between the names of a path. -/
def separator : Char := '/'

/-- **What a name must satisfy**: it is not empty and holds no separator. Any other character is
allowed, white space and control characters included. -/
def ValidName (name : String) : Prop := name ≠ "" ∧ separator ∉ name.toList

instance (name : String) : Decidable (ValidName name) :=
  inferInstanceAs (Decidable (_ ∧ _))

/-- **A data path**: one or more names, from the top down. The conditions on names are kept as
proofs in the path, so they never have to be checked again. -/
structure DataPath where
  /-- The names, the topmost first. -/
  segments : List String
  /-- There is at least one name. -/
  nonempty : segments ≠ []
  /-- Every name is valid. -/
  valid : ∀ name ∈ segments, ValidName name
deriving DecidableEq

/-- **Why names or a text are no path.** The position counts names from the top, beginning with
zero. -/
inductive PathError where
  /-- There is no name. -/
  | empty
  /-- The name at `index` is empty. -/
  | emptySegment (index : Nat)
  /-- A name holds a separator. -/
  | invalidSegment (name : String)
deriving DecidableEq, Repr

/-- The text of an error. -/
def PathError.message : PathError → String
  | .empty => "data path cannot be empty"
  | .emptySegment index => s!"data path segment {index} is empty"
  | .invalidSegment name => s!"data path segment '{name}' cannot contain '/'"

/-! ## Checking names

Names come one by one or in a text. In a text, a separator ends a name, so the only thing
that can be wrong is an empty one. -/

/-- What is wrong with a name that stands at `index`. -/
def nameFault? (index : Nat) (name : String) : Option PathError :=
  if name = "" then some (.emptySegment index)
  else if separator ∈ name.toList then some (.invalidSegment name)
  else none

/-- What is wrong with the first invalid name, the names counting from
`index`. -/
def firstFault? (index : Nat) : List String → Option PathError
  | [] => none
  | name :: rest => (nameFault? index name).or (firstFault? (index + 1) rest)

theorem nameFault?_eq_none_iff {index : Nat} {name : String} :
    nameFault? index name = none ↔ ValidName name := by
  unfold nameFault? ValidName
  split <;> rename_i h
  · simp [h]
  · split <;> rename_i h' <;> simp [h, h']

theorem firstFault?_eq_none_iff {index : Nat} {names : List String} :
    firstFault? index names = none ↔ ∀ name ∈ names, ValidName name := by
  induction names generalizing index with
  | nil => simp [firstFault?]
  | cons name rest ih => simp [firstFault?, Option.or_eq_none_iff, nameFault?_eq_none_iff, ih]

/-- The pieces of a text between separators; one more than there are
separators. -/
def splitSegments : List Char → List (List Char)
  | [] => [[]]
  | c :: rest =>
    if c = separator then [] :: splitSegments rest
    else match splitSegments rest with
      | [] => [[c]]
      | piece :: pieces => (c :: piece) :: pieces

/-- The pieces with separators between them. -/
def joinSegments : List (List Char) → List Char
  | [] => []
  | [piece] => piece
  | piece :: pieces => piece ++ separator :: joinSegments pieces

namespace DataPath

/-- **A path from its names**, or what is wrong with the first that is invalid. Names that come
from a text hold no separator, so for them only empty ones can be wrong. -/
def ofSegments (names : List String) : Except PathError DataPath :=
  if nonempty : names = [] then .error .empty
  else match fault : firstFault? 0 names with
    | some error => .error error
    | none => .ok ⟨names, nonempty, firstFault?_eq_none_iff.1 fault⟩

/-- A text without the one separator that it may start with. -/
def dropLeading : List Char → List Char
  | [] => []
  | c :: rest => if c = separator then rest else c :: rest

/-- **Reads the text of a path.** One leading separator is allowed. After it, every separator
stands between two names. -/
def parse (text : String) : Except PathError DataPath :=
  match dropLeading text.toList with
  | [] => .error .empty
  | chars => ofSegments ((splitSegments chars).map String.ofList)

/-- **The text of a path.** It has no separator in front. -/
def text (p : DataPath) : String :=
  String.ofList (joinSegments (p.segments.map String.toList))

/-- The number of names. -/
def depth (p : DataPath) : Nat := p.segments.length

/-- The last name. -/
def name (p : DataPath) : String := p.segments.getLast p.nonempty

/-- The first `n + 1` names. -/
def initial (p : DataPath) (n : Nat) : DataPath where
  segments := p.segments.take (n + 1)
  nonempty := by simpa using p.nonempty
  valid name h := p.valid name (List.mem_of_mem_take h)

/-- The names but the last; none for a top-level path. -/
def parent? (p : DataPath) : Option DataPath :=
  if p.depth ≤ 1 then none else some (p.initial (p.depth - 2))

/-- The path itself and those above it, the topmost first. -/
def prefixes (p : DataPath) : List DataPath :=
  (List.range p.depth).map p.initial

/-- The paths above, the topmost first. -/
def ancestors (p : DataPath) : List DataPath :=
  (List.range (p.depth - 1)).map p.initial

/-- The path of one valid name. -/
def single (name : String) (h : ValidName name) : DataPath where
  segments := [name]
  nonempty := by simp
  valid n hn := by simpa [List.mem_singleton.1 hn] using h

/-- The path with a valid name below it. -/
def push (p : DataPath) (name : String) (h : ValidName name) : DataPath where
  segments := p.segments ++ [name]
  nonempty := by simp
  valid n hn := by
    rcases List.mem_append.1 hn with hn | hn
    · exact p.valid n hn
    · simpa [List.mem_singleton.1 hn] using h

/-- **The path with a name below it**, if the name is valid. The error gives the position that the
name would have had in the path. -/
def join (p : DataPath) (name : String) : Except PathError DataPath :=
  match fault : nameFault? p.depth name with
  | some error => .error error
  | none => .ok (p.push name (nameFault?_eq_none_iff.1 fault))

/-- Whether the path is `top` or lies beneath it. -/
def startsWith (p top : DataPath) : Bool := top.segments.isPrefixOf p.segments

/-- Whether the path lies strictly beneath `top`. -/
def isDescendantOf (p top : DataPath) : Bool :=
  top.depth < p.depth && p.startsWith top

/-- The order of two lists of names: by the first that differ, and a list
before its continuations. -/
def compareNames : List String → List String → Ordering
  | [], [] => .eq
  | [], _ :: _ => .lt
  | _ :: _, [] => .gt
  | a :: as, b :: bs => (compare a b).then (compareNames as bs)

/-- **The order of paths**, name by name. Names compare by code points, which
is the order of their UTF-8 bytes. -/
instance : Ord DataPath := ⟨fun p q => compareNames p.segments q.segments⟩

end DataPath

end Meshwork
