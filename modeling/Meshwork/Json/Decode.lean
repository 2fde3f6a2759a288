import Meshwork.Json.Tree

/-!
# Taking values from a document

Formats in JSON say what they expect at each place: a text, a word, a list,
or a record with named fields. The functions here take such values from a
`Tree` or from a complete `Value`, and name what they found if it is
something else.

A record is given as an object or as the array of its fields in order. The
members of an object are visited in the order of the text, so that an
unknown field, a repeated field and a bad value are reported at the first
place where one occurs; a missing field is noticed at the end.
-/

namespace Meshwork.Json

/-- **Why a document is not what was expected.** The texts are those that a reader of typed
documents gives, down to the names of the types. -/
inductive Error where
  /-- The text is no document. -/
  | fault (fault : Fault)
  /-- A value of another type. -/
  | invalidType (found expected : String)
  /-- A value of the right type that is not allowed. -/
  | invalidValue (found expected : String)
  /-- An array with too few items. -/
  | invalidLength (found : Nat) (expected : String)
  /-- A name that is none of the alternatives. -/
  | unknownVariant (found : String) (names : List String)
  /-- A key that is none of the fields. -/
  | unknownField (found : String) (names : List String)
  /-- A field without a value. -/
  | missingField (name : String)
  /-- A field with two values. -/
  | duplicateField (name : String)
  /-- The format itself objects. -/
  | custom (message : String)
deriving DecidableEq

/-- The alternatives as they are listed in messages. -/
def oneOf : List String → String
  | [] => "there are no variants"
  | [a] => s!"expected `{a}`"
  | [a, b] => s!"expected `{a}` or `{b}`"
  | names => "expected one of " ++ ", ".intercalate (names.map fun n => s!"`{n}`")

/-- The text of an error. -/
def Error.message : Error → String
  | fault f => f.message
  | invalidType found expected => s!"invalid type: {found}, expected {expected}"
  | invalidValue found expected => s!"invalid value: {found}, expected {expected}"
  | invalidLength found expected => s!"invalid length {found}, expected {expected}"
  | unknownVariant found names => s!"unknown variant `{found}`, {oneOf names}"
  | unknownField found names => s!"unknown field `{found}`, {oneOf names}"
  | missingField name => s!"missing field `{name}`"
  | duplicateField name => s!"duplicate field `{name}`"
  | custom message => message

/-- What a number is called in messages. -/
def Number.found : Number → String
  | natural value => s!"integer `{value}`"
  | negative value => s!"integer `-{value}`"
  | float value => s!"floating point `{value.write .json}`"

/-- What a text is called in messages. -/
def textFound (text : String) : String := "string " ++ quoted text

/-- What a truth value is called in messages. -/
def boolFound (value : Bool) : String := s!"boolean `{value}`"

/-- The error of a value of another type. -/
def Value.unexpected (expected : String) : Value → Error
  | null => .invalidType "null" expected
  | bool value => .invalidType (boolFound value) expected
  | number value => .invalidType value.found expected
  | string value => .invalidType (textFound value) expected
  | array _ => .invalidType "sequence" expected
  | object _ => .invalidType "map" expected

/-- The error of a value of another type, or of a place that cannot be
read. -/
def Tree.unexpected (expected : String) : Tree → Error
  | null => .invalidType "null" expected
  | bool value => .invalidType (boolFound value) expected
  | number (.ok value) => .invalidType value.found expected
  | number (.error f) => .fault f
  | string (.ok value) => .invalidType (textFound value) expected
  | string (.error f) => .fault f
  | array _ _ => .invalidType "sequence" expected
  | object _ _ => .invalidType "map" expected
  | broken _ f _ => .fault f

/-- A natural number below `limit` from a number. -/
def Number.toNat (expected : String) (limit : Nat) : Number → Except Error Nat
  | natural value =>
    if value < limit then .ok value
    else .error (.invalidValue (natural value).found expected)
  | negative value => .error (.invalidValue (negative value).found expected)
  | float value => .error (.invalidType (float value).found expected)

/-! ## Passing over values

A value that nobody asks for must still be well formed, but it need not mean anything. -/

mutual

/-- **Passes over a value** that nobody asks for. Only its form counts. -/
def Tree.skip : Tree → Except Error Unit
  | .broken _ _ f => .error (.fault f)
  | .array items finish => do
    skipItems items
    match finish with
    | .closed => return ()
    | .trailingComma => throw (.fault .expectedValue)
    | .eof => throw (.fault .eofList)
    | .eofAfterComma => throw (.fault .eofValue)
    | .junk => throw (.fault .expectedListEnd)
  | .object members finish => do
    skipMembers members
    match finish with
    | .closed => return ()
    | .trailingComma | .badKey => throw (.fault .keyNotString)
    | .eof | .eofAfterComma => throw (.fault .eofObject)
    | .junk => throw (.fault .expectedObjectEnd)
  | _ => .ok ()

/-- Passes over items. -/
def skipItems : List Tree → Except Error Unit
  | [] => .ok ()
  | item :: rest => do
    Tree.skip item
    skipItems rest

/-- Passes over members. -/
def skipMembers : List (Except Fault String × Tree) → Except Error Unit
  | [] => .ok ()
  | (_, value) :: rest => do
    Tree.skip value
    skipMembers rest

end

/-! ## Items and members

Arrays are visited with a cursor, from which items are taken one at a time. Objects are
visited with a function that is given each member and what was made of those before. -/

/-- The items of an array that are still to be visited. -/
structure Cursor where
  /-- The items. -/
  items : List Tree
  /-- How the array ends. -/
  finish : ListEnd

namespace Cursor

/-- The next item, if there is one, and the items after it. -/
def next (c : Cursor) : Except Error (Option (Tree × Cursor)) :=
  match c.items with
  | item :: rest => .ok (some (item, ⟨rest, c.finish⟩))
  | [] =>
    match c.finish with
    | .closed => .ok none
    | .trailingComma => .error (.fault .trailingComma)
    | .eof => .error (.fault .eofList)
    | .eofAfterComma => .error (.fault .eofValue)
    | .junk => .error (.fault .expectedListEnd)

/-- Ends the visit of an array: no item may be left. -/
def close (c : Cursor) : Except Error Unit :=
  match c.items, c.finish with
  | [], .closed => .ok ()
  | [], .trailingComma => .error (.fault .trailingComma)
  | [], .eof => .error (.fault .eofList)
  | _, _ => .error (.fault .trailingCharacters)

end Cursor

/-- Takes every item of an array in order. -/
def takeItems {α : Type} (take : Tree → Except Error α) (finish : ListEnd) :
    List Tree → Except Error (List α)
  | [] => do
    match ← Cursor.next ⟨[], finish⟩ with
    | none => return []
    | some _ => return []
  | item :: rest => do
    let value ← take item
    let values ← takeItems take finish rest
    return value :: values

/-- The items of a list. -/
def Tree.list {α : Type} (take : Tree → Except Error α) : Tree → Except Error (List α)
  | .array items finish => takeItems take finish items
  | tree => .error (tree.unexpected "a sequence")

/-- **Visits the members of an object** in order. A fault in the object is met when its place is
reached, after the members before it. -/
def foldMembers {σ : Type} (visit : σ → String → Tree → Except Error σ) (finish : ObjectEnd) :
    σ → List (Except Fault String × Tree) → Except Error σ
  | state, [] =>
    match finish with
    | .closed => .ok state
    | .trailingComma => .error (.fault .trailingComma)
    | .eof => .error (.fault .eofObject)
    | .eofAfterComma => .error (.fault .eofValue)
    | .junk => .error (.fault .expectedObjectEnd)
    | .badKey => .error (.fault .keyNotString)
  | _, (.error f, _) :: _ => .error (.fault f)
  | state, (.ok key, value) :: rest => do
    let state ← visit state key value
    foldMembers visit finish state rest

/-! ## Plain values

Each of these asks for one kind of value. A value of another kind is an error that names
both. -/

/-- A text. -/
def Tree.text : Tree → Except Error String
  | .string (.ok value) => .ok value
  | tree => .error (tree.unexpected "a string")

/-- A truth value. -/
def Tree.bool? : Tree → Except Error Bool
  | .bool value => .ok value
  | tree => .error (tree.unexpected "a boolean")

/-- A natural number below `limit`; `expected` names the type. -/
def Tree.nat (expected : String) (limit : Nat) : Tree → Except Error Nat
  | .number (.ok value) => value.toNat expected limit
  | tree => .error (tree.unexpected expected)

/-- A value, or none for `null`. -/
def Tree.option {α : Type} (take : Tree → Except Error α) : Tree → Except Error (Option α)
  | .null => .ok none
  | .broken .null f _ => .error (.fault f)
  | tree => some <$> take tree

/-! ## Complete values

Some values must be kept before it is known what they are for. They are read as far as
they can be and must be right throughout. -/

/-- How deeply values may nest. -/
def depthLimit : Nat := 128

mutual

/-- **The complete value** of a tree. `depth` says how deeply arrays and objects may still nest.
This is how a value of any shape is taken, where a document does not say what to expect. -/
def Tree.value (depth : Nat) : Tree → Except Error Value
  | .null => .ok .null
  | .bool value => .ok (.bool value)
  | .number (.ok value) => .ok (.number value)
  | .number (.error f) => .error (.fault f)
  | .string (.ok value) => .ok (.string value)
  | .string (.error f) => .error (.fault f)
  | .broken _ f _ => .error (.fault f)
  | .array items finish =>
    match depth with
    | 0 | 1 => .error (.fault .recursionLimit)
    | depth + 1 => do
      let values ← itemValues depth items
      let _ ← Cursor.next ⟨[], finish⟩
      return .array values
  | .object members finish =>
    match depth with
    | 0 | 1 => .error (.fault .recursionLimit)
    | depth + 1 => do
      let members ← memberValues depth members
      let _ ← foldMembers (fun _ _ _ => .ok ()) finish () []
      return .object members

/-- The complete values of items. -/
def itemValues (depth : Nat) : List Tree → Except Error (List Value)
  | [] => .ok []
  | item :: rest => do
    let value ← Tree.value depth item
    let values ← itemValues depth rest
    return value :: values

/-- The complete values of members. -/
def memberValues (depth : Nat) :
    List (Except Fault String × Tree) → Except Error (List (String × Value))
  | [] => .ok []
  | (.error f, _) :: _ => .error (.fault f)
  | (.ok key, item) :: rest => do
    let value ← Tree.value depth item
    let values ← memberValues depth rest
    return (key, value) :: values

end

/-- A text from a complete value. -/
def Value.text : Value → Except Error String
  | .string value => .ok value
  | value => .error (value.unexpected "a string")

/-- A natural number below `limit` from a complete value. -/
def Value.natBelow (expected : String) (limit : Nat) : Value → Except Error Nat
  | .number value => value.toNat expected limit
  | value => .error (value.unexpected expected)

/-- A value, or none for `null`, from a complete value. -/
def Value.option? {α : Type} (take : Value → Except Error α) : Value → Except Error (Option α)
  | .null => .ok none
  | value => some <$> take value

/-! ## Names

A choice among names is written as a text, or as an object with a single member. -/

/-- One of several names, given as a text or as an object whose only member is
the name with `null`. Anything else is refused at its first character. -/
def Tree.variant (names : List String) : Tree → Except Error String
  | .string (.ok name) => known name
  | .string (.error f) => .error (.fault f)
  | .object ((.ok name, value) :: rest) finish => do
    let name ← known name
    match value with
    | .null => pure ()
    | value => throw (value.unexpected "unit")
    match rest, finish with
    | [], .closed => return name
    | [], .eof => throw (.fault .eofObject)
    | _, _ => throw (.fault .expectedValue)
  | .object ((.error f, _) :: _) _ => .error (.fault f)
  | .object [] .eof => .error (.fault .eofObject)
  | .object [] .badKey => .error (.fault .keyNotString)
  | .broken .nothing f _ | .broken .string f _ => .error (.fault f)
  | _ => .error (.fault .expectedValue)
where
  /-- The name, if it is one of those. -/
  known (name : String) : Except Error String :=
    if name ∈ names then .ok name else .error (.unknownVariant name names)

/-- **Takes a whole document**: nothing but white space may follow. A fault of the document comes
before one that follows it. -/
def takeDocument {α : Type} (take : Tree → Except Error α) (s : Symbols) : Except Error α := do
  let (tree, rest) := readDocument s
  let value ← take tree
  match rest with
  | some [] => return value
  | some _ => throw (.fault .trailingCharacters)
  | none => throw (.fault .eofValue)

end Meshwork.Json
