import Meshwork.Json.Decode

/-!
# Records in JSON

A record with named fields is given as an object or as the array of its
fields in order. The two forms share the functions here: `field` puts a
value into a field that has none yet, `demand` asks for a field at the end
of an object, and `Cursor.demand` takes the next field of an array.

Records that are complete values already, because their form depends on a
member that may come late, have the same functions over `Value`.
-/

namespace Meshwork.Json

/-- **The value of a field** that may have one already. A second one is an error, even if it is
the same. -/
def field {α τ : Type} (name : String) (given : Option α) (take : τ → Except Error α)
    (source : τ) : Except Error (Option α) :=
  match given with
  | some _ => .error (.duplicateField name)
  | none => some <$> take source

/-- The value of a field that must have one. -/
def demand {α : Type} (name : String) (given : Option α) : Except Error α :=
  match given with
  | some value => .ok value
  | none => .error (.missingField name)

/-- The next field of an array. `index` counts those before it, and `expected`
names the record. -/
def Cursor.demand {α : Type} (index : Nat) (expected : String) (take : Tree → Except Error α)
    (c : Cursor) : Except Error (α × Cursor) := do
  match ← c.next with
  | none => throw (.invalidLength index expected)
  | some (item, rest) =>
    let value ← take item
    return (value, rest)

/-- The next field of an array, or its default after the end. -/
def Cursor.default {α : Type} (value : α) (take : Tree → Except Error α) (c : Cursor) :
    Except Error (α × Cursor) := do
  match ← c.next with
  | none => return (value, c)
  | some (item, rest) =>
    let value ← take item
    return (value, rest)

/-- **A record**, from either form: `ofArray` takes the fields of an array in
order, `visit` and `finish` those of an object. -/
def Tree.record {σ α : Type} (name : String) (ofArray : Cursor → Except Error (α × Cursor))
    (start : σ) (visit : σ → String → Tree → Except Error σ) (finish : σ → Except Error α) :
    Tree → Except Error α
  | .array items ending => do
    let (value, rest) ← ofArray ⟨items, ending⟩
    rest.close
    return value
  | .object members ending => do
    let state ← foldMembers visit ending start members
    finish state
  | tree => .error (tree.unexpected name)

/-- Visits the members of a complete object in order. -/
def visitMembers {σ : Type} (visit : σ → String → Value → Except Error σ) :
    σ → List (String × Value) → Except Error σ
  | state, [] => .ok state
  | state, (key, value) :: rest => do
    let state ← visit state key value
    visitMembers visit state rest

/-- The next field of a complete array. -/
def demandItem {α : Type} (index : Nat) (expected : String) (take : Value → Except Error α) :
    List Value → Except Error (α × List Value)
  | [] => .error (.invalidLength index expected)
  | item :: rest => do
    let value ← take item
    return (value, rest)

/-- The next field of a complete array, or its default after the end. -/
def defaultItem {α : Type} (value : α) (take : Value → Except Error α) :
    List Value → Except Error (α × List Value)
  | [] => .ok (value, [])
  | item :: rest => do
    let value ← take item
    return (value, rest)

/-- How many items an array may have, in messages. -/
def itemCount (count : Nat) : String :=
  if count = 1 then "1 element in sequence" else s!"{count} elements in sequence"

/-- Ends a complete array of `count` fields: no item may be left. -/
def closeItems (count : Nat) (rest : List Value) : Except Error Unit :=
  if rest.isEmpty then .ok () else .error (.invalidLength (count + rest.length) (itemCount count))

/-- One of several names from a complete value: a text, or an object whose
only member is the name with `null`. -/
def Value.variant (names : List String) : Value → Except Error String
  | .string name => known name
  | .object [(name, value)] => do
    let name ← known name
    match value with
    | .null | .object [] => return name
    | value => throw (value.unexpected "unit")
  | .object _ => .error (.invalidValue "map" "map with a single key")
  | value => .error (value.unexpected "string or map")
where
  /-- The name, if it is one of those. -/
  known (name : String) : Except Error String :=
    if name ∈ names then .ok name else .error (.unknownVariant name names)

end Meshwork.Json
