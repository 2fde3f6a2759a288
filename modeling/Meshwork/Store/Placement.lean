import Meshwork.Store.Basic

/-!
# Placement rules

What may lie beneath what: nothing beneath an array; beneath an attribute
matrix only arrays with its number of tuples; and beneath a geometry, under
a name that it registers for data, only an attribute matrix with the number
of tuples that the geometry asks for. Groups hold anything.

`checkChild` is the rule for one object and the one above it, `checkSubtree`
for all pairs within a subtree, and `Store.checkCreate` for an object that
is to come into a store.
-/

namespace Meshwork

/-- **Why a store refuses a change.** Each says which path it is about. -/
inductive StoreError where
  /-- The path is taken. -/
  | duplicatePath (path : DataPath)
  /-- There is nothing at the path. -/
  | notFound (path : DataPath)
  /-- There is nothing at the path above. -/
  | parentNotFound (path : DataPath)
  /-- What lies at the path can hold nothing. -/
  | notAContainer (path : DataPath) (kind : ObjectKind)
  /-- What lies at the path cannot hold an object of this kind. -/
  | invalidChild (path : DataPath) (parent child : ObjectKind)
  /-- The object for the path has the wrong number of tuples. -/
  | tupleCountMismatch (path : DataPath) (expected actual : Nat)
deriving DecidableEq

/-- The text of an error. -/
def StoreError.message : StoreError → String
  | .duplicatePath path => s!"an object already exists at '{path.text}'"
  | .notFound path => s!"no object exists at '{path.text}'"
  | .parentNotFound path => s!"parent '{path.text}' does not exist"
  | .notAContainer path kind => s!"'{path.text}' is a {kind.text} and cannot hold children"
  | .invalidChild path parent child =>
    s!"a {child.text} cannot be placed inside the {parent.text} at '{path.text}'"
  | .tupleCountMismatch path expected actual =>
    s!"'{path.text}' must have {expected} tuples, found {actual}"

/-- The path of a child, or that of its parent if the name is invalid. -/
def childPath (parentPath : DataPath) (name : String) : DataPath :=
  match parentPath.join name with
  | .ok path => path
  | .error _ => parentPath

/-! ## The rules

One function decides about a pair of objects. The others ask it for every pair that would
come to be, and tell the path at which the first of them is refused. -/

/-- **The rule for one object** of some name beneath another. Groups hold anything and arrays
nothing; matrices and registered names ask for numbers of tuples. -/
def checkChild (parentPath : DataPath) (parent : DataObject) (name : String)
    (child : DataObject) : Except StoreError Unit :=
  match parent with
  | .group => .ok ()
  | .array _ => .error (.notAContainer parentPath .array)
  | .attributeMatrix matrix =>
    match child with
    | .array array =>
      if array.tupleCount = matrix.tupleCount.toNat then .ok ()
      else .error (.tupleCountMismatch (childPath parentPath name) matrix.tupleCount.toNat
        array.tupleCount)
    | other => .error (.invalidChild parentPath .attributeMatrix other.kind)
  | .geometry geometry =>
    match geometry.requiredTuples? name with
    | none => .ok ()
    | some expected =>
      match child with
      | .attributeMatrix matrix =>
        if matrix.tupleCount.toNat = expected then .ok ()
        else .error (.tupleCountMismatch (childPath parentPath name) expected
          matrix.tupleCount.toNat)
      | other => .error (.invalidChild parentPath .geometry other.kind)

mutual

/-- **The rule for every pair within a tree** that lies at `path`. A child with
an invalid name counts as not found there. -/
def checkTree (path : DataPath) : NamedTree DataObject → Except StoreError Unit
  | .node object children => checkChildren path object children

/-- The rule for the children of an object and all within them. -/
def checkChildren (path : DataPath) (object : DataObject) :
    List (String × NamedTree DataObject) → Except StoreError Unit
  | [] => .ok ()
  | (name, child) :: rest => do
    checkChild path object name child.label
    match path.join name with
    | .error _ => throw (.notFound path)
    | .ok below => checkTree below child
    checkChildren path object rest

end

/-- The rule for every pair within a subtree that lies at `path`. -/
def checkSubtree (path : DataPath) (subtree : Subtree) : Except StoreError Unit :=
  checkTree path subtree.tree

namespace Store

/-- **Whether an object may come to a path**: the path is free or may be
overwritten, what lies above it exists and may hold the object. -/
def checkCreate (s : Store) (path : DataPath) (object : DataObject) (overwrite : Bool) :
    Except StoreError Unit := do
  if s.contains path && !overwrite then throw (.duplicatePath path)
  match path.parent? with
  | none => return ()
  | some above =>
    match s.get? above with
    | none => throw (.parentNotFound above)
    | some parent => checkChild above parent path.name object

end Store

end Meshwork
