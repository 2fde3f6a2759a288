import Meshwork.DataPath
import Meshwork.Subtree
import Std.Data.TreeMap

/-!
# Stores

A store keeps its objects in an arena: for each identifier a node with the
object, its name, and how it hangs together with others – the identifier of
the node above, and those of the nodes beneath, under their names. Where an
object lies is therefore said three times, by the link upwards, by the name
and by the entry of the node above, and top-level objects have their
entries beside the arena. An object keeps its identifier for as long as it
stays in the store, and no later object gets it.

What leads through the arena goes by identifiers that it finds there. None
of these functions relies on the three to agree: where a node is missing,
they answer as if nothing was there. That no node is ever missing is what
the operations of `Meshwork.Store.Change` see to.

`Store.contents` is the view of all that a store holds: all paths, in order, with
the objects there. `Store.eqv` compares two stores by such lists.
-/

namespace Meshwork

/-- The identifier of an object in a store. -/
abbrev ObjectId := Nat

/-- **An object in a store**, with its links. Its links are identifiers, so they lead somewhere
only within a store that has them. -/
structure Node where
  /-- The last name of its path. -/
  name : String
  /-- The node above; none for a top-level object. -/
  parent : Option ObjectId
  /-- The nodes beneath, under their names. -/
  children : Keyed ObjectId
  /-- The object. -/
  object : DataObject

/-- Nodes under their identifiers. -/
abbrev Arena := Std.TreeMap ObjectId Node

/-- **A store.** Identifiers are given out in order and never again, so one that is kept does not
come to mean another object. -/
structure Store where
  /-- The nodes. -/
  nodes : Arena
  /-- The top-level nodes, under their names. -/
  roots : Keyed ObjectId
  /-- The identifier that the next object gets. -/
  nextId : ObjectId

namespace Store

/-- The store without objects. -/
def empty : Store := ⟨∅, [], 0⟩

instance : Inhabited Store := ⟨empty⟩

/-- The number of objects. -/
def len (s : Store) : Nat := s.nodes.size

/-- Whether there is no object. -/
def isEmpty (s : Store) : Bool := s.nodes.isEmpty

/-! ## Looking up an identifier

The way from an identifier to a path goes up. A bound on the number of links keeps it from
running in circles, which do not occur. -/

/-- The node with an identifier. -/
def node? (s : Store) (id : ObjectId) : Option Node := s.nodes[id]?

/-- The object with an identifier. -/
def object? (s : Store) (id : ObjectId) : Option DataObject := (s.node? id).map (·.object)

/-- The identifier of the object above the one with an identifier. -/
def parentOf? (s : Store) (id : ObjectId) : Option ObjectId := (s.node? id).bind (·.parent)

/-- The names from the top down to a node, with further names after them.
`fuel` bounds the number of links upwards. -/
def climb (s : Store) : (fuel : Nat) → ObjectId → List String → Option (List String)
  | 0, _, _ => none
  | fuel + 1, id, below =>
    (s.node? id).bind fun node =>
      match node.parent with
      | none => some (node.name :: below)
      | some above => s.climb fuel above (node.name :: below)

/-- **The path of the object with an identifier**, found from below. It goes up the parent links
and gathers names. -/
def pathOf? (s : Store) (id : ObjectId) : Option DataPath :=
  (s.climb s.len id []).bind fun names => (DataPath.ofSegments names).toOption

/-! ## Looking up a path

The way from a path to an identifier goes down, through the entries under each name. -/

/-- The node of some name beneath another. -/
def child? (s : Store) (id : ObjectId) (name : String) : Option ObjectId :=
  (s.node? id).bind fun node => node.children.find? name

/-- Follows names down from a node. -/
def follow (s : Store) : ObjectId → List String → Option ObjectId
  | id, [] => some id
  | id, name :: rest => (s.child? id name).bind fun below => s.follow below rest

/-- **The identifier of the object at a path**, found from above. It goes down from the top, name
by name. -/
def idOf? (s : Store) (path : DataPath) : Option ObjectId :=
  match path.segments with
  | [] => none
  | top :: rest => (s.roots.find? top).bind fun id => s.follow id rest

/-- **The object at a path.** There is none if the path leads nowhere. -/
def get? (s : Store) (path : DataPath) : Option DataObject := (s.idOf? path).bind s.object?

/-- Whether there is an object at a path. -/
def contains (s : Store) (path : DataPath) : Bool := (s.idOf? path).isSome

/-- The paths of the objects directly beneath one, in order of their
names. -/
def children? (s : Store) (path : DataPath) : Option (List DataPath) :=
  ((s.idOf? path).bind s.node?).bind fun node =>
    node.children.keys.mapM fun name => (path.join name).toOption

/-- The paths of the top-level objects, in order of their names. -/
def topLevel (s : Store) : List DataPath :=
  s.roots.keys.filterMap fun name => (DataPath.ofSegments [name]).toOption

/-! ## Copying

A copy is a tree of objects without identifiers. It has the names in the order of the
entries. -/

/-- A copy of a node and all beneath it; `absent` stands for what is not
there. `fuel` bounds the depth. -/
def copyFrom (s : Store) (absent : Subtree) : (fuel : Nat) → ObjectId → Subtree
  | 0, _ => absent
  | fuel + 1, id =>
    match s.node? id with
    | none => absent
    | some node =>
      .node node.object (node.children.mapValues fun child => s.copyFrom absent fuel child)

/-- **A copy of what lies at a path.** It has no identifiers and does not change with the store. -/
def snapshot? (s : Store) (path : DataPath) : Option Subtree :=
  (s.idOf? path).map (s.copyFrom (.leaf .group) s.len)

/-! ## Listing

The traversal keeps a stack of nodes. Whatever is taken off is listed, and its children
are put on, so that the list has every path before those beneath it. -/

/-- The paths of the nodes on a stack, the top one first, each followed by
those beneath it. `fuel` bounds the number of nodes. -/
def walk (s : Store) : (fuel : Nat) → List ObjectId → List DataPath
  | 0, _ => []
  | _ + 1, [] => []
  | fuel + 1, id :: stack =>
    match s.node? id with
    | none => s.walk fuel stack
    | some node => (s.pathOf? id).toList ++ s.walk fuel (node.children.values ++ stack)

/-- **All paths at or beneath `top`**, or all paths of the store: every path
before those beneath it, and siblings in order of their names. -/
def list (s : Store) (top : Option DataPath) : List DataPath :=
  s.walk s.len (match top with
    | none => s.roots.values
    | some top => (s.idOf? top).toList)

/-- **All paths with the objects there.** They come in the order of the list of all paths. -/
def contents (s : Store) : List (DataPath × DataObject) :=
  (s.list none).filterMap fun path => (s.get? path).map fun object => (path, object)

/-! ## Equality

Two stores are compared as callers see them. Their numbers of objects are compared first,
and then position by position the paths and the objects. -/

/-- Whether two look-ups find equal objects, or neither finds one. -/
def foundEqv : Option DataObject → Option DataObject → Bool
  | some a, some b => a.eqv b
  | none, none => true
  | _, _ => false

/-- **Equality of contents**: as many objects, and in the order of the two lists
the same paths with equal objects. Identifiers do not count. -/
def eqv (s t : Store) : Bool :=
  s.len == t.len
    && ((s.list none).zip (t.list none)).all fun (p, q) => p == q && foundEqv (s.get? p) (t.get? q)

end Store

end Meshwork
