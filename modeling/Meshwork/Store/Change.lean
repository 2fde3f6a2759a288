import Meshwork.Store.Placement

/-!
# Changing a store

A change takes a store and leaves a store, whether it succeeds or not. That
a change which fails leaves the store as it was is therefore a statement
about these functions and not part of their type: `createGroups` makes
several changes one after another, and `attach` takes out what it is to
replace before it puts in the new.

Below them, the arena is changed one node at a time. `plantTree` enters
nodes from above, each with an entry in the node above and without entries
of its own, and `takeOut` takes them away from above, after `detach` has
removed the one entry that leads to them.
-/

namespace Meshwork

/-- **A change of a store** that gives a value or is refused, and leaves a store in either case.
That the store is the same after a refusal is not built in: it is proved of each change. -/
abbrev Change (α : Type) := ExceptT StoreError (StateM Store) α

/-- The answer of a change and the store that it leaves. -/
def Change.apply {α : Type} (change : Change α) (s : Store) : Except StoreError α × Store :=
  Id.run (StateT.run (ExceptT.run change) s)

/-- A check that does not touch the store. -/
def Change.check (outcome : Except StoreError Unit) : Change Unit :=
  match outcome with
  | .ok () => pure ()
  | .error e => throw e

/-! ## Changing the arena

Nodes are entered and taken out one by one. Both recursions go through the entries, and
both rely on the caller for the one entry that leads to the whole. -/

/-- Takes the nodes out that are entered in a list, in order. -/
def takeEach (take : ObjectId → Arena → Subtree × Arena) :
    Keyed ObjectId → Arena → List (String × Subtree) × Arena
  | [], nodes => ([], nodes)
  | (name, id) :: rest, nodes =>
    let (subtree, nodes) := take id nodes
    let (subtrees, nodes) := takeEach take rest nodes
    ((name, subtree) :: subtrees, nodes)

/-- **Takes out a node and all beneath it**; `absent` stands for what is not there. `fuel` bounds
the depth. What is beneath it goes with it, and all of it is given back as a tree. -/
def takeOut (absent : Subtree) : (fuel : Nat) → ObjectId → Arena → Subtree × Arena
  | 0, _, nodes => (absent, nodes)
  | fuel + 1, id, nodes =>
    match nodes[id]? with
    | none => (absent, nodes)
    | some node =>
      let (children, nodes) := takeEach (takeOut absent fuel) node.children (nodes.erase id)
      (.node node.object children, nodes)

namespace Store

/-- Changes the entries of a node, or those of the top-level nodes. -/
def alterEntries (holder : Option ObjectId) (f : Keyed ObjectId → Keyed ObjectId) (s : Store) :
    Store :=
  match holder with
  | none => { s with roots := f s.roots }
  | some id =>
    { s with nodes := s.nodes.modify id fun node => { node with children := f node.children } }

/-- Enters a node without children, under the next identifier. -/
def enter (holder : Option ObjectId) (name : String) (object : DataObject) (s : Store) : Store :=
  let id := s.nextId
  let s := s.alterEntries holder (Keyed.insert name id)
  { s with nodes := s.nodes.insert id ⟨name, holder, [], object⟩, nextId := id + 1 }

mutual

/-- **Enters a tree** under a name, every node before its children. Every node gets the next
identifier, so they are in the order of the tree. -/
def plantTree (holder : Option ObjectId) (name : String) : NamedTree DataObject → Store → Store
  | .node object children, s => plantEach (some s.nextId) children (s.enter holder name object)

/-- Enters trees beneath a node, in order. -/
def plantEach (holder : Option ObjectId) : List (String × NamedTree DataObject) → Store → Store
  | [], s => s
  | (name, tree) :: rest, s => plantEach holder rest (plantTree holder name tree s)

end

/-! ## Changes

A change checks before it does anything, so far as it can know. What comes after the
checks is not expected to fail. -/

/-- **Takes out what lies at a path**, and gives it. The entry above is erased first, and then the
nodes are taken from the arena. -/
def detach (path : DataPath) : Change Subtree := do
  let s ← get
  match s.idOf? path with
  | none => throw (.notFound path)
  | some id =>
    let s := s.alterEntries (s.parentOf? id) (Keyed.erase path.name)
    let (subtree, nodes) := takeOut (.leaf .group) s.len id s.nodes
    set { s with nodes }
    return subtree

/-- Puts a subtree at a free path. -/
def plant (path : DataPath) (subtree : Subtree) : Change ObjectId := do
  let s ← get
  match path.parent? with
  | none => set (s.plantTree none path.name subtree.tree)
  | some above =>
    match s.idOf? above with
    | none => throw (.parentNotFound above)
    | some id => set (s.plantTree (some id) path.name subtree.tree)
  return s.nextId

/-- **Brings a subtree to a path.** Every node of it is checked before
anything changes. With `overwrite`, what lies at the path is dropped. -/
def attach (path : DataPath) (subtree : Subtree) (overwrite : Bool) : Change ObjectId := do
  let s ← get
  Change.check (s.checkCreate path subtree.label overwrite)
  Change.check (checkSubtree path subtree)
  if s.contains path then discard (detach path)
  plant path subtree

/-- **Brings an object to a path.** It is the attachment of a tree with nothing beneath its root. -/
def create (path : DataPath) (object : DataObject) (overwrite : Bool) : Change ObjectId :=
  attach path (.leaf object) overwrite

/-- The container at a path; a new group if there is nothing. -/
def ensureGroup (path : DataPath) : Change ObjectId := do
  let s ← get
  match s.idOf? path with
  | none => create path .group false
  | some id =>
    match s.object? id with
    | none => return id
    | some object =>
      if object.isContainer then return id else throw (.notAContainer path object.kind)

/-- **Creates every group that is missing along a path**, the path included. Each is made in turn,
from the top, if it is not there. -/
def createGroups (path : DataPath) : Change ObjectId := do
  path.ancestors.forM fun above => discard (ensureGroup above)
  ensureGroup path

/-- Takes out what lies at a path, and gives the object there. -/
def remove (path : DataPath) : Change DataObject := do
  let subtree ← detach path
  return subtree.label

end Store

end Meshwork
