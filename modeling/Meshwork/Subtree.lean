import Meshwork.DataObject
import Meshwork.NamedTree

/-!
# Subtrees

An object with all that lies beneath it, outside of a store: what is taken
out of one, and what is brought to one. The type carries that children are
in the order of their names, each name once; whether the names are valid
and who may lie beneath whom is checked when a subtree comes to a store.

A subtree can be built from a leaf by adding children, and comes out of a store with the
children as they lay there.
-/

namespace Meshwork

/-- **An object with all that lies beneath it**, outside of a store. Its names and placements are
not checked until it is brought to a store. -/
@[ext]
structure Subtree where
  /-- The objects, from the topmost one down. -/
  tree : NamedTree DataObject
  /-- The children of every object are in order. -/
  ordered : tree.Ordered

namespace Subtree

/-- The topmost object. -/
def label (t : Subtree) : DataObject := t.tree.label

/-- The number of objects. -/
def size (t : Subtree) : Nat := t.tree.size

/-- **The subtree of an object and what lies beneath it**, a later child in
place of an earlier one of the same name. -/
def node (object : DataObject) (children : List (String × Subtree)) : Subtree where
  tree := .node object (Keyed.ofList (Keyed.mapValues Subtree.tree children))
  ordered := by
    refine ⟨Keyed.ordered_ofList _, NamedTree.orderedEach_iff.2 fun entry h => ?_⟩
    obtain ⟨child, -, rfl⟩ := List.mem_map.1 (Keyed.mem_ofList h)
    exact child.2.ordered

theorem tree_node (object : DataObject) (children : List (String × Subtree)) :
    (node object children).tree
      = .node object (Keyed.ofList (Keyed.mapValues Subtree.tree children)) := rfl

/-- The subtree of one object. -/
def leaf (object : DataObject) : Subtree where
  tree := .node object []
  ordered := ⟨List.Pairwise.nil, trivial⟩

/-- The subtree with a further child, in place of one of the same name. -/
def withChild (t : Subtree) (name : String) (child : Subtree) : Subtree where
  tree := .node t.tree.label (Keyed.insert name child.tree t.tree.children)
  ordered := by
    obtain ⟨⟨label, children⟩, hchildren, heach⟩ := t
    refine ⟨Keyed.ordered_insert hchildren, NamedTree.orderedEach_iff.2 fun entry h => ?_⟩
    rcases Keyed.mem_insert h with rfl | h
    · exact child.ordered
    · exact NamedTree.orderedEach_iff.1 heach entry h

/-- The canonical rendering of a tree of objects. -/
def canonicalTree : NamedTree DataObject → String
  | .node object children =>
    "Subtree \x7b object: " ++ object.canonical ++ ", children: \x7b"
      ++ ", ".intercalate (canonicalForest children) ++ "\x7d \x7d"
where
  /-- The entries of the children. -/
  canonicalForest : List (String × NamedTree DataObject) → List String
    | [] => []
    | (name, child) :: rest =>
      (quoted name ++ ": " ++ canonicalTree child) :: canonicalForest rest

/-- The canonical rendering of a subtree. -/
def canonical (t : Subtree) : String := canonicalTree t.tree

end Subtree

end Meshwork
