import Meshwork.Keyed

/-!
# Trees of named children

A tree has a label and, under names, further trees; a forest is what a
tree has below its root. `NamedTree.Ordered` says that the children of
every node are in the order of their names, each name at most once, so
that a child is determined by its name.

The recursion over trees goes through lists, so functions on trees and on forests come in
pairs. What is true of a tree is stated by way of what is true of its forest.
-/

namespace Meshwork

/-- **A tree of named children.** It is the shape of what lies in a store, with identifiers or
without them. -/
inductive NamedTree (α : Type) where
  /-- A label, and the children under their names. -/
  | node (label : α) (children : List (String × NamedTree α))

/-- Trees under names. -/
abbrev NamedForest (α : Type) := Keyed (NamedTree α)

namespace NamedTree

variable {α : Type}

/-- The label of the root. -/
def label : NamedTree α → α
  | node label _ => label

/-- The trees below the root. -/
def children : NamedTree α → NamedForest α
  | node _ children => children

mutual

/-- The number of nodes. -/
def size : NamedTree α → Nat
  | node _ children => 1 + sizeForest children

/-- The number of nodes of a forest. -/
def sizeForest : List (String × NamedTree α) → Nat
  | [] => 0
  | (_, tree) :: rest => size tree + sizeForest rest

end

mutual

/-- **The children of every node are in order.** Nothing is said of the names themselves, which
may be invalid. -/
def Ordered : NamedTree α → Prop
  | node _ children => Keyed.Ordered children ∧ OrderedEach children

/-- Every tree of a list is in order. -/
def OrderedEach : List (String × NamedTree α) → Prop
  | [] => True
  | (_, tree) :: rest => Ordered tree ∧ OrderedEach rest

end

theorem orderedEach_iff {forest : List (String × NamedTree α)} :
    OrderedEach forest ↔ ∀ entry ∈ forest, entry.2.Ordered := by
  induction forest with
  | nil => simp [OrderedEach]
  | cons entry rest ih => simp [OrderedEach, ih]

end NamedTree

end Meshwork
