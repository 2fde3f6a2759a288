import Meshwork.Proofs.DataPath
import Meshwork.Proofs.Forest
import Meshwork.Store.Placement

/-!
# What the checks accept

`Fits` is the placement rule as a statement, without a path to report and
without an error: what an object may have beneath it under a name.
`checkChild` accepts just what fits (`checkChild_eq_ok_iff`), and `checkTree` just
the trees in which all names are valid and every object fits beneath the one
above it (`checkTree_eq_ok_iff`). Neither depends on where the tree lies.
-/

namespace Meshwork

/-- **The placement rule**: what may lie under a name beneath an object. The kinds of the two
decide, and for matrices and registered names also the number of tuples. -/
def Fits (parent : DataObject) (name : String) (child : DataObject) : Prop :=
  match parent with
  | .group => True
  | .array _ => False
  | .attributeMatrix matrix =>
    ∃ array, child = .array array ∧ array.tupleCount = matrix.tupleCount.toNat
  | .geometry geometry =>
    ∀ expected, geometry.requiredTuples? name = some expected →
      ∃ matrix, child = .attributeMatrix matrix ∧ matrix.tupleCount.toNat = expected

/-- **The check of one object accepts what fits**, wherever it lies. -/
theorem checkChild_eq_ok_iff (path : DataPath) {parent : DataObject} {name : String}
    {child : DataObject} : checkChild path parent name child = .ok () ↔ Fits parent name child := by
  -- The rules depend on the kinds alone, but for the tuples that are compared.
  cases parent with
  | group => simp [checkChild, Fits]
  | array array => simp [checkChild, Fits]
  | attributeMatrix matrix =>
    cases child with
    | array array => simp [checkChild, Fits]
    | group => simp [checkChild, Fits]
    | attributeMatrix other => simp [checkChild, Fits]
    | geometry other => simp [checkChild, Fits]
  | geometry geometry =>
    cases hrequired : geometry.requiredTuples? name with
    | none => simp [checkChild, Fits, hrequired]
    | some expected =>
      cases child with
      | attributeMatrix matrix => simp [checkChild, Fits, hrequired]
      | group => simp [checkChild, Fits, hrequired]
      | array array => simp [checkChild, Fits, hrequired]
      | geometry other => simp [checkChild, Fits, hrequired]

/-! ## The check of a tree

The check goes down the tree with the path of each object, for its errors. Whether it
accepts does not depend on the path, as names that can be joined to one path can be joined
to any. -/

namespace NamedTree

/-- **Every object of a tree fits** beneath the one above it. Nothing is said of the topmost one,
which lies beneath what the tree is brought to. -/
def FitsWithin (tree : NamedTree DataObject) : Prop :=
  ∀ place name child, tree.labelAt? (place ++ [name]) = some child →
    ∃ parent, tree.labelAt? place = some parent ∧ Fits parent name child

/-- In a tree, an object fits if it does so beneath the root or within one of
the trees below. -/
theorem fitsWithin_iff (tree : NamedTree DataObject) (h : Keyed.Ordered tree.children) :
    tree.FitsWithin ↔ ∀ entry ∈ tree.children,
      Fits tree.label entry.1 entry.2.label ∧ entry.2.FitsWithin := by
  constructor
  -- The places of a child are those of the tree with its name in front.
  · rintro hfits ⟨name, child⟩ hmem
    have hchild := Keyed.find?_of_mem h hmem
    constructor
    · obtain ⟨parent, hparent, hfit⟩ := hfits [] name child.label (by
        simp [labelAt?_cons, hchild])
      obtain rfl := Option.some.inj hparent
      exact hfit
    · intro place next object hobject
      obtain ⟨parent, hparent, hfit⟩ := hfits (name :: place) next object (by
        rw [List.cons_append, labelAt?_cons, hchild]
        exact hobject)
      refine ⟨parent, ?_, hfit⟩
      rwa [labelAt?_cons, hchild] at hparent
  · intro hfits place name object hobject
    cases place with
    | nil =>
      rw [List.nil_append, labelAt?_cons] at hobject
      obtain ⟨child, hchild, hlabel⟩ := Option.bind_eq_some_iff.1 hobject
      obtain rfl := Option.some.inj hlabel
      exact ⟨tree.label, rfl, (hfits _ (Keyed.mem_of_find? hchild)).1⟩
    | cons top rest =>
      rw [List.cons_append, labelAt?_cons] at hobject
      obtain ⟨child, hchild, hlabel⟩ := Option.bind_eq_some_iff.1 hobject
      obtain ⟨parent, hparent, hfit⟩ :=
        (hfits _ (Keyed.mem_of_find? hchild)).2 rest name object hlabel
      refine ⟨parent, ?_, hfit⟩
      rw [labelAt?_cons, hchild]
      exact hparent

/-- One object by itself is a lawful tree. -/
theorem lawful_leaf (object : DataObject) : (node object []).Lawful := ⟨List.Pairwise.nil, trivial⟩

/-- In one object by itself, everything fits. -/
theorem fitsWithin_leaf (object : DataObject) : (node object []).FitsWithin := by
  intro place name child hchild
  cases place <;> simp [labelAt?_cons, children] at hchild

end NamedTree

/-- The check of what lies beneath an object checks every child and what lies
beneath it. -/
theorem checkChildren_eq_ok_iff {path : DataPath} {object : DataObject}
    {children : List (String × NamedTree DataObject)} :
    checkChildren path object children = .ok () ↔ ∀ entry ∈ children,
      Fits object entry.1 entry.2.label
        ∧ ∃ below, path.join entry.1 = .ok below ∧ checkTree below entry.2 = .ok () := by
  induction children with
  | nil => simp [checkChildren]
  | cons head rest ih =>
    obtain ⟨name, child⟩ := head
    rw [List.forall_mem_cons, ← ih, ← checkChild_eq_ok_iff path, checkChildren]
    cases checkChild path object name child.label with
    | error e => simp [bind, Except.bind]
    | ok _ =>
      cases path.join name with
      | error e => simp [bind, Except.bind, throw, throwThe, MonadExceptOf.throw]
      | ok below =>
        cases hbelow : checkTree below child with
        | error e => simp [bind, Except.bind, hbelow]
        | ok _ => simp [bind, Except.bind, hbelow]

/-- **The check of a tree accepts it** if its names are valid and everything in it fits. The order
of the entries is given, because a tree is built with its entries in order. -/
theorem checkTree_eq_ok_iff (path : DataPath) {tree : NamedTree DataObject} (h : tree.Ordered) :
    checkTree path tree = .ok () ↔ tree.Lawful ∧ tree.FitsWithin := by
  induction tree using NamedForest.inductionOnTree generalizing path with
  | step tree ih =>
    obtain ⟨object, children⟩ := tree
    obtain ⟨hordered, heach⟩ := h
    rw [NamedTree.orderedEach_iff] at heach
    rw [checkTree, checkChildren_eq_ok_iff, NamedTree.lawful_iff,
      NamedTree.fitsWithin_iff (.node object children) hordered]
    constructor
    · intro h
      -- That a name can be joined to a path is what makes it valid.
      have hentry : ∀ entry ∈ children, ValidName entry.1 ∧ entry.2.Lawful ∧ entry.2.FitsWithin :=
        fun entry hentry => by
          obtain ⟨-, below, hjoin, hcheck⟩ := h entry hentry
          have hname : ValidName entry.1 :=
            below.valid _ (by rw [DataPath.join_eq_ok_iff.1 hjoin]; simp)
          exact ⟨hname, (ih entry hentry _ (heach entry hentry)).1 hcheck⟩
      exact ⟨⟨hordered, fun entry he => ⟨(hentry entry he).1, (hentry entry he).2.1⟩⟩,
        fun entry he => ⟨(h entry he).1, (hentry entry he).2.2⟩⟩
    · rintro ⟨⟨-, hlaw⟩, hfits⟩ entry hentry
      obtain ⟨hname, hlawful⟩ := hlaw entry hentry
      obtain ⟨hfit, hwithin⟩ := hfits entry hentry
      exact ⟨hfit, _, path.join_eq_ok hname, (ih entry hentry _ (heach entry hentry)).2 ⟨hlawful, hwithin⟩⟩

end Meshwork
