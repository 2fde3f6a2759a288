import Meshwork.Proofs.DataPath
import Meshwork.Proofs.Forest
import Meshwork.Proofs.Store.Cells

/-!
# Layouts

A layout is a forest of objects with their identifiers: what a store is when
the three accounts of where its objects lie agree. A store is laid out as a
layout (`Store.LaidOut`) if its top-level entries are those of the layout and
its arena holds the cells of the layout, which say of every object what the
layout says.

Every question to such a store is then answered from the layout: the
identifier at a path (`LaidOut.idOf?_eq`), the path of an identifier
(`LaidOut.pathOf?_eq`), the object at a path (`LaidOut.get?_eq`), the copy of a
subtree (`LaidOut.snapshot?_eq`) and the list of all paths (`LaidOut.list_none_eq`).
-/

namespace Meshwork

/-! ## Layouts and their cells

A layout is a forest with tags for labels. Its cells are written down by recursion: one
for each object, with the entries of its children and the identifier of its holder. -/

/-- An object with its identifier. -/
structure Tag where
  /-- The identifier. -/
  id : ObjectId
  /-- The object. -/
  object : DataObject

/-- **Objects with their identifiers, under their names.** It is what the links of an arena amount
to when they form a forest, and has no links itself. -/
abbrev Layout := NamedForest Tag

/-- An object with its identifier and what lies beneath it. -/
abbrev LayoutTree := NamedTree Tag

namespace Layout

/-- The entries that lead to the trees of a layout. -/
def entries (layout : Layout) : Keyed ObjectId := Keyed.mapValues (fun tree => tree.label.id) layout

/-- The node of a tree that lies under a name beneath `holder`. -/
def nodeOf (holder : Option ObjectId) (name : String) (tree : LayoutTree) : Node :=
  ⟨name, holder, entries tree.children, tree.label.object⟩

/-- **The cells of a layout** that lies beneath `holder`. Every tree has the cell of its topmost
object first, and then those of its children beneath it. -/
def cells (holder : Option ObjectId) : Layout → List Cell
  | [] => []
  | (name, .node tag children) :: rest =>
    (tag.id, nodeOf holder name (.node tag children))
      :: (cells (some tag.id) children ++ cells holder rest)

/-- The objects without their identifiers. -/
def objects (layout : Layout) : NamedForest DataObject := NamedForest.mapLabels Tag.object layout

/-- The identifier of the node at a place; for the empty place, `holder`. -/
def holderAt (holder : Option ObjectId) : (place : List String) → Layout → Option ObjectId
  | [], _ => holder
  | name :: rest, layout =>
    (NamedForest.at? (name :: rest) layout).map fun tree => tree.label.id

theorem holderAt_of_at? {holder : Option ObjectId} {place : List String} {layout : Layout}
    {tree : LayoutTree} (h : NamedForest.at? place layout = some tree) :
    holderAt holder place layout = some tree.label.id := by
  cases place with
  | nil => simp [NamedForest.at?] at h
  | cons top rest =>
    show (NamedForest.at? _ _).map _ = _
    rw [h, Option.map_some]

theorem cells_append (holder : Option ObjectId) (layout other : Layout) :
    cells holder (layout ++ other) = cells holder layout ++ cells holder other := by
  induction layout with
  | nil => rw [cells]; rfl
  | cons head rest ih =>
    obtain ⟨name, tag, children⟩ := head
    rw [List.cons_append, cells, cells, ih, List.cons_append, List.append_assoc]

theorem cells_perm {holder : Option ObjectId} {layout other : Layout} (h : layout.Perm other) :
    (cells holder layout).Perm (cells holder other) := by
  induction h with
  | nil => exact List.Perm.refl _
  | cons head _ ih =>
    obtain ⟨name, tag, children⟩ := head
    rw [cells, cells]
    exact (ih.append_left _).cons _
  | swap head next rest =>
    have happ : ∀ a b : String × LayoutTree, a :: b :: rest = [a] ++ ([b] ++ rest) := fun _ _ => rfl
    rw [happ, happ, cells_append, cells_append, cells_append, cells_append, ← List.append_assoc,
      ← List.append_assoc]
    exact List.perm_append_comm.append_right _
  | trans _ _ ih ih' => exact ih.trans ih'

theorem length_cells (holder : Option ObjectId) (layout : Layout) :
    (cells holder layout).length = NamedTree.sizeForest layout := by
  induction layout using NamedForest.induction generalizing holder with
  | nil => rw [cells]; rfl
  | cons name tag children rest ihc ihr =>
    rw [cells, List.length_cons, List.length_append, ihc, ihr, NamedTree.sizeForest,
      NamedTree.size]
    omega

/-- The cells of a layout are those of its trees. -/
theorem mem_cells {holder : Option ObjectId} {layout : Layout} {cell : Cell} :
    cell ∈ cells holder layout ↔ ∃ name tree, (name, tree) ∈ layout
      ∧ (cell = (tree.label.id, nodeOf holder name tree)
        ∨ cell ∈ cells (some tree.label.id) tree.children) := by
  induction layout with
  | nil => rw [cells]; simp
  | cons head rest ih =>
    obtain ⟨name, tag, children⟩ := head
    rw [cells, List.mem_cons, List.mem_append, ih]
    constructor
    · rintro (h | h | ⟨other, tree, hmem, h⟩)
      · exact ⟨name, _, List.mem_cons_self, Or.inl h⟩
      · exact ⟨name, _, List.mem_cons_self, Or.inr h⟩
      · exact ⟨other, tree, List.mem_cons_of_mem _ hmem, h⟩
    · rintro ⟨other, tree, hmem, h⟩
      rcases List.mem_cons.1 hmem with he | hmem
      · obtain ⟨rfl, rfl⟩ := Prod.mk.inj he
        exact h.imp_right Or.inl
      · exact Or.inr (Or.inr ⟨other, tree, hmem, h⟩)

section Descent

variable {top name : String} {place : List String} {layout : Layout} {found : LayoutTree}

theorem holderAt_cons (holder : Option ObjectId) (h : Keyed.find? top layout = some found) :
    holderAt holder (top :: place) layout = holderAt (some found.label.id) place found.children := by
  show (NamedForest.at? _ _).map _ = _
  rw [NamedForest.at?, h, Option.bind_some]
  cases place <;> rfl

theorem at?_cons (h : Keyed.find? top layout = some found) :
    NamedForest.at? (top :: (place ++ [name])) layout
      = NamedForest.at? (place ++ [name]) found.children := by
  rw [NamedForest.at?, h, Option.bind_some]
  cases place <;> rfl

end Descent

/-- **The node at a place has its cell.** Its parent link leads to the object at the place above,
or to the holder of the whole. -/
theorem mem_cells_of_at? {holder : Option ObjectId} {place : List String} {name : String}
    {layout : Layout} {tree : LayoutTree}
    (h : NamedForest.at? (place ++ [name]) layout = some tree) :
    (tree.label.id, nodeOf (holderAt holder place layout) name tree) ∈ cells holder layout := by
  induction place generalizing holder layout with
  | nil =>
    obtain ⟨found, hfound, hat⟩ := Option.bind_eq_some_iff.1 h
    obtain rfl := Option.some.inj hat
    exact mem_cells.2 ⟨name, found, Keyed.mem_of_find? hfound, Or.inl rfl⟩
  | cons top rest ih =>
    obtain ⟨found, hfound, -⟩ := Option.bind_eq_some_iff.1 h
    rw [List.cons_append, at?_cons hfound] at h
    rw [holderAt_cons holder hfound]
    exact mem_cells.2 ⟨top, found, Keyed.mem_of_find? hfound, Or.inr (ih h)⟩

/-- **Every cell is that of the node at a place.** Together with the converse this takes any
statement about nodes to one about places. -/
theorem exists_at?_of_mem_cells {holder : Option ObjectId} {layout : Layout}
    (hlaw : NamedForest.Lawful layout) {cell : Cell} (h : cell ∈ cells holder layout) :
    ∃ place name tree, NamedForest.at? (place ++ [name]) layout = some tree
      ∧ cell = (tree.label.id, nodeOf (holderAt holder place layout) name tree) := by
  -- By what lies beneath: the cells of a tree are its own and those of its children.
  induction layout using NamedForest.inductionOnChildren generalizing holder with
  | step layout ih =>
    obtain ⟨top, found, hmem, h⟩ := mem_cells.1 h
    have hfound := Keyed.find?_of_mem hlaw.ordered hmem
    rcases h with rfl | h
    · exact ⟨[], top, found, by simp [NamedForest.at?, hfound, NamedTree.at?], rfl⟩
    · obtain ⟨place, name, tree, hat, rfl⟩ := ih _ hmem (hlaw.of_mem hmem) h
      refine ⟨top :: place, name, tree, ?_, ?_⟩
      · rw [List.cons_append, at?_cons hfound, hat]
      · rw [holderAt_cons holder hfound]

end Layout

namespace Store

/-! ## Stores that are laid out

The arena is compared with the cells as a set, and the top-level entries as a list.
Identifiers are different since the arena holds one node for each. -/

/-- **The store is laid out like this.** It is the invariant that all operations keep, each by a
change of the layout. -/
structure LaidOut (s : Store) (layout : Layout) : Prop where
  /-- The top-level entries lead to the topmost objects. -/
  roots : s.roots = layout.entries
  /-- Every object has its cell. -/
  holds : s.Holds (layout.cells none)
  /-- Names are valid and in order. -/
  lawful : NamedForest.Lawful layout

theorem laidOut_empty : empty.LaidOut [] where
  roots := rfl
  holds := by
    rw [Layout.cells]
    exact ⟨Arena.Holds.empty, by simp⟩
  lawful := NamedForest.Lawful.nil

namespace LaidOut

variable {s : Store} {layout : Layout}

theorem len_eq (h : s.LaidOut layout) : s.len = NamedTree.sizeForest layout := by
  rw [len, h.holds.nodes.size_eq, Layout.length_cells]

/-- The node of the object at a place. -/
theorem node?_eq (h : s.LaidOut layout) {place : List String} {name : String}
    {tree : LayoutTree} (hat : NamedForest.at? (place ++ [name]) layout = some tree) :
    s.node? tree.label.id = some (Layout.nodeOf (Layout.holderAt none place layout) name tree) :=
  h.holds.node?_of_mem (Layout.mem_cells_of_at? hat)

/-- Every node is that of an object of the layout. -/
theorem exists_at?_of_node? (h : s.LaidOut layout) {id : ObjectId} {node : Node}
    (hnode : s.node? id = some node) :
    ∃ place name tree, NamedForest.at? (place ++ [name]) layout = some tree ∧ tree.label.id = id
      ∧ node = Layout.nodeOf (Layout.holderAt none place layout) name tree := by
  have hmem := (h.holds.nodes.getElem?_eq_some id node).1 hnode
  obtain ⟨place, name, tree, hat, he⟩ := Layout.exists_at?_of_mem_cells h.lawful hmem
  obtain ⟨rfl, rfl⟩ := Prod.mk.inj he
  exact ⟨place, name, tree, hat, rfl, rfl⟩

/-! ## Looking up a path

Names are followed from entry to entry, as places are followed in a forest. -/

/-- Following names from an object leads to what lies beneath it there. -/
theorem follow_eq (h : s.LaidOut layout) (names : List String) {place : List String}
    {name : String} {tree : LayoutTree}
    (hat : NamedForest.at? (place ++ [name]) layout = some tree) :
    s.follow tree.label.id names = (tree.at? names).map fun found => found.label.id := by
  induction names generalizing place name tree with
  | nil => rfl
  | cons next rest ih =>
    show (s.child? tree.label.id next).bind _ = ((Keyed.find? next tree.children).bind _).map _
    rw [child?, h.node?_eq hat, Option.bind_some]
    show (Keyed.find? next (Layout.entries tree.children)).bind _ = _
    rw [Layout.entries, Keyed.find?_mapValues, Option.map_bind, Option.bind_map]
    cases hnext : Keyed.find? next tree.children with
    | none => rfl
    | some found => exact ih (NamedForest.at?_concat hat hnext)

/-- **The identifier at a path** is that of the layout. There is none where the layout has no
tree. -/
theorem idOf?_eq (h : s.LaidOut layout) (path : DataPath) :
    s.idOf? path = (NamedForest.at? path.segments layout).map fun tree => tree.label.id := by
  unfold idOf?
  split <;> rename_i hsegments
  · exact absurd hsegments path.nonempty
  · rename_i top rest
    rw [hsegments, NamedForest.at?, h.roots, Layout.entries, Keyed.find?_mapValues,
      Option.map_bind, Option.bind_map]
    cases htop : Keyed.find? top layout with
    | none => rfl
    | some tree =>
      refine h.follow_eq rest (show NamedForest.at? ([] ++ [top]) layout = some tree from ?_)
      rw [List.nil_append, NamedForest.at?, htop, Option.bind_some]
      rfl

/-- **The object at a path** is that of the layout. With this the map of a store is read off from
its layout. -/
theorem get?_eq (h : s.LaidOut layout) (path : DataPath) :
    s.get? path = (NamedForest.labelAt? path.segments layout).map Tag.object := by
  rw [get?, h.idOf?_eq, NamedForest.labelAt?]
  cases hat : NamedForest.at? path.segments layout with
  | none => rfl
  | some tree =>
    rw [path.segments_eq] at hat
    show (s.node? tree.label.id).map _ = _
    rw [h.node?_eq hat]
    rfl

theorem isSome_get? (h : s.LaidOut layout) (path : DataPath) :
    (s.get? path).isSome = (NamedForest.at? path.segments layout).isSome := by
  rw [h.get?_eq, NamedForest.labelAt?, Option.isSome_map, Option.isSome_map]

theorem contains_eq (h : s.LaidOut layout) (path : DataPath) :
    s.contains path = (NamedForest.at? path.segments layout).isSome := by
  rw [contains, h.idOf?_eq, Option.isSome_map]

/-! ## The path of an identifier

Going up from a node meets the holders of its place, the innermost first. The bound on the
number of steps is the number of objects, which no place is deeper than. -/

/-- One step up. -/
theorem climb_succ (s : Store) (fuel : Nat) (below : List String) {id above : ObjectId} {node : Node}
    (hnode : s.node? id = some node) (hparent : node.parent = some above) :
    s.climb (fuel + 1) id below = s.climb fuel above (node.name :: below) := by
  rw [climb, hnode, Option.bind_some]
  simp only [hparent]

/-- There is no way up from where nothing is. -/
theorem climb_eq_none {s : Store} {id : ObjectId} (hnode : s.node? id = none) (fuel : Nat)
    (below : List String) : s.climb fuel id below = none := by
  cases fuel with
  | zero => rfl
  | succ fuel => rw [climb, hnode, Option.bind_none]

/-- Going up from an object gathers the names of its place. -/
theorem climb_eq (h : s.LaidOut layout) {fuel : Nat} {place below : List String} {name : String}
    {tree : LayoutTree} (hat : NamedForest.at? (place ++ [name]) layout = some tree)
    (hfuel : place.length < fuel) :
    s.climb fuel tree.label.id below = some (place ++ name :: below) := by
  -- The fuel is the number of steps up, of which there are as many as names above.
  induction fuel generalizing place below name tree with
  | zero => exact absurd hfuel (Nat.not_lt_zero _)
  | succ fuel ih =>
    rcases List.eq_nil_or_concat' place with rfl | ⟨init, last, rfl⟩
    · rw [climb, h.node?_eq hat]
      rfl
    · obtain ⟨above, habove, -⟩ :=
        NamedForest.exists_at?_of_at?_concat (by simp) hat
      rw [climb_succ s fuel below (h.node?_eq hat) (Layout.holderAt_of_at? habove)]
      show s.climb fuel above.label.id (name :: below) = _
      rw [ih habove (by simp at hfuel; omega)]
      simp

/-- Every object of the layout has a path. -/
theorem exists_path (h : s.LaidOut layout) {place : List String} {tree : LayoutTree}
    (hat : NamedForest.at? place layout = some tree) : ∃ path : DataPath, path.segments = place := by
  cases place with
  | nil => simp [NamedForest.at?] at hat
  | cons top rest => exact ⟨⟨_, List.cons_ne_nil _ _, h.lawful.validName hat⟩, rfl⟩

/-- **The path of the object at a path** is that path. It is found by going up the parent links,
for which the number of objects is fuel enough. -/
theorem pathOf?_eq (h : s.LaidOut layout) {path : DataPath} {tree : LayoutTree}
    (hat : NamedForest.at? path.segments layout = some tree) :
    s.pathOf? tree.label.id = some path := by
  have hpos := tree.size_pos
  have hle := NamedForest.length_add_size_le hat
  rw [path.segments_eq] at hat hle
  rw [List.length_append, List.length_singleton] at hle
  have hfuel : path.above.length < s.len := by
    rw [h.len_eq]
    omega
  rw [pathOf?, h.climb_eq hat hfuel, Option.bind_some,
    ← path.segments_eq, path.ofSegments_segments]
  rfl

/-! ## Copying

A copy is made by following entries as far as there is fuel. A tree of the layout is never
larger than the whole. -/

/-- **A copy of an object has what lies beneath it in the layout.** What would stand for a missing
node, `absent`, does not appear in it. -/
theorem copyFrom_eq (h : s.LaidOut layout) (absent : Subtree) {fuel : Nat} {place : List String}
    {tree : LayoutTree} (hat : NamedForest.at? place layout = some tree)
    (hfuel : tree.size ≤ fuel) :
    (s.copyFrom absent fuel tree.label.id).tree
      = .node tree.label.object (Layout.objects tree.children) := by
  induction fuel generalizing place tree with
  | zero => exact absurd (Nat.lt_of_lt_of_le tree.size_pos hfuel) (Nat.lt_irrefl _)
  | succ fuel ih =>
    obtain ⟨init, name, rfl⟩ := NamedForest.exists_eq_concat_of_at? hat
    have hlaw := h.lawful.below (NamedForest.below?_of_at? hat)
    have hcopies : Keyed.mapValues Subtree.tree
        ((Layout.entries tree.children).mapValues fun child => s.copyFrom absent fuel child)
          = Layout.objects tree.children := by
      rw [Layout.objects, NamedForest.mapLabels_eq, Layout.entries, Keyed.mapValues_mapValues,
        Keyed.mapValues_mapValues]
      refine Keyed.mapValues_congr fun (next, child) hmem => ?_
      have hchild := Keyed.find?_of_mem hlaw.ordered hmem
      refine ih (NamedForest.at?_concat hat hchild) ?_
      -- A child is smaller than its tree, so one step less is enough for it.
      have hsize := NamedTree.size_le_of_find? hchild
      have htree := tree.size_eq
      show child.size ≤ fuel
      omega
    rw [copyFrom, h.node?_eq hat]
    show (Subtree.node _ ((Layout.entries tree.children).mapValues _)).tree = _
    rw [Subtree.tree_node, hcopies, Keyed.ofList_of_ordered (l := Layout.objects _) hlaw.mapLabels.ordered]
    rfl

/-- **The copy of what lies at a path** is there if an object is, and has what the layout has.
Identifiers are not part of a copy. -/
theorem snapshot?_eq (h : s.LaidOut layout) (path : DataPath) :
    (s.snapshot? path).map Subtree.tree
      = (NamedForest.at? path.segments layout).map fun tree =>
          .node tree.label.object (Layout.objects tree.children) := by
  rw [snapshot?, h.idOf?_eq, Option.map_map, Option.map_map]
  cases hat : NamedForest.at? path.segments layout with
  | none => rfl
  | some tree =>
    refine congrArg some (h.copyFrom_eq _ hat ?_)
    have hpos := List.length_pos_iff.2 path.nonempty
    have hle := NamedForest.length_add_size_le hat
    rw [h.len_eq]
    omega

/-! ## Listing

The stack of a traversal holds nodes whose children were not visited yet. With the
children of a node put in its place, the traversal meets the places of a forest in their
order. -/

/-- The path of the given names, if there is one. -/
def pathAt? (names : List String) : Option DataPath := (DataPath.ofSegments names).toOption

theorem walk_nil (s : Store) (fuel : Nat) : s.walk fuel [] = [] := by
  cases fuel <;> rfl

/-- With the entries of a forest on the stack, its places come first. -/
theorem walk_eq (h : s.LaidOut layout) (forest : Layout) (fuel : Nat) (stack : List ObjectId)
    {above : List String} (hforest : ∀ entry ∈ forest,
      NamedForest.at? (above ++ [entry.1]) layout = some entry.2) :
    s.walk (NamedTree.sizeForest forest + fuel) ((Layout.entries forest).values ++ stack)
      = (NamedForest.places above forest).filterMap pathAt? ++ s.walk fuel stack := by
  induction forest using NamedForest.induction generalizing above fuel stack with
  | nil =>
    rw [NamedForest.places, NamedTree.sizeForest, Nat.zero_add]
    rfl
  | cons name tag children rest ihc ihr =>
    have hat : NamedForest.at? (above ++ [name]) layout = some (.node tag children) :=
      hforest _ List.mem_cons_self
    have hlaw : NamedForest.Lawful children := h.lawful.below (NamedForest.below?_of_at? hat)
    have hchildren : ∀ entry ∈ children,
        NamedForest.at? (above ++ [name] ++ [entry.1]) layout = some entry.2 := fun entry hentry =>
      NamedForest.at?_concat hat (Keyed.find?_of_mem hlaw.ordered hentry)
    -- The children of the first tree go on the stack before the trees after it.
    have hrest := ihr fuel stack fun entry hentry =>
      hforest entry (List.mem_cons_of_mem _ hentry)
    have hbelow := ihc (NamedTree.sizeForest rest + fuel)
      ((Layout.entries rest).values ++ stack) hchildren
    obtain ⟨path, hpath⟩ := h.exists_path hat
    have hpathOf : s.pathOf? tag.id = pathAt? (above ++ [name]) := by
      rw [← hpath] at hat ⊢
      rw [pathAt?, path.ofSegments_segments]
      exact h.pathOf?_eq hat
    have hsize : NamedTree.sizeForest ((name, NamedTree.node tag children) :: rest) + fuel
        = NamedTree.sizeForest children + (NamedTree.sizeForest rest + fuel) + 1 := by
      rw [NamedTree.sizeForest, NamedTree.size]
      omega
    rw [hsize]
    show s.walk (_ + 1) (tag.id :: ((Layout.entries rest).values ++ stack)) = _
    have hnode : s.node? tag.id = some _ := h.node?_eq hat
    rw [walk, hnode]
    show (s.pathOf? tag.id).toList
      ++ s.walk _ ((Layout.entries children).values ++ ((Layout.entries rest).values ++ stack)) = _
    rw [hbelow, hrest, hpathOf, NamedForest.places, List.filterMap_cons, List.filterMap_append]
    cases pathAt? (above ++ [name]) <;> simp

/-- The walk gives the places, each as its path. -/
theorem map_segments_walk (h : s.LaidOut layout) {forest : Layout} {above : List String}
    {fuel : Nat} (hforest : ∀ entry ∈ forest,
      NamedForest.at? (above ++ [entry.1]) layout = some entry.2)
    (hfuel : NamedTree.sizeForest forest ≤ fuel) :
    (s.walk fuel (Layout.entries forest).values).map (·.segments)
      = NamedForest.places above forest := by
  obtain ⟨more, rfl⟩ := Nat.exists_eq_add_of_le hfuel
  have hwalk := h.walk_eq forest more [] hforest
  rw [walk_nil, List.append_nil, List.append_nil] at hwalk
  rw [hwalk]
  have hplaces : ∀ place ∈ NamedForest.places above forest, ∃ path : DataPath,
      path.segments = place := fun place hplace => by
    obtain ⟨tree, hat⟩ := Option.isSome_iff_exists.1
      (NamedForest.isSome_at?_of_mem_places h.lawful hforest hplace)
    exact h.exists_path hat
  -- Every place is a path, so none is dropped.
  generalize NamedForest.places above forest = places at hplaces
  induction places with
  | nil => rfl
  | cons place rest ih =>
    obtain ⟨path, rfl⟩ := hplaces place List.mem_cons_self
    have hpath : pathAt? path.segments = some path := by
      rw [pathAt?, path.ofSegments_segments]
      rfl
    rw [List.filterMap_cons, hpath]
    exact congrArg (_ :: ·) (ih fun other hother => hplaces other (List.mem_cons_of_mem _ hother))

/-- **The list of all paths** has the places of the layout. The order is that of the layout, in
which every tree comes before the trees beneath it. -/
theorem list_none_eq (h : s.LaidOut layout) :
    (s.list none).map (·.segments) = NamedForest.places [] layout := by
  show (s.walk s.len s.roots.values).map _ = _
  rw [h.roots]
  refine h.map_segments_walk (fun (name, tree) hmem => ?_) (Nat.le_of_eq h.len_eq.symm)
  rw [List.nil_append, NamedForest.at?, Keyed.find?_of_mem h.lawful.ordered hmem]
  rfl

theorem mem_list_none (h : s.LaidOut layout) {path : DataPath} :
    path ∈ s.list none ↔ (NamedForest.at? path.segments layout).isSome := by
  rw [← DataPath.mem_map_segments, h.list_none_eq, NamedForest.mem_places h.lawful]
  exact ⟨fun ⟨_, he, hat⟩ => he ▸ hat, fun hat => ⟨_, rfl, hat⟩⟩

/-- **The list of the paths at or beneath one** has the places of its tree. -/
theorem list_some_eq (h : s.LaidOut layout) {path : DataPath} {tree : LayoutTree}
    (hat : NamedForest.at? path.segments layout = some tree) :
    (s.list (some path)).map (·.segments)
      = NamedForest.places path.above [(path.name, tree)] := by
  have hsize := NamedForest.length_add_size_le hat
  have hpos := List.length_pos_iff.2 path.nonempty
  show (s.walk s.len (s.idOf? path).toList).map _ = _
  rw [h.idOf?_eq, hat]
  show (s.walk s.len (Layout.entries [(path.name, tree)]).values).map _ = _
  refine h.map_segments_walk (fun entry hentry => ?_) ?_
  · rw [List.mem_singleton.1 hentry, ← path.segments_eq, hat]
  · rw [h.len_eq]
    simp only [NamedTree.sizeForest]
    omega

end LaidOut

end Store

end Meshwork
