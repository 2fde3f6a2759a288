import Meshwork.Proofs.Store.Layout

/-!
# Holders

Whatever changes in a store concerns the entries of one node – or the
top-level entries – and the cells beneath. A `Holder` is that node with its
entries left open. `Layout.exists_holder` takes the cells of a layout apart into
the entries of the holder at a place, the cells beneath them, and a frame
that no change there touches.

What is entered beneath a holder is numbered through (`Store.plantTree_opens`),
and what is taken out from beneath it is what the layout has there
(`Holder.Opens.takeOut`).
-/

namespace Meshwork

namespace Layout

/-! ## New identifiers

Objects that are brought in get identifiers in the order in which they are entered, a tree
before its siblings. The layout of the new part is known beforehand. -/

/-- Objects with identifiers from `next` on, every object before those
beneath it. -/
def numbered (next : ObjectId) : NamedForest DataObject → Layout
  | [] => []
  | (name, .node object children) :: rest =>
    (name, .node ⟨next, object⟩ (numbered (next + 1) children))
      :: numbered (next + 1 + NamedTree.sizeForest children) rest

theorem objects_numbered (next : ObjectId) (forest : NamedForest DataObject) :
    objects (numbered next forest) = forest := by
  induction forest using NamedForest.induction generalizing next with
  | nil => rw [numbered, objects, NamedForest.mapLabels]
  | cons name object children rest ihc ihr =>
    unfold objects at ihc ihr ⊢
    rw [numbered, NamedForest.mapLabels, ihc, ihr]

theorem keys_numbered (next : ObjectId) (forest : NamedForest DataObject) :
    Keyed.keys (numbered next forest) = Keyed.keys forest := by
  induction forest using NamedForest.induction generalizing next with
  | nil => rw [numbered]; rfl
  | cons name object children rest _ ih =>
    rw [numbered]
    exact congrArg (name :: ·) (ih _)

theorem lawful_numbered (next : ObjectId) {forest : NamedForest DataObject}
    (h : NamedForest.Lawful forest) : NamedForest.Lawful (numbered next forest) := by
  refine ⟨Keyed.ordered_of_keys_eq (keys_numbered next forest) h.ordered, ?_⟩
  have heach := h.each
  clear h
  induction forest using NamedForest.induction generalizing next with
  | nil => rw [numbered]; trivial
  | cons name object children rest ihc ihr =>
    obtain ⟨hname, ⟨hordered, hchildren⟩, hrest⟩ := heach
    rw [numbered]
    exact ⟨hname, ⟨Keyed.ordered_of_keys_eq (keys_numbered _ children) hordered, ihc _ hchildren⟩,
      ihr _ hrest⟩

/-- A tree with identifiers from `next` on. -/
def numberedTree (next : ObjectId) (tree : NamedTree DataObject) : LayoutTree :=
  .node ⟨next, tree.label⟩ (numbered (next + 1) tree.children)

theorem numbered_singleton (next : ObjectId) (name : String) (tree : NamedTree DataObject) :
    numbered next [(name, tree)] = [(name, numberedTree next tree)] := by
  obtain ⟨object, children⟩ := tree
  rw [numbered, numbered]
  rfl

theorem lawful_numberedTree {next : ObjectId} {tree : NamedTree DataObject} (h : tree.Lawful) :
    (numberedTree next tree).Lawful := by
  obtain ⟨object, children⟩ := tree
  have hchildren := lawful_numbered (next + 1) ⟨h.1, h.2⟩
  exact ⟨hchildren.ordered, hchildren.each⟩

/-- The labels of a tree with identifiers are its own. -/
theorem labelAt?_numberedTree (next : ObjectId) (place : List String)
    (tree : NamedTree DataObject) :
    ((numberedTree next tree).labelAt? place).map Tag.object = tree.labelAt? place := by
  obtain ⟨object, children⟩ := tree
  cases place with
  | nil => rfl
  | cons name rest =>
    have hlabels := NamedForest.labelAt?_mapLabels Tag.object (name :: rest)
      (numbered (next + 1) children)
    rw [show NamedForest.mapLabels _ _ = children from objects_numbered _ children] at hlabels
    exact hlabels.symm

/-- Identifiers are given out from `next` on. -/
theorem le_id_of_labelAt?_numbered {next : ObjectId} {place : List String}
    {forest : NamedForest DataObject} {tag : Tag}
    (h : NamedForest.labelAt? place (numbered next forest) = some tag) : next ≤ tag.id := by
  -- The children are numbered behind their object and the siblings behind all of these.
  induction forest using NamedForest.induction generalizing next place with
  | nil =>
    rw [numbered] at h
    cases place <;> cases h
  | cons name object children others ihc ihr =>
    rw [numbered] at h
    cases place with
    | nil => cases h
    | cons top rest =>
      rw [NamedForest.labelAt?, NamedForest.at?, Keyed.find?] at h
      split at h
      · cases rest with
        | nil =>
          obtain rfl := Option.some.inj h
          exact Nat.le_refl _
        | cons below rest =>
          have hlabel : NamedForest.labelAt? (below :: rest) (numbered (next + 1) children)
            = some tag := h
          exact Nat.le_of_succ_le (ihc hlabel)
      · have hlabel : NamedForest.labelAt? (top :: rest)
          (numbered (next + 1 + NamedTree.sizeForest children) others) = some tag := h
        have hle := ihr hlabel
        exact Nat.le_trans (Nat.le_trans (Nat.le_succ _) (Nat.le_add_right _ _)) hle

theorem le_id_of_labelAt?_numberedTree {next : ObjectId} {place : List String}
    {tree : NamedTree DataObject} {tag : Tag}
    (h : (numberedTree next tree).labelAt? place = some tag) : next ≤ tag.id := by
  cases place with
  | nil =>
    obtain rfl := Option.some.inj h
    exact Nat.le_refl _
  | cons name rest =>
    have hlabel : NamedForest.labelAt? (name :: rest) (numbered (next + 1) tree.children)
      = some tag := h
    exact Nat.le_of_succ_le (le_id_of_labelAt?_numbered hlabel)

end Layout

/-! ## Holders

The entries of a holder are what a change is about. Everything else that belongs to the
holder is fixed when it is opened. -/

/-- **Where entries are kept**: beside the arena, or in one of its nodes. The
rest of the node, and the top-level entries then, are fixed. -/
inductive Holder where
  /-- The top-level entries. -/
  | top
  /-- The entries of a node. -/
  | inside (id : ObjectId) (node : Node) (roots : Keyed ObjectId)

namespace Holder

/-- The identifier of the node. -/
def id? : Holder → Option ObjectId
  | top => none
  | inside id _ _ => some id

/-- The top-level entries, `own` being the entries of the holder. -/
def roots (own : Keyed ObjectId) : Holder → Keyed ObjectId
  | top => own
  | inside _ _ roots => roots

/-- The cell of the node, `own` being its entries. -/
def cells (own : Keyed ObjectId) : Holder → List Cell
  | top => []
  | inside id node _ => [(id, { node with children := own })]

/-- **The store is open at the holder**: it has the entries `own` there, and the cells `rest`
besides that of the holder. The cell of the holder is written with other children each time, and
all else is left alone. -/
structure Opens (holder : Holder) (s : Store) (own : Keyed ObjectId) (rest : List Cell) : Prop where
  /-- The top-level entries. -/
  roots : s.roots = holder.roots own
  /-- The cells. -/
  holds : s.Holds (holder.cells own ++ rest)

namespace Opens

variable {holder : Holder} {s : Store} {own : Keyed ObjectId} {rest : List Cell}

theorem perm {other : List Cell} (h : holder.Opens s own rest) (hperm : rest.Perm other) :
    holder.Opens s own other :=
  ⟨h.roots, h.holds.perm (hperm.append_left _)⟩

/-- The number of objects does not depend on the entries. -/
theorem len_eq (h : holder.Opens s own rest) :
    s.len = (holder.cells []).length + rest.length := by
  rw [Store.len, h.holds.nodes.size_eq, List.length_append]
  cases holder <;> rfl

/-- Changing the entries of the holder changes nothing else. -/
theorem alterEntries (f : Keyed ObjectId → Keyed ObjectId) (h : holder.Opens s own rest) :
    holder.Opens (s.alterEntries holder.id? f) (f own) rest := by
  cases holder with
  | top => exact ⟨congrArg f h.roots, h.holds.nodes, h.holds.fresh⟩
  | inside id node roots =>
    refine ⟨h.roots, h.holds.nodes.modify _, fun cell hcell => ?_⟩
    rcases List.mem_cons.1 hcell with rfl | hcell
    · exact h.holds.fresh (id, { node with children := own }) List.mem_cons_self
    · exact h.holds.fresh cell (List.mem_cons_of_mem _ hcell)

/-- A new node gets the next identifier, an entry in the holder and a cell. -/
theorem enter (name : String) (object : DataObject) (h : holder.Opens s own rest) :
    holder.Opens (s.enter holder.id? name object) (Keyed.insert name s.nextId own)
      ((s.nextId, ⟨name, holder.id?, [], object⟩) :: rest) := by
  have hentry := h.alterEntries (Keyed.insert name s.nextId)
  have hnext : (s.alterEntries holder.id? (Keyed.insert name s.nextId)).nextId = s.nextId := by
    cases holder <;> rfl
  have hfree := hentry.holds.nextId_not_mem
  rw [hnext] at hfree
  refine ⟨hentry.roots, ?_⟩
  have hfront : (s.enter holder.id? name object).Holds ((s.nextId, ⟨name, holder.id?, [], object⟩)
      :: (holder.cells (Keyed.insert name s.nextId own) ++ rest)) := by
    refine ⟨hentry.holds.nodes.insert hfree, fun cell hcell => ?_⟩
    rcases List.mem_cons.1 hcell with rfl | hcell
    · exact Nat.lt_succ_self _
    · exact Nat.lt_succ_of_lt (hnext ▸ hentry.holds.fresh cell hcell)
  exact hfront.perm List.perm_middle.symm

/-- The cell of a new node becomes a holder for what is to lie beneath it. -/
theorem descend {id : ObjectId} {node : Node} (h : holder.Opens s own ((id, node) :: rest)) :
    (Holder.inside id node (holder.roots own)).Opens s node.children (holder.cells own ++ rest) :=
  ⟨h.roots, h.holds.perm List.perm_middle⟩

/-- And back. -/
theorem ascend {id : ObjectId} {node : Node} {kids : Keyed ObjectId} {below : List Cell}
    (h : (Holder.inside id node (holder.roots own)).Opens s kids
      (below ++ (holder.cells own ++ rest))) :
    holder.Opens s own ((id, { node with children := kids }) :: (below ++ rest)) := by
  refine ⟨h.roots, h.holds.perm ?_⟩
  exact ((List.perm_append_comm_assoc below _ rest).cons _).trans List.perm_middle.symm

end Opens

end Holder

/-! ## Bringing in

Entering a tree makes its root a holder for its children, and turns back. The recursion is
that of the tree. -/

namespace Store

/-- **Entering trees** gives them new identifiers in order. The induction is on the forest, with
the holder general, because each tree becomes a holder in turn. -/
theorem plantEach_opens {forest : NamedForest DataObject} (hlaw : NamedForest.Lawful forest)
    {holder : Holder} {s : Store} {own : Keyed ObjectId} {rest : List Cell}
    (h : holder.Opens s own rest) :
    holder.Opens (plantEach holder.id? forest s)
        (Keyed.insertEach (Layout.numbered s.nextId forest).entries own)
        ((Layout.numbered s.nextId forest).cells holder.id? ++ rest)
      ∧ (plantEach holder.id? forest s).nextId = s.nextId + NamedTree.sizeForest forest := by
  induction forest using NamedForest.induction generalizing holder s own rest with
  | nil =>
    rw [Layout.numbered, Layout.cells]
    exact ⟨h, rfl⟩
  | cons name object children others ihc ihr =>
    have hchildren : NamedForest.Lawful children := hlaw.of_mem List.mem_cons_self
    have hordered : Keyed.Ordered (Layout.numbered (s.nextId + 1) children).entries :=
      Keyed.ordered_mapValues _ (Layout.lawful_numbered _ hchildren).ordered
    -- The node itself, what lies beneath it, and what comes after it.
    obtain ⟨hbelow, hnext⟩ := ihc hchildren (h.enter name object).descend
    have hbelow : (Holder.inside s.nextId ⟨name, holder.id?, [], object⟩
        (holder.roots (Keyed.insert name s.nextId own))).Opens
          (plantEach (some s.nextId) children (s.enter holder.id? name object))
          (Keyed.ofList (Layout.numbered (s.nextId + 1) children).entries)
          ((Layout.numbered (s.nextId + 1) children).cells (some s.nextId)
            ++ (holder.cells (Keyed.insert name s.nextId own) ++ rest)) := hbelow
    rw [Keyed.ofList_of_ordered hordered] at hbelow
    have hnext : (plantEach (some s.nextId) children (s.enter holder.id? name object)).nextId
        = s.nextId + 1 + NamedTree.sizeForest children := hnext
    obtain ⟨hafter, hlast⟩ := ihr hlaw.tail hbelow.ascend
    rw [hnext] at hafter hlast
    rw [Layout.numbered]
    refine ⟨hafter.perm ?_, hlast.trans ?_⟩
    · rw [Layout.cells, List.cons_append, List.append_assoc]
      exact List.perm_middle.trans ((List.perm_append_comm_assoc _ _ rest).cons _)
    · rw [NamedTree.sizeForest, NamedTree.size]
      simp only [Nat.add_assoc]

/-- **Entering a tree** under a name gives it an entry in the holder, and its objects new
identifiers in order. It is the case of one tree. -/
theorem plantTree_opens {name : String} {tree : NamedTree DataObject}
    (hname : ValidName name) (htree : tree.Lawful) {holder : Holder} {s : Store}
    {own : Keyed ObjectId} {rest : List Cell} (h : holder.Opens s own rest) :
    holder.Opens (plantTree holder.id? name tree s) (Keyed.insert name s.nextId own)
      (Layout.cells holder.id? [(name, Layout.numberedTree s.nextId tree)] ++ rest) := by
  rw [← Layout.numbered_singleton]
  obtain ⟨object, children⟩ := tree
  have hlaw : NamedForest.Lawful [(name, NamedTree.node object children)] :=
    ⟨List.pairwise_singleton _ _, hname, htree, trivial⟩
  have heach := (plantEach_opens hlaw h).1
  rw [Layout.numbered, Layout.numbered] at heach ⊢
  exact heach

end Store

/-! ## Taking out

Taking out goes down in the same way, and gives back the objects as it erases their cells. -/

theorem takeEach_cons (take : ObjectId → Arena → Subtree × Arena) (name : String) (id : ObjectId)
    (rest : Keyed ObjectId) (nodes : Arena) :
    takeEach take ((name, id) :: rest) nodes
      = ((name, (take id nodes).1) :: (takeEach take rest (take id nodes).2).1,
        (takeEach take rest (take id nodes).2).2) := rfl

theorem takeOut_succ (absent : Subtree) (fuel : Nat) {id : ObjectId} {nodes : Arena} {node : Node}
    (hnode : nodes[id]? = some node) :
    takeOut absent (fuel + 1) id nodes
      = (.node node.object (takeEach (takeOut absent fuel) node.children (nodes.erase id)).1,
        (takeEach (takeOut absent fuel) node.children (nodes.erase id)).2) := by
  rw [takeOut, hnode]

/-- **Taking out trees** gives them as they are in the layout, and leaves the other cells. The
induction is on the layout; a tree is taken out with all beneath it before the next one is. -/
theorem takeEach_eq {layout : Layout} (hlaw : NamedForest.Lawful layout) (absent : Subtree)
    {fuel : Nat} (hfuel : NamedTree.sizeForest layout ≤ fuel) {holder : Option ObjectId}
    {nodes : Arena} {rest : List Cell} (h : nodes.Holds (layout.cells holder ++ rest)) :
    Keyed.mapValues Subtree.tree (takeEach (takeOut absent fuel) layout.entries nodes).1
        = layout.objects
      ∧ (takeEach (takeOut absent fuel) layout.entries nodes).2.Holds rest := by
  induction layout using NamedForest.induction generalizing fuel holder nodes rest with
  | nil =>
    rw [Layout.cells] at h
    rw [Layout.objects, NamedForest.mapLabels]
    exact ⟨rfl, h⟩
  | cons name tag children others ihc ihr =>
    have hchildren : NamedForest.Lawful children := hlaw.of_mem List.mem_cons_self
    rw [NamedTree.sizeForest, NamedTree.size] at hfuel
    -- Taking the node takes one step, and a step for every node beneath is left.
    obtain ⟨fuel, rfl⟩ : ∃ less, fuel = less + 1 := ⟨fuel - 1, by omega⟩
    rw [Layout.cells, List.cons_append, List.append_assoc] at h
    -- The node, what lies beneath it, and what comes after it.
    have htake : takeEach (takeOut absent (fuel + 1))
        (Layout.entries ((name, .node tag children) :: others)) nodes
          = let below := takeEach (takeOut absent fuel) (Layout.entries children) (nodes.erase tag.id)
            let after := takeEach (takeOut absent (fuel + 1)) (Layout.entries others) below.2
            ((name, .node tag.object below.1) :: after.1, after.2) := by
      show takeEach _ ((name, tag.id) :: (Layout.entries others)) nodes = _
      rw [takeEach_cons, takeOut_succ absent fuel h.getElem?_head]
      rfl
    obtain ⟨hbelow, hothers⟩ := ihc hchildren (show NamedTree.sizeForest children ≤ fuel by omega) h.erase
    obtain ⟨hafter, hrest⟩ := ihr hlaw.tail
      (show NamedTree.sizeForest others ≤ fuel + 1 by omega) hothers
    have hnode : (Subtree.node tag.object
        (takeEach (takeOut absent fuel) (Layout.entries children) (nodes.erase tag.id)).1).tree
          = .node tag.object (Layout.objects children) := by
      rw [Subtree.tree_node, hbelow, Keyed.ofList_of_ordered (l := Layout.objects children)
        hchildren.mapLabels.ordered]
    rw [htake, Layout.objects, NamedForest.mapLabels]
    refine ⟨?_, hrest⟩
    rw [Keyed.mapValues_cons, hnode, hafter]
    rfl

/-- **Taking out a tree**: the case of one. The fuel has to be as much as there are objects in
it. -/
theorem takeOut_eq {name : String} {tree : LayoutTree} (hlaw : NamedForest.Lawful [(name, tree)])
    (absent : Subtree) {fuel : Nat} (hfuel : tree.size ≤ fuel) {holder : Option ObjectId}
    {nodes : Arena} {rest : List Cell} (h : nodes.Holds (Layout.cells holder [(name, tree)] ++ rest)) :
    (takeOut absent fuel tree.label.id nodes).1.tree
        = .node tree.label.object (Layout.objects tree.children)
      ∧ (takeOut absent fuel tree.label.id nodes).2.Holds rest := by
  obtain ⟨tag, children⟩ := tree
  obtain ⟨htree, hrest⟩ := takeEach_eq hlaw absent
    (show NamedTree.sizeForest [(name, _)] ≤ fuel by simpa [NamedTree.sizeForest] using hfuel) h
  rw [Layout.objects, NamedForest.mapLabels] at htree
  refine ⟨?_, hrest⟩
  exact (Prod.mk.inj (List.cons.inj htree).1).2

/-- What lies beneath a holder is taken out with its cells. -/
theorem Holder.Opens.takeOut {holder : Holder} {s : Store} {own : Keyed ObjectId}
    {rest : List Cell} {name : String} {tree : LayoutTree}
    (hlaw : NamedForest.Lawful [(name, tree)]) (absent : Subtree)
    (h : holder.Opens s own (Layout.cells holder.id? [(name, tree)] ++ rest)) :
    (Meshwork.takeOut absent s.len tree.label.id s.nodes).1.tree
        = .node tree.label.object (Layout.objects tree.children)
      ∧ holder.Opens { s with nodes := (Meshwork.takeOut absent s.len tree.label.id s.nodes).2 }
          own rest := by
  have hfront := h.holds.perm (List.perm_append_comm_assoc _ _ _)
  have hlen : tree.size ≤ s.len := by
    rw [Store.len, hfront.nodes.size_eq, List.length_append, Layout.length_cells,
      NamedTree.sizeForest]
    omega
  obtain ⟨htree, hrest⟩ := takeOut_eq hlaw absent hlen hfront.nodes
  exact ⟨htree, h.roots, hrest, fun cell hcell =>
    hfront.fresh cell (List.mem_append_right _ hcell)⟩

/-! ## Holders in a layout

A place in a layout is opened name by name. What is beside the way becomes part of the
frame. -/

namespace Layout

/-- Beneath a place with objects, the node above them can be changed alone. -/
theorem exists_inside {place : List String} {layout : Layout} {tree : LayoutTree}
    (hat : NamedForest.at? place layout = some tree) (holder : Option ObjectId) :
    ∃ (node : Node) (frame : List Cell), ∀ f : Layout → Layout,
      entries (NamedForest.alter f place layout) = entries layout
        ∧ (cells holder (NamedForest.alter f place layout)).Perm
            ((tree.label.id, { node with children := entries (f tree.children) })
              :: (cells (some tree.label.id) (f tree.children) ++ frame)) := by
  induction place generalizing layout holder with
  | nil => simp [NamedForest.at?] at hat
  | cons name rest ih =>
    obtain ⟨top, htop, hrest⟩ := Option.bind_eq_some_iff.1 hat
    obtain ⟨before, after, rfl, hmodify⟩ := NamedForest.modify_eq_of_find? htop
    -- What comes before and after the top of the way is in the frame throughout.
    suffices h : ∃ (node : Node) (frame : List Cell), ∀ f : Layout → Layout,
        (cells holder [(name, NamedTree.node top.label (NamedForest.alter f rest top.children))]).Perm
          ((tree.label.id, { node with children := entries (f tree.children) })
            :: (cells (some tree.label.id) (f tree.children) ++ frame)) by
      obtain ⟨node, frame, h⟩ := h
      refine ⟨node, frame ++ (cells holder before ++ cells holder after), fun f => ?_⟩
      show entries (NamedForest.modify name _ _) = _ ∧ (cells holder (NamedForest.modify name _ _)).Perm _
      rw [hmodify]
      constructor
      · simp [entries, Keyed.mapValues, NamedTree.label]
      · rw [← List.singleton_append, cells_append, cells_append]
        refine (List.perm_append_comm_assoc _ _ _).trans (((h f).append_right _).trans ?_)
        rw [List.cons_append, List.append_assoc]
    -- The node is the top of the way itself, or farther down with the top in the frame.
    cases rest with
    | nil =>
      obtain rfl := Option.some.inj hrest
      refine ⟨nodeOf holder name top, [], fun f => ?_⟩
      rw [cells, cells]
      exact List.Perm.refl _
    | cons next rest =>
      obtain ⟨node, frame, h⟩ := ih hrest (some top.label.id)
      refine ⟨node, (top.label.id, nodeOf holder name top) :: frame, fun f => ?_⟩
      obtain ⟨hentries, hcells⟩ := h f
      rw [cells, cells, List.append_nil, nodeOf]
      show ((top.label.id, (⟨name, holder, entries (NamedForest.alter f _ _), _⟩ : Node)) :: _).Perm _
      rw [hentries]
      exact (hcells.cons _).trans ((List.Perm.swap _ _ _).trans (List.perm_middle.symm.cons _))

/-- **The cells of a layout, taken apart at a place**: the entries of the holder
there, the cells beneath, and a frame that no change there touches. -/
theorem exists_holder {place : List String} {layout kids : Layout}
    (hkids : NamedForest.below? place layout = some kids) :
    ∃ (holder : Holder) (frame : List Cell), holder.id? = holderAt none place layout
      ∧ ∀ (s : Store) (f : Layout → Layout),
        (s.roots = entries (NamedForest.alter f place layout)
            ∧ s.Holds (cells none (NamedForest.alter f place layout)))
          ↔ holder.Opens s (entries (f kids)) (cells holder.id? (f kids) ++ frame) := by
  -- At the top the holder is the table of roots; elsewhere it is the node at the place.
  cases place with
  | nil =>
    obtain rfl := Option.some.inj hkids
    refine ⟨.top, [], rfl, fun s f => ?_⟩
    rw [List.append_nil]
    exact ⟨fun ⟨hroots, hholds⟩ => ⟨hroots, hholds⟩, fun h => ⟨h.roots, h.holds⟩⟩
  | cons name rest =>
    rw [NamedForest.below?_cons] at hkids
    obtain ⟨tree, hat, rfl⟩ := Option.map_eq_some_iff.1 hkids
    obtain ⟨node, frame, h⟩ := exists_inside hat none
    refine ⟨.inside tree.label.id node (entries layout), frame, (holderAt_of_at? hat).symm,
      fun s f => ?_⟩
    obtain ⟨hentries, hcells⟩ := h f
    rw [hentries]
    exact ⟨fun ⟨hroots, hholds⟩ => ⟨hroots, hholds.perm hcells⟩,
      fun h => ⟨h.roots, h.holds.perm hcells.symm⟩⟩

end Layout

end Meshwork
