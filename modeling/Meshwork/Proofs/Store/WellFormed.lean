import Mathlib.Logic.ExistsUnique
import Meshwork.Proofs.Store.Reachable

/-!
# The arena is a forest

Where an object lies is said three times in a store: by the entry that leads
to it, by the link to the node above, and by its name. `Store.WellFormed` says
that the three agree and that nothing is left over: every entry leads to a
node that names its holder, every node has one entry and is reached from the
top, and identifiers are never used again.

`Store.NeverMisses` is what follows for the functions that look nodes up. Each
of them has an answer for a node that is missing, and none of these answers
is ever given: not by a look-up, a copy or a listing, not when a subtree is
taken out, and not when one is put in place after the check has passed.
-/

namespace Meshwork

namespace Store

/-! ## A forest

The conditions are those that a program could check by walking through the arena, written
without a walk. -/

/-- The entries of a node, or those of the top-level nodes. -/
def entriesOf (s : Store) : (holder : Option ObjectId) → Keyed ObjectId
  | none => s.roots
  | some id =>
    match s.node? id with
    | none => []
    | some node => node.children

/-- **A node is reached from the top** by following entries. The first step is an entry at the
top, and each other one an entry of the node before. -/
inductive Linked (s : Store) : ObjectId → Prop
  | root {name : String} {id : ObjectId} (h : (name, id) ∈ s.entriesOf none) : Linked s id
  | child {holder : ObjectId} {name : String} {id : ObjectId} (hholder : Linked s holder)
      (h : (name, id) ∈ s.entriesOf (some holder)) : Linked s id

/-- **The arena is a forest**, and its links, entries and names agree. It is said in terms of
nodes and entries only, without a layout. -/
structure WellFormed (s : Store) : Prop where
  /-- Entries are in order, each name once. -/
  ordered : ∀ holder, Keyed.Ordered (s.entriesOf holder)
  /-- An entry leads to a node of its name, which is linked to its holder. -/
  entry : ∀ holder name id, (name, id) ∈ s.entriesOf holder →
    ∃ node, s.node? id = some node ∧ node.name = name ∧ node.parent = holder
  /-- A node has exactly one entry. -/
  held : ∀ id node, s.node? id = some node →
    ∃! entry : Option ObjectId × String, (entry.2, id) ∈ s.entriesOf entry.1
  /-- A node is reached from the top. -/
  linked : ∀ id node, s.node? id = some node → s.Linked id
  /-- A node has a valid name. -/
  named : ∀ id node, s.node? id = some node → ValidName node.name
  /-- A node has an identifier that is not given out again. -/
  fresh : ∀ id node, s.node? id = some node → id < s.nextId

/-- **No node is ever missing** where one is looked up. Each field is about one of the places in
which the program takes a node for granted. -/
structure NeverMisses (s : Store) : Prop where
  /-- A path leads to a node. -/
  found : ∀ path id, s.idOf? path = some id → (s.node? id).isSome
  /-- Above a node, there is a node. -/
  above : ∀ id holder, s.parentOf? id = some holder → (s.node? holder).isSome
  /-- A node has a path, which leads back to it. -/
  path : ∀ id, (s.node? id).isSome → ∃ path, s.pathOf? id = some path ∧ s.idOf? path = some id
  /-- No listing passes over a node. -/
  listed : (s.list none).length = s.len
  /-- What stands for a missing node does not appear in a copy. -/
  copied : ∀ path id, s.idOf? path = some id → ∀ absent absent',
    s.copyFrom absent s.len id = s.copyFrom absent' s.len id
  /-- Nor does it in what is taken out. -/
  taken : ∀ path id, s.idOf? path = some id → ∀ absent absent',
    let s' := s.alterEntries (s.parentOf? id) (Keyed.erase path.name)
    (takeOut absent s'.len id s'.nodes).1 = (takeOut absent' s'.len id s'.nodes).1
  /-- What the check of an attachment accepts is attached. -/
  attached : ∀ path subtree overwrite,
    ((attach path subtree overwrite).apply s).1.map (fun _ => ())
      = s.checkAttach path subtree overwrite

namespace LaidOut

variable {s : Store} {layout : Layout}

/-! ## Read off a layout

Entries, links and names are those of a place, and the place of a node is one. That all
three agree is not proved by cases: they are three readings of the same place. -/

/-- The entries of a store are those of its layout. -/
theorem mem_entriesOf (h : s.LaidOut layout) {holder : Option ObjectId} {name : String}
    {id : ObjectId} : (name, id) ∈ s.entriesOf holder ↔ ∃ place tree,
      NamedForest.at? (place ++ [name]) layout = some tree ∧ tree.label.id = id
        ∧ Layout.holderAt none place layout = holder := by
  have hentries : ∀ forest : Layout, (name, id) ∈ Layout.entries forest
      ↔ ∃ tree, (name, tree) ∈ forest ∧ tree.label.id = id := fun forest => by
    simp [Layout.entries, Keyed.mapValues]
  -- Without a holder the entries are the roots, which are those at the empty place.
  constructor
  · intro hmem
    cases holder with
    | none =>
      rw [entriesOf, h.roots, hentries] at hmem
      obtain ⟨tree, hmem, hid⟩ := hmem
      refine ⟨[], tree, ?_, hid, rfl⟩
      rw [List.nil_append, NamedForest.at?, Keyed.find?_of_mem h.lawful.ordered hmem]
      rfl
    | some above =>
      cases hnode : s.node? above with
      | none => simp [entriesOf, hnode] at hmem
      | some node =>
        simp only [entriesOf, hnode] at hmem
        obtain ⟨place, top, found, hat, rfl, rfl⟩ := h.exists_at?_of_node? hnode
        obtain ⟨tree, hmem, hid⟩ := (hentries found.children).1 hmem
        have hlaw := h.lawful.below (NamedForest.below?_of_at? hat)
        exact ⟨place ++ [top], tree,
          NamedForest.at?_concat hat (Keyed.find?_of_mem hlaw.ordered hmem), hid,
          Layout.holderAt_of_at? hat⟩
  · rintro ⟨place, tree, hat, rfl, rfl⟩
    rcases List.eq_nil_or_concat' place with rfl | ⟨init, last, rfl⟩
    · obtain ⟨found, hfound, hrest⟩ := Option.bind_eq_some_iff.1 hat
      obtain rfl := Option.some.inj hrest
      show _ ∈ s.roots
      rw [h.roots]
      exact (hentries layout).2 ⟨found, Keyed.mem_of_find? hfound, rfl⟩
    · obtain ⟨above, habove, hfind⟩ := NamedForest.exists_at?_of_at?_concat (by simp) hat
      rw [Layout.holderAt_of_at? habove, entriesOf, h.node?_eq habove]
      exact (hentries above.children).2 ⟨tree, Keyed.mem_of_find? hfind, rfl⟩

/-- Every node of the layout is reached from the top, by way of its place. -/
theorem linked_of_at? (h : s.LaidOut layout) {place : List String} {name : String}
    {tree : LayoutTree} (hat : NamedForest.at? (place ++ [name]) layout = some tree) :
    s.Linked tree.label.id := by
  induction hlength : place.length generalizing place name tree with
  | zero =>
    obtain rfl := List.length_eq_zero_iff.1 hlength
    exact .root (h.mem_entriesOf.2 ⟨[], tree, hat, rfl, rfl⟩)
  | succ n ih =>
    rcases List.eq_nil_or_concat' place with rfl | ⟨init, last, rfl⟩
    · cases hlength
    obtain ⟨above, habove, -⟩ := NamedForest.exists_at?_of_at?_concat (by simp) hat
    refine .child (ih habove (by simpa using hlength)) (h.mem_entriesOf.2
      ⟨init ++ [last], tree, hat, rfl, Layout.holderAt_of_at? habove⟩)

/-- **A store that is laid out is a forest.** The links of the arena are those of the layout,
which is a forest by its type. -/
theorem wellFormed (h : s.LaidOut layout) : s.WellFormed where
  ordered holder := by
    cases holder with
    | none =>
      rw [entriesOf, h.roots]
      exact Keyed.ordered_mapValues _ h.lawful.ordered
    | some id =>
      cases hnode : s.node? id with
      | none => simp [entriesOf, hnode, Keyed.Ordered]
      | some node =>
        obtain ⟨place, name, tree, hat, rfl, rfl⟩ := h.exists_at?_of_node? hnode
        simp only [entriesOf, hnode]
        show Keyed.Ordered (Layout.entries tree.children)
        exact Keyed.ordered_mapValues _ (h.lawful.below (NamedForest.below?_of_at? hat)).ordered
  entry holder name id hmem := by
    obtain ⟨place, tree, hat, rfl, rfl⟩ := h.mem_entriesOf.1 hmem
    exact ⟨_, h.node?_eq hat, rfl, rfl⟩
  held id node hnode := by
    obtain ⟨place, name, tree, hat, rfl, rfl⟩ := h.exists_at?_of_node? hnode
    refine ⟨(_, name), h.mem_entriesOf.2 ⟨place, tree, hat, rfl, rfl⟩, fun entry hmem => ?_⟩
    -- Both entries lead to one node, which names its holder and itself.
    obtain ⟨holder, other⟩ := entry
    obtain ⟨place', tree', hat', hid, rfl⟩ := h.mem_entriesOf.1 hmem
    have hsame := (h.node?_eq hat').symm.trans (hid ▸ hnode)
    obtain ⟨hname, hholder, -⟩ := Node.mk.inj (Option.some.inj hsame)
    exact Prod.ext hholder hname
  linked id node hnode := by
    obtain ⟨place, name, tree, hat, rfl, rfl⟩ := h.exists_at?_of_node? hnode
    exact h.linked_of_at? hat
  named id node hnode := by
    obtain ⟨place, name, tree, hat, rfl, rfl⟩ := h.exists_at?_of_node? hnode
    exact h.lawful.validName hat name (by simp)
  fresh id node hnode := h.holds.fresh _ ((h.holds.nodes.getElem?_eq_some id node).1 hnode)

/-- What a path leads to is an object of the layout. -/
theorem exists_at?_of_idOf? (h : s.LaidOut layout) {path : DataPath} {id : ObjectId}
    (hid : s.idOf? path = some id) :
    ∃ tree, NamedForest.at? path.segments layout = some tree ∧ tree.label.id = id := by
  rw [h.idOf?_eq] at hid
  exact Option.map_eq_some_iff.1 hid

/-- **In a store that is laid out, no node is missing.** Every identifier that is met on the way
is that of a cell. -/
theorem neverMisses (h : s.LaidOut layout) : s.NeverMisses where
  found path id hid := by
    obtain ⟨tree, hat, rfl⟩ := h.exists_at?_of_idOf? hid
    rw [path.segments_eq] at hat
    exact Option.isSome_of_eq_some (h.node?_eq hat)
  above id holder hholder := by
    obtain ⟨node, hnode, hparent⟩ := Option.bind_eq_some_iff.1 hholder
    obtain ⟨place, name, tree, hat, rfl, rfl⟩ := h.exists_at?_of_node? hnode
    rcases List.eq_nil_or_concat' place with rfl | ⟨init, last, rfl⟩
    · cases hparent
    obtain ⟨above, habove, -⟩ := NamedForest.exists_at?_of_at?_concat (by simp) hat
    obtain rfl := Option.some.inj ((Layout.holderAt_of_at? habove).symm.trans hparent)
    exact Option.isSome_of_eq_some (h.node?_eq habove)
  path id hlive := by
    obtain ⟨node, hnode⟩ := Option.isSome_iff_exists.1 hlive
    obtain ⟨place, name, tree, hat, rfl, -⟩ := h.exists_at?_of_node? hnode
    obtain ⟨path, hpath⟩ := h.exists_path hat
    rw [← hpath] at hat
    exact ⟨path, h.pathOf?_eq hat, by rw [h.idOf?_eq, hat]; rfl⟩
  listed := by
    rw [← List.length_map (f := DataPath.segments), h.list_none_eq, NamedForest.length_places,
      h.len_eq]
  -- The fuel is the number of objects, which no tree in the store exceeds.
  copied path id hid absent absent' := by
    obtain ⟨tree, hat, rfl⟩ := h.exists_at?_of_idOf? hid
    have hsize : tree.size ≤ s.len := by
      have hle := NamedForest.length_add_size_le hat
      have hpos := List.length_pos_iff.2 path.nonempty
      rw [h.len_eq]
      omega
    exact Subtree.ext ((h.copyFrom_eq absent hat hsize).trans (h.copyFrom_eq absent' hat hsize).symm)
  taken path id hid absent absent' := by
    obtain ⟨tree, hat, rfl⟩ := h.exists_at?_of_idOf? hid
    exact Subtree.ext ((h.takeOut hat absent).1.trans (h.takeOut hat absent').1.symm)
  attached path subtree overwrite := by
    cases hcheck : s.checkAttach path subtree overwrite with
    | error e => rw [attach_error hcheck]; rfl
    | ok _ =>
      obtain ⟨id, s', happly, -⟩ := Coherent.attach ⟨layout, h⟩ hcheck
      rw [happly]
      rfl

end LaidOut

/-- **After any operations, the arena is a forest and no node is missing.** Operations that are
refused are among them. -/
theorem wellFormed_after (operations : List Operation) :
    (after operations).WellFormed ∧ (after operations).NeverMisses := by
  obtain ⟨layout, h⟩ := (sound_after operations).coherent
  exact ⟨h.wellFormed, h.neverMisses⟩

end Store

end Meshwork
