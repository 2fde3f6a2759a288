import Meshwork.Proofs.Store.Change
import Meshwork.Proofs.Store.PathMap

/-!
# Coherent stores

A store is coherent if it is laid out as some layout. For coherent stores,
`Store.Coherent.detach` and `Store.Coherent.attach` say what the two changes
answer and which map from paths to objects they leave, in terms of the map
before. The arena does not appear in them, so coherent stores with the same
map cannot be told apart by any sequence of changes.
-/

namespace Meshwork

/-- **The store is laid out** in some way. Which layout it is does not matter to those who use
this. -/
def Store.Coherent (s : Store) : Prop := ∃ layout, s.LaidOut layout

namespace Store

namespace LaidOut

variable {s : Store} {layout : Layout} {path : DataPath}

/-- The map of a store that is laid out has at a path what the layout has there. -/
theorem hasTree (h : s.LaidOut layout) {tree : LayoutTree}
    (hat : NamedForest.at? path.segments layout = some tree) :
    PathMap.HasTree s.get? path (.node tree.label.object (Layout.objects tree.children)) where
  lawful := by
    have hlaw := (h.lawful.below (NamedForest.below?_of_at? hat)).mapLabels (f := Tag.object)
    exact ⟨hlaw.ordered, hlaw.each⟩
  objects q rest hq := by
    rw [h.get?_eq, NamedForest.relative?_eq_some_iff.1 hq, NamedForest.labelAt?]
    cases rest with
    | nil =>
      rw [List.append_nil, hat]
      rfl
    | cons name rest =>
      rw [NamedForest.at?_append (List.cons_ne_nil _ _), NamedForest.below?_of_at? hat]
      exact (NamedForest.labelAt?_mapLabels Tag.object (name :: rest) tree.children).symm

end LaidOut

namespace Coherent

variable {s : Store} {path : DataPath} {subtree : Subtree} {overwrite : Bool}

theorem empty : Coherent empty := ⟨[], laidOut_empty⟩

/-! ## What the changes do

From here on the layout is only known to exist. A change is described by what it does to
the map, and leaves a store that is laid out somehow again. -/

theorem contains_eq (h : s.Coherent) (path : DataPath) : s.contains path = (s.get? path).isSome := by
  obtain ⟨layout, h⟩ := h
  rw [h.contains_eq, h.isSome_get?]

/-- **Taking out what lies at a path** gives a copy of it and prunes the map. Everything is said
of the map of the store, and nothing of its arena. -/
theorem detach (h : s.Coherent) (hpath : (s.get? path).isSome) :
    ∃ subtree s', (Store.detach path).apply s = (.ok subtree, s') ∧ s'.Coherent
      ∧ s'.get? = PathMap.prune path s.get? ∧ PathMap.HasTree s.get? path subtree.tree
      ∧ s.snapshot? path = some subtree ∧ s'.len + subtree.size = s.len := by
  obtain ⟨layout, h⟩ := h
  obtain ⟨tree, hat⟩ : ∃ tree, NamedForest.at? path.segments layout = some tree := by
    rw [h.get?_eq, Option.isSome_map] at hpath
    exact Option.isSome_iff_exists.1 (Option.isSome_map ▸ hpath)
  obtain ⟨subtree, s', happly, htree, hlaid, hlen⟩ := h.detach hat
  refine ⟨subtree, s', happly, ⟨_, hlaid⟩, funext fun q => ?_, htree ▸ h.hasTree hat, ?_, ?_⟩
  -- The map is read off the layout on both sides.
  · rw [hlaid.get?_eq, NamedForest.labelAt?_erase h.lawful, ← path.segments_eq]
    unfold PathMap.prune DataPath.relative?
    cases NamedForest.relative? path.segments q.segments with
    | none => exact (h.get?_eq q).symm
    | some rest => rfl
  · have hcopy := h.snapshot?_eq path
    rw [hat] at hcopy
    obtain ⟨copy, hcopy, he⟩ := Option.map_eq_some_iff.1 hcopy
    rw [hcopy, Subtree.ext (he.trans htree.symm)]
  · have hsize : subtree.size = tree.size := by
      rw [Subtree.size, htree, NamedTree.size, Layout.objects, NamedForest.sizeForest_mapLabels,
        tree.size_eq]
    rw [hsize, hlen]

theorem detach_error (h : s.Coherent) (hpath : s.get? path = none) :
    (Store.detach path).apply s = (.error (.notFound path), s) := by
  refine detach_none ?_
  have hcontains := h.contains_eq path
  rw [hpath] at hcontains
  exact Option.not_isSome_iff_eq_none.1 (by simpa [contains] using hcontains)

/-- **A copy of what lies at a path** is the tree of the map there. The copy is made by recursion
through the arena, which the layout follows. -/
theorem hasTree_snapshot? (h : s.Coherent) (hcopy : s.snapshot? path = some subtree) :
    PathMap.HasTree s.get? path subtree.tree := by
  obtain ⟨layout, h⟩ := h
  have htree := h.snapshot?_eq path
  rw [hcopy, Option.map_some] at htree
  obtain ⟨tree, hat, he⟩ := Option.map_eq_some_iff.1 htree.symm
  exact he ▸ h.hasTree hat

theorem get?_eq_none_of_snapshot? (hcopy : s.snapshot? path = none) :
    s.get? path = none := by
  rw [snapshot?, Option.map_eq_none_iff] at hcopy
  rw [get?, hcopy, Option.bind_none]

/-- What the check of one object accepts: the path is free or may be
overwritten, and the object fits beneath one that exists. -/
theorem checkCreate_eq_ok_iff (h : s.Coherent) {object : DataObject} :
    s.checkCreate path object overwrite = .ok () ↔
      (s.get? path = none ∨ overwrite = true)
        ∧ ∀ above, path.parent? = some above →
            ∃ holder, s.get? above = some holder ∧ Fits holder path.name object := by
  have hfree : (s.contains path && !overwrite) = true ↔ ¬(s.get? path = none ∨ overwrite = true) := by
    rw [h.contains_eq]
    cases s.get? path <;> cases overwrite <;> simp
  unfold checkCreate
  by_cases hconflict : (s.contains path && !overwrite) = true
  · simp [hconflict, hfree.1 hconflict, bind, Except.bind, throw, throwThe, MonadExceptOf.throw]
  · rw [if_neg hconflict, and_iff_right (not_not.1 (hfree.not.1 hconflict))]
    cases path.parent? with
    | none => simp [pure, Except.pure]
    | some above =>
      cases hholder : s.get? above with
      | none => simp [hholder, throw, throwThe, MonadExceptOf.throw]
      | some holder => simp [hholder, checkChild_eq_ok_iff]

/-- **What the check before an attachment accepts**: besides what concerns the topmost object,
everything in the tree is valid and fits. Whether a path is taken matters only without
overwriting. -/
theorem checkAttach_eq_ok_iff (h : s.Coherent) :
    s.checkAttach path subtree overwrite = .ok () ↔
      ((s.get? path = none ∨ overwrite = true)
        ∧ ∀ above, path.parent? = some above →
            ∃ holder, s.get? above = some holder ∧ Fits holder path.name subtree.label)
        ∧ subtree.tree.Lawful ∧ subtree.tree.FitsWithin := by
  rw [← h.checkCreate_eq_ok_iff, ← checkTree_eq_ok_iff path subtree.ordered]
  unfold checkAttach checkSubtree
  cases s.checkCreate path subtree.label overwrite with
  | error e => simp [bind, Except.bind]
  | ok _ => simp [bind, Except.bind]

/-- An object may be brought to a free path where it fits. -/
theorem checkAttach_leaf (h : s.Coherent) {object : DataObject} (hfree : s.get? path = none)
    (hfits : ∀ above, path.parent? = some above →
      ∃ holder, s.get? above = some holder ∧ Fits holder path.name object) :
    s.checkAttach path (.leaf object) false = .ok () :=
  h.checkAttach_eq_ok_iff.2 ⟨⟨Or.inl hfree, hfits⟩, NamedTree.lawful_leaf object,
    NamedTree.fitsWithin_leaf object⟩

end Coherent

/-- **Bringing a tree to a path** puts it into the layout there, with new identifiers, in place
of what was at or beneath the path. -/
theorem LaidOut.attach {s : Store} {layout : Layout} {path : DataPath} {subtree : Subtree}
    {overwrite : Bool} (h : s.LaidOut layout)
    (hcheck : s.checkAttach path subtree overwrite = .ok ()) :
    ∃ id s' layout', (Store.attach path subtree overwrite).apply s = (.ok id, s')
      ∧ s'.LaidOut layout'
      ∧ ∀ q : DataPath, NamedForest.labelAt? q.segments layout' = match path.relative? q with
        | some rest => (Layout.numberedTree s.nextId subtree.tree).labelAt? rest
        | none => NamedForest.labelAt? q.segments layout := by
  obtain ⟨⟨-, habove⟩, hlaw, -⟩ := Coherent.checkAttach_eq_ok_iff ⟨layout, h⟩ |>.1 hcheck
  rw [attach_ok hcheck]
  -- Something lies beneath the path above, which is there.
  obtain ⟨kids, hkids⟩ : ∃ kids, NamedForest.below? path.above layout = some kids := by
    cases hparent : path.parent? with
    | none => exact ⟨layout, by rw [DataPath.above_of_parent?_eq_none hparent]; rfl⟩
    | some above =>
      obtain ⟨holder, hholder, -⟩ := habove above hparent
      rw [h.get?_eq, NamedForest.labelAt?, Option.map_map] at hholder
      obtain ⟨tree, hat, -⟩ := Option.map_eq_some_iff.1 hholder
      exact ⟨_, by rw [DataPath.above_of_parent?_eq_some hparent, NamedForest.below?_of_at? hat]⟩
  -- What was at the path is taken out first, so the tree comes to a free one.
  have hfree : Keyed.find? path.name (Keyed.erase path.name kids) = none := by
    rw [Keyed.find?_erase _ _ (h.lawful.below hkids).ordered, if_pos rfl]
  have hbelow : NamedForest.below? path.above
      (NamedForest.alter (Keyed.erase path.name) path.above layout)
        = some (Keyed.erase path.name kids) := by
    rw [NamedForest.below?_alter, hkids, Option.map_some]
  obtain ⟨id, s', happly, hplanted⟩ := (h.vacate path).plant hbelow hfree hlaw
  refine ⟨id, s', _, happly, hplanted, fun q => ?_⟩
  rw [NamedForest.labelAt?_insert hbelow, ← path.segments_eq, nextId_vacate]
  unfold DataPath.relative?
  cases hq : NamedForest.relative? path.segments q.segments with
  | none =>
    show NamedForest.labelAt? q.segments _ = _
    rw [NamedForest.labelAt?_erase h.lawful, ← path.segments_eq, hq]
  | some rest => rfl

namespace Coherent

variable {s : Store} {path : DataPath} {subtree : Subtree} {overwrite : Bool}

/-- **Bringing a tree to a path** grafts it onto the map. What lies there already is replaced with
all beneath it, which the check has allowed. -/
theorem attach (h : s.Coherent) (hcheck : s.checkAttach path subtree overwrite = .ok ()) :
    ∃ id s', (Store.attach path subtree overwrite).apply s = (.ok id, s') ∧ s'.Coherent
      ∧ s'.get? = PathMap.graft path subtree.tree s.get? := by
  obtain ⟨layout, h⟩ := h
  obtain ⟨id, s', layout', happly, hlaid, hlabels⟩ := h.attach hcheck
  refine ⟨id, s', happly, ⟨layout', hlaid⟩, funext fun q => ?_⟩
  rw [hlaid.get?_eq, hlabels, PathMap.graft]
  cases path.relative? q with
  | none => exact (h.get?_eq q).symm
  | some rest => exact Layout.labelAt?_numberedTree _ rest subtree.tree

/-! ## The list of all paths

A list of paths is what a traversal of the arena gathers. What it contains, and in what
relation its entries are, can be said of the map. -/

/-- **The paths of the list** are those with an object. Listing goes through the arena, and a
look-up goes along a path; both are brought to the layout here. -/
theorem mem_list (h : s.Coherent) : path ∈ s.list none ↔ (s.get? path).isSome := by
  obtain ⟨layout, h⟩ := h
  rw [h.mem_list_none, h.isSome_get?]

/-- **A later path of the list is neither an earlier one nor above it.** It follows that no path
comes twice, and that none comes before one above it. -/
theorem pairwise_list (h : s.Coherent) :
    (s.list none).Pairwise fun path later => later.relative? path = none := by
  obtain ⟨layout, h⟩ := h
  have hplaces : (NamedForest.places [] layout).Pairwise _ := NamedForest.pairwise_places h.lawful
  rw [← h.list_none_eq, List.pairwise_map] at hplaces
  exact hplaces

/-! ## Stores with the same paths

The places of a layout without its objects are a forest of nothing. It is determined by
the paths, and the list of paths is read off it. -/

/-- The places of a layout are determined by where the map has objects. -/
theorem shape_eq {t : Store} {layout layout' : Layout} (hs : s.LaidOut layout)
    (ht : t.LaidOut layout') (h : ∀ path, (s.get? path).isSome = (t.get? path).isSome) :
    NamedForest.mapLabels (fun _ => ()) layout = NamedForest.mapLabels (fun _ => ()) layout' := by
  refine NamedForest.ext_labelAt? hs.lawful.mapLabels ht.lawful.mapLabels fun place => ?_
  have hat : (NamedForest.at? place layout).isSome = (NamedForest.at? place layout').isSome := by
    by_cases hplace : ∃ path : DataPath, path.segments = place
    · obtain ⟨path, rfl⟩ := hplace
      rw [← hs.isSome_get?, ← ht.isSome_get?, h]
    -- A place that is no path has no object in either.
    · have hnone : ∀ {s : Store} {layout : Layout}, s.LaidOut layout →
          NamedForest.at? place layout = none := fun hlaid =>
        Option.eq_none_iff_forall_ne_some.2 fun tree hat => hplace (hlaid.exists_path hat)
      rw [hnone hs, hnone ht]
  rw [NamedForest.labelAt?_mapLabels, NamedForest.labelAt?_mapLabels, NamedForest.labelAt?,
    NamedForest.labelAt?]
  cases hone : NamedForest.at? place layout with
  | none =>
    rw [hone] at hat
    rw [Option.isNone_iff_eq_none.1 (Option.isSome_eq_false_iff.1 hat.symm)]
  | some tree =>
    rw [hone] at hat
    obtain ⟨other, hother⟩ := Option.isSome_iff_exists.1 hat.symm
    rw [hother]
    rfl

/-- **Stores with the same paths list them** in the same order. The objects may be different
ones. -/
theorem list_eq_of_isSome {t : Store} (hs : s.Coherent) (ht : t.Coherent)
    (h : ∀ path, (s.get? path).isSome = (t.get? path).isSome) : s.list none = t.list none := by
  obtain ⟨layout, hs⟩ := hs
  obtain ⟨layout', ht⟩ := ht
  have hsegments : (s.list none).map DataPath.segments = (t.list none).map DataPath.segments := by
    rw [hs.list_none_eq, ht.list_none_eq, ← NamedForest.places_mapLabels fun _ => (),
      ← NamedForest.places_mapLabels (fun _ => ()) [] layout']
    exact congrArg _ (shape_eq hs ht h)
  exact (List.map_inj_right fun p q he => DataPath.ext he).1 hsegments

theorem list_eq {t : Store} (hs : s.Coherent) (ht : t.Coherent) (h : s.get? = t.get?) :
    s.list none = t.list none := hs.list_eq_of_isSome ht fun path => by rw [h]

theorem contents_eq {t : Store} (hs : s.Coherent) (ht : t.Coherent) (h : s.get? = t.get?) :
    s.contents = t.contents := by
  rw [contents, contents, hs.list_eq ht h, h]

end Coherent

end Store

end Meshwork
