import Meshwork.Container.Document
import Meshwork.Proofs.Store.Fingerprint
import Meshwork.Proofs.Store.Refinement
import Meshwork.Xdmf.Document

/-!
# Equality, and what is shown of a store, ignore its history

Two stores with the same objects may differ in everything else: in their identifiers,
in how the arena is laid out, and in what once was in them. None of this shows.

Equality of stores counts objects and then compares two lists of paths position by
position. As such a list is complete and in an order of its own, two stores are equal
exactly if they have equal objects at the same paths (`Store.Sound.eqv_iff`). And where
the objects are the same to the last bit, so is all that is made of them
(`Store.SameViews`): a layout without its identifiers is determined by the objects
(`Store.LaidOut.objects_eq`), and lists are read off it.
-/

namespace Meshwork

namespace Store

variable {s t : Store}

/-! ## Equality

Equality of objects is not quite being the same: a NaN differs from itself. So equality of
stores is what the comparison finds, and no more is claimed. -/

/-- **Equal objects at the same paths.** Objects are compared as the program does, so a float that
is no number is not equal to itself. -/
def Equal (s t : Store) : Prop :=
  ∀ path, Option.Rel (fun a b => DataObject.eqv a b = true) (s.get? path) (t.get? path)

theorem foundEqv_iff {a b : Option DataObject} :
    foundEqv a b = true ↔ Option.Rel (fun a b => DataObject.eqv a b = true) a b := by
  cases a <;> cases b <;> simp [foundEqv]

theorem Sound.length_list (h : s.Sound) : (s.list none).length = s.len := by
  obtain ⟨layout, hlaid⟩ := h.coherent
  exact hlaid.neverMisses.listed

/-- The comparison goes through two lists of the same length. -/
theorem Sound.eqv_iff_forall₂ (hs : s.Sound) (ht : t.Sound) :
    s.eqv t = true ↔ List.Forall₂ (fun p q => p = q ∧ foundEqv (s.get? p) (t.get? q) = true)
      (s.list none) (t.list none) := by
  rw [eqv, Bool.and_eq_true, beq_iff_eq, ← hs.length_list, ← ht.length_list, List.all_eq_true,
    List.forall₂_iff_zip]
  simp only [Bool.and_eq_true, beq_iff_eq, Prod.forall]

/-- **Stores are equal** if and only if they have equal objects at the same paths. The order in
which either came to have them does not matter, nor do the identifiers. -/
theorem Sound.eqv_iff (hs : s.Sound) (ht : t.Sound) : s.eqv t = true ↔ s.Equal t := by
  rw [hs.eqv_iff_forall₂ ht]
  constructor
  · intro h path
    have hpaths : s.list none = t.list none :=
      List.forall₂_eq_eq_eq ▸ h.imp fun _ _ hpq => hpq.1
    by_cases hpath : path ∈ s.list none
    · rw [← hpaths, List.forall₂_same] at h
      exact foundEqv_iff.1 (h path hpath).2
    -- A path that neither list has is free in both stores.
    · have hfree := mt hs.coherent.mem_list.2 hpath
      have hfree' := mt ht.coherent.mem_list.2 (hpaths ▸ hpath)
      rw [Option.not_isSome_iff_eq_none.1 hfree, Option.not_isSome_iff_eq_none.1 hfree']
      exact .none
  · intro h
    have hsome := fun path => isSome_eq_of_rel (h path)
    rw [← hs.coherent.list_eq_of_isSome ht.coherent hsome, List.forall₂_same]
    exact fun path _ => ⟨rfl, foundEqv_iff.2 (h path)⟩

/-! ## Views

A view is anything that is computed of a store for somebody outside. Each is computed of
the objects and the lists of paths, and none of the identifiers. -/

/-- **Two stores look the same**, whatever is made of them. These are all that is ever shown of a
store, its identifiers left aside. -/
structure SameViews (s t : Store) : Prop where
  /-- The lists of all paths, and of those at or beneath one. -/
  list : ∀ top, s.list top = t.list top
  /-- The paths directly beneath one. -/
  children? : ∀ path, s.children? path = t.children? path
  /-- The top-level paths. -/
  topLevel : s.topLevel = t.topLevel
  /-- The fingerprint. -/
  fingerprint : s.fingerprint = t.fingerprint
  /-- The container, with its objects and their checksum. -/
  container : ∀ now, Container.ofStore now s = Container.ofStore now t
  /-- The descriptor. -/
  descriptor : Xdmf.render s = Xdmf.render t

/-- **A layout without identifiers** is determined by the objects of the store. By the order of
the entries there is just one forest with these objects. -/
theorem LaidOut.objects_eq {layout layout' : Layout} (hs : s.LaidOut layout)
    (ht : t.LaidOut layout') (h : s.get? = t.get?) : layout.objects = layout'.objects := by
  refine NamedForest.ext_labelAt? hs.lawful.mapLabels ht.lawful.mapLabels fun place => ?_
  rw [Layout.objects, Layout.objects, NamedForest.labelAt?_mapLabels,
    NamedForest.labelAt?_mapLabels]
  by_cases hplace : ∃ path : DataPath, path.segments = place
  · obtain ⟨path, rfl⟩ := hplace
    rw [← hs.get?_eq, ← ht.get?_eq, h]
  · -- A place that is no path has no object in either.
    have hnone : ∀ {s : Store} {layout : Layout}, s.LaidOut layout →
        NamedForest.labelAt? place layout = none := fun hlaid => by
      rw [NamedForest.labelAt?, Option.map_eq_none_iff]
      exact Option.eq_none_iff_forall_ne_some.2 fun tree hat => hplace (hlaid.exists_path hat)
    rw [hnone hs, hnone ht]

/-- A list of paths is read off the layout without identifiers. -/
theorem LaidOut.list_eq_places {layout : Layout} (h : s.LaidOut layout) (top : Option DataPath) :
    (s.list top).map (·.segments) = match top with
      | none => NamedForest.places [] layout.objects
      | some top => match NamedForest.at? top.segments layout.objects with
        | none => []
        | some tree => NamedForest.places top.above [(top.name, tree)] := by
  -- Without a top the walk goes over all; with one it goes over a single tree, or over nothing.
  cases top with
  | none => rw [h.list_none_eq, Layout.objects, NamedForest.places_mapLabels]
  | some top =>
    dsimp only
    rw [Layout.objects, NamedForest.at?_mapLabels]
    cases hat : NamedForest.at? top.segments layout with
    | none =>
      have hid : s.idOf? top = none := by rw [h.idOf?_eq, hat, Option.map_none]
      rw [list]
      simp only [hid, Option.toList_none, walk_nil]
      rfl
    | some tree =>
      rw [h.list_some_eq hat, ← NamedForest.places_mapLabels Tag.object]
      obtain ⟨tag, children⟩ := tree
      rw [NamedForest.mapLabels, NamedForest.mapLabels]
      rfl

theorem Coherent.list_eq_of_get? (hs : s.Coherent) (ht : t.Coherent) (h : s.get? = t.get?)
    (top : Option DataPath) : s.list top = t.list top := by
  obtain ⟨layout, hs⟩ := hs
  obtain ⟨layout', ht⟩ := ht
  have hsegments : (s.list top).map (·.segments) = (t.list top).map (·.segments) := by
    rw [hs.list_eq_places, ht.list_eq_places, hs.objects_eq ht h]
  exact (List.map_inj_right fun p q he => DataPath.ext he).1 hsegments

/-- The top-level paths have the names of the layout. -/
theorem Coherent.topLevel_eq (hs : s.Coherent) (ht : t.Coherent) (h : s.get? = t.get?) :
    s.topLevel = t.topLevel := by
  obtain ⟨layout, hs⟩ := hs
  obtain ⟨layout', ht⟩ := ht
  have hkeys : ∀ {s : Store} {layout : Layout}, s.LaidOut layout →
      s.roots.keys = Keyed.keys layout.objects := fun {s layout} hlaid => by
    rw [hlaid.roots, Layout.entries, Layout.objects, NamedForest.mapLabels_eq, Keyed.keys_mapValues,
      Keyed.keys_mapValues]
  rw [topLevel, topLevel, hkeys hs, hkeys ht, hs.objects_eq ht h]

/-- Paths in order of their names are determined by which they are. -/
theorem eq_of_pairwise_name {paths paths' : List DataPath}
    (h : (paths.map DataPath.name).Pairwise (· < ·)) (h' : (paths'.map DataPath.name).Pairwise (· < ·))
    (hmem : ∀ path, path ∈ paths ↔ path ∈ paths') : paths = paths' := by
  rw [List.pairwise_map] at h h'
  have hnodup : ∀ {l : List DataPath}, l.Pairwise (fun p q => p.name < q.name) → l.Nodup := by
    intro l hl
    refine hl.imp fun {p q} hlt he => ?_
    rw [he] at hlt
    exact String.lt_irrefl _ hlt
  exact ((List.perm_ext_iff_of_nodup (hnodup h) (hnodup h')).2 hmem).eq_of_pairwise
    (fun p q _ _ hpq hqp => absurd (String.lt_trans hpq hqp) (String.lt_irrefl _)) h h'

/-- The paths beneath one are determined by the map that a store represents. -/
theorem Represents.children?_eq {map : PathMap} (hs : s.Represents map) (ht : t.Represents map)
    (path : DataPath) : s.children? path = t.children? path := by
  cases hpath : map path with
  | none => rw [hs.noChildren path hpath, ht.noChildren path hpath]
  | some object =>
    obtain ⟨paths, heq, hnames, hmem⟩ := hs.children path (Option.isSome_of_eq_some hpath)
    obtain ⟨paths', heq', hnames', hmem'⟩ := ht.children path (Option.isSome_of_eq_some hpath)
    rw [heq, heq', eq_of_pairwise_name hnames hnames' fun child => by rw [hmem, hmem']]

/-- **Stores with the same objects look the same.** All views are made from the layout without its
identifiers. -/
theorem Sound.sameViews (hs : s.Sound) (ht : t.Sound) (h : s.get? = t.get?) : s.SameViews t := by
  have hcontents := hs.coherent.contents_eq ht.coherent h
  have hchildren : s.children? = t.children? :=
    funext fun path => hs.represents.children?_eq (h ▸ ht.represents) path
  have hattributes : Xdmf.attributesOf s = Xdmf.attributesOf t := by
    funext path center matrix
    rw [Xdmf.attributesOf, Xdmf.attributesOf, hchildren, h]
  -- Contents and children are all that the views are made of.
  exact {
    list := hs.coherent.list_eq_of_get? ht.coherent h
    children? := congrFun hchildren
    topLevel := hs.coherent.topLevel_eq ht.coherent h
    fingerprint := by rw [fingerprint, fingerprint, fingerprintBytes, fingerprintBytes, hcontents]
    container := fun now => by
      rw [Container.ofStore, Container.ofStore, Container.entriesOf, Container.entriesOf, hcontents]
    descriptor := by
      have hgrid : Xdmf.Grid.ofGeometry s = Xdmf.Grid.ofGeometry t := by
        funext path g
        rw [Xdmf.Grid.ofGeometry, Xdmf.Grid.ofGeometry, hattributes]
      rw [Xdmf.render, Xdmf.render, Xdmf.gridsOf, Xdmf.gridsOf, hcontents, hgrid] }

/-- What the contents list determines what lies where. -/
theorem Coherent.get?_eq_of_contents_eq (hs : s.Coherent) (ht : t.Coherent)
    (h : s.contents = t.contents) : s.get? = t.get? := by
  funext path
  exact Option.ext fun object => by rw [← hs.mem_contents, ← ht.mem_contents, h]

/-- **Equality and views ignore history.** Two reachable stores, whatever operations led to
them, are equal exactly if they have equal objects at the same paths. If the objects are the
same to the last bit, the stores look the same. -/
theorem eqv_iff_and_sameViews_after (operations operations' : List Operation) :
    let s := after operations
    let t := after operations'
    (s.eqv t = true ↔ s.Equal t) ∧ ((∀ path, s.get? path = t.get? path) → s.SameViews t) := by
  intro s t
  have hs : s.Sound := sound_after operations
  have ht : t.Sound := sound_after operations'
  exact ⟨hs.eqv_iff ht, fun h => hs.sameViews ht (funext h)⟩

/-- Two ways to the same objects: one brings them in order, the other in the opposite order,
with groups that are taken out again and one that is replaced. Their identifiers differ. -/
theorem sameViews_after_roundabout :
    let a := DataPath.single "A" (by decide)
    let b := DataPath.single "B" (by decide)
    let array : DataObject := .array ⟨.uint8 [1, 2], 1, by decide, by decide⟩
    let straight := [Operation.create a .group false, .create (a.push "x" (by decide)) array false,
      .create b (.attributeMatrix ⟨2⟩) false]
    let roundabout := [Operation.create b .group false, .createGroups (a.push "y" (by decide)),
      .create (a.push "x" (by decide)) array false, .remove (a.push "y" (by decide)),
      .create b (.attributeMatrix ⟨2⟩) true]
    (∀ path, (after straight).get? path = (after roundabout).get? path)
      ∧ (after straight).idOf? b ≠ (after roundabout).idOf? b
      ∧ (after straight).SameViews (after roundabout) := by
  intro a b array straight roundabout
  have hcontents : (after straight).contents = (after roundabout).contents := by decide +kernel
  have hget := congrFun ((sound_after straight).coherent.get?_eq_of_contents_eq
    (sound_after roundabout).coherent hcontents)
  exact ⟨hget, by decide +kernel, (eqv_iff_and_sameViews_after straight roundabout).2 hget⟩

end Store

end Meshwork
