import Meshwork.Proofs.Store.Passage

/-!
# Outlines of objects

Where a group or a geometry may lie depends on little of what a store holds: on
the kinds of the objects, and on the names that the geometries register. This is
the outline of an object, and its data has no part in it.

Two maps are alike if they have objects with the same outlines at the same paths
(`PathMap.Alike`). The same paths can be passed in both, and they stay alike if
alike trees are brought to a path of both.
-/

namespace Meshwork

/-! ## Outlines

A geometry registers two names. Beneath it, a group may lie under any other name; beneath
a matrix, never; beneath a group, always. The outline has just this. -/

/-- **What decides about the place of an object** and of groups beneath it. It says nothing of
matrices and arrays but their kind, as no group may lie beneath them in any case. -/
structure Outline where
  /-- The kind of the object. -/
  kind : ObjectKind
  /-- The name that a geometry registers for vertex data. -/
  vertexData : Option String
  /-- The name that a geometry registers for face data. -/
  faceData : Option String
deriving DecidableEq

/-- **The outline of an object.** Two geometries with the same registered names have the same one,
whatever their vertices and faces are. -/
def DataObject.outline : DataObject → Outline
  | .geometry g => ⟨.geometry, g.vertexData, g.faceData⟩
  | object => ⟨object.kind, none, none⟩

section

variable {object other holder child : DataObject} {name : String}

theorem DataObject.kind_outline (object : DataObject) : object.outline.kind = object.kind := by
  cases object <;> rfl

theorem DataObject.kind_eq_of_outline (h : object.outline = other.outline) :
    object.kind = other.kind := by
  rw [← object.kind_outline, h, other.kind_outline]

theorem DataObject.isContainer_eq_of_outline (h : object.outline = other.outline) :
    object.isContainer = other.isContainer := by
  have hkind := kind_eq_of_outline h
  cases object <;> cases other <;> first | rfl | cases hkind

/-- Groups lie beneath geometries under names that are not registered. -/
theorem fits_geometry_group_iff {geometry : Geometry} :
    Fits (.geometry geometry) name .group
      ↔ geometry.vertexData ≠ some name ∧ geometry.faceData ≠ some name := by
  have hfits : Fits (.geometry geometry) name .group ↔ geometry.requiredTuples? name = none := by
    rw [Option.eq_none_iff_forall_ne_some]
    exact forall_congr' fun expected => imp_congr_right fun _ =>
      iff_of_false (fun ⟨_, h, _⟩ => nomatch h) id
  rw [hfits, Geometry.requiredTuples?]
  split
  · simp [*]
  · split <;> simp [*]

/-- **The outline of an object decides** whether a group may lie beneath it. For objects of other
kinds the number of tuples would be decisive as well. -/
theorem fits_group_iff_of_outline (h : holder.outline = other.outline) :
    Fits holder name .group ↔ Fits other name .group := by
  have hkind := DataObject.kind_eq_of_outline h
  cases holder with
  | group => cases other <;> first | exact Iff.rfl | cases hkind
  | array => cases other <;> first | exact Iff.rfl | cases hkind
  | attributeMatrix =>
    cases other with
    | attributeMatrix => exact iff_of_false (fun ⟨_, h, _⟩ => nomatch h) fun ⟨_, h, _⟩ => nomatch h
    | group | array | geometry => cases hkind
  | geometry =>
    cases other with
    | geometry =>
      obtain ⟨-, hvertex, hface⟩ := Outline.mk.inj h
      rw [fits_geometry_group_iff, fits_geometry_group_iff, hvertex, hface]
    | group | array | attributeMatrix => cases hkind

/-- A geometry may lie where a group may. -/
theorem fits_geometry_iff {geometry : Geometry} :
    Fits holder name (.geometry geometry) ↔ Fits holder name .group := by
  cases holder <;> simp [Fits]

/-- **Groups and geometries.** These are the objects beneath which a group may lie, if its name is
not registered. -/
def DataObject.IsOpen (object : DataObject) : Prop := object.kind = .group ∨ object.kind = .geometry

theorem DataObject.IsOpen.fits_iff (h : child.IsOpen) :
    Fits holder name child ↔ Fits holder name .group := by
  cases child with
  | group => exact Iff.rfl
  | geometry geometry => exact fits_geometry_iff
  | array | attributeMatrix => exact (h.elim nofun nofun : False).elim

end

/-! ## Alike trees

Trees are compared place by place, so they are alike if they have objects at the same
places and each two have one outline. -/

namespace NamedTree

/-- **Trees with the same outlines** at the same places. Such trees have their objects at the same
places, too. -/
def Alike (tree other : NamedTree DataObject) : Prop :=
  ∀ place, (tree.labelAt? place).map DataObject.outline
    = (other.labelAt? place).map DataObject.outline

variable {tree other : NamedTree DataObject}

theorem Alike.refl (tree : NamedTree DataObject) : tree.Alike tree := fun _ => rfl

theorem Alike.outline_label (h : tree.Alike other) : tree.label.outline = other.label.outline :=
  Option.some.inj (h [])

/-- Trees are alike if their objects are and what lies beneath them. -/
theorem Alike.node {label label' : DataObject} {children children' : NamedForest DataObject}
    (hlabel : label.outline = label'.outline)
    (hchildren : ∀ name, Option.Rel Alike (Keyed.find? name children) (Keyed.find? name children')) :
    Alike (.node label children) (.node label' children') := by
  intro place
  cases place with
  | nil => exact congrArg some hlabel
  | cons name rest =>
    have hfound := hchildren name
    simp only [labelAt?_cons, NamedTree.children]
    generalize Keyed.find? name children = child at hfound ⊢
    generalize Keyed.find? name children' = child' at hfound ⊢
    cases hfound with
    | none => rfl
    | some h => exact h rest

end NamedTree

/-! ## Alike maps

Each of the changes of a map is shown to keep maps alike, which is what following a plan
beside its work needs. -/

namespace PathMap

/-- **Maps with the same outlines** at the same paths. What a check finds for groups and for
removals is then the same for both. -/
def Alike (map other : PathMap) : Prop :=
  ∀ path, (map path).map DataObject.outline = (other path).map DataObject.outline

namespace Alike

variable {map other : PathMap} {path : DataPath} {object : DataObject}

theorem refl (map : PathMap) : map.Alike map := fun _ => rfl

theorem symm (h : map.Alike other) : other.Alike map := fun path => (h path).symm

/-- Alike maps have objects at the same paths. -/
theorem isSome_eq (h : map.Alike other) (path : DataPath) :
    (map path).isSome = (other path).isSome := by
  rw [← Option.isSome_map, h path, Option.isSome_map]

theorem eq_none_iff (h : map.Alike other) : map path = none ↔ other path = none := by
  rw [← Option.isNone_iff_eq_none, ← Option.isNone_iff_eq_none, ← Option.not_isSome,
    ← Option.not_isSome, h.isSome_eq]

/-- To an object there is one of the same outline. -/
theorem exists_of_eq_some (h : map.Alike other) (hobject : map path = some object) :
    ∃ object', other path = some object' ∧ object.outline = object'.outline := by
  have hpath := h path
  rw [hobject] at hpath
  obtain ⟨object', hobject', he⟩ := Option.map_eq_some_iff.1 hpath.symm
  exact ⟨object', hobject', he.symm⟩

/-- The kinds are the same. -/
theorem map_kind_eq (h : map.Alike other) (path : DataPath) :
    (map path).map DataObject.kind = (other path).map DataObject.kind := by
  have hkind : ∀ found : Option DataObject,
      found.map DataObject.kind = (found.map DataObject.outline).map Outline.kind := by
    intro found
    cases found with
    | none => rfl
    | some object => exact congrArg some object.kind_outline.symm
  rw [hkind, h path, ← hkind]

/-- What can be passed in a map can be passed in one that is alike. -/
theorem ready (h : map.Alike other) (hready : map.Ready path) : other.Ready path := by
  cases hobject : map path with
  | some object =>
    obtain ⟨object', hobject', he⟩ := h.exists_of_eq_some hobject
    rw [ready_of_some hobject'] at *
    rw [← DataObject.isContainer_eq_of_outline he]
    exact (ready_of_some hobject).1 hready
  | none =>
    refine (ready_of_none (h.eq_none_iff.1 hobject)).2 fun above holder' habove hholder' => ?_
    obtain ⟨holder, hholder, he⟩ := h.symm.exists_of_eq_some hholder'
    rw [fits_group_iff_of_outline he]
    exact (ready_of_none hobject).1 hready above holder habove hholder

theorem passable (h : map.Alike other) (hpass : map.Passable path) : other.Passable path :=
  fun next hnext => h.ready (hpass next hnext)

/-- **Maps stay alike** when groups are created along a path, -/
theorem addGroups (h : map.Alike other) (paths : List DataPath) :
    (addGroups paths map).Alike (addGroups paths other) := by
  intro path
  have hpath := h path
  rw [PathMap.addGroups, PathMap.addGroups]
  cases hobject : map path with
  | none => rw [h.eq_none_iff.1 hobject]
  | some object =>
    obtain ⟨object', hobject', he⟩ := h.exists_of_eq_some hobject
    rw [hobject']
    exact congrArg some he

/-- when something is taken out, -/
theorem prune (h : map.Alike other) (top : DataPath) :
    (prune top map).Alike (prune top other) := by
  intro path
  rw [PathMap.prune, PathMap.prune]
  cases top.relative? path with
  | none => exact h path
  | some rest => rfl

/-- and when alike trees are brought in. -/
theorem graft (h : map.Alike other) (top : DataPath) {tree tree' : NamedTree DataObject}
    (htree : tree.Alike tree') : (graft top tree map).Alike (graft top tree' other) := by
  intro path
  rw [PathMap.graft, PathMap.graft]
  cases top.relative? path with
  | none => exact h path
  | some rest => exact htree rest

end Alike

end PathMap

end Meshwork
