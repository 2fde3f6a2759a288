import Meshwork.Proofs.Edit.Apart
import Meshwork.Proofs.Store.Outline

/-!
# Edits that are alike

A plan may bring in stand-ins for objects that the work brings in later. Such
edits are alike: they concern the same paths, and their trees have the same
outlines (`Edit.Alike`). If what they bring in lies at the top, or is a group or a
geometry, then alike maps accept both or neither, and are alike afterwards
(`Edit.acceptedEach_of_alike`, `Edit.alike_onEach`).

Outlines are the names and the kinds in a tree, without the data. The restriction to what
is open comes from matrices: whether an array or a matrix fits depends on tuple counts,
which are data, and a stand-in need not have the right ones.
-/

namespace Meshwork

namespace Edit

/-- **An edit whose place does not depend on data**: what it brings in comes to a
top-level path, or is a group or a geometry. -/
def IsOpen : Edit → Prop
  | insert path subtree _ => path.parent? = none ∨ subtree.label.IsOpen
  | groups _ | remove _ => True

/-- **Edits of the same path** with trees of the same outlines. Removals and groups are alike only
to themselves; for trees it is the outlines that must agree, and both trees must be valid and
fit. -/
inductive Alike : Edit → Edit → Prop
  /-- Groups along a path. -/
  | groups (path : DataPath) : Alike (.groups path) (.groups path)
  /-- Trees that are valid and fit, at a place that does not depend on data. -/
  | insert {path : DataPath} {subtree subtree' : Subtree} {overwrite : Bool}
    (htree : subtree.tree.Alike subtree'.tree)
    (hplain : (Edit.insert path subtree overwrite).IsPlain)
    (hplain' : (Edit.insert path subtree' overwrite).IsPlain)
    (hopen : (Edit.insert path subtree overwrite).IsOpen) :
    Alike (.insert path subtree overwrite) (.insert path subtree' overwrite)
  /-- Something is taken out. -/
  | remove (path : DataPath) : Alike (.remove path) (.remove path)

variable {edit edit' : Edit} {edits edits' : List Edit} {map map' : PathMap}

namespace Alike

/-- An edit is alike itself. -/
theorem refl (hplain : edit.IsPlain) (hopen : edit.IsOpen) : edit.Alike edit := by
  cases edit with
  | groups path => exact .groups path
  | insert path subtree overwrite => exact .insert (.refl _) hplain hplain hopen
  | remove path => exact .remove path

/-- What is open stays so with other data. -/
theorem isOpen_label {subtree subtree' : Subtree} (h : subtree.tree.Alike subtree'.tree)
    (hopen : subtree.label.IsOpen) : subtree'.label.IsOpen := by
  unfold DataObject.IsOpen Subtree.label at *
  rwa [← DataObject.kind_eq_of_outline h.outline_label]

/-- What is alike another edit is alike itself. -/
theorem left (h : edit.Alike edit') : edit.Alike edit := by
  cases h with
  | groups path => exact .groups path
  | insert _ hplain _ hopen => exact refl hplain hopen
  | remove path => exact .remove path

/-- **Alike maps accept both of two alike edits or neither.** For a tree this uses that what it
brings in is open: where it may lie is decided by outlines. -/
theorem accepted (h : edit.Alike edit') (hmap : map.Alike map') (haccepted : edit.Accepted map) :
    edit'.Accepted map' := by
  cases h with
  | groups path => exact hmap.passable haccepted
  | remove path => exact (hmap.isSome_eq path).symm.trans haccepted
  | @insert path subtree subtree' overwrite htree hplain hplain' hopen =>
    obtain ⟨⟨hfree, hholder⟩, -⟩ := haccepted
    refine ⟨⟨hfree.imp_left hmap.eq_none_iff.1, fun above habove => ?_⟩, hplain'⟩
    obtain ⟨holder, hholder, hfits⟩ := hholder above habove
    obtain ⟨holder', hholder', he⟩ := hmap.exists_of_eq_some hholder
    -- There is a path above, so what is brought in is a group or a geometry.
    have hlabel : subtree.label.IsOpen := hopen.resolve_left fun hnone => by
      rw [hnone] at habove
      cases habove
    refine ⟨holder', hholder', ?_⟩
    rw [(isOpen_label htree hlabel).fits_iff, ← fits_group_iff_of_outline he, ← hlabel.fits_iff]
    exact hfits

/-- **Alike maps are alike** after alike edits. Each of the three kinds of edit is a change of
maps that keeps them alike. -/
theorem on (h : edit.Alike edit') (hmap : map.Alike map') : (edit.on map).Alike (edit'.on map') := by
  cases h with
  | groups path => exact hmap.addGroups path.prefixes
  | insert htree => exact hmap.graft _ htree
  | remove path => exact hmap.prune path

end Alike

theorem alike_left (h : List.Forall₂ Alike edits edits') : List.Forall₂ Alike edits edits := by
  induction h with
  | nil => exact .nil
  | cons hedit _ ih => exact .cons hedit.left ih

/-- Alike maps accept both of two alike lists of edits or neither. -/
theorem acceptedEach_of_alike (h : List.Forall₂ Alike edits edits') (hmap : map.Alike map')
    (haccepted : AcceptedEach map edits) : AcceptedEach map' edits' := by
  induction h generalizing map map' with
  | nil => trivial
  | cons hedit _ ih => exact ⟨hedit.accepted hmap haccepted.1, ih (hedit.on hmap) haccepted.2⟩

/-- **Alike edits keep maps alike.** The edits need not be accepted for this, as what they make of
a map is defined in any case. -/
theorem alike_onEach (h : List.Forall₂ Alike edits edits') (hmap : map.Alike map') :
    (onEach map edits).Alike (onEach map' edits') := by
  induction h generalizing map map' with
  | nil => exact hmap
  | cons hedit _ ih => exact ih (hedit.on hmap)

end Edit

end Meshwork
