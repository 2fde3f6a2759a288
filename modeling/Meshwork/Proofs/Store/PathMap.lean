import Mathlib.Data.List.Basic
import Meshwork.Proofs.Store.Placement

/-!
# Maps from paths to objects

Seen from outside, a store is a map from paths to objects, and it changes in
two ways only: what lies at or beneath a path is taken out of the map
(`PathMap.prune`), or replaced by what a tree has there (`PathMap.graft`).

In the maps that arise, every object fits beneath one above it
(`PathMap.Placed`). Pruning keeps this, and grafting keeps it if the tree fits.
What has been taken out of such a map can therefore be brought back
(`PathMap.graft_prune`), and what has been brought to a free path can be taken
out again (`PathMap.prune_graft`).
-/

namespace Meshwork

namespace DataPath

/-! ## From one path to another

A path at or beneath another is reached by further names. All case distinctions about
where a path lies are made by looking at these names: there are none, some, or the path
lies elsewhere. -/

/-- The names that lead from a path on to another at or beneath it. -/
def relative? (top path : DataPath) : Option (List String) :=
  NamedForest.relative? top.segments path.segments

/-- The path with valid names added. -/
def extend (top : DataPath) (rest : List String) (h : ∀ name ∈ rest, ValidName name) :
    DataPath where
  segments := top.segments ++ rest
  nonempty := by simp [top.nonempty]
  valid name hname := (List.mem_append.1 hname).elim (top.valid name) (h name)

theorem relative?_eq_some_iff {top path : DataPath} {rest : List String} :
    top.relative? path = some rest ↔ path.segments = top.segments ++ rest :=
  NamedForest.relative?_eq_some_iff

@[simp] theorem relative?_self (path : DataPath) : path.relative? path = some [] :=
  relative?_eq_some_iff.2 (List.append_nil _).symm

@[simp] theorem relative?_extend (top : DataPath) (rest : List String)
    (h : ∀ name ∈ rest, ValidName name) : top.relative? (top.extend rest h) = some rest :=
  relative?_eq_some_iff.2 rfl

theorem relative?_eq_nil_iff {top path : DataPath} : top.relative? path = some [] ↔ path = top := by
  rw [relative?_eq_some_iff, List.append_nil]
  exact ⟨ext, congrArg _⟩

/-- **A path and the one above it**: either the path is the top itself, or both
lie at or beneath the top, or neither does. -/
theorem relative?_of_parent? {top path above : DataPath} (h : path.parent? = some above) :
    top.relative? path
      = if path = top then some [] else (top.relative? above).map (· ++ [path.name]) := by
  have hsegments : path.segments = above.segments ++ [path.name] := by
    rw [← above_of_parent?_eq_some h, ← segments_eq]
  split <;> rename_i htop
  · rw [htop, relative?_self]
  · refine Option.ext fun rest => ?_
    rw [relative?_eq_some_iff, Option.map_eq_some_iff, hsegments]
    constructor
    · intro he
      rcases List.eq_nil_or_concat' rest with rfl | ⟨init, name, rfl⟩
      · exact absurd (ext (by rw [hsegments, he, List.append_nil])) htop
      · rw [← List.append_assoc] at he
        obtain ⟨habove, hname⟩ := List.append_inj' he rfl
        exact ⟨init, relative?_eq_some_iff.2 habove, by rw [hname]⟩
    · rintro ⟨init, hinit, rfl⟩
      rw [relative?_eq_some_iff.1 hinit, List.append_assoc]

/-- The path above does not lie beneath. -/
theorem relative?_above {path above : DataPath} (h : path.parent? = some above) :
    path.relative? above = none := by
  refine NamedForest.relative?_eq_none_iff.2 fun rest he => ?_
  have hlength := congrArg List.length he
  rw [path.segments_eq, above_of_parent?_eq_some h] at hlength
  simp at hlength

end DataPath

/-! ## Maps and their changes

The two changes of a map are defined at every path by where it lies. That they undo one
another is then a computation at each path. -/

/-- **Objects at paths.** It is the specification of a store: what its operations do is said as
what they do to this function. -/
abbrev PathMap := DataPath → Option DataObject

namespace PathMap

/-- The map without what lies at or beneath a path. -/
def prune (top : DataPath) (map : PathMap) : PathMap := fun path =>
  match top.relative? path with
  | some _ => none
  | none => map path

/-- The map with a tree at a path, in place of what lies at or beneath it. -/
def graft (top : DataPath) (tree : NamedTree DataObject) (map : PathMap) : PathMap := fun path =>
  match top.relative? path with
  | some rest => tree.labelAt? rest
  | none => map path

/-- **Where there is an object, there is one above.** By induction there is then one at every
prefix of the path. -/
def Closed (map : PathMap) : Prop :=
  ∀ path above, path.parent? = some above → (map path).isSome → (map above).isSome

/-- **Every object fits** beneath the one above it. In particular there is one above, so such a
map is closed. -/
def Placed (map : PathMap) : Prop :=
  ∀ path above object, path.parent? = some above → map path = some object →
    ∃ holder, map above = some holder ∧ Fits holder path.name object

/-- **A path has a tree**: it is what the map has at and beneath the path. The tree has an object
at its root, so there is one at the path. -/
structure HasTree (map : PathMap) (top : DataPath) (tree : NamedTree DataObject) : Prop where
  /-- Names are valid and in order. -/
  lawful : tree.Lawful
  /-- The objects are those of the map. -/
  objects : ∀ path rest, top.relative? path = some rest → map path = tree.labelAt? rest

section

variable {map : PathMap} {top : DataPath} {tree : NamedTree DataObject}

theorem prune_apply (path : DataPath) :
    prune top map path = if (top.relative? path).isSome then none else map path := by
  rw [prune]
  cases top.relative? path <;> rfl

theorem Placed.closed (h : map.Placed) : map.Closed := by
  intro path above habove hpath
  obtain ⟨object, hobject⟩ := Option.isSome_iff_exists.1 hpath
  obtain ⟨holder, hholder, -⟩ := h path above object habove hobject
  rw [hholder]
  rfl

/-- Where there is an object, there is one at every path on the way. -/
theorem Closed.isSome_of_relative? (h : map.Closed) {path : DataPath} {rest : List String}
    (hrest : top.relative? path = some rest) (hpath : (map path).isSome) : (map top).isSome := by
  -- One name is taken off at the end in each step, and closedness gives the object above.
  induction hlength : rest.length generalizing path rest with
  | zero =>
    obtain rfl := List.length_eq_zero_iff.1 hlength
    rwa [← DataPath.relative?_eq_nil_iff.1 hrest]
  | succ n ih =>
    cases hparent : path.parent? with
    | none =>
      have hsegments := DataPath.relative?_eq_some_iff.1 hrest
      have hpos := List.length_pos_iff.2 top.nonempty
      rw [DataPath.segments_of_parent?_eq_none hparent] at hsegments
      have hle := congrArg List.length hsegments
      simp at hle
      omega
    | some above =>
      rw [DataPath.relative?_of_parent? hparent] at hrest
      split at hrest
      · obtain rfl := Option.some.inj hrest
        cases hlength
      · obtain ⟨init, hinit, rfl⟩ := Option.map_eq_some_iff.1 hrest
        exact ih hinit (h path above hparent hpath) (by simpa using hlength)

/-- Beneath a free path, nothing is to be pruned. -/
theorem Closed.prune_eq (h : map.Closed) (hfree : map top = none) : prune top map = map := by
  funext path
  rw [prune_apply]
  split <;> rename_i hrest
  · obtain ⟨rest, hrest⟩ := Option.isSome_iff_exists.1 hrest
    refine (Option.not_isSome_iff_eq_none.1 fun hpath => ?_).symm
    have htop := h.isSome_of_relative? hrest hpath
    rw [hfree] at htop
    cases htop
  · rfl

/-- An object that is brought to a free path changes nothing else. -/
theorem Closed.graft_leaf (h : map.Closed) (hfree : map top = none) (object : DataObject) :
    graft top (.node object []) map = fun path => if path = top then some object else map path := by
  funext path
  rw [graft]
  cases hrest : top.relative? path with
  | none =>
    have hne : path ≠ top := by
      rintro rfl
      rw [DataPath.relative?_self] at hrest
      cases hrest
    rw [if_neg hne]
  | some rest =>
    -- Beneath a free path there is nothing that could be lost.
    cases rest with
    | nil =>
      rw [if_pos (DataPath.relative?_eq_nil_iff.1 hrest)]
      rfl
    | cons name rest =>
      have hne : path ≠ top := fun he => by
        rw [he, DataPath.relative?_self] at hrest
        cases hrest
      rw [if_neg hne]
      refine (Option.not_isSome_iff_eq_none.1 fun hpath => ?_).symm
      have htop := h.isSome_of_relative? hrest hpath
      rw [hfree] at htop
      cases htop

/-- **What is brought to a path is taken out again.** What was at the path before the tree came is
lost in either case. -/
theorem prune_graft : prune top (graft top tree map) = prune top map := by
  funext path
  rw [prune, prune, graft]
  cases top.relative? path <;> rfl

/-- The tree at a path is brought back to a map that differs at most at and beneath the path. -/
theorem graft_eq {other : PathMap} (h : map.HasTree top tree)
    (hbeside : ∀ path, top.relative? path = none → other path = map path) :
    graft top tree other = map := by
  funext path
  rw [graft]
  cases hrest : top.relative? path with
  | none => exact hbeside path hrest
  | some rest => exact (h.objects path rest hrest).symm

/-- **What is taken out is brought back.** The tree has to be what the map has there. -/
theorem graft_prune (h : map.HasTree top tree) : graft top tree (prune top map) = map :=
  graft_eq h fun path hpath => by rw [prune, hpath]

/-- **Pruning keeps objects placed.** What is left beneath an object was beneath it before, and
the object is still there. -/
theorem Placed.prune (h : map.Placed) : (prune top map).Placed := by
  intro path above object habove hobject
  rw [prune_apply] at hobject
  split at hobject <;> rename_i hrest
  · cases hobject
  · obtain ⟨holder, hholder, hfits⟩ := h path above object habove hobject
    refine ⟨holder, ?_, hfits⟩
    rw [DataPath.relative?_of_parent? habove] at hrest
    rw [prune_apply, if_neg, hholder]
    split at hrest
    · simp at hrest
    · simpa using hrest

/-- **Grafting keeps objects placed** if the tree fits. Beneath the path only the tree matters,
and at its root the object above. -/
theorem Placed.graft (h : map.Placed)
    (habove : ∀ above, top.parent? = some above →
      ∃ holder, map above = some holder ∧ Fits holder top.name tree.label)
    (hfits : tree.FitsWithin) : (graft top tree map).Placed := by
  intro path above object hparent hobject
  rw [PathMap.graft, DataPath.relative?_of_parent? hparent] at hobject
  -- At the top the holder is outside the tree; beneath it both lie in the tree, and elsewhere
  -- neither does.
  by_cases htop : path = top
  · subst htop
    obtain ⟨holder, hholder, hfit⟩ := habove above hparent
    rw [if_pos rfl] at hobject
    obtain rfl := Option.some.inj hobject
    refine ⟨holder, ?_, hfit⟩
    rw [PathMap.graft, DataPath.relative?_above hparent]
    exact hholder
  · rw [if_neg htop] at hobject
    rw [PathMap.graft]
    cases hrest : top.relative? above with
    | none =>
      rw [hrest] at hobject
      exact h path above object hparent hobject
    | some rest =>
      rw [hrest] at hobject
      exact hfits rest path.name object hobject

/-- **A tree of a placed map fits.** So it may be brought to another place, if its root fits
there. -/
theorem Placed.fitsWithin (h : map.Placed) (htree : map.HasTree top tree) : tree.FitsWithin := by
  intro place name child hchild
  obtain ⟨found, hfound, -⟩ := Option.map_eq_some_iff.1 hchild
  have hvalid := NamedForest.validName_of_at? htree.lawful hfound
  have hplace : ∀ other ∈ place, ValidName other := fun other hother =>
    hvalid other (List.mem_append_left _ hother)
  have hname : (top.extend (place ++ [name]) hvalid).name = name := by
    simp [DataPath.name, DataPath.extend]
  have hparent : (top.extend (place ++ [name]) hvalid).parent? = some (top.extend place hplace) := by
    rw [DataPath.parent?_eq_some_iff, hname]
    exact (List.append_assoc _ _ _).symm
  obtain ⟨holder, hholder, hfits⟩ := h _ _ child hparent (by
    rw [htree.objects _ _ (DataPath.relative?_extend _ _ _), hchild])
  rw [htree.objects _ _ (DataPath.relative?_extend _ _ _)] at hholder
  exact ⟨holder, hholder, hname ▸ hfits⟩

end

end PathMap

end Meshwork
