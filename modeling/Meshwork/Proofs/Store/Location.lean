import Meshwork.Proofs.Store.Handles
import Meshwork.Proofs.Store.Listing

/-!
# Identifiers and paths

A path is followed from above, through the entries beneath the topmost objects; the path of an
identifier is put together from below, along the links to the nodes above, from names that
have to make a path. `Store.Located` says that the two are inverse to each other: the way up
from an identifier ends, comes to the top from every object, and its names are those of the one
path that leads to the identifier.

All of it is read off a layout, where the place of an object says both where its entry stands
and which links it has (`Store.LaidOut.located`).

The way up is bounded by the number of objects in the program, and it need not be: it
comes to the top in as many steps as the path has names, and any greater bound gives the
same.
-/

namespace Meshwork

namespace Store

/-- **Identifiers and paths are inverse**, and they agree on what lies above. Both ways of looking
up are loops in the program, over names and over parent links, so this is also about their
ending. -/
structure Located (s : Store) : Prop where
  /-- An identifier has a path if the path leads to it. -/
  pathOf?_eq_some_iff : ∀ id path, s.pathOf? id = some path ↔ s.idOf? path = some id
  /-- The way up ends, from any identifier. -/
  wellFounded : WellFounded fun above id => s.parentOf? id = some above
  /-- It is as long as it has to be: with a greater bound, it gives the same names. -/
  climb_eq : ∀ id fuel, s.len ≤ fuel → s.climb fuel id [] = s.climb s.len id []
  /-- From an object, it comes to the top, and its names are a path. -/
  climbs : ∀ id, (s.object? id).isSome →
    ∃ path, s.pathOf? id = some path ∧ s.Climbs id [] path.segments
  /-- Only an object has a path. -/
  live : ∀ id path, s.pathOf? id = some path → (s.object? id).isSome
  /-- Nothing lies above an object at a path of one name. -/
  top : ∀ path id, s.idOf? path = some id → path.parent? = none → s.parentOf? id = none
  /-- Above an object at any other path lies the one at the path above. -/
  beneath : ∀ path id above, s.idOf? path = some id → path.parent? = some above →
    ∃ holder, s.idOf? above = some holder ∧ s.parentOf? id = some holder
  /-- The object with an identifier is the one at its path. -/
  object?_eq : ∀ id, s.object? id = (s.pathOf? id).bind s.get?

variable {s : Store} {id : ObjectId} {path : DataPath}

/-- **Where going up comes to the top**, it ends. By induction on the way up, from its end. -/
theorem Climbs.acc {below names : List String} (h : s.Climbs id below names) :
    Acc (fun above id => s.parentOf? id = some above) id := by
  induction h with
  | top hnode hparent =>
    refine ⟨_, fun above habove => ?_⟩
    rw [parentOf?, hnode, Option.bind_some, hparent] at habove
    cases habove
  | up hnode hparent _ ih =>
    refine ⟨_, fun above habove => ?_⟩
    rw [parentOf?, hnode, Option.bind_some, hparent] at habove
    exact Option.some.inj habove ▸ ih

namespace LaidOut

variable {layout : Layout}

/-- An identifier is that of an object of the layout, at a path, or nothing has it. -/
theorem exists_at?_or_node?_eq_none (h : s.LaidOut layout) (id : ObjectId) :
    (∃ (path : DataPath) (tree : LayoutTree), NamedForest.at? path.segments layout = some tree
        ∧ tree.label.id = id)
      ∨ s.node? id = none := by
  cases hnode : s.node? id with
  | none => exact Or.inr rfl
  | some node =>
    obtain ⟨place, name, tree, hat, hid, -⟩ := h.exists_at?_of_node? hnode
    obtain ⟨path, hpath⟩ := h.exists_path hat
    exact Or.inl ⟨path, tree, hpath ▸ hat, hid⟩

theorem pathOf?_eq_some_iff (h : s.LaidOut layout) :
    s.pathOf? id = some path ↔ s.idOf? path = some id := by
  constructor
  · intro hpath
    rcases h.exists_at?_or_node?_eq_none id with ⟨q, tree, hat, rfl⟩ | hnode
    · obtain rfl := Option.some.inj ((h.pathOf?_eq hat).symm.trans hpath)
      rw [h.idOf?_eq, hat, Option.map_some]
    · rw [pathOf?, climb_eq_none hnode] at hpath
      cases hpath
  · intro hid
    obtain ⟨tree, hat, rfl⟩ := h.exists_at?_of_idOf? hid
    exact h.pathOf?_eq hat

/-- Any bound that is no less than the number of objects lets the way up come to its end. -/
theorem climb_eq_of_len_le (h : s.LaidOut layout) {fuel : Nat} (hfuel : s.len ≤ fuel) :
    s.climb fuel id [] = s.climb s.len id [] := by
  rcases h.exists_at?_or_node?_eq_none id with ⟨q, tree, hat, rfl⟩ | hnode
  · have hpos := tree.size_pos
    have hle := NamedForest.length_add_size_le hat
    rw [q.segments_eq] at hat hle
    rw [List.length_append, List.length_singleton] at hle
    have hlen : q.above.length < s.len := by
      rw [h.len_eq]
      omega
    rw [h.climb_eq hat (Nat.lt_of_lt_of_le hlen hfuel), h.climb_eq hat hlen]
  · rw [climb_eq_none hnode, climb_eq_none hnode]

/-- **In a store that is laid out, identifiers and paths are inverse.** The names on the way up
are those of the place, in the layout, from which one started. -/
theorem located (h : s.LaidOut layout) : s.Located where
  pathOf?_eq_some_iff _ _ := h.pathOf?_eq_some_iff
  wellFounded := by
    refine ⟨fun id => ?_⟩
    rcases h.exists_at?_or_node?_eq_none id with ⟨q, tree, hat, rfl⟩ | hnode
    · exact (h.climbs hat).acc
    · refine ⟨_, fun above habove => ?_⟩
      rw [parentOf?, hnode] at habove
      cases habove
  climb_eq _ _ := h.climb_eq_of_len_le
  climbs id hlive := by
    rcases h.exists_at?_or_node?_eq_none id with ⟨q, tree, hat, rfl⟩ | hnode
    · exact ⟨q, h.pathOf?_eq hat, h.climbs hat⟩
    · rw [object?, hnode] at hlive
      cases hlive
  live id path hpath := by
    obtain ⟨tree, hat, rfl⟩ := h.exists_at?_of_idOf? (h.pathOf?_eq_some_iff.1 hpath)
    rw [path.segments_eq] at hat
    rw [object?, h.node?_eq hat]
    rfl
  top path id hid hparent := by
    obtain ⟨tree, hat, rfl⟩ := h.exists_at?_of_idOf? hid
    rw [h.parentOf?_eq hat, ← h.bind_idOf?_eq, hparent, Option.bind_none]
  beneath path id above hid hparent := by
    obtain ⟨tree, hat, rfl⟩ := h.exists_at?_of_idOf? hid
    have hheld : s.parentOf? tree.label.id = s.idOf? above := by
      rw [h.parentOf?_eq hat, ← h.bind_idOf?_eq, hparent, Option.bind_some]
    -- The layout has something above, since it has something beneath it.
    rw [path.segments_eq] at hat
    have habove := DataPath.above_of_parent?_eq_some hparent
    rw [habove] at hat
    obtain ⟨found, hfound⟩ : ∃ found, NamedForest.at? above.segments layout = some found := by
      obtain ⟨init, last, hlast⟩ := List.eq_nil_or_concat' above.segments |>.resolve_left above.nonempty
      rw [hlast] at hat ⊢
      obtain ⟨found, hfound, -⟩ := NamedForest.exists_at?_of_at?_concat (by simp) hat
      exact ⟨found, hfound⟩
    refine ⟨found.label.id, ?_, ?_⟩
    · rw [h.idOf?_eq, hfound, Option.map_some]
    · rw [hheld, h.idOf?_eq, hfound, Option.map_some]
  object?_eq id := by
    rcases h.exists_at?_or_node?_eq_none id with ⟨q, tree, hat, rfl⟩ | hnode
    · rw [h.pathOf?_eq hat, Option.bind_some, get?, h.idOf?_eq, hat, Option.map_some,
        Option.bind_some]
    · rw [object?, hnode, pathOf?, climb_eq_none hnode]
      rfl

end LaidOut

/-- **After any operations, identifiers and paths are inverse.** This holds of every store that a
program can come to have. -/
theorem located_after (operations : List Operation) : (after operations).Located := by
  obtain ⟨layout, h⟩ := (sound_after operations).coherent
  exact h.located

end Store

end Meshwork
