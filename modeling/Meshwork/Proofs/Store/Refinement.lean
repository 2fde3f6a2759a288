import Meshwork.Proofs.Store.WellFormed

/-!
# The arena refines a map from paths to objects

A store represents a map if every view of the store agrees with it: the
look-ups by path, the children of an object, the number of objects, and the
arena itself, read from below along its links (`Store.Represents`).

Every reachable store represents the map that `Store.get?` reads off it, and
each operation that succeeds changes this map as it should: attaching grafts
and detaching prunes, whatever else the arena holds
(`Store.represents_after`).

Being represented is a relation between a store and any map. It is stated for each view
with the map as the only reference, so a caller who thinks of maps never meets the arena.
-/

namespace Meshwork

namespace Store

/-- **Every view of the store agrees with the map.** The views are those that programs can see,
with lists in their order and with the count of objects. -/
structure Represents (s : Store) (map : PathMap) : Prop where
  /-- The object at a path. -/
  get? : ∀ path, s.get? path = map path
  /-- Whether there is one. -/
  contains : ∀ path, s.contains path = (map path).isSome
  /-- Beneath a path without an object, there are no children to list. -/
  noChildren : ∀ path, map path = none → s.children? path = none
  /-- The children of an object, in order of their names. -/
  children : ∀ path, (map path).isSome → ∃ paths, s.children? path = some paths
    ∧ (paths.map DataPath.name).Pairwise (· < ·)
    ∧ ∀ child, child ∈ paths ↔ child.parent? = some path ∧ (map child).isSome
  /-- The number of objects is that of the paths with an object. -/
  len : ∃ paths : List DataPath, paths.Nodup ∧ (∀ path, path ∈ paths ↔ (map path).isSome)
    ∧ paths.length = s.len
  /-- The nodes of the arena, under the paths that their links give them. -/
  nodes : ∀ path object, map path = some object
    ↔ ∃ id, s.pathOf? id = some path ∧ s.object? id = some object

/-- **The number of objects** is that of any list of the paths with one. Two lists without
repetition that have the same members have the same length. -/
theorem Represents.len_eq {s : Store} {map : PathMap} (h : s.Represents map)
    {paths : List DataPath} (hnodup : paths.Nodup)
    (hmem : ∀ path, path ∈ paths ↔ (map path).isSome) : s.len = paths.length := by
  obtain ⟨others, hothers, hmem', hlen⟩ := h.len
  rw [← hlen]
  refine List.Perm.length_eq ((List.perm_ext_iff_of_nodup hothers hnodup).2 fun path => ?_)
  rw [hmem, hmem']

/-- The paths of valid names beneath one. -/
theorem mapM_join (path : DataPath) {names : List String} (h : ∀ name ∈ names, ValidName name) :
    ∃ paths, names.mapM (fun name => (path.join name).toOption) = some paths
      ∧ paths.map (·.segments) = names.map (fun name => path.segments ++ [name])
      ∧ paths.map (·.name) = names := by
  induction names with
  | nil => exact ⟨[], rfl, rfl, rfl⟩
  | cons name rest ih =>
    obtain ⟨paths, hpaths, hsegments, hnames⟩ := ih fun other hother =>
      h other (List.mem_cons_of_mem _ hother)
    have hname := h name List.mem_cons_self
    refine ⟨path.push name hname :: paths, ?_, ?_, ?_⟩
    · rw [List.mapM_cons, hpaths, path.join_eq_ok hname]
      rfl
    · rw [List.map_cons, List.map_cons, hsegments]
      rfl
    · rw [List.map_cons, hnames]
      simp [DataPath.name, DataPath.push]

namespace LaidOut

variable {s : Store} {layout : Layout}

/-- **The children of an object** are the paths directly beneath it. They are in the order of
their names, because the entries of a node are. -/
theorem exists_children? (h : s.LaidOut layout) {path : DataPath}
    (hpath : (s.get? path).isSome) :
    ∃ paths, s.children? path = some paths ∧ (paths.map DataPath.name).Pairwise (· < ·)
      ∧ ∀ child, child ∈ paths ↔ child.parent? = some path ∧ (s.get? child).isSome := by
  rw [h.isSome_get?] at hpath
  obtain ⟨tree, hat⟩ := Option.isSome_iff_exists.1 hpath
  have hlaw := h.lawful.below (NamedForest.below?_of_at? hat)
  -- Names within a layout are valid, so each of them can be joined to the path.
  have hvalid : ∀ name ∈ Keyed.keys tree.children, ValidName name := fun name hname => by
    obtain ⟨entry, hentry, rfl⟩ := List.mem_map.1 hname
    exact (NamedTree.lawfulEach_iff.1 hlaw.each entry hentry).1
  obtain ⟨paths, hpaths, hsegments, hnames⟩ := mapM_join path hvalid
  refine ⟨paths, ?_, ?_, fun child => ?_⟩
  · rw [children?, h.idOf?_eq, hat]
    rw [path.segments_eq] at hat
    show ((s.node? tree.label.id).bind _) = _
    rw [h.node?_eq hat]
    show (Keyed.keys (Layout.entries tree.children)).mapM _ = _
    rw [Layout.entries, Keyed.keys_mapValues, hpaths]
  · show (paths.map (·.name)).Pairwise _
    rw [hnames]
    exact List.pairwise_map.2 hlaw.ordered
  · rw [← DataPath.mem_map_segments, hsegments, List.mem_map, DataPath.parent?_eq_some_iff,
      h.isSome_get?]
    constructor
    · rintro ⟨name, hname, he⟩
      obtain ⟨found, hfound⟩ := Option.isSome_iff_exists.1 (Keyed.mem_keys_iff.1 hname)
      rw [← he, NamedForest.at?_concat hat hfound]
      rw [child.segments_eq] at he
      rw [(List.append_inj' he rfl).2]
      exact ⟨rfl, rfl⟩
    · rintro ⟨he, hchild⟩
      obtain ⟨found, hfound⟩ := Option.isSome_iff_exists.1 hchild
      rw [he] at hfound
      obtain ⟨above, habove, hfind⟩ := NamedForest.exists_at?_of_at?_concat path.nonempty hfound
      obtain rfl := Option.some.inj (hat.symm.trans habove)
      exact ⟨child.name, Keyed.mem_keys_iff.2 (Option.isSome_of_eq_some hfind), he.symm⟩

/-- **A store that is laid out represents its map.** Each view goes through the arena in its own
way, and each is brought to the layout. -/
theorem represents (h : s.LaidOut layout) : s.Represents s.get? where
  get? _ := rfl
  contains path := by rw [h.contains_eq, h.isSome_get?]
  noChildren path hpath := by
    have hnone : NamedForest.at? path.segments layout = none := by
      have hsome := h.isSome_get? path
      rw [hpath] at hsome
      exact Option.not_isSome_iff_eq_none.1 (by simp [← hsome])
    rw [children?, h.idOf?_eq, hnone]
    rfl
  children path hpath := h.exists_children? hpath
  len := by
    have hplaces := h.list_none_eq
    refine ⟨s.list none, ?_, fun path => ?_, h.neverMisses.listed⟩
    · exact List.Nodup.of_map _ (hplaces ▸ NamedForest.nodup_places h.lawful)
    · rw [h.mem_list_none, h.isSome_get?]
  -- The nodes are told by their places, which the way up from an identifier gives back.
  nodes path object := by
    constructor
    · intro hobject
      obtain ⟨id, hid, hobject⟩ := Option.bind_eq_some_iff.1 hobject
      obtain ⟨tree, hat, rfl⟩ := h.exists_at?_of_idOf? hid
      exact ⟨_, h.pathOf?_eq hat, hobject⟩
    · rintro ⟨id, hpath, hobject⟩
      obtain ⟨node, hnode, -⟩ := Option.map_eq_some_iff.1 hobject
      obtain ⟨other, hother, hid⟩ := h.neverMisses.path id (Option.isSome_of_eq_some hnode)
      obtain rfl := Option.some.inj (hother.symm.trans hpath)
      rw [get?, hid]
      exact hobject

end LaidOut

theorem Sound.represents {s : Store} (h : s.Sound) : s.Represents s.get? := by
  obtain ⟨layout, h⟩ := h.coherent
  exact h.represents

/-- **After any operations, the store represents its map**, and changes it as it should. For each
operation it is said how the map of the store after it comes from the one before. -/
theorem represents_after (operations : List Operation) :
    let s := after operations
    s.Represents s.get?
      ∧ (∀ path subtree overwrite id s', (attach path subtree overwrite).apply s = (.ok id, s') →
          s'.Represents (PathMap.graft path subtree.tree s.get?))
      ∧ (∀ path object overwrite id s', (create path object overwrite).apply s = (.ok id, s') →
          s'.Represents (PathMap.graft path (.node object []) s.get?))
      ∧ (∀ path subtree s', (detach path).apply s = (.ok subtree, s') →
          s'.Represents (PathMap.prune path s.get?) ∧ s.snapshot? path = some subtree
            ∧ s'.len + subtree.size = s.len)
      ∧ ∀ path object s', (remove path).apply s = (.ok object, s') →
          s'.Represents (PathMap.prune path s.get?) ∧ s.get? path = some object := by
  have h := sound_after operations
  -- A call that succeeds is not the refused one, so it has the effect known of it.
  have hattach : ∀ path subtree overwrite id s',
      (attach path subtree overwrite).apply (after operations) = (.ok id, s') →
        s'.Represents (PathMap.graft path subtree.tree (after operations).get?) := by
    intro path subtree overwrite id s' happly
    rcases h.attach path subtree overwrite with ⟨e, -, he⟩ | ⟨_, _, -, he, hs', hget⟩
    · cases happly.symm.trans he
    · cases happly.symm.trans he
      exact hget ▸ hs'.represents
  have hdetach : ∀ path subtree s', (detach path).apply (after operations) = (.ok subtree, s') →
      s'.Represents (PathMap.prune path (after operations).get?)
        ∧ (after operations).snapshot? path = some subtree
        ∧ s'.len + subtree.size = (after operations).len := by
    intro path subtree s' happly
    rcases h.detach path with ⟨-, he⟩ | ⟨_, _, he, hs', hget, -, hcopy, hlen⟩
    · cases happly.symm.trans he
    · cases happly.symm.trans he
      exact ⟨hget ▸ hs'.represents, hcopy, hlen⟩
  refine ⟨h.represents, hattach, fun path object => hattach path (.leaf object), hdetach, ?_⟩
  intro path object s' happly
  rw [remove_apply] at happly
  rcases h.detach path with ⟨-, he⟩ | ⟨subtree, _, he, hs', hget, htree, -⟩
  · rw [he] at happly
    cases happly
  · rw [he] at happly
    obtain ⟨hobject, rfl⟩ := Prod.mk.inj happly
    obtain rfl := Except.ok.inj hobject
    exact ⟨hget ▸ hs'.represents, htree.objects path [] path.relative?_self⟩

end Store

end Meshwork
