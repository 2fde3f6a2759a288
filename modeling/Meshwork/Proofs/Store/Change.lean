import Meshwork.Proofs.Store.Holder

/-!
# Changes of a store, seen in its layout

Taking out an object takes its entry out of the layout
(`Store.LaidOut.detach`), and bringing one to a free path puts an entry there
(`Store.LaidOut.plant`). Nothing else in the layout changes, so what there is
at a path afterwards follows from what there was.
-/

namespace Meshwork

/-! ## The answers of changes

A change answers or refuses, and leaves a store in either case. These are the equations
that run a change step by step; a refusal leaves what the steps before it have made. -/

namespace Change

variable {α β : Type} (s : Store)

@[simp] theorem apply_pure (a : α) : (pure a : Change α).apply s = (.ok a, s) := rfl

@[simp] theorem apply_throw (e : StoreError) : (throw e : Change α).apply s = (.error e, s) := rfl

@[simp] theorem apply_get : (get : Change Store).apply s = (.ok s, s) := rfl

@[simp] theorem apply_set (s' : Store) : (set s' : Change PUnit).apply s = (.ok ⟨⟩, s') := rfl

/-- What comes after a change is made if the change succeeds. -/
theorem apply_bind (c : Change α) (f : α → Change β) :
    (c >>= f).apply s = match c.apply s with
      | (.ok a, s') => (f a).apply s'
      | (.error e, s') => (.error e, s') := by
  show (StateT.run (ExceptT.run (c >>= f)) s).run = _
  rw [ExceptT.run_bind, StateT.run_bind, Id.run_bind, apply]
  obtain ⟨_ | _, _⟩ := (StateT.run (ExceptT.run c) s).run <;> rfl

/-- Changes for the elements of a list are made one after another. -/
theorem apply_forM_cons (f : α → Change Unit) (first : α) (rest : List α) :
    ((first :: rest).forM f).apply s = match (f first).apply s with
      | (.ok _, s') => (rest.forM f).apply s'
      | (.error e, s') => (.error e, s') := by
  show (f first >>= fun _ => rest.forM f).apply s = _
  rw [apply_bind]
  obtain ⟨_ | _, _⟩ := (f first).apply s <;> rfl

theorem apply_forM_append (f : α → Change Unit) (first rest : List α) :
    ((first ++ rest).forM f).apply s = match (first.forM f).apply s with
      | (.ok _, s') => (rest.forM f).apply s'
      | (.error e, s') => (.error e, s') := by
  rw [show (first ++ rest).forM f = first.forM f >>= fun _ => rest.forM f from List.forM_append,
    apply_bind]
  obtain ⟨_ | _, _⟩ := (first.forM f).apply s <;> rfl

/-- What catches a refusal goes on from the store that the refused change
left. -/
theorem apply_tryCatch (c : Change α) (handler : StoreError → Change α) :
    (tryCatch c handler).apply s = match c.apply s with
      | (.ok a, s') => (.ok a, s')
      | (.error e, s') => (handler e).apply s' := by
  show (StateT.run (ExceptT.run (tryCatch c handler)) s).run = _
  rw [ExceptT.run_tryCatch, StateT.run_bind, Id.run_bind, apply]
  obtain ⟨_ | _, _⟩ := (StateT.run (ExceptT.run c) s).run <;> rfl

theorem apply_modify (f : Store → Store) : (modify f : Change Unit).apply s = (.ok (), f s) := rfl

theorem apply_check (outcome : Except StoreError Unit) :
    (Change.check outcome).apply s = (outcome, s) := by
  cases outcome <;> rfl

@[simp] theorem apply_map (g : α → β) (c : Change α) :
    (g <$> c).apply s = ((c.apply s).1.map g, (c.apply s).2) := by
  rw [map_eq_pure_bind, apply_bind]
  obtain ⟨_ | _, _⟩ := c.apply s <;> rfl

@[simp] theorem apply_discard (c : Change α) :
    (discard c).apply s = ((c.apply s).1.map fun _ => (), (c.apply s).2) := by
  rw [← apply_map]
  rfl

end Change

namespace Store

variable {s : Store} {path : DataPath} {subtree : Subtree} {overwrite : Bool}

theorem detach_none (h : s.idOf? path = none) :
    (detach path).apply s = (.error (.notFound path), s) := by
  rw [detach, Change.apply_bind, Change.apply_get]
  simp only [h]
  rfl

theorem detach_some {id : ObjectId} (h : s.idOf? path = some id) :
    (detach path).apply s
      = let s' := s.alterEntries (s.parentOf? id) (Keyed.erase path.name)
        let taken := takeOut (.leaf .group) s'.len id s'.nodes
        (.ok taken.1, { s' with nodes := taken.2 }) := by
  rw [detach, Change.apply_bind, Change.apply_get]
  simp only [h]
  rfl

@[simp] theorem nextId_alterEntries (holder : Option ObjectId) (f : Keyed ObjectId → Keyed ObjectId)
    (s : Store) : (s.alterEntries holder f).nextId = s.nextId := by
  cases holder <;> rfl

/-- Taking out gives no identifiers. -/
@[simp] theorem nextId_detach : ((detach path).apply s).2.nextId = s.nextId := by
  cases h : s.idOf? path with
  | none => rw [detach_none h]
  | some id =>
    rw [detach_some h]
    exact nextId_alterEntries _ _ s

theorem nextId_vacate :
    (if s.contains path then ((detach path).apply s).2 else s).nextId = s.nextId := by
  split
  · exact nextId_detach
  · rfl

theorem plant_apply (h : ∀ above, path.parent? = some above → s.contains above) :
    (plant path subtree).apply s
      = (.ok s.nextId, s.plantTree ((path.parent?).bind s.idOf?) path.name subtree.tree) := by
  rw [plant, Change.apply_bind, Change.apply_get]
  cases hparent : path.parent? with
  | none => rfl
  | some above =>
    obtain ⟨id, hid⟩ := Option.isSome_iff_exists.1 (h above hparent)
    simp only [Option.bind_some, hid]
    rfl

/-- What is put at a path gets the next identifier. -/
theorem eq_nextId_of_plant {id : ObjectId} {t : Store}
    (h : (plant path subtree).apply s = (.ok id, t)) : id = s.nextId := by
  rw [plant, Change.apply_bind, Change.apply_get] at h
  cases hparent : path.parent? with
  | none =>
    simp only [hparent] at h
    exact (Except.ok.inj (Prod.mk.inj h).1).symm
  | some above =>
    cases hid : s.idOf? above with
    | none =>
      simp only [hparent, hid] at h
      cases (Prod.mk.inj h).1
    | some holder =>
      simp only [hparent, hid] at h
      exact (Except.ok.inj (Prod.mk.inj h).1).symm

/-- **The check before anything is brought in.** It consists of the check of the topmost object at
its path and of that of the tree. -/
def checkAttach (s : Store) (path : DataPath) (subtree : Subtree) (overwrite : Bool) :
    Except StoreError Unit := do
  s.checkCreate path subtree.label overwrite
  checkSubtree path subtree

theorem attach_error {e : StoreError} (h : s.checkAttach path subtree overwrite = .error e) :
    (attach path subtree overwrite).apply s = (.error e, s) := by
  simp only [attach, Change.apply_bind, Change.apply_get, Change.apply_check]
  unfold checkAttach at h
  cases hcreate : s.checkCreate path subtree.label overwrite with
  | error e' =>
    rw [hcreate] at h
    obtain rfl := Except.error.inj h
    rfl
  | ok _ =>
    rw [hcreate] at h
    simp only [show checkSubtree path subtree = .error e from h]

theorem attach_ok (h : s.checkAttach path subtree overwrite = .ok ()) :
    (attach path subtree overwrite).apply s
      = (plant path subtree).apply (if s.contains path then ((detach path).apply s).2 else s) := by
  simp only [attach, Change.apply_bind, Change.apply_get, Change.apply_check]
  unfold checkAttach at h
  cases hcreate : s.checkCreate path subtree.label overwrite with
  | error e' => rw [hcreate] at h; cases h
  | ok _ =>
    rw [hcreate] at h
    simp only [show checkSubtree path subtree = .ok () from h]
    split <;> rename_i hcontains
    · obtain ⟨id, hid⟩ := Option.isSome_iff_exists.1 hcontains
      simp only [Change.apply_bind, Change.apply_discard, detach_some hid]
      rfl
    · rfl

namespace LaidOut

variable {layout : Layout}

/-! ## In a layout

An object has a holder: the node above it, or the store itself. Opening the layout at the
holder separates the entry that changes from everything else. -/

/-- The identifier of the node above one at a path. -/
theorem parentOf?_eq (h : s.LaidOut layout) {tree : LayoutTree}
    (hat : NamedForest.at? path.segments layout = some tree) :
    s.parentOf? tree.label.id = Layout.holderAt none path.above layout := by
  rw [path.segments_eq] at hat
  rw [parentOf?, h.node?_eq hat]
  rfl

/-- The identifier at the path above is that of the holder. -/
theorem bind_idOf?_eq (h : s.LaidOut layout) :
    (path.parent?).bind s.idOf? = Layout.holderAt none path.above layout := by
  cases hparent : path.parent? with
  | none => rw [DataPath.above_of_parent?_eq_none hparent]; rfl
  | some above =>
    obtain ⟨top, rest, hsegments⟩ := List.exists_cons_of_ne_nil above.nonempty
    rw [DataPath.above_of_parent?_eq_some hparent, Option.bind_some, h.idOf?_eq, hsegments]
    rfl

/-- Where there is something beneath the path above, there is something at it. -/
theorem contains_of_below? (h : s.LaidOut layout) {kids : Layout}
    (hkids : NamedForest.below? path.above layout = some kids) (above : DataPath)
    (habove : path.parent? = some above) : s.contains above := by
  rw [DataPath.above_of_parent?_eq_some habove] at hkids
  obtain ⟨top, rest, hsegments⟩ := List.exists_cons_of_ne_nil above.nonempty
  rw [hsegments, NamedForest.below?_cons, ← hsegments] at hkids
  obtain ⟨tree, hat, -⟩ := Option.map_eq_some_iff.1 hkids
  rw [h.contains_eq, hat]
  rfl

/-- Without the entry that leads to it, a tree is taken out, whatever stands for
what is missing. -/
theorem takeOut (h : s.LaidOut layout) {tree : LayoutTree}
    (hat : NamedForest.at? path.segments layout = some tree) (absent : Subtree) :
    let s' := s.alterEntries (s.parentOf? tree.label.id) (Keyed.erase path.name)
    let taken := Meshwork.takeOut absent s'.len tree.label.id s'.nodes
    taken.1.tree = .node tree.label.object (Layout.objects tree.children)
      ∧ Store.LaidOut { s' with nodes := taken.2 }
          (NamedForest.alter (Keyed.erase path.name) path.above layout)
      ∧ Store.len { s' with nodes := taken.2 } + tree.size = s.len := by
  rw [h.parentOf?_eq hat]
  rw [path.segments_eq] at hat
  obtain ⟨kids, hkids, htree⟩ := NamedForest.exists_below?_of_at? hat
  have hlaw := h.lawful.below hkids
  obtain ⟨holder, frame, hid, hopens⟩ := Layout.exists_holder hkids
  rw [← hid]
  have hbefore := (hopens s id).1 (by rw [NamedForest.alter_id]; exact ⟨h.roots, h.holds⟩)
  -- The entry goes, and the cells that it led to come to the front.
  have hentry := hbefore.alterEntries (Keyed.erase path.name)
  have hcells : (Layout.cells holder.id? kids ++ frame).Perm
      (Layout.cells holder.id? [(path.name, tree)]
        ++ (Layout.cells holder.id? (Keyed.erase path.name kids) ++ frame)) := by
    rw [← List.append_assoc, ← Layout.cells_append]
    exact (Layout.cells_perm (Keyed.perm_cons_erase htree)).append_right frame
  obtain ⟨hsubtree, hafter⟩ := (hentry.perm hcells).takeOut (hlaw.singleton htree) absent
  -- The holder has one cell or none before and after, so the difference is the tree.
  have hlen := hbefore.len_eq
  rw [id, hcells.length_eq, List.length_append, Layout.length_cells] at hlen
  have hlen' := hafter.len_eq
  rw [id, Layout.entries, ← Keyed.mapValues_erase] at hafter
  obtain ⟨hroots, hholds⟩ := (hopens _ (Keyed.erase path.name)).2 hafter
  refine ⟨hsubtree, ⟨hroots, hholds, h.lawful.alter fun children hchildren => ?_⟩, ?_⟩
  · exact (h.lawful.below hchildren).erase
  · rw [hlen, hlen']
    simp only [NamedTree.sizeForest]
    omega

/-- **Taking out what lies at a path** takes its entry out of the layout, and gives what the
layout has there. The copy is the tree of the layout without its identifiers. -/
theorem detach (h : s.LaidOut layout) {tree : LayoutTree}
    (hat : NamedForest.at? path.segments layout = some tree) :
    ∃ subtree s', (Store.detach path).apply s = (.ok subtree, s')
      ∧ subtree.tree = .node tree.label.object (Layout.objects tree.children)
      ∧ s'.LaidOut (NamedForest.alter (Keyed.erase path.name) path.above layout)
      ∧ s'.len + tree.size = s.len := by
  rw [detach_some (by rw [h.idOf?_eq, hat]; rfl)]
  exact ⟨_, _, rfl, h.takeOut hat (.leaf .group)⟩

/-- **What is overwritten is taken out**, so that the path is free. If nothing lies there, the
layout has no entry to lose. -/
theorem vacate (h : s.LaidOut layout) (path : DataPath) :
    (if s.contains path then ((Store.detach path).apply s).2 else s).LaidOut
      (NamedForest.alter (Keyed.erase path.name) path.above layout) := by
  rw [h.contains_eq]
  cases hat : NamedForest.at? path.segments layout with
  | some tree =>
    obtain ⟨subtree, s', happly, -, hlaid, -⟩ := h.detach hat
    rw [if_pos Option.isSome_some, happly]
    exact hlaid
  | none =>
    -- Nothing is there, and erasing the name changes nothing.
    rw [if_neg (by simp), NamedForest.alter_congr (g := id), NamedForest.alter_id]
    · exact h
    · intro kids hkids
      rw [path.segments_eq, NamedForest.at?_append (List.cons_ne_nil _ _), hkids] at hat
      refine Keyed.erase_of_find?_eq_none (Option.eq_none_iff_forall_ne_some.2 fun tree htree => ?_)
      rw [Option.bind_some, NamedForest.at?, htree] at hat
      cases hat

/-- **Bringing a tree to a free path** puts its entry into the layout, with new identifiers. They
are given out in the order in which the tree is walked. -/
theorem plant (h : s.LaidOut layout) {kids : Layout}
    (hkids : NamedForest.below? path.above layout = some kids)
    (hfree : Keyed.find? path.name kids = none) (htree : subtree.tree.Lawful) :
    ∃ id s', (Store.plant path subtree).apply s = (.ok id, s')
      ∧ s'.LaidOut (NamedForest.alter
          (Keyed.insert path.name (Layout.numberedTree s.nextId subtree.tree)) path.above
          layout) := by
  obtain ⟨holder, frame, hid, hopens⟩ := Layout.exists_holder hkids
  refine ⟨s.nextId, _, plant_apply (h.contains_of_below? hkids), ?_⟩
  rw [h.bind_idOf?_eq, ← hid]
  have hbefore := (hopens s id).1 (by rw [NamedForest.alter_id]; exact ⟨h.roots, h.holds⟩)
  have hentries : Layout.entries
      (Keyed.insert path.name (Layout.numberedTree s.nextId subtree.tree) kids)
        = Keyed.insert path.name s.nextId (Layout.entries kids) := Keyed.mapValues_insert _ _ _ _
  -- The new cells stand in front, where the layout has them in the order of names.
  have hcells : (Layout.cells holder.id? [(path.name, Layout.numberedTree s.nextId subtree.tree)]
      ++ (Layout.cells holder.id? kids ++ frame)).Perm
        (Layout.cells holder.id?
            (Keyed.insert path.name (Layout.numberedTree s.nextId subtree.tree) kids) ++ frame) := by
    rw [← List.append_assoc, ← Layout.cells_append]
    exact (Layout.cells_perm (Keyed.insert_perm_cons hfree).symm).append_right frame
  have hafter := (plantTree_opens path.validName htree hbefore).perm hcells
  rw [id, ← hentries] at hafter
  obtain ⟨hroots, hholds⟩ := (hopens _ (Keyed.insert path.name _)).2 hafter
  refine ⟨hroots, hholds, h.lawful.alter fun children hchildren => ?_⟩
  exact (h.lawful.below hchildren).insert path.validName (Layout.lawful_numberedTree htree)

end LaidOut

end Store

end Meshwork
