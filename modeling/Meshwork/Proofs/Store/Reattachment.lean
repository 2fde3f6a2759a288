import Meshwork.Proofs.Store.Reachable

/-!
# What is taken out can be brought back

The tree at a path of a store is determined by the objects at and beneath the path
(`PathMap.HasTree.unique`), and it is one that every check accepts, since whatever a store holds
is valid and fits. So a subtree that was taken out may come back to where it was, and a copy of
one may take its place, and both leave the objects as they were; wherever else the subtree
comes to, a copy of what lies there is the subtree again
(`Store.reattached_after`).
-/

namespace Meshwork

namespace NamedTree

variable {α : Type} {tree : NamedTree α}

/-! ## Trees and their labels

A tree with its names in order is given by its labels at all places. So two ways to find
the tree at a path find the same one. -/

/-- What lies beneath the root of a lawful tree is lawful. -/
theorem Lawful.children (h : tree.Lawful) : NamedForest.Lawful tree.children := by
  cases tree
  exact ⟨h.1, h.2⟩

/-- In a lawful tree, nothing lies at a place with an invalid name. -/
theorem Lawful.labelAt?_eq_none (h : tree.Lawful) {place : List String}
    (hplace : ¬∀ name ∈ place, ValidName name) : tree.labelAt? place = none := by
  rw [labelAt?, Option.map_eq_none_iff, Option.eq_none_iff_forall_ne_some]
  exact fun found hfound => hplace (NamedForest.validName_of_at? h hfound)

/-- **A lawful tree is determined by its labels.** It follows from the same for forests, as a tree
is one with its children. -/
theorem Lawful.ext_labelAt? {other : NamedTree α} (h : tree.Lawful) (hother : other.Lawful)
    (hlabels : ∀ place, tree.labelAt? place = other.labelAt? place) : tree = other := by
  have hchildren : tree.children = other.children :=
    NamedForest.ext_labelAt? h.children hother.children fun
      | [] => rfl
      | name :: rest => by
        have hplace := hlabels (name :: rest)
        cases tree
        cases other
        exact hplace
  have hroot : tree.label = other.label := Option.some.inj (hlabels [])
  cases tree
  cases other
  exact congrArg₂ node hroot hchildren

end NamedTree

namespace PathMap

variable {map : PathMap} {top : DataPath} {tree tree' : NamedTree DataObject}

/-- **The tree at a path** is determined by the objects there. Both trees are lawful, and have the
same label at every place. -/
theorem HasTree.unique (h : map.HasTree top tree) (h' : map.HasTree top tree') : tree = tree' := by
  refine h.lawful.ext_labelAt? h'.lawful fun place => ?_
  by_cases hvalid : ∀ name ∈ place, ValidName name
  · rw [← h.objects _ _ (top.relative?_extend place hvalid),
      h'.objects _ _ (top.relative?_extend place hvalid)]
  · rw [h.lawful.labelAt?_eq_none hvalid, h'.lawful.labelAt?_eq_none hvalid]

/-- A lawful tree that is brought to a path is the tree there. -/
theorem hasTree_graft (h : tree.Lawful) : (graft top tree map).HasTree top tree where
  lawful := h
  objects path rest hrest := by rw [graft, hrest]

end PathMap

namespace Store

variable {s : Store} {path : DataPath} {subtree : Subtree}

/-! ## Bringing it back

What a store has at a path was checked when it came there and fits. This is why the check
cannot refuse it at the same path, whatever came of the rest. -/

/-- **A copy of the tree at a path** is the tree. -/
theorem Coherent.snapshot?_eq (h : s.Coherent) (htree : PathMap.HasTree s.get? path subtree.tree) :
    s.snapshot? path = some subtree := by
  cases hcopy : s.snapshot? path with
  | none =>
    have hobject := htree.objects path [] path.relative?_self
    rw [get?_eq_none_of_snapshot? hcopy] at hobject
    cases hobject
  | some copy => rw [Subtree.ext ((h.hasTree_snapshot? hcopy).unique htree)]

namespace Sound

variable {t : Store} {overwrite : Bool}

/-- **The tree at a path comes to the same path** of a store that differs at most at and beneath
the path, and what is there then is what was in the first store. -/
theorem exists_attach_of_hasTree (hs : s.Sound) (ht : t.Sound)
    (htree : PathMap.HasTree s.get? path subtree.tree)
    (hfree : t.get? path = none ∨ overwrite = true)
    (hbeside : ∀ q, path.relative? q = none → t.get? q = s.get? q) :
    ∃ id t', (Store.attach path subtree overwrite).apply t = (.ok id, t')
      ∧ ∀ q, t'.get? q = s.get? q := by
  have hcheck : t.checkAttach path subtree overwrite = .ok () := by
    refine ht.coherent.checkAttach_eq_ok_iff.2 ⟨⟨hfree, fun above hparent => ?_⟩, htree.lawful,
      hs.placed.fitsWithin htree⟩
    rw [hbeside above (DataPath.relative?_above hparent)]
    exact hs.placed path above subtree.label hparent (htree.objects path [] path.relative?_self)
  obtain ⟨id, t', happly, -, hget⟩ := ht.coherent.attach hcheck
  exact ⟨id, t', happly, fun q => by rw [hget, PathMap.graft_eq htree hbeside]⟩

/-- **Where a subtree was brought to**, a copy is that subtree. Overwriting makes no difference,
as nothing is left of what lay there. -/
theorem snapshot?_of_attach {id : ObjectId} {s' : Store} (hs : s.Sound)
    (happly : (Store.attach path subtree overwrite).apply s = (.ok id, s')) :
    s'.snapshot? path = some subtree := by
  rcases hs.attach path subtree overwrite with ⟨e, -, he⟩ | ⟨_, _, hcheck, he, hs', hget⟩
  · cases happly.symm.trans he
  · cases happly.symm.trans he
    have hlawful := (hs.coherent.checkAttach_eq_ok_iff.1 hcheck).2.1
    exact hs'.coherent.snapshot?_eq (hget ▸ PathMap.hasTree_graft hlawful)

end Sound

/-- **What is taken out can be brought back**, after any operations. Whatever lies at a path is
taken out as a subtree; brought back there, it leaves the objects as they were, and where else
it may come to, a copy is the subtree again. A copy of what lies at a path may take its place,
which changes no object. -/
theorem reattached_after (operations : List Operation) :
    let s := after operations
    (∀ path, (s.get? path).isSome → ∃ subtree s', (detach path).apply s = (.ok subtree, s')
      ∧ (∃ id s'', (attach path subtree false).apply s' = (.ok id, s'')
        ∧ ∀ q, s''.get? q = s.get? q)
      ∧ ∀ q id s'', (attach q subtree false).apply s' = (.ok id, s'') →
          s''.snapshot? q = some subtree)
      ∧ ∀ path subtree, s.snapshot? path = some subtree →
          ∃ id s', (attach path subtree true).apply s = (.ok id, s') ∧ ∀ q, s'.get? q = s.get? q := by
  intro s
  have hs : s.Sound := sound_after operations
  refine ⟨fun path hpath => ?_, fun path subtree hcopy => ?_⟩
  · rcases hs.detach path with ⟨hfree, -⟩ | ⟨subtree, s', happly, hs', hget, htree, -⟩
    · rw [hfree] at hpath
      cases hpath
    -- The path is free once its objects are out, and beside them nothing has moved.
    · have hfree : s'.get? path = none := by
        rw [hget, PathMap.prune, DataPath.relative?_self]
      have hbeside : ∀ q, path.relative? q = none → s'.get? q = s.get? q := fun q hq => by
        rw [hget, PathMap.prune, hq]
      exact ⟨subtree, s', happly, hs.exists_attach_of_hasTree hs' htree (.inl hfree) hbeside,
        fun q id s'' => hs'.snapshot?_of_attach⟩
  · exact hs.exists_attach_of_hasTree hs (hs.coherent.hasTree_snapshot? hcopy) (.inr rfl)
      fun q _ => rfl

/-- A group with a matrix and its array is taken out. Brought back, the array is where it was;
brought to another name, it comes along, and a copy of the whole is what was taken out. -/
theorem reattached_after_nested :
    let a := DataPath.single "A" (by decide)
    let m := a.push "M" (by decide)
    let x := m.push "x" (by decide)
    let z := DataPath.single "Z" (by decide)
    let array : DataObject := .array ⟨.uint8 [3, 5], 1, by decide, by decide⟩
    let s := after [.create a .group false, .create m (.attributeMatrix ⟨2⟩) false,
      .create x array false]
    ∃ subtree s', (detach a).apply s = (.ok subtree, s') ∧ s'.get? x = none
      ∧ (∃ id s'', (attach a subtree false).apply s' = (.ok id, s'') ∧ s''.get? x = some array)
      ∧ ∃ id s'', (attach z subtree false).apply s' = (.ok id, s'')
        ∧ s''.snapshot? z = some subtree := by
  intro a m x z array s
  have hx : s.get? x = some array := by decide +kernel
  have hgone : ((detach a).apply s).2.get? x = none := by decide +kernel
  -- That the other name is free is computed; that the copy is the subtree is general.
  have hmoves : ((detach a).apply s).1.toOption.map (fun subtree =>
      ((attach z subtree false).apply ((detach a).apply s).2).1.isOk) = some true := by
    decide +kernel
  obtain ⟨subtree, s', happly, ⟨id, s'', hback, hget⟩, helsewhere⟩ :=
    (reattached_after [.create a .group false, .create m (.attributeMatrix ⟨2⟩) false,
      .create x array false]).1 a (by decide +kernel)
  rw [happly] at hgone hmoves
  refine ⟨subtree, s', happly, hgone, ⟨id, s'', hback, (hget x).trans hx⟩, ?_⟩
  rcases hmoved : (attach z subtree false).apply s' with ⟨_ | id', moved⟩
  · rw [Except.toOption, Option.map_some, hmoved] at hmoves
    cases hmoves
  · exact ⟨id', moved, rfl, helsewhere z id' moved hmoved⟩

end Store

end Meshwork
