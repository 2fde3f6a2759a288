import Meshwork.Proofs.Store.WellFormed

/-!
# Identifiers are handles

Whoever holds an identifier may use it later, when the store has changed. Then it still
stands for the same object at the same path, or for nothing: no other object gets it, and
no object is moved to another path.

`Store.Denotes` and `Store.Dead` are the two states of an identifier that has been given
out. `Store.Follows` says how a later store is related to an earlier one: what has an
identifier of before has it where it had it, and an identifier is lost only at or beneath a
path that was struck. The relation is transitive, so it is enough that single changes
have it: taking out strikes its path (`Store.strikes_detach`), bringing in strikes its path
if it may overwrite (`Store.strikes_attach`), and creating groups strikes none
(`Store.strikes_createGroups`).
-/

namespace Meshwork

namespace Store

/-! ## What an identifier stands for

In a sound store an identifier has a path and an object, or it has neither. There is no
third state, in which it would be reached without a path or the other way round. -/

/-- **An identifier denotes the object at a path.** These are the three ways in which a handle is
used. -/
structure Denotes (s : Store) (id : ObjectId) (path : DataPath) (object : DataObject) : Prop where
  /-- The path leads to it, and no other path does. -/
  idOf?_eq_some_iff : ∀ q, s.idOf? q = some id ↔ q = path
  /-- It leads back to the path. -/
  pathOf? : s.pathOf? id = some path
  /-- It leads to the object. -/
  object? : s.object? id = some object

/-- **An identifier is dead**: nothing is found under it, and no path leads to it. All look-ups
fail for it, in either direction. -/
structure Dead (s : Store) (id : ObjectId) : Prop where
  /-- There is no object. -/
  object? : s.object? id = none
  /-- There is nothing above. -/
  parentOf? : s.parentOf? id = none
  /-- There is no path. -/
  pathOf? : s.pathOf? id = none
  /-- No path leads to it. -/
  unreached : ∀ path, s.idOf? path ≠ some id

variable {s t u : Store} {path : DataPath} {id : ObjectId}

theorem Denotes.not_dead {object : DataObject} (h : s.Denotes id path object) : ¬ s.Dead id :=
  fun hdead => hdead.unreached path ((h.idOf?_eq_some_iff path).2 rfl)

/-- Where a path leads, there is the object at it. -/
theorem Sound.exists_denotes (h : s.Sound) (hid : s.idOf? path = some id) :
    ∃ object, s.Denotes id path object := by
  obtain ⟨layout, hlaid⟩ := h.coherent
  have hpath : ∀ {q}, s.idOf? q = some id → s.pathOf? id = some q := fun {q} hq => by
    obtain ⟨tree, hat, rfl⟩ := hlaid.exists_at?_of_idOf? hq
    exact hlaid.pathOf?_eq hat
  obtain ⟨node, hnode⟩ := Option.isSome_iff_exists.1 (hlaid.neverMisses.found path id hid)
  refine ⟨node.object, fun q => ⟨fun hq => ?_, fun hq => hq ▸ hid⟩, hpath hid, ?_⟩
  · exact Option.some.inj ((hpath hq).symm.trans (hpath hid))
  · rw [Store.object?, hnode, Option.map_some]

/-- An identifier that no path leads to is dead. -/
theorem Sound.dead_of_unreached (h : s.Sound) (hid : ∀ path, s.idOf? path ≠ some id) :
    s.Dead id := by
  obtain ⟨layout, hlaid⟩ := h.coherent
  have hnode : s.node? id = none := by
    refine Option.not_isSome_iff_eq_none.1 fun hlive => ?_
    obtain ⟨path, -, hpath⟩ := hlaid.neverMisses.path id hlive
    exact hid path hpath
  refine ⟨?_, ?_, ?_, hid⟩
  · rw [Store.object?, hnode, Option.map_none]
  · rw [Store.parentOf?, hnode, Option.bind_none]
  · rw [Store.pathOf?, LaidOut.climb_eq_none hnode, Option.bind_none]

/-- What has an identifier got it before the next one. -/
theorem Sound.lt_nextId (h : s.Sound) (hid : s.idOf? path = some id) : id < s.nextId := by
  obtain ⟨layout, hlaid⟩ := h.coherent
  obtain ⟨node, hnode⟩ := Option.isSome_iff_exists.1 (hlaid.neverMisses.found path id hid)
  exact hlaid.wellFormed.fresh id node hnode

/-! ## A later store

The relation says nothing about objects that came in between. It is about identifiers that
were given out before, so it composes along any run. -/

/-- **A store follows another one**, with some paths struck in between. The relation is one that
composes, so it is enough to know it of each operation. -/
structure Follows (struck : List DataPath) (s t : Store) : Prop where
  /-- Identifiers are given out in order. -/
  nextId_le : s.nextId ≤ t.nextId
  /-- What a path leads to is what it led to before, or it has a new identifier. -/
  given : ∀ path id, t.idOf? path = some id →
    s.idOf? path = some id ∧ t.object? id = s.object? id ∨ s.nextId ≤ id
  /-- A path no longer leads to what it led to only if a path was struck above it. -/
  lost : ∀ path id, s.idOf? path = some id →
    t.idOf? path = some id ∨ ∃ top ∈ struck, (top.relative? path).isSome

namespace Follows

variable {struck struck' : List DataPath}

theorem refl (struck : List DataPath) (s : Store) : s.Follows struck s where
  nextId_le := Nat.le_refl _
  given _ _ hid := Or.inl ⟨hid, rfl⟩
  lost _ _ hid := Or.inl hid

theorem trans (h : s.Follows struck t) (h' : t.Follows struck u) : s.Follows struck u where
  nextId_le := Nat.le_trans h.nextId_le h'.nextId_le
  given path id hid := by
    rcases h'.given path id hid with ⟨ht, hobject⟩ | hnew
    · rcases h.given path id ht with ⟨hs, hobject'⟩ | hnew
      · exact Or.inl ⟨hs, hobject.trans hobject'⟩
      · exact Or.inr hnew
    · exact Or.inr (Nat.le_trans h.nextId_le hnew)
  lost path id hid := by
    rcases h.lost path id hid with ht | hstruck
    · exact h'.lost path id ht
    · exact Or.inr hstruck

theorem mono (h : s.Follows struck t) (hstruck : struck ⊆ struck') : s.Follows struck' t where
  nextId_le := h.nextId_le
  given := h.given
  lost path id hid := (h.lost path id hid).imp_right fun ⟨top, htop, hbelow⟩ =>
    ⟨top, hstruck htop, hbelow⟩

/-- **An identifier still denotes what it denoted**, or it is dead, and then a path was struck
above. It cannot denote another object, nor the same one at another path. -/
theorem denotes_or_dead (h : s.Follows struck t) (hs : s.Sound) (ht : t.Sound)
    {object : DataObject} (hid : s.Denotes id path object) :
    t.Denotes id path object
      ∨ t.Dead id ∧ ∃ top ∈ struck, (top.relative? path).isSome := by
  have hled := (hid.idOf?_eq_some_iff path).2 rfl
  -- It was given out before, so it is none of the new ones.
  have hgiven : ∀ q, t.idOf? q = some id → s.idOf? q = some id ∧ t.object? id = s.object? id :=
    fun q hq => (h.given q id hq).resolve_right (Nat.not_le.2 (hs.lt_nextId hled))
  by_cases hkept : t.idOf? path = some id
  · obtain ⟨found, hfound⟩ := ht.exists_denotes hkept
    have hsame : some found = some object :=
      hfound.object?.symm.trans ((hgiven path hkept).2.trans hid.object?)
    exact Or.inl (Option.some.inj hsame ▸ hfound)
  · refine Or.inr ⟨ht.dead_of_unreached fun q hq => hkept ?_, (h.lost path id hled).resolve_left hkept⟩
    obtain rfl := (hid.idOf?_eq_some_iff q).1 (hgiven q hq).1
    exact hq

/-- **What is dead stays dead**, once it has been given out. Identifiers that were given out are
never given out again. -/
theorem dead (h : s.Follows struck t) (ht : t.Sound) (hgiven : id < s.nextId) (hdead : s.Dead id) :
    t.Dead id := by
  refine ht.dead_of_unreached fun path hid => ?_
  rcases h.given path id hid with ⟨hs, -⟩ | hnew
  · exact hdead.unreached path hs
  · exact absurd hgiven (Nat.not_lt.2 hnew)

end Follows

/-! ## Reading it off layouts

In layouts, an identifier is part of a label. One store follows another if labels are kept
except for the new and the struck. -/

namespace LaidOut

variable {layout layout' : Layout}

theorem idOf?_eq_map_labelAt? (h : s.LaidOut layout) (path : DataPath) :
    s.idOf? path = (NamedForest.labelAt? path.segments layout).map Tag.id := by
  rw [h.idOf?_eq, NamedForest.labelAt?, Option.map_map]
  rfl

theorem object?_eq_of_labelAt? (h : s.LaidOut layout) {tag : Tag}
    (htag : NamedForest.labelAt? path.segments layout = some tag) :
    s.object? tag.id = some tag.object := by
  have hget := h.get?_eq path
  rw [get?, h.idOf?_eq_map_labelAt?, htag] at hget
  exact hget

/-- **Layouts that agree where nothing is new or struck** are those of a store and one that
follows it. What lies at a path is read from the layouts, and identifiers are those of the tags. -/
theorem follows {struck : List DataPath} (hs : s.LaidOut layout) (ht : t.LaidOut layout')
    (hnext : s.nextId ≤ t.nextId)
    (hgiven : ∀ (path : DataPath) tag, NamedForest.labelAt? path.segments layout' = some tag →
      NamedForest.labelAt? path.segments layout = some tag ∨ s.nextId ≤ tag.id)
    (hlost : ∀ (path : DataPath) tag, NamedForest.labelAt? path.segments layout = some tag →
      NamedForest.labelAt? path.segments layout' = some tag
        ∨ ∃ top ∈ struck, (top.relative? path).isSome) :
    s.Follows struck t where
  nextId_le := hnext
  given path id hid := by
    rw [ht.idOf?_eq_map_labelAt?] at hid
    obtain ⟨tag, htag, rfl⟩ := Option.map_eq_some_iff.1 hid
    refine (hgiven path tag htag).imp_left fun hold => ⟨?_, ?_⟩
    · rw [hs.idOf?_eq_map_labelAt?, hold, Option.map_some]
    · rw [ht.object?_eq_of_labelAt? htag, hs.object?_eq_of_labelAt? hold]
  lost path id hid := by
    rw [hs.idOf?_eq_map_labelAt?] at hid
    obtain ⟨tag, htag, rfl⟩ := Option.map_eq_some_iff.1 hid
    refine (hlost path tag htag).imp_left fun hnew => ?_
    rw [ht.idOf?_eq_map_labelAt?, hnew, Option.map_some]

end LaidOut

end Store

/-! ## Changes

A change is followed step by step; what is struck by its steps is struck by it. Only the
two that remove or replace strike anything. -/

/-- **A change strikes no other paths**, and keeps stores sound. A change that fails may strike
fewer of them, or none. -/
def Change.Strikes {α : Type} (change : Change α) (struck : List DataPath) : Prop :=
  ∀ s : Store, s.Sound → (change.apply s).2.Sound ∧ s.Follows struck (change.apply s).2

namespace Change.Strikes

variable {α β : Type} {struck : List DataPath}

theorem pure (a : α) : (Pure.pure a : Change α).Strikes struck := fun s hs =>
  ⟨hs, .refl struck s⟩

theorem bind {change : Change α} {next : α → Change β} (h : change.Strikes struck)
    (hnext : ∀ a, (next a).Strikes struck) : (change >>= next).Strikes struck := by
  intro s hs
  obtain ⟨hs', hfollows⟩ := h s hs
  rw [Change.apply_bind]
  generalize change.apply s = result at hs' hfollows ⊢
  obtain ⟨answer, s'⟩ := result
  cases answer with
  | error e => exact ⟨hs', hfollows⟩
  | ok a => exact ⟨(hnext a s' hs').1, hfollows.trans (hnext a s' hs').2⟩

theorem discard {change : Change α} (h : change.Strikes struck) :
    (Functor.discard change).Strikes struck := by
  intro s hs
  rw [Change.apply_discard]
  exact h s hs

theorem forM {f : α → Change Unit} {l : List α} (h : ∀ a ∈ l, (f a).Strikes struck) :
    (l.forM f).Strikes struck := by
  induction l with
  | nil => exact pure ()
  | cons a rest ih =>
    exact (h a List.mem_cons_self).bind fun _ => ih fun b hb => h b (List.mem_cons_of_mem _ hb)

end Change.Strikes

namespace Store

/-- **Taking out** strikes its path. With the path goes what lies beneath it. -/
theorem strikes_detach (path : DataPath) : (detach path).Strikes [path] := by
  intro s hs
  have hs' := (Operation.detach path).sound_run hs
  obtain ⟨layout, hlaid⟩ := hs.coherent
  cases hat : NamedForest.at? path.segments layout with
  | none =>
    rw [detach_none (by rw [hlaid.idOf?_eq, hat, Option.map_none])]
    exact ⟨hs, .refl _ s⟩
  | some tree =>
    obtain ⟨subtree, t, happly, -, hlaid', -⟩ := hlaid.detach hat
    have hnext : ((detach path).apply s).2.nextId = s.nextId := nextId_detach
    rw [Operation.run, happly] at hs'
    rw [happly] at hnext ⊢
    -- Erasing a tree takes the labels beneath its place and no others.
    have hlabels := fun q : DataPath =>
      @NamedForest.labelAt?_erase _ path.above path.name layout hlaid.lawful q.segments
    simp only [← path.segments_eq] at hlabels
    refine ⟨hs', hlaid.follows hlaid' (Nat.le_of_eq hnext.symm) (fun q tag htag => ?_)
      fun q tag htag => ?_⟩
    · rw [hlabels] at htag
      split at htag
      · cases htag
      · exact Or.inl htag
    · rw [hlabels]
      split <;> rename_i hq
      · exact Or.inr ⟨path, List.mem_singleton_self _, Option.isSome_of_eq_some hq⟩
      · exact Or.inl htag

theorem strikes_remove (path : DataPath) : (remove path).Strikes [path] :=
  (strikes_detach path).bind fun _ => .pure _

/-- **An attachment answers with the identifier** that its path then leads to, the next one. The
objects beneath get those that come next. -/
theorem Coherent.idOf?_attach {s t : Store} (h : s.Coherent) {path : DataPath}
    {subtree : Subtree} {overwrite : Bool} {id : ObjectId}
    (happly : (Store.attach path subtree overwrite).apply s = (.ok id, t)) :
    t.idOf? path = some id ∧ id = s.nextId := by
  cases hcheck : s.checkAttach path subtree overwrite with
  | error e => cases (attach_error hcheck).symm.trans happly
  | ok _ =>
    obtain ⟨layout, hlaid⟩ := h
    obtain ⟨id', t', layout', happly', hlaid', hlabels⟩ := hlaid.attach hcheck
    obtain ⟨hid, rfl⟩ := Prod.mk.inj (happly'.symm.trans happly)
    obtain rfl := Except.ok.inj hid
    rw [attach_ok hcheck] at happly
    have hnext := (eq_nextId_of_plant happly).trans nextId_vacate
    refine ⟨?_, hnext⟩
    rw [hlaid'.idOf?_eq_map_labelAt?, hlabels, path.relative?_self, hnext]
    rfl

/-- **Bringing a tree to a path** strikes the path if it may overwrite, and otherwise none.
Whether something was there in fact need not be known. -/
theorem strikes_attach (path : DataPath) (subtree : Subtree) (overwrite : Bool) :
    (attach path subtree overwrite).Strikes (if overwrite then [path] else []) := by
  intro s hs
  have hs' := (Operation.attach path subtree overwrite).sound_run hs
  cases hcheck : s.checkAttach path subtree overwrite with
  | error e =>
    rw [attach_error hcheck]
    exact ⟨hs, .refl _ s⟩
  | ok _ =>
    obtain ⟨⟨hfree, -⟩, -⟩ := hs.coherent.checkAttach_eq_ok_iff.1 hcheck
    obtain ⟨layout, hlaid⟩ := hs.coherent
    obtain ⟨id, t, layout', happly, hlaid', hlabels⟩ := hlaid.attach hcheck
    rw [Operation.run, happly] at hs'
    -- The topmost object has the first of the new identifiers.
    have hnext : s.nextId ≤ t.nextId := by
      obtain ⟨htop, rfl⟩ := hs.coherent.idOf?_attach happly
      exact Nat.le_of_lt (hs'.lt_nextId htop)
    rw [happly]
    refine ⟨hs', hlaid.follows hlaid' hnext (fun q tag htag => ?_) fun q tag htag => ?_⟩
    · rw [hlabels] at htag
      split at htag
      · exact Or.inr (Layout.le_id_of_labelAt?_numberedTree htag)
      · exact Or.inl htag
    · rw [hlabels]
      split <;> rename_i hq
      · refine Or.inr ⟨path, ?_, Option.isSome_of_eq_some hq⟩
        -- An object at or beneath the path means that the path was not free.
        have hpath : (s.get? path).isSome := by
          refine hs.placed.closed.isSome_of_relative? hq ?_
          rw [hlaid.get?_eq, htag]
          rfl
        rcases hfree with hfree | rfl
        · rw [hfree] at hpath
          cases hpath
        · exact List.mem_singleton_self _
      · exact Or.inl htag

/-- Making sure of a group strikes no path. -/
theorem strikes_ensureGroup (path : DataPath) : (ensureGroup path).Strikes [] := by
  intro s hs
  cases hid : s.idOf? path with
  | none =>
    rw [ensureGroup_none hid]
    exact strikes_attach path (.leaf .group) false s hs
  | some id =>
    obtain ⟨object, hdenotes⟩ := hs.exists_denotes hid
    rw [ensureGroup_some hid hdenotes.object?]
    exact ⟨hs, .refl _ s⟩

/-- **Creating groups** strikes no path. Groups are only added. -/
theorem strikes_createGroups (path : DataPath) : (createGroups path).Strikes [] :=
  (Change.Strikes.forM fun above _ => (strikes_ensureGroup above).discard).bind
    fun _ => strikes_ensureGroup path

end Store

/-- The paths that an operation strikes, if it is not refused. -/
def Operation.struck : Operation → List DataPath
  | create path _ overwrite | attach path _ overwrite => if overwrite then [path] else []
  | createGroups _ => []
  | remove path | detach path => [path]

/-- **An operation** strikes the path that it removes or may overwrite. This is the step of the
induction over runs of operations. -/
theorem Operation.follows_run (operation : Operation) {s : Store} (hs : s.Sound) :
    s.Follows operation.struck (operation.run s) := by
  cases operation with
  | create path object overwrite =>
    exact (Store.strikes_attach path (.leaf object) overwrite s hs).2
  | createGroups path => exact (Store.strikes_createGroups path s hs).2
  | remove path => exact (Store.strikes_remove path s hs).2
  | detach path => exact (Store.strikes_detach path s hs).2
  | attach path subtree overwrite => exact (Store.strikes_attach path subtree overwrite s hs).2

end Meshwork
