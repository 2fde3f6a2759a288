import Meshwork.Proofs.Store.Groups

/-!
# Reachable stores

The operations on a store are run one after another from the empty store,
whether they succeed or are refused (`Store.after`). `Store.Sound` is the
invariant of all of them: the store is coherent, and every object fits
beneath the one above it. One step keeps it (`Operation.sound_run`), so every
reachable store has it (`Store.sound_after`).
-/

namespace Meshwork

/-! ## Operations

These are the calls by which a program changes a store. A sequence of them includes those
that are refused, so that what is shown of the store after a sequence is shown of it at
every moment. -/

/-- **An operation on a store.** These are all the ways in which a program can change a store,
with any arguments. -/
inductive Operation where
  /-- Bring an object to a path. -/
  | create (path : DataPath) (object : DataObject) (overwrite : Bool)
  /-- Create every group that is missing along a path. -/
  | createGroups (path : DataPath)
  /-- Take out what lies at a path, for the object there. -/
  | remove (path : DataPath)
  /-- Take out what lies at a path. -/
  | detach (path : DataPath)
  /-- Bring a subtree to a path. -/
  | attach (path : DataPath) (subtree : Subtree) (overwrite : Bool)

/-- The store after an operation, successful or refused. -/
def Operation.run : Operation → Store → Store
  | create path object overwrite, s => ((Store.create path object overwrite).apply s).2
  | createGroups path, s => ((Store.createGroups path).apply s).2
  | remove path, s => ((Store.remove path).apply s).2
  | detach path, s => ((Store.detach path).apply s).2
  | attach path subtree overwrite, s => ((Store.attach path subtree overwrite).apply s).2

namespace Store

/-- **The store after a sequence of operations** from the empty store. Those that are refused
change nothing, but stay in the sequence. -/
def after (operations : List Operation) : Store :=
  operations.foldl (fun s operation => operation.run s) empty

/-! ## The invariant

Being coherent is about the arena, and being placed about the map. The two are kept
together because checks that read the arena decide about the map. -/

/-- **The invariant of stores**: the store is coherent, and every object fits beneath the one
above it. Everything that is said of reachable stores is proved from these two fields. -/
structure Sound (s : Store) : Prop where
  /-- The store is laid out in some way. -/
  coherent : s.Coherent
  /-- Every object fits. -/
  placed : PathMap.Placed s.get?

theorem get?_empty (path : DataPath) : empty.get? path = none := by
  rw [laidOut_empty.get?_eq]
  cases path.segments <;> rfl

theorem sound_empty : Sound empty where
  coherent := Coherent.empty
  placed path above object _ hobject := by
    rw [get?_empty] at hobject
    cases hobject

namespace Sound

variable {s : Store} {path : DataPath} {subtree : Subtree} {overwrite : Bool}

/-- An attachment is refused and does nothing, or it grafts. -/
theorem attach (h : s.Sound) (path : DataPath) (subtree : Subtree) (overwrite : Bool) :
    (∃ e, s.checkAttach path subtree overwrite = .error e
        ∧ (Store.attach path subtree overwrite).apply s = (.error e, s))
      ∨ ∃ id s', s.checkAttach path subtree overwrite = .ok ()
        ∧ (Store.attach path subtree overwrite).apply s = (.ok id, s') ∧ s'.Sound
        ∧ s'.get? = PathMap.graft path subtree.tree s.get? := by
  cases hcheck : s.checkAttach path subtree overwrite with
  | error e => exact Or.inl ⟨e, rfl, attach_error hcheck⟩
  | ok _ =>
    obtain ⟨id, s', happly, hs', hget⟩ := h.coherent.attach hcheck
    obtain ⟨⟨-, habove⟩, -, hfits⟩ := h.coherent.checkAttach_eq_ok_iff.1 hcheck
    exact Or.inr ⟨id, s', rfl, happly, ⟨hs', hget ▸ h.placed.graft habove hfits⟩, hget⟩

/-- Taking out is refused and does nothing, or it prunes. -/
theorem detach (h : s.Sound) (path : DataPath) :
    (s.get? path = none ∧ (Store.detach path).apply s = (.error (.notFound path), s))
      ∨ ∃ subtree s', (Store.detach path).apply s = (.ok subtree, s') ∧ s'.Sound
        ∧ s'.get? = PathMap.prune path s.get? ∧ PathMap.HasTree s.get? path subtree.tree
        ∧ s.snapshot? path = some subtree ∧ s'.len + subtree.size = s.len := by
  cases hpath : s.get? path with
  | none => exact Or.inl ⟨rfl, h.coherent.detach_error hpath⟩
  | some object =>
    obtain ⟨subtree, s', happly, hs', hget, hrest⟩ := h.coherent.detach (Option.isSome_of_eq_some hpath)
    exact Or.inr ⟨subtree, s', happly, ⟨hs', hget ▸ h.placed.prune⟩, hget, hrest⟩

/-- **An object is created** at a free path where it fits, and nothing else
changes. -/
theorem create (h : s.Sound) {object : DataObject} (hfree : s.get? path = none)
    (hfits : ∀ above, path.parent? = some above →
      ∃ holder, s.get? above = some holder ∧ Fits holder path.name object) :
    ∃ id s', (Store.create path object false).apply s = (.ok id, s') ∧ s'.Sound
      ∧ s'.get? = fun q => if q = path then some object else s.get? q := by
  have hcheck := h.coherent.checkAttach_leaf hfree hfits
  rcases h.attach path (.leaf object) false with ⟨e, hrefused, -⟩ | ⟨id, s', -, happly, hs', hget⟩
  · rw [hcheck] at hrefused
    cases hrefused
  · exact ⟨id, s', happly, hs', hget.trans (h.placed.closed.graft_leaf hfree object)⟩

/-- Creating groups is refused and does nothing, or it adds those that are
missing. -/
theorem createGroups (h : s.Sound) (path : DataPath) :
    (∃ e, (Store.createGroups path).apply s = (.error e, s))
      ∨ ∃ id s', (Store.createGroups path).apply s = (.ok id, s') ∧ s'.Sound
        ∧ s'.get? = PathMap.addGroups path.prefixes s.get? :=
  (h.coherent.createGroups h.placed path).imp_right
    fun ⟨id, s', happly, hs', hplaced, hget⟩ => ⟨id, s', happly, ⟨hs', hplaced⟩, hget⟩

end Sound

/-- Removing is taking out, but for the answer. -/
theorem remove_apply (s : Store) (path : DataPath) :
    (remove path).apply s
      = (((detach path).apply s).1.map Subtree.label, ((detach path).apply s).2) :=
  Change.apply_map s Subtree.label (detach path)

end Store

/-- **Every operation keeps a store sound.** This is the step of the induction, one case for each
operation. -/
theorem Operation.sound_run (operation : Operation) {s : Store} (h : s.Sound) :
    (operation.run s).Sound := by
  -- Each operation is refused, and then nothing changes, or it is one of those known to keep a
  -- store sound.
  have hattach : ∀ path subtree overwrite,
      ((Store.attach path subtree overwrite).apply s).2.Sound := fun path subtree overwrite => by
    rcases h.attach path subtree overwrite with ⟨e, -, he⟩ | ⟨id, s', -, happly, hs', -⟩
    · rwa [he]
    · rwa [happly]
  have hdetach : ∀ path, ((Store.detach path).apply s).2.Sound := fun path => by
    rcases h.detach path with ⟨-, he⟩ | ⟨subtree, s', happly, hs', -⟩
    · rwa [he]
    · rwa [happly]
  cases operation with
  | create path object overwrite => exact hattach path (.leaf object) overwrite
  | createGroups path =>
    show ((Store.createGroups path).apply s).2.Sound
    rcases h.createGroups path with ⟨e, he⟩ | ⟨id, s', happly, hs', -⟩
    · rwa [he]
    · rwa [happly]
  | remove path =>
    show ((Store.remove path).apply s).2.Sound
    rw [Store.remove_apply]
    exact hdetach path
  | detach path => exact hdetach path
  | attach path subtree overwrite => exact hattach path subtree overwrite

/-- Creating an object at a free path where it fits changes nothing else. -/
theorem Store.Sound.get?_run_create {s : Store} (h : s.Sound) {path : DataPath}
    {object : DataObject} (hfree : s.get? path = none)
    (hfits : ∀ above, path.parent? = some above →
      ∃ holder, s.get? above = some holder ∧ Fits holder path.name object) (q : DataPath) :
    ((Operation.create path object false).run s).get? q
      = if q = path then some object else s.get? q := by
  obtain ⟨id, s', happly, -, hget⟩ := h.create hfree hfits
  show ((Store.create path object false).apply s).2.get? q = _
  rw [happly]
  exact congrFun hget q

/-- **Every reachable store is sound.** By induction on the operations, from the empty store. -/
theorem Store.sound_after (operations : List Operation) : (Store.after operations).Sound := by
  suffices ∀ s : Store, s.Sound →
      (operations.foldl (fun s operation => operation.run s) s).Sound from this empty sound_empty
  induction operations with
  | nil => exact fun _ h => h
  | cons operation rest ih => exact fun s h => ih _ (operation.sound_run h)

/-- An object that is created at a top-level path lies there. -/
theorem Store.get?_after_create {path : DataPath} (hparent : path.parent? = none)
    (object : DataObject) :
    (Store.after [.create path object false]).get? path = some object := by
  have hfits : ∀ above, path.parent? = some above →
      ∃ holder, Store.empty.get? above = some holder ∧ Fits holder path.name object := by
    rw [hparent]
    intro above habove
    cases habove
  exact (Store.sound_empty.get?_run_create (Store.get?_empty path) hfits path).trans (if_pos rfl)

end Meshwork
