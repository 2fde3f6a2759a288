import Meshwork.Proofs.Store.Reachable

/-!
# A refused change changes nothing

Two changes take more than one step. Bringing a subtree to a path takes out
what lies there before the new is put in its place, and creating the groups
along a path creates one after another. A refusal between the steps would
leave a store that is neither the one before nor the one asked for.

No refusal comes there. An attachment is refused by the check that comes
before its first step or not at all (`Store.Coherent.plant_of_detach`), and the
way down a path is refused at a store that no step of it has changed yet
(`Store.Sound.ensureGroups_append`). What is left after a refusal is therefore
the very store from before, with all nodes, entries and the next identifier
(`Store.atomic_after`).
-/

namespace Meshwork

namespace Change

variable {α β : Type} {change : Change α} {s : Store}

/-- **A refusal of the change leaves the store as it was.** What the error is does not matter. -/
def AtomicOn (change : Change α) (s : Store) : Prop :=
  ∀ e s', change.apply s = (.error e, s') → s' = s

/-- A change that is refused at once or not at all. -/
theorem AtomicOn.of_cases (h : (∃ e, change.apply s = (.error e, s))
    ∨ ∃ answer s', change.apply s = (.ok answer, s')) : change.AtomicOn s := by
  intro e t he
  rcases h with ⟨e', hrefused⟩ | ⟨answer, s', happly⟩
  · exact (Prod.mk.inj (he.symm.trans hrefused)).2
  · cases he.symm.trans happly

/-- Another answer makes no difference. -/
theorem AtomicOn.map (f : α → β) (h : change.AtomicOn s) : (f <$> change).AtomicOn s := by
  intro e t he
  rw [apply_map] at he
  cases hresult : change.apply s with
  | mk answer t' =>
    rw [hresult] at he
    obtain ⟨hanswer, rfl⟩ := Prod.mk.inj he
    cases answer with
    | error e' => exact h e' t' hresult
    | ok value => cases hanswer

end Change

/-- What goes down along two lists goes down along each. -/
theorem DataPath.Descending.of_append {above : Option DataPath} {first rest : List DataPath}
    (h : Descending above (first ++ rest)) :
    Descending above first ∧ ∃ last, Descending last rest := by
  induction first generalizing above with
  | nil => exact ⟨trivial, above, h⟩
  | cons path others ih =>
    obtain ⟨hothers, hrest⟩ := ih h.2
    exact ⟨⟨h.1, hothers⟩, hrest⟩

namespace Store

variable {s t : Store} {path : DataPath} {subtree old : Subtree} {overwrite : Bool}

/-! ## Groups along a path

The way is cut at the first step that changed the store. That step added a group, and
everything behind lies beneath it. -/

/-- **On the way down, a step that has changed the store is not followed by a refusal.** Once a
group is new, all below it are missing, and groups may lie in it. -/
theorem Sound.ensureGroups_append (h : s.Sound) {above : Option DataPath}
    {done rest : List DataPath} (hpaths : DataPath.Descending above (done ++ rest))
    (hdone : (ensureGroups done).apply s = (.ok (), t)) :
    t = s ∨ ∃ t', (ensureGroups (done ++ rest)).apply s = (.ok (), t') := by
  obtain ⟨hfirst, last, hlast⟩ := hpaths.of_append
  have hsteps : (ensureGroups (done ++ rest)).apply s = (ensureGroups rest).apply t := by
    unfold ensureGroups at hdone ⊢
    rw [Change.apply_forM_append, hdone]
  obtain ⟨ht, hplaced⟩ : t.Coherent ∧ PathMap.Placed t.get? := by
    rcases h.coherent.ensureGroups h.placed hfirst with ⟨e, he⟩ | ⟨t', ht', hcoherent, hplaced, -⟩
    · cases hdone.symm.trans he
    · obtain ⟨-, rfl⟩ := Prod.mk.inj (hdone.symm.trans ht')
      exact ⟨hcoherent, hplaced⟩
  -- A refusal leaves the store that the whole way began with, and also the
  -- one that the rest of the way began with.
  rcases ht.ensureGroups hplaced hlast with ⟨e, he⟩ | ⟨t', ht', -⟩
  · rcases h.coherent.ensureGroups h.placed hpaths with ⟨e', he'⟩ | ⟨t', ht', -⟩
    · exact Or.inl (Prod.mk.inj (he.symm.trans (hsteps.symm.trans he'))).2
    · exact Or.inr ⟨t', ht'⟩
  · exact Or.inr ⟨t', hsteps.trans ht'⟩

/-- Once a group along a path was created, all of them are. -/
theorem Sound.createGroups_of_changed (h : s.Sound) {done rest : List DataPath}
    (hpath : path.prefixes = done ++ rest) (hdone : (ensureGroups done).apply s = (.ok (), t))
    (hchanged : t ≠ s) : ∃ id t', (Store.createGroups path).apply s = (.ok id, t') := by
  have hall :=
    (h.ensureGroups_append (hpath ▸ path.descending_prefixes) hdone).resolve_left hchanged
  rw [← hpath, createGroups_apply] at hall
  generalize (Store.createGroups path).apply s = result at hall ⊢
  obtain ⟨e | id, t'⟩ := result
  · obtain ⟨_, he⟩ := hall
    cases he
  · exact ⟨id, t', rfl⟩

/-! ## Putting the new in place of the old

The check has looked at the holder and at the tree. Taking out the old changes neither. -/

/-- **After what lies at a path was taken out, the new is put there.** So overwriting never ends
between the two, with the old taken out and the new not there. -/
theorem Coherent.plant_of_detach (h : s.Coherent)
    (hcheck : s.checkAttach path subtree overwrite = .ok ())
    (hdetach : (Store.detach path).apply s = (.ok old, t)) :
    ∃ id t', (plant path subtree).apply t = (.ok id, t')
      ∧ (Store.attach path subtree overwrite).apply s = (.ok id, t') := by
  obtain ⟨id, t', happly, -⟩ := h.attach hcheck
  refine ⟨id, t', ?_, happly⟩
  have hcontains : s.contains path := by
    cases hid : s.idOf? path with
    | none =>
      rw [detach_none hid] at hdetach
      cases hdetach
    | some _ => rw [contains, hid, Option.isSome_some]
  rw [attach_ok hcheck, if_pos hcontains, hdetach] at happly
  exact happly

/-! ## Refusals

Each change is either of one step, or its refusals come before its first. -/

namespace Sound

theorem atomicOn_attach (h : s.Sound) (path : DataPath) (subtree : Subtree) (overwrite : Bool) :
    (Store.attach path subtree overwrite).AtomicOn s :=
  .of_cases ((h.attach path subtree overwrite).imp
    (fun ⟨e, _, hrefused⟩ => ⟨e, hrefused⟩) fun ⟨id, t, _, happly, _⟩ => ⟨id, t, happly⟩)

theorem atomicOn_createGroups (h : s.Sound) (path : DataPath) :
    (Store.createGroups path).AtomicOn s :=
  .of_cases ((h.createGroups path).imp_right fun ⟨id, t, happly, _⟩ => ⟨id, t, happly⟩)

theorem atomicOn_detach (h : s.Sound) (path : DataPath) : (Store.detach path).AtomicOn s :=
  .of_cases ((h.detach path).imp
    (fun ⟨_, hrefused⟩ => ⟨_, hrefused⟩) fun ⟨subtree, t, happly, _⟩ => ⟨subtree, t, happly⟩)

theorem atomicOn_remove (h : s.Sound) (path : DataPath) : (Store.remove path).AtomicOn s :=
  (h.atomicOn_detach path).map Subtree.label

end Sound

/-- **After any operations, a change that is refused leaves the store as it was**,
for nothing is refused any more once a group along a path was created, or
what lay at a path was taken out. -/
theorem atomic_after (operations : List Operation) :
    let s := after operations
    (∀ path object overwrite, (create path object overwrite).AtomicOn s)
      ∧ (∀ path subtree overwrite, (attach path subtree overwrite).AtomicOn s)
      ∧ (∀ path, (createGroups path).AtomicOn s)
      ∧ (∀ path, (remove path).AtomicOn s)
      ∧ (∀ path, (detach path).AtomicOn s)
      ∧ (∀ path done rest t, path.prefixes = done ++ rest →
          (ensureGroups done).apply s = (.ok (), t) → t ≠ s →
            ∃ id t', (createGroups path).apply s = (.ok id, t'))
      ∧ ∀ path subtree overwrite old t, s.checkAttach path subtree overwrite = .ok () →
          (detach path).apply s = (.ok old, t) →
            ∃ id t', (plant path subtree).apply t = (.ok id, t')
              ∧ (attach path subtree overwrite).apply s = (.ok id, t') := by
  intro s
  have h : s.Sound := sound_after operations
  -- Creating is attaching a leaf; the last two say why nothing has to be undone.
  exact ⟨fun path object => h.atomicOn_attach path (.leaf object), h.atomicOn_attach,
    h.atomicOn_createGroups, h.atomicOn_remove, h.atomicOn_detach,
    fun _ _ _ _ => h.createGroups_of_changed, fun _ _ _ _ _ => h.coherent.plant_of_detach⟩

end Store

end Meshwork
