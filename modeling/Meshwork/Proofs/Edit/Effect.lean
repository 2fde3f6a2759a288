import Meshwork.Proofs.Edit.Commit
import Meshwork.Proofs.Store.Passage

/-!
# Edits of a map

Whether an edit is accepted depends on nothing but the map from paths to
objects (`Edit.Accepted`), and so does what it makes of the map (`Edit.on`).
The same holds for edits one after another, so what commits and rehearsals
come to can be told from the map alone: a commit succeeds exactly if every
edit is accepted by the map that those before it leave (`Store.Sound.commit_cases`),
and exactly then a rehearsal has nothing to report (`Store.Sound.rehearse_cases`).
-/

namespace Meshwork

namespace Edit

/-- **What an edit makes of a map** that accepts it. It is defined for all maps, and says what the
edit does only for those that accept it. -/
def on (map : PathMap) : Edit → PathMap
  | groups path => PathMap.addGroups path.prefixes map
  | insert path subtree _ => PathMap.graft path subtree.tree map
  | remove path => PathMap.prune path map

/-- **When a map accepts an edit.** The cases are those of what may be refused: a way that cannot
be passed, a place that is taken or does not fit, and nothing to take out. -/
def Accepted (map : PathMap) : Edit → Prop
  | groups path => map.Passable path
  | insert path subtree overwrite =>
    ((map path = none ∨ overwrite = true)
      ∧ ∀ above, path.parent? = some above →
          ∃ holder, map above = some holder ∧ Fits holder path.name subtree.label)
      ∧ subtree.tree.Lawful ∧ subtree.tree.FitsWithin
  | remove path => (map path).isSome = true

/-- What edits make of a map, one after another. -/
def onEach (map : PathMap) (edits : List Edit) : PathMap := edits.foldl on map

/-- **When a map accepts edits** one after another. Each edit is asked of the map that the ones
before it leave, so the order matters. -/
def AcceptedEach : PathMap → List Edit → Prop
  | _, [] => True
  | map, edit :: rest => edit.Accepted map ∧ AcceptedEach (edit.on map) rest

theorem onEach_append (map : PathMap) (first rest : List Edit) :
    onEach map (first ++ rest) = onEach (onEach map first) rest := List.foldl_append

theorem acceptedEach_append {map : PathMap} {first rest : List Edit} :
    AcceptedEach map (first ++ rest)
      ↔ AcceptedEach map first ∧ AcceptedEach (onEach map first) rest := by
  induction first generalizing map with
  | nil => exact (and_iff_right trivial).symm
  | cons edit others ih =>
    show edit.Accepted map ∧ AcceptedEach (edit.on map) (others ++ rest)
      ↔ (edit.Accepted map ∧ AcceptedEach (edit.on map) others)
        ∧ AcceptedEach (onEach (edit.on map) others) rest
    rw [ih, and_assoc]

end Edit

/-! ## Changes of a store

For a sound store, what is accepted and what comes of it can be read off the map. From
here on no proof about edits looks at nodes or identifiers. -/

namespace Store.Sound

variable {s : Store}

/-- **An edit changes a sound store exactly if its map accepts it**, and then as it changes the
map. A refusal leaves the very store. The two cases exclude each other, which makes acceptance
decidable by trying. -/
theorem change_cases (h : s.Sound) (edit : Edit) :
    (edit.Accepted s.get? ∧ ∃ s', edit.change.apply s = (.ok (), s') ∧ s'.Sound
        ∧ s'.get? = edit.on s.get?)
      ∨ ¬ edit.Accepted s.get? ∧ ∃ cause, edit.change.apply s = (.error cause, s) := by
  -- For each edit the change of the store has its own description, and its precondition is what the
  -- map of the store accepts.
  cases edit with
  | groups path =>
    have hiff := h.exists_createGroups_iff path
    simp only [Edit.change, Change.apply_discard]
    rcases h.createGroups path with ⟨e, he⟩ | ⟨id, s', happly, hs', hget⟩
    · refine Or.inr ⟨fun hpass => ?_, e, by rw [he]; rfl⟩
      obtain ⟨_, _, happly⟩ := hiff.2 hpass
      cases he.symm.trans happly
    · exact Or.inl ⟨hiff.1 ⟨id, s', happly⟩, s', by rw [happly]; rfl, hs', hget⟩
  | insert path subtree overwrite =>
    have hiff : s.checkAttach path subtree overwrite = .ok ()
        ↔ (Edit.insert path subtree overwrite).Accepted s.get? := h.coherent.checkAttach_eq_ok_iff
    simp only [Edit.change, Change.apply_discard]
    rcases h.attach path subtree overwrite with ⟨e, hcheck, he⟩ | ⟨id, s', hcheck, happly, hs', hget⟩
    · refine Or.inr ⟨fun haccepted => ?_, e, by rw [he]; rfl⟩
      cases hcheck.symm.trans (hiff.2 haccepted)
    · exact Or.inl ⟨hiff.1 hcheck, s', by rw [happly]; rfl, hs', hget⟩
  | remove path =>
    simp only [Edit.change, Change.apply_discard]
    rcases h.detach path with ⟨hnone, he⟩ | ⟨subtree, s', happly, hs', hget, htree, -⟩
    · refine Or.inr ⟨fun hsome => ?_, _, by rw [he]; rfl⟩
      rw [Edit.Accepted, hnone] at hsome
      cases hsome
    · refine Or.inl ⟨?_, s', by rw [happly]; rfl, hs', hget⟩
      exact Option.isSome_of_eq_some (htree.objects path [] path.relative?_self)

/-- The same for edits one after another. -/
theorem changeEach_cases (h : s.Sound) (edits : List Edit) :
    (Edit.AcceptedEach s.get? edits ∧ ∃ s', (Edit.changeEach edits).apply s = (.ok (), s')
        ∧ s'.Sound ∧ s'.get? = Edit.onEach s.get? edits)
      ∨ ¬ Edit.AcceptedEach s.get? edits
        ∧ ∃ cause s', (Edit.changeEach edits).apply s = (.error cause, s') := by
  induction edits generalizing s with
  | nil => exact Or.inl ⟨trivial, s, rfl, h, rfl⟩
  | cons edit rest ih =>
    rw [Edit.changeEach, Change.apply_forM_cons]
    rcases h.change_cases edit with ⟨haccepted, s', happly, hs', hget⟩ | ⟨hrefused, cause, he⟩
    · rw [happly]
      rcases ih hs' with ⟨hrest, s'', happly', hs'', hget'⟩ | ⟨hrest, cause, s'', he⟩
      · rw [hget] at hrest hget'
        exact Or.inl ⟨⟨haccepted, hrest⟩, s'', happly', hs'', hget'⟩
      · rw [hget] at hrest
        exact Or.inr ⟨fun hboth => hrest hboth.2, cause, s'', he⟩
    · rw [he]
      exact Or.inr ⟨fun hboth => hrefused hboth.1, cause, s, rfl⟩

/-- In what accepted edits leave, every object fits beneath the one above it. -/
theorem placed_onEach (h : s.Sound) {edits : List Edit}
    (haccepted : Edit.AcceptedEach s.get? edits) : (Edit.onEach s.get? edits).Placed := by
  rcases h.changeEach_cases edits with ⟨-, s', -, hs', hget⟩ | ⟨hrefused, -⟩
  · exact hget ▸ hs'.placed
  · exact absurd haccepted hrefused

/-! ## Commits and rehearsals

A commit and a rehearsal make the same edits, but the rehearsal goes on behind one that is
refused. They agree on whether anything is refused, and on the map if nothing is. -/

/-- **A commit succeeds exactly if the map accepts the edits.** With this, nothing about commits
has to look at logs or at stores in the middle any more. -/
theorem commit_cases (h : s.Sound) (edits : List Edit) :
    (Edit.AcceptedEach s.get? edits ∧ ∃ s', Meshwork.commit edits s = (.ok edits.length, s')
        ∧ s'.Sound ∧ s'.get? = Edit.onEach s.get? edits)
      ∨ ¬ Edit.AcceptedEach s.get? edits
        ∧ ∃ e s', Meshwork.commit edits s = (.error e, s') ∧ s'.Sound ∧ s'.get? = s.get? := by
  obtain ⟨hmade, hundoes, hcases⟩ := attempt_cases 0 edits h Undoes.nil
  rcases hcases with ⟨hrefusal, hchange⟩ | ⟨done, edit, rest, cause, rfl, hdone, hedit, hrefusal⟩
  · rcases h.changeEach_cases edits with ⟨haccepted, s', happly, -, hget⟩ | ⟨-, _, _, he⟩
    · obtain ⟨-, rfl⟩ := Prod.mk.inj (happly.symm.trans hchange)
      refine Or.inl ⟨haccepted, _, ?_, hmade, hget⟩
      rw [Meshwork.commit, hrefusal]
    · cases he.symm.trans hchange
  · obtain ⟨s', hrun, hs', hget⟩ := hundoes _ hmade rfl
    refine Or.inr ⟨fun haccepted => ?_, ⟨0 + done.length, cause⟩, s', ?_, hs', hget⟩
    -- The edit that is refused is not accepted after those before it.
    · obtain ⟨hfirst, hlast, -⟩ := Edit.acceptedEach_append.1 haccepted
      rcases h.changeEach_cases done with ⟨-, t, happly, -, ht⟩ | ⟨-, _, _, he⟩
      · obtain ⟨-, rfl⟩ := Prod.mk.inj (happly.symm.trans hdone)
        rw [← ht] at hlast
        rcases hmade.change_cases edit with ⟨-, _, hok, -⟩ | ⟨hno, -⟩
        · cases hok.symm.trans hedit
        · exact hno hlast
      · cases he.symm.trans hdone
    · rw [Meshwork.commit, hrefusal, Undo.runAll_eq hrun]

/-- **An edit is made exactly if the map accepts it**, as the change that it is without its log.
What the log looks like is the matter of undoing, and is not told here. -/
theorem make_cases (h : s.Sound) (edit : Edit) :
    (edit.Accepted s.get? ∧ ∃ undo s', edit.make.apply s = (.ok undo, s')
        ∧ edit.change.apply s = (.ok (), s') ∧ s'.Sound ∧ s'.get? = edit.on s.get?)
      ∨ ¬ edit.Accepted s.get? ∧ ∃ cause, edit.make.apply s = (.error cause, s)
        ∧ edit.change.apply s = (.error cause, s) := by
  rcases edit.make_cases h with ⟨cause, hmake, hchange⟩ | ⟨undo, t, hmake, hchange, ht, -⟩
  · rcases h.change_cases edit with ⟨-, _, hok, -⟩ | ⟨hrefused, -⟩
    · cases hok.symm.trans hchange
    · exact Or.inr ⟨hrefused, cause, hmake, hchange⟩
  · rcases h.change_cases edit with ⟨haccepted, s', hok, -, hget⟩ | ⟨-, _, he⟩
    · obtain ⟨-, rfl⟩ := Prod.mk.inj (hok.symm.trans hchange)
      exact Or.inl ⟨haccepted, undo, s', hmake, hchange, ht, hget⟩
    · cases he.symm.trans hchange

/-- **A rehearsal reports nothing exactly if the map accepts the edits**, and leaves a sound store
in any case. If something is refused, the store that is left has the accepted edits and is not
described further. -/
theorem rehearse_cases (h : s.Sound) (edits : List Edit) :
    (rehearse edits s).2.Sound
      ∧ ((Edit.AcceptedEach s.get? edits ∧ (rehearse edits s).1 = .none
          ∧ (rehearse edits s).2.get? = Edit.onEach s.get? edits)
        ∨ ¬ Edit.AcceptedEach s.get? edits ∧ (rehearse edits s).1.hasErrors = true) := by
  induction edits generalizing s with
  | nil => exact ⟨h, Or.inl ⟨trivial, rfl, rfl⟩⟩
  | cons edit rest ih =>
    rw [rehearse]
    rcases h.make_cases edit with
      ⟨haccepted, undo, s', hmake, -, hs', hget⟩ | ⟨hrefused, cause, hmake, -⟩
    · rw [hmake]
      obtain ⟨hsound, hcases⟩ := ih hs'
      rw [hget] at hcases
      refine ⟨hsound, hcases.imp (fun ⟨hrest, hfound, hmap⟩ => ⟨⟨haccepted, hrest⟩, hfound, hmap⟩)
        fun ⟨hrest, hfound⟩ => ⟨fun hboth => hrest hboth.2, hfound⟩⟩
    · rw [hmake]
      exact ⟨(ih h).1, Or.inr ⟨fun hboth => hrefused hboth.1, rfl⟩⟩

/-- What a rehearsal without errors comes to. -/
theorem rehearse_of_hasErrors_eq_false (h : s.Sound) {edits : List Edit}
    (hclean : (rehearse edits s).1.hasErrors = false) :
    Edit.AcceptedEach s.get? edits ∧ (rehearse edits s).2.get? = Edit.onEach s.get? edits := by
  rcases (h.rehearse_cases edits).2 with ⟨haccepted, -, hmap⟩ | ⟨-, herrors⟩
  · exact ⟨haccepted, hmap⟩
  · cases herrors.symm.trans hclean

end Store.Sound

end Meshwork
