import Meshwork.Proofs.Edit.Outlook

/-!
# What the check in advance makes of edits that succeed

The check never looks at what an earlier edit has made of a path, and for what an object
is it asks the store as it was before. It can therefore refuse an edit that would
succeed.

There are two reasons for it. The check has *forgotten* a path that is there
(`Forgotten`): the path lies within a tree that was brought in, of which the check
knows the topmost path only; or groups were created on the way to another path, and
when that one was taken out, the check dropped all that it knew of the way. Or the check
still sees an object of the store where there is another one by now, or none.

`Edit.Unforeseen` lists the cases. For edits that would all succeed, the check refuses
these and no others (`Store.Sound.isSome_fault?_iff`). So it reports nothing where no
edit is unforeseen (`Store.Sound.checkEdits_eq_none`); the lists that filters announce
are of this kind.
-/

namespace Meshwork

/-! ## Edits that the check does not foresee

What is listed here is about edits that can be made. For such an edit the check errs in
one of two ways: by what it has forgotten, or by what it still sees. The premises of each
case say when the check actually refuses, and not only when it might. -/

/-- **The check has forgotten a path** that edits leave. By the clauses `gone` and `unmade`
it finds the path neither in the store nor among what the edits have made; `cause` says how
this can be although the path is there. -/
structure Forgotten (s : Store) (edits : List Edit) (path : DataPath) : Prop where
  /-- The store does not have the path, or an edit took it out. -/
  gone : s.get? path = none ∨ ∃ top, .remove top ∈ edits ∧ path.startsWith top = true
  /-- If an edit made the path or something beneath it, a later one took that out. -/
  unmade : ∀ before edit later way, edits = before ++ edit :: later → edit.made? = some way →
    way.startsWith path = true → ∃ top, .remove top ∈ later ∧ way.startsWith top = true
  /-- The path lies within what an edit brought in, or something beneath it was taken out. -/
  cause : (∃ top subtree overwrite, .insert top subtree overwrite ∈ edits
      ∧ path.isDescendantOf top = true)
    ∨ ∃ below, .remove below ∈ edits ∧ below.isDescendantOf path = true

/-- **An edit whose success the check does not foresee**, after others. -/
inductive Edit.Unforeseen (s : Store) (earlier : List Edit) : Edit → Prop where
  /-- Groups along a path on which the store has an object that can hold nothing. It was not
  taken out, but replaced, alone or with what is above it. -/
  | replaced {path above top : DataPath} {object : DataObject} {subtree : Subtree}
    (hpath : path.startsWith above = true) (hobject : s.get? above = some object)
    (hleaf : object.isContainer = false)
    (hkept : ∀ out, .remove out ∈ earlier → above.startsWith out = false)
    (hinsert : .insert top subtree true ∈ earlier) (htop : above.startsWith top = true) :
    Unforeseen s earlier (.groups path)
  /-- An object beneath a path that the check has forgotten. -/
  | orphan {path above : DataPath} {own : Subtree} {overwrite : Bool}
    (habove : path.parent? = some above) (hforgotten : Forgotten s earlier above) :
    Unforeseen s earlier (.insert path own overwrite)
  /-- An object for a place where the store has one. It was not taken out, but went with
  what was replaced above it. -/
  | taken {path top : DataPath} {own subtree : Subtree} {overwrite : Bool}
    (hpath : (s.get? path).isSome = true)
    (hkept : ∀ out, .remove out ∈ earlier → path.startsWith out = false)
    (hinsert : .insert top subtree overwrite ∈ earlier) (htop : path.isDescendantOf top = true) :
    Unforeseen s earlier (.insert path own false)
  /-- An object beneath one which could not hold it in the store, and which was replaced or
  taken out since, alone or with what is above it. -/
  | misplaced {path above top : DataPath} {own : Subtree} {overwrite : Bool} {holder : DataObject}
    (habove : path.parent? = some above) (hholder : s.get? above = some holder)
    (hfits : ¬Fits holder path.name own.label)
    (hfree : s.get? path = none ∨ overwrite = true)
    (hchanged : (∃ subtree, .insert top subtree true ∈ earlier) ∨ .remove top ∈ earlier)
    (htop : above.startsWith top = true) :
    Unforeseen s earlier (.insert path own overwrite)
  /-- Taking out a path that the check has forgotten. -/
  | forgotten {path : DataPath} (hforgotten : Forgotten s earlier path) :
    Unforeseen s earlier (.remove path)

/-- After groups only, every edit is foreseen. -/
theorem Edit.not_unforeseen_of_groups {s : Store} {earlier : List Edit} {edit : Edit}
    (h : ∀ other ∈ earlier, ∃ path, other = .groups path) : ¬Edit.Unforeseen s earlier edit := by
  have hinsert : ∀ path subtree overwrite, Edit.insert path subtree overwrite ∉ earlier :=
    fun _ _ _ hmem => (h _ hmem).elim nofun
  have hremove : ∀ path, Edit.remove path ∉ earlier := fun _ hmem => (h _ hmem).elim nofun
  have hforgotten : ∀ path, ¬Forgotten s earlier path := fun path hforgotten => by
    rcases hforgotten.cause with ⟨_, _, _, hmem, -⟩ | ⟨_, hmem, -⟩
    · exact hinsert _ _ _ hmem
    · exact hremove _ hmem
  intro hunforeseen
  cases hunforeseen with
  | replaced _ _ _ _ hmem => exact hinsert _ _ _ hmem
  | orphan _ hparent => exact hforgotten _ hparent
  | taken _ _ hmem => exact hinsert _ _ _ hmem
  | misplaced _ _ _ _ hchanged => exact hchanged.elim (fun ⟨_, hmem⟩ => hinsert _ _ _ hmem) (hremove _)
  | forgotten hpath => exact hforgotten _ hpath

namespace Store.Sound

variable {s : Store} {edits : List Edit} {path : DataPath}

/-- **An object stays** if nothing at or above it is replaced or taken out. It may still get
company beneath it, and its own object stays what it was. -/
theorem onEach_eq_some (h : s.Sound) (haccepted : Edit.AcceptedEach s.get? edits)
    (hinsert : ∀ top subtree, .insert top subtree true ∈ edits → path.startsWith top = false)
    (hremove : ∀ top, .remove top ∈ edits → path.startsWith top = false) {object : DataObject}
    (hpath : s.get? path = some object) : Edit.onEach s.get? edits path = some object := by
  induction edits using List.reverseRecOn with
  | nil => exact hpath
  | append_singleton init edit ih =>
    obtain ⟨hinit, hlast, -⟩ := Edit.acceptedEach_append.1 haccepted
    have hbefore := ih hinit
      (fun top subtree hmem => hinsert top subtree (List.mem_append_left _ hmem))
      (fun top hmem => hremove top (List.mem_append_left _ hmem))
    have hmem : edit ∈ init ++ [edit] := List.mem_append_right _ List.mem_cons_self
    rw [Edit.onEach_append]
    cases edit with
    | groups way =>
      show PathMap.addGroups way.prefixes (Edit.onEach s.get? init) path = some object
      rw [PathMap.addGroups, hbefore, Option.some_or]
    | insert top subtree overwrite =>
      show PathMap.graft top subtree.tree (Edit.onEach s.get? init) path = some object
      rw [PathMap.graft]
      cases hrest : top.relative? path with
      | none => exact hbefore
      | some rest =>
        -- What is brought in without replacing anything lies above nothing.
        have htop := (h.placed_onEach hinit).closed.isSome_of_relative? hrest
          (Option.isSome_of_eq_some hbefore)
        rcases hlast.1.1 with hfree | rfl
        · rw [hfree] at htop
          cases htop
        · have hnot := hinsert top subtree hmem
          rw [DataPath.startsWith_eq_isSome, hrest] at hnot
          cases hnot
    | remove top =>
      have hnot := hremove top hmem
      rw [DataPath.startsWith_eq_isSome] at hnot
      show PathMap.prune top (Edit.onEach s.get? init) path = some object
      rw [PathMap.prune_apply, hnot]
      exact hbefore

/-- Something stays at a path if nothing is brought in above it and nothing taken
out at or above it. -/
theorem isSome_onEach
    (hinsert : ∀ top subtree overwrite, .insert top subtree overwrite ∈ edits →
      path.isDescendantOf top = false)
    (hremove : ∀ top, .remove top ∈ edits → path.startsWith top = false)
    (hpath : (s.get? path).isSome) : (Edit.onEach s.get? edits path).isSome := by
  induction edits using List.reverseRecOn with
  | nil => exact hpath
  | append_singleton init edit ih =>
    -- By induction from the right. Only a tree that is brought in above the path could replace what
    -- is there by nothing, and it is excluded.
    have hbefore := ih
      (fun top subtree overwrite hmem => hinsert top subtree overwrite (List.mem_append_left _ hmem))
      (fun top hmem => hremove top (List.mem_append_left _ hmem))
    have hmem : edit ∈ init ++ [edit] := List.mem_append_right _ List.mem_cons_self
    rw [Edit.onEach_append]
    cases edit with
    | groups way =>
      show (PathMap.addGroups way.prefixes (Edit.onEach s.get? init) path).isSome
      rw [PathMap.addGroups, Option.isSome_or, hbefore, Bool.true_or]
    | insert top subtree overwrite =>
      show (PathMap.graft top subtree.tree (Edit.onEach s.get? init) path).isSome
      have hnot := hinsert top subtree overwrite hmem
      by_cases htop : path = top
      · rw [htop, PathMap.graft, DataPath.relative?_self]
        rfl
      · have hrest : top.relative? path = none := by
          rw [← Option.not_isSome_iff_eq_none, ← DataPath.startsWith_eq_isSome]
          exact fun hstarts => absurd (DataPath.isDescendantOf_iff.2 ⟨hstarts, htop⟩) (by simp [hnot])
        rw [PathMap.graft, hrest]
        exact hbefore
    | remove top =>
      have hnot := hremove top hmem
      rw [DataPath.startsWith_eq_isSome] at hnot
      show (PathMap.prune top (Edit.onEach s.get? init) path).isSome
      rw [PathMap.prune_apply, hnot]
      exact hbefore

/-- **The check knows of an object** that edits leave, unless it lies within
what they brought in, or something beneath it was taken out. -/
theorem remains_or_isMade (h : s.Sound)
    (hinsert : ∀ top subtree overwrite, .insert top subtree overwrite ∈ edits →
      path.isDescendantOf top = false)
    (hremove : ∀ below, .remove below ∈ edits → below.isDescendantOf path = false)
    (hpath : (Edit.onEach s.get? edits path).isSome) :
    (Outlook.foreseen s edits).remains path = true
      ∨ (Outlook.foreseen s edits).isMade path = true := by
  induction edits using List.reverseRecOn with
  | nil => exact Or.inl ((Outlook.remains_foreseen_iff h.coherent).2 ⟨hpath, by simp⟩)
  | append_singleton init edit ih =>
    have hbefore := ih
      (fun top subtree overwrite hmem => hinsert top subtree overwrite (List.mem_append_left _ hmem))
      (fun below hmem => hremove below (List.mem_append_left _ hmem))
    have hmem : edit ∈ init ++ [edit] := List.mem_append_right _ List.mem_cons_self
    rw [Edit.onEach_append] at hpath
    rw [Outlook.foreseen_concat]
    cases edit with
    | groups way =>
      refine Outlook.known_of_made (Outlook.foreseen s init) way ?_
      have hpath : (PathMap.addGroups way.prefixes (Edit.onEach s.get? init) path).isSome := hpath
      rw [PathMap.addGroups, Option.isSome_or, Bool.or_eq_true] at hpath
      -- The path was there before, or it is one of the groups on the way, all of which count as
      -- made.
      refine hpath.imp hbefore fun hgroup => DataPath.mem_prefixes.1 ?_
      split at hgroup
      · assumption
      · cases hgroup
    | insert top subtree overwrite =>
      refine Outlook.known_of_made (Outlook.foreseen s init) top ?_
      have hpath : (PathMap.graft top subtree.tree (Edit.onEach s.get? init) path).isSome := hpath
      by_cases htop : path = top
      · exact Or.inr (htop ▸ top.startsWith_self)
      -- The path lies neither at nor beneath the new tree, so it was there before.
      · have hrest : top.relative? path = none := by
          rw [← Option.not_isSome_iff_eq_none, ← DataPath.startsWith_eq_isSome]
          exact fun hstarts => absurd (DataPath.isDescendantOf_iff.2 ⟨hstarts, htop⟩)
            (by simp [hinsert top subtree overwrite hmem])
        rw [PathMap.graft, hrest] at hpath
        exact Or.inl (hbefore hpath)
    | remove top =>
      have hpath : (PathMap.prune top (Edit.onEach s.get? init) path).isSome := hpath
      rw [PathMap.prune_apply, ← DataPath.startsWith_eq_isSome] at hpath
      split at hpath <;> rename_i hstarts
      · cases hpath
      · exact Outlook.known_of_removed (Bool.eq_false_iff.2 hstarts) (hremove top hmem) (hbefore hpath)

/-- **What the check has forgotten** of the paths that edits leave. The definition says in terms
of edits what the right side says in terms of the lists that the check keeps. -/
theorem forgotten_iff (h : s.Sound) (hpath : (Edit.onEach s.get? edits path).isSome) :
    Forgotten s edits path ↔ ¬((Outlook.foreseen s edits).remains path = true
      ∨ (Outlook.foreseen s edits).isMade path = true) := by
  constructor
  · rintro hforgotten (hremains | hmade)
    · obtain ⟨hsome, hkept⟩ := (Outlook.remains_foreseen_iff h.coherent).1 hremains
      rcases hforgotten.gone with hnone | ⟨top, hmem, hstarts⟩
      · rw [hnone] at hsome
        cases hsome
      · exact Bool.false_ne_true ((hkept top hmem).symm.trans hstarts)
    · obtain ⟨before, edit, later, way, hedits, hway, hstarts, haway⟩ :=
        Outlook.isMade_foreseen_iff.1 hmade
      obtain ⟨top, hmem, htop⟩ := hforgotten.unmade before edit later way hedits hway hstarts
      exact Bool.false_ne_true ((haway top hmem).symm.trans htop)
  · intro hunknown
    refine ⟨?_, fun before edit later way hedits hway hstarts => ?_, ?_⟩
    -- Each clause is what the check would otherwise go by: the store, an edit that was not taken
    -- back, or, for a path that is there, one of the two causes.
    · by_contra hthere
      rw [not_or, not_exists] at hthere
      exact hunknown (Or.inl ((Outlook.remains_foreseen_iff h.coherent).2
        ⟨Option.isSome_iff_ne_none.2 hthere.1, fun top hmem => Bool.eq_false_iff.2 fun hstarts =>
          hthere.2 top ⟨hmem, hstarts⟩⟩))
    · by_contra hkept
      refine hunknown (Or.inr (Outlook.isMade_foreseen_iff.2
        ⟨before, edit, later, way, hedits, hway, hstarts, fun top hmem => ?_⟩))
      exact Bool.eq_false_iff.2 fun htop => hkept ⟨top, hmem, htop⟩
    · by_contra hcause
      rw [not_or] at hcause
      exact hunknown (h.remains_or_isMade
        (fun top subtree overwrite hmem => Bool.eq_false_iff.2 fun hdescends =>
          hcause.1 ⟨top, subtree, overwrite, hmem, hdescends⟩)
        (fun below hmem => Bool.eq_false_iff.2 fun hbelow => hcause.2 ⟨below, hmem, hbelow⟩) hpath)

/-! ## What the check finds

Each fault of an edit that can be made is traced to its case, and each case to a fault.
Both directions go through what the check knows of the path above. -/

/-- **Groups that can be created** are found fault with if the store has an object on the
way that can hold nothing, and nothing took it out. It was replaced, then. -/
theorem isSome_blocker?_iff (h : s.Sound) (haccepted : Edit.AcceptedEach s.get? edits)
    (hpass : PathMap.Passable (Edit.onEach s.get? edits) path) :
    ((Outlook.foreseen s edits).blocker? path).isSome = true
      ↔ Edit.Unforeseen s edits (.groups path) := by
  rw [Outlook.blocker?, List.findSome?_isSome_iff]
  constructor
  · rintro ⟨above, habove, hblocks⟩
    split at hblocks <;> rename_i hremains
    · obtain ⟨hsome, hkept⟩ := (Outlook.remains_foreseen_iff h.coherent).1 hremains
      obtain ⟨object, hobject⟩ := Option.isSome_iff_exists.1 hsome
      have hleaf : object.isContainer = false := by
        rw [Outlook.store_foreseen, hobject, Option.bind_some] at hblocks
        cases hcontainer : object.isContainer with
        | false => rfl
        | true => rw [hcontainer] at hblocks; cases hblocks
      -- If nothing had been brought in at or above it, it would still be in the way.
      by_contra hforeseen
      have hstays := h.onEach_eq_some haccepted (fun top subtree hmem =>
        Bool.eq_false_iff.2 fun htop => hforeseen
          (.replaced (DataPath.mem_prefixes.1 habove) hobject hleaf hkept hmem htop)) hkept hobject
      have hready := (PathMap.ready_of_some hstays).1 (hpass above habove)
      exact Bool.false_ne_true (hleaf.symm.trans hready)
    · cases hblocks
  · intro hunforeseen
    cases hunforeseen with
    | replaced hpath hobject hleaf hkept =>
    refine ⟨_, DataPath.mem_prefixes.2 hpath, ?_⟩
    rw [if_pos ((Outlook.remains_foreseen_iff h.coherent).2
      ⟨Option.isSome_of_eq_some hobject, hkept⟩), Outlook.store_foreseen, hobject,
      Option.bind_some, hleaf]
    rfl

/-- **An object that can be brought in** is found fault with if the check has forgotten what
is above it, or sees the store as it was at its place or above it. -/
theorem isSome_insertFault?_iff (h : s.Sound) (haccepted : Edit.AcceptedEach s.get? edits)
    {subtree : Subtree} {overwrite : Bool}
    (hedit : (Edit.insert path subtree overwrite).Accepted (Edit.onEach s.get? edits)) :
    ((Outlook.foreseen s edits).insertFault? path subtree.label overwrite).isSome = true
      ↔ Edit.Unforeseen s edits (.insert path subtree overwrite) := by
  obtain ⟨⟨hfree, hholder⟩, -⟩ := hedit
  have hforgotten : ∀ above, path.parent? = some above → (Forgotten s edits above
      ↔ ¬((Outlook.foreseen s edits).remains above = true
        ∨ (Outlook.foreseen s edits).isMade above = true)) := fun above habove => by
    obtain ⟨holder, hhas, -⟩ := hholder above habove
    exact h.forgotten_iff (Option.isSome_of_eq_some hhas)
  have hopen : (s.contains path && !overwrite) = false ↔ s.get? path = none ∨ overwrite = true := by
    rw [h.coherent.contains_eq]
    cases s.get? path <;> cases overwrite <;> simp
  rw [Outlook.isSome_insertFault?_iff, Outlook.store_foreseen, hopen]
  constructor
  · rintro (⟨above, habove, hunknown⟩ | ⟨rfl, hremains⟩ | ⟨above, holder, habove, hold, hfits, hopen⟩)
    · exact .orphan habove ((hforgotten above habove).2 hunknown)
    · obtain ⟨hsome, hkept⟩ := (Outlook.remains_foreseen_iff h.coherent).1 hremains
      -- If nothing had been brought in above it, the place would still be taken.
      by_contra hforeseen
      have hstays := Store.Sound.isSome_onEach (fun top tree flag hmem =>
        Bool.eq_false_iff.2 fun htop => hforeseen (.taken hsome hkept hmem htop)) hkept hsome
      rcases hfree with hfree | hflag
      · rw [hfree] at hstays
        cases hstays
      · cases hflag
    · obtain ⟨now, hhas, hnow⟩ := hholder above habove
      -- If nothing at or above it had been changed, the object above would be the old one.
      by_contra hforeseen
      have hstays := h.onEach_eq_some haccepted
        (fun top tree hmem => Bool.eq_false_iff.2 fun htop => hforeseen
          (.misplaced habove hold hfits hopen (Or.inl ⟨tree, hmem⟩) htop))
        (fun top hmem => Bool.eq_false_iff.2 fun htop => hforeseen
          (.misplaced habove hold hfits hopen (Or.inr hmem) htop)) hold
      obtain rfl := Option.some.inj (hstays.symm.trans hhas)
      exact hfits hnow
  · intro hunforeseen
    cases hunforeseen with
    | orphan habove hparent => exact Or.inl ⟨_, habove, (hforgotten _ habove).1 hparent⟩
    | taken hpath hkept =>
      exact Or.inr (Or.inl ⟨rfl, (Outlook.remains_foreseen_iff h.coherent).2 ⟨hpath, hkept⟩⟩)
    | misplaced habove hold hfits hopen =>
      exact Or.inr (Or.inr ⟨_, _, habove, hold, hfits, hopen⟩)

/-- **An edit that can be made is found fault with** if and only if it is unforeseen. No fault is
left without a case, and no case is listed without a fault, for edits before it that succeed. -/
theorem isSome_fault?_iff (h : s.Sound) (haccepted : Edit.AcceptedEach s.get? edits) {edit : Edit}
    (hedit : edit.Accepted (Edit.onEach s.get? edits)) :
    ((Outlook.foreseen s edits).fault? edit).isSome = true ↔ Edit.Unforeseen s edits edit := by
  cases edit with
  | groups path => exact h.isSome_blocker?_iff haccepted hedit
  | insert path subtree overwrite => exact h.isSome_insertFault?_iff haccepted hedit
  | remove path =>
    have hfault : ((Outlook.foreseen s edits).fault? (.remove path)).isSome = true
        ↔ Forgotten s edits path := by
      rw [h.forgotten_iff hedit, Outlook.fault?]
      split <;> simp_all
    rw [hfault]
    refine ⟨.forgotten, fun hunforeseen => ?_⟩
    cases hunforeseen with
    | forgotten hforgotten => exact hforgotten

/-- **Edits that can be made and are all foreseen pass the check.** The edits are accepted one
after another, so at each of them those before it have succeeded. -/
theorem checkEdits_eq_none (h : s.Sound) (haccepted : Edit.AcceptedEach s.get? edits)
    (hforeseen : ∀ done edit rest, edits = done ++ edit :: rest → ¬ Edit.Unforeseen s done edit) :
    checkEdits s edits = .none := by
  have herrors : (checkEdits s edits).errors = [] := by
    refine List.eq_nil_iff_forall_not_mem.2 fun d hd => ?_
    obtain ⟨done, edit, rest, refusal, rfl, hfault, -⟩ := mem_checkEdits_iff.1 hd
    obtain ⟨hdone, hedit, -⟩ := Edit.acceptedEach_append.1 haccepted
    exact hforeseen done edit rest rfl
      ((h.isSome_fault?_iff hdone hedit).1 (Option.isSome_of_eq_some hfault))
  exact congrArg (Findings.mk · []) herrors

end Store.Sound

/-- **The check refuses edits that can be committed exactly for what it does not
foresee.** Such edits pass a rehearsal, and every error that the check has against them is
the fault that it finds with an unforeseen edit. Conversely it finds fault with every
unforeseen edit, and reports it. -/
theorem unforeseen_of_mem_checkEdits (operations : List Operation) (edits : List Edit)
    (hcommit : (commit edits (Store.after operations)).1.isOk) :
    let s := Store.after operations
    (rehearse edits s).1 = .none
    ∧ (∀ d ∈ (checkEdits s edits).errors,
      ∃ done edit rest refusal, edits = done ++ edit :: rest ∧ Edit.Unforeseen s done edit
        ∧ (Outlook.foreseen s done).fault? edit = some refusal
        ∧ d = ⟨refusal.code, refusal.message, none⟩)
    ∧ ∀ done edit rest, edits = done ++ edit :: rest → Edit.Unforeseen s done edit →
      ∃ refusal, (Outlook.foreseen s done).fault? edit = some refusal
        ∧ ⟨refusal.code, refusal.message, none⟩ ∈ (checkEdits s edits).errors := by
  intro s
  have hs : s.Sound := Store.sound_after operations
  -- Edits that are committed are accepted one after another, and so every edit is accepted by the
  -- map that those before it leave.
  have haccepted : Edit.AcceptedEach s.get? edits := by
    rcases hs.commit_cases edits with ⟨haccepted, -⟩ | ⟨-, e, s', he, -⟩
    · exact haccepted
    · rw [he] at hcommit
      cases hcommit
  refine ⟨?_, fun d hd => ?_, ?_⟩
  · rcases hs.rehearse_cases edits with ⟨-, ⟨-, hnone, -⟩ | ⟨hrefused, -⟩⟩
    · exact hnone
    · exact absurd haccepted hrefused
  · obtain ⟨done, edit, rest, refusal, rfl, hfault, rfl⟩ := mem_checkEdits_iff.1 hd
    obtain ⟨hdone, hedit, -⟩ := Edit.acceptedEach_append.1 haccepted
    exact ⟨done, edit, rest, refusal, rfl,
      (hs.isSome_fault?_iff hdone hedit).1 (Option.isSome_of_eq_some hfault), hfault, rfl⟩
  · rintro done edit rest rfl hunforeseen
    obtain ⟨hdone, hedit, -⟩ := Edit.acceptedEach_append.1 haccepted
    obtain ⟨refusal, hfault⟩ := Option.isSome_iff_exists.1
      ((hs.isSome_fault?_iff hdone hedit).2 hunforeseen)
    exact ⟨refusal, hfault, mem_checkEdits_iff.2 ⟨done, edit, rest, refusal, rfl, hfault, rfl⟩⟩

/-- Groups `A` and `A/B` are created, the lower one is taken out again, and a
group comes beneath the upper one: all of it can be made, and the check has
forgotten that the upper one was created. -/
theorem unforeseen_besideRemoved :
    let pathA : DataPath := ⟨["A"], by decide, by decide⟩
    let pathB : DataPath := ⟨["A", "B"], by decide, by decide⟩
    let pathX : DataPath := ⟨["A", "X"], by decide, by decide⟩
    let edits : List Edit := [.groups pathB, .remove pathB, .insert pathX (.leaf .group) false]
    (commit edits (Store.after [])).1.isOk
      ∧ (checkEdits (Store.after []) edits).errors
          = [⟨.pathNotFound, (StoreError.parentNotFound pathA).message, none⟩]
      ∧ ∃ done edit rest, edits = done ++ edit :: rest
        ∧ Edit.Unforeseen (Store.after []) done edit := by
  intro pathA pathB pathX edits
  have hcommit : (commit edits (Store.after [])).1.isOk := rfl
  have herrors : (checkEdits (Store.after []) edits).errors
      = [⟨.pathNotFound, (StoreError.parentNotFound pathA).message, none⟩] := rfl
  obtain ⟨done, edit, rest, -, hedits, hunforeseen, -⟩ :=
    (unforeseen_of_mem_checkEdits [] edits hcommit).2.1 _ (herrors ▸ List.mem_cons_self)
  exact ⟨hcommit, herrors, done, edit, rest, hedits, hunforeseen⟩

end Meshwork
