import Meshwork.Proofs.Edit.Outlook

/-!
# Edits that do not meet

Objects under different top-level names have nothing to do with each other.
Edits that each concern a top-level name of their own (`Edit.Apart`) are
therefore accepted or refused as they would be alone, whatever becomes of the
others.

The check in advance is exact for such edits if they insert or remove: it
reports just the refusals that a rehearsal runs into (`Edit.Apart.rehearse_eq`),
so edits that it finds no fault with can be committed
(`Edit.Apart.acceptedEach_of_checkEdits`). A rehearsal makes those that are
accepted, and no others (`Edit.Apart.get?_rehearse`, `Edit.rehearse_of_refused`).
-/

namespace Meshwork

namespace DataPath

variable {p q : DataPath}

/-! ## Top-level names

Every path lies under one top-level name. An edit reads and changes a map under that of
its own path alone, so of several edits under different names each sees the map that was
there at the beginning. -/

/-- The topmost name. -/
def top (p : DataPath) : String := p.segments.head p.nonempty

/-- What lies at or beneath a path has the same topmost name. -/
theorem top_of_startsWith (h : p.startsWith q = true) : p.top = q.top := by
  obtain ⟨rest, hrest⟩ := startsWith_iff.1 h
  unfold top
  simp only [← hrest, List.head_append_of_ne_nil q.nonempty]

theorem top_of_parent? (h : p.parent? = some q) : p.top = q.top := by
  refine top_of_startsWith (startsWith_iff.2 ?_)
  rw [parent?_eq_some_iff.1 h]
  exact List.prefix_append _ _

theorem startsWith_of_top_ne (h : q.top ≠ p.top) : p.startsWith q = false :=
  Bool.eq_false_iff.2 fun hstarts => h (top_of_startsWith hstarts).symm

end DataPath

namespace Edit

/-- **Edits under different top-level names.** Each edit has a top-level name that no later one
has; so no two of them share one. -/
def Apart (edits : List Edit) : Prop :=
  edits.Pairwise fun edit later => edit.path.top ≠ later.path.top

/-- **An edit of one path**: it takes something out, or brings in a tree in which everything is
valid and fits. Edits that create groups along a path are left out, since the check of these looks
at objects on the way. -/
def IsPlain : Edit → Prop
  | groups _ => False
  | insert _ subtree _ => subtree.tree.Lawful ∧ subtree.tree.FitsWithin
  | remove _ => True

variable {edit : Edit} {edits : List Edit} {map map' : PathMap} {path : DataPath}

/-- A plain edit changes nothing under other top-level names. -/
theorem IsPlain.on_apply (hplain : edit.IsPlain) (hpath : edit.path.top ≠ path.top) :
    edit.on map path = map path := by
  have hrest : edit.path.relative? path = none := by
    rw [← Option.not_isSome_iff_eq_none, ← DataPath.startsWith_eq_isSome,
      DataPath.startsWith_of_top_ne hpath]
    exact nofun
  cases edit with
  | groups way => exact hplain.elim
  | insert place subtree overwrite =>
    show PathMap.graft place subtree.tree map path = map path
    rw [PathMap.graft, show place.relative? path = none from hrest]
  | remove place =>
    show PathMap.prune place map path = map path
    rw [PathMap.prune, show place.relative? path = none from hrest]

/-- What a plain edit leaves at a path depends on what is there only. -/
theorem IsPlain.on_congr (hplain : edit.IsPlain) (h : map' path = map path) :
    edit.on map' path = edit.on map path := by
  cases edit with
  | groups way => exact hplain.elim
  | insert place subtree overwrite =>
    show PathMap.graft place subtree.tree map' path = PathMap.graft place subtree.tree map path
    rw [PathMap.graft, PathMap.graft, h]
  | remove place =>
    show PathMap.prune place map' path = PathMap.prune place map path
    rw [PathMap.prune, PathMap.prune, h]

/-- Whether an edit is accepted depends on its own top-level name only. -/
theorem IsPlain.accepted_congr (hplain : edit.IsPlain)
    (h : ∀ path, path.top = edit.path.top → map' path = map path) :
    edit.Accepted map' ↔ edit.Accepted map := by
  cases edit with
  | groups way => exact hplain.elim
  | insert place subtree overwrite =>
    have hplace : map' place = map place := h place rfl
    have habove : ∀ above, place.parent? = some above → map' above = map above :=
      fun above hparent => h above (DataPath.top_of_parent? hparent).symm
    simp only [Accepted, hplace]
    refine and_congr_left fun _ => and_congr_right fun _ => forall₂_congr fun above hparent => ?_
    rw [habove above hparent]
  | remove place =>
    show (map' place).isSome = true ↔ (map place).isSome = true
    rw [h place rfl]

/-- **Edits apart are accepted together if each is accepted alone.** The order of the edits does
not matter then, and neither does how many there are. -/
theorem Apart.acceptedEach_iff (h : Apart edits) (hplain : ∀ edit ∈ edits, edit.IsPlain) :
    AcceptedEach map edits ↔ ∀ edit ∈ edits, edit.Accepted map := by
  induction edits generalizing map with
  | nil => exact ⟨fun _ => by simp, fun _ => trivial⟩
  | cons edit rest ih =>
    obtain ⟨hedit, hrest⟩ := List.pairwise_cons.1 h
    obtain ⟨hfirst, hothers⟩ := List.forall_mem_cons.1 hplain
    rw [List.forall_mem_cons]
    refine and_congr_right fun _ => (ih hrest hothers).trans (forall₂_congr fun later hlater => ?_)
    refine (hothers later hlater).accepted_congr fun path hpath => hfirst.on_apply ?_
    rw [hpath]
    exact hedit later hlater

/-- Plain edits change nothing under other top-level names. -/
theorem onEach_of_apart (hplain : ∀ edit ∈ edits, edit.IsPlain)
    (h : ∀ edit ∈ edits, edit.path.top ≠ path.top) : onEach map edits path = map path := by
  induction edits generalizing map with
  | nil => rfl
  | cons edit rest ih =>
    obtain ⟨hfirst, hothers⟩ := List.forall_mem_cons.1 hplain
    obtain ⟨hedit, hrest⟩ := List.forall_mem_cons.1 h
    exact (ih hothers hrest).trans (hfirst.on_apply hedit)

/-- **Of edits apart, one alone changes what lies under its top-level name.** The other edits come
before and after it, and both leave what lies under its name. -/
theorem Apart.onEach_apply (h : Apart edits) (hplain : ∀ edit ∈ edits, edit.IsPlain)
    (hedit : edit ∈ edits) (hpath : edit.path.top = path.top) :
    onEach map edits path = edit.on map path := by
  induction edits generalizing map with
  | nil => cases hedit
  | cons first rest ih =>
    obtain ⟨hfirst, hothers⟩ := List.forall_mem_cons.1 hplain
    obtain ⟨haway, hrest⟩ := List.pairwise_cons.1 h
    rcases List.mem_cons.1 hedit with rfl | hlater
    · exact onEach_of_apart hothers fun later hlater => hpath ▸ (haway later hlater).symm
    · refine (ih hrest hothers hlater).trans ((hothers edit hlater).on_congr ?_)
      exact hfirst.on_apply (hpath ▸ haway edit hlater)

end Edit

/-! ## The check of edits apart

The check keeps an outlook, which edits under other names leave alone as far as one name
is concerned. So its answer for an edit is that for the edit alone, and there the check
looks at the store itself. A rehearsal may skip edits that are refused; those behind them
do not notice. -/

namespace Outlook

variable {s : Store} {edits : List Edit} {path : DataPath}

/-- Edits under other top-level names make nothing on the way to a path. -/
theorem isMade_of_apart (h : ∀ edit ∈ edits, edit.path.top ≠ path.top) :
    (foreseen s edits).isMade path = false := by
  refine Bool.eq_false_iff.2 fun hmade => ?_
  obtain ⟨before, edit, later, way, rfl, hway, hstarts, -⟩ := isMade_foreseen_iff.1 hmade
  have hpath : edit.path = way := by
    cases edit <;> cases hway <;> rfl
  refine h edit (List.mem_append_right _ List.mem_cons_self) ?_
  rw [hpath]
  exact DataPath.top_of_startsWith hstarts

/-- Edits under other top-level names take nothing out at or above a path. -/
theorem remains_of_apart (hs : s.Coherent) (h : ∀ edit ∈ edits, edit.path.top ≠ path.top) :
    (foreseen s edits).remains path = (s.get? path).isSome := by
  rw [Bool.eq_iff_iff, remains_foreseen_iff hs, and_iff_left_iff_imp]
  exact fun _ top hmem => DataPath.startsWith_of_top_ne (h _ hmem)

/-- At the top, nothing but a path that is taken is in the way. -/
theorem insertFault?_of_parent?_none (hs : s.Coherent)
    (h : ∀ edit ∈ edits, edit.path.top ≠ path.top) (hparent : path.parent? = none)
    {object : DataObject} {overwrite : Bool} :
    (foreseen s edits).insertFault? path object overwrite
      = if s.contains path && !overwrite then some (.duplicatePath path) else none := by
  rw [insertFault?, missingParent?, hparent, store_foreseen, remains_of_apart hs h,
    Store.checkCreate, hparent, hs.contains_eq]
  cases s.get? path <;> cases overwrite <;> rfl

/-- **The check of an object is exact** after edits under other top-level names. The outlook has
the same answer as the store, because nothing that edits made or took out lies on the way. -/
theorem insertFault?_of_apart (hs : s.Sound) (h : ∀ edit ∈ edits, edit.path.top ≠ path.top)
    {object : DataObject} {overwrite : Bool} :
    s.checkCreate path object overwrite
      = match (foreseen s edits).insertFault? path object overwrite with
        | some cause => .error cause
        | none => .ok () := by
  have hremains := remains_of_apart hs.coherent h
  have hcontains := hs.coherent.contains_eq path
  cases habove : path.parent? with
  | none =>
    rw [insertFault?_of_parent?_none hs.coherent h habove, Store.checkCreate, habove, hcontains]
    cases s.get? path <;> cases overwrite <;> rfl
  | some above =>
    have hup : ∀ edit ∈ edits, edit.path.top ≠ above.top := fun edit hedit =>
      DataPath.top_of_parent? habove ▸ h edit hedit
    have hmissing : (foreseen s edits).missingParent? path
        = if (s.get? above).isSome then none else some above := by
      rw [missingParent?, habove, Option.filter_some, remains_of_apart hs.coherent hup,
        isMade_of_apart hup]
      cases s.get? above <;> rfl
    cases hholder : s.get? above with
    | none =>
      -- Nothing is at the path either.
      have hfree : s.get? path = none := Option.not_isSome_iff_eq_none.1 fun hpath => by
        have hsome := hs.placed.closed path above habove hpath
        rw [hholder] at hsome
        cases hsome
      rw [insertFault?, hmissing, hholder, Store.checkCreate, habove, hcontains, hfree]
      simp [hholder, throw, throwThe, MonadExceptOf.throw]
    | some holder =>
      rw [hholder, if_pos (by rfl)] at hmissing
      by_cases htaken : (s.contains path && !overwrite) = true
      · rw [insertFault?, hmissing, store_foreseen, hremains, ← hcontains, Store.checkCreate,
          if_pos htaken]
        rw [Bool.and_eq_true] at htaken
        simp [htaken.1, throw, throwThe, MonadExceptOf.throw, bind, Except.bind]
      · rw [Bool.not_eq_true] at htaken
        rw [insertFault?_of_holder hmissing (by rwa [store_foreseen]) habove
          (by rwa [store_foreseen]), Store.checkCreate, htaken, if_neg Bool.false_ne_true, habove]
        simp only [hholder]
        cases checkChild above holder path.name object <;> rfl

/-- **The check of objects for the top** after edits under other names finds the paths that are
taken. At the top there is no object above that could refuse another, so the path itself is all
that matters. -/
theorem faults_of_topLevel {done : List Edit} {overwrite : Bool} (hs : s.Sound)
    (hapart : Edit.Apart edits) (hedits : ∀ edit ∈ edits,
      ∃ path subtree, edit = .insert path subtree overwrite ∧ path.parent? = none)
    (hdone : ∀ edit ∈ edits, ∀ other ∈ done, other.path.top ≠ edit.path.top) :
    (foreseen s done).faults edits
      = ((edits.map Edit.path).filter fun path => s.contains path && !overwrite).map
          .duplicatePath := by
  induction edits generalizing done with
  | nil => rfl
  | cons edit rest ih =>
    -- By induction on the edits, with those before them in `done`: the first edit joins `done`, and
    -- the others have other names than it.
    obtain ⟨haway, hrest⟩ := List.pairwise_cons.1 hapart
    obtain ⟨⟨path, subtree, rfl, hparent⟩, hothers⟩ := List.forall_mem_cons.1 hedits
    have hnext : ∀ later ∈ rest, ∀ other ∈ done ++ [.insert path subtree overwrite],
        other.path.top ≠ later.path.top := by
      intro later hlater other hother
      rcases List.mem_append.1 hother with hother | hother
      · exact hdone later (List.mem_cons_of_mem _ hlater) other hother
      · exact List.mem_singleton.1 hother ▸ haway later hlater
    have hfault : (foreseen s done).insertFault? path subtree.label overwrite
        = if s.contains path && !overwrite then some (.duplicatePath path) else none :=
      insertFault?_of_parent?_none hs.coherent (hdone _ List.mem_cons_self) hparent
    rw [faults, ← foreseen_concat, ih hrest hothers hnext, fault?, hfault, List.map_cons,
      Edit.path, List.filter_cons]
    split <;> rfl

end Outlook

namespace Edit

variable {s t : Store} {edit : Edit} {edits done : List Edit}

/-- **The check of a plain edit is exact** after edits under other top-level
names: it finds the fault for which the edit is refused, on any store that is
the same under the name of the edit. -/
theorem IsPlain.change_eq (hplain : edit.IsPlain) (hs : s.Sound) (ht : t.Sound)
    (hagree : ∀ path, path.top = edit.path.top → t.get? path = s.get? path)
    (hdone : ∀ other ∈ done, other.path.top ≠ edit.path.top) :
    (edit.change.apply t).1 = match (Outlook.foreseen s done).fault? edit with
      | some cause => .error cause
      | none => .ok () := by
  cases edit with
  | groups way => exact hplain.elim
  | insert path subtree overwrite =>
    -- What is checked before an object is brought in depends on its place and on what is above,
    -- both under the name of the edit, where the two stores agree. Its tree passes the check
    -- anywhere.
    have hcreate : t.checkCreate path subtree.label overwrite
        = s.checkCreate path subtree.label overwrite := by
      rw [Store.checkCreate, Store.checkCreate, ht.coherent.contains_eq, hs.coherent.contains_eq,
        hagree path rfl]
      cases habove : path.parent? with
      | none => rfl
      | some above =>
        dsimp only
        rw [hagree above (DataPath.top_of_parent? habove).symm]
    have hcheck : t.checkAttach path subtree overwrite
        = s.checkCreate path subtree.label overwrite := by
      rw [Store.checkAttach, hcreate, checkSubtree,
        (checkTree_eq_ok_iff path subtree.ordered).2 hplain]
      cases s.checkCreate path subtree.label overwrite <;> rfl
    refine Eq.trans ?_ (hcheck.trans (Outlook.insertFault?_of_apart hs hdone))
    simp only [change, Change.apply_discard]
    rcases ht.attach path subtree overwrite with ⟨e, he, happly⟩ | ⟨id, t', hok, happly, -⟩
    · rw [happly, he]
      rfl
    · rw [happly, hok]
      rfl
  | remove path =>
    -- No edit before concerns this name, so the path counts as there just if the store has it.
    have hremains : (Outlook.foreseen s done).remains path = (s.get? path).isSome :=
      Outlook.remains_of_apart hs.coherent hdone
    have hmade : (Outlook.foreseen s done).isMade path = false := Outlook.isMade_of_apart hdone
    rw [Outlook.fault?, hremains, hmade]
    simp only [change, Change.apply_discard, ← hagree path rfl]
    rcases ht.detach path with ⟨hnone, happly⟩ | ⟨subtree, t', happly, -, -, htree, -⟩
    · rw [happly, hnone]
      rfl
    · rw [happly, Option.isSome_of_eq_some (htree.objects path [] path.relative?_self)]
      rfl

/-- **A rehearsal of the rest** of edits apart reports what the check finds after
those before, on any store that is still the same under the names of the rest. -/
theorem rehearse_rest_eq (hs : s.Sound) (ht : t.Sound) (hapart : Apart edits)
    (hplain : ∀ edit ∈ edits, edit.IsPlain)
    (hagree : ∀ edit ∈ edits, ∀ path, path.top = edit.path.top → t.get? path = s.get? path)
    (hdone : ∀ edit ∈ edits, ∀ other ∈ done, other.path.top ≠ edit.path.top) :
    (rehearse edits t).1
      = ⟨((Outlook.foreseen s done).faults edits).map fun e => ⟨e.code, e.message, none⟩, []⟩ := by
  induction edits generalizing t done with
  | nil => rfl
  | cons edit rest ih =>
    -- The rehearsal works on a store `t` that changes, the check on the old one. They stay the same
    -- under the names of the edits that are still to come, and this is what the induction carries.
    obtain ⟨hedit, hrest⟩ := List.pairwise_cons.1 hapart
    obtain ⟨hfirst, hothers⟩ := List.forall_mem_cons.1 hplain
    have hcheck := hfirst.change_eq hs ht (hagree edit List.mem_cons_self)
      (hdone edit List.mem_cons_self)
    have hnext : ∀ later ∈ rest, ∀ other ∈ done ++ [edit], other.path.top ≠ later.path.top := by
      intro later hlater other hother
      rcases List.mem_append.1 hother with hother | hother
      · exact hdone later (List.mem_cons_of_mem _ hlater) other hother
      · exact List.mem_singleton.1 hother ▸ hedit later hlater
    rw [rehearse, Outlook.faults, ← Outlook.foreseen_concat]
    rcases ht.make_cases edit with ⟨-, undo, t', hmake, hchange, ht', hget⟩ | ⟨-, cause, hmake, hchange⟩
    · have hfault : (Outlook.foreseen s done).fault? edit = none := by
        rw [hchange] at hcheck
        split at hcheck
        · cases hcheck
        · assumption
      rw [hmake, hfault]
      refine ih ht' hrest hothers (fun later hlater path hpath => ?_) hnext
      rw [hget, hfirst.on_apply (hpath ▸ hedit later hlater)]
      exact hagree later (List.mem_cons_of_mem _ hlater) path hpath
    · have hfault : (Outlook.foreseen s done).fault? edit = some cause := by
        rw [hchange] at hcheck
        split at hcheck
        · rw [Except.error.inj hcheck]
          assumption
        · cases hcheck
      rw [hmake, hfault]
      dsimp only
      rw [ih ht hrest hothers (fun later hlater => hagree later (List.mem_cons_of_mem _ hlater)) hnext]
      rfl

/-- **The check of plain edits apart reports what a rehearsal does.** They agree as lists of
findings, in the order of the edits and with the same messages. -/
theorem Apart.rehearse_eq (hapart : Apart edits) (hplain : ∀ edit ∈ edits, edit.IsPlain)
    (hs : s.Sound) : (rehearse edits s).1 = checkEdits s edits :=
  rehearse_rest_eq hs hs hapart hplain (fun _ _ _ _ => rfl)
    fun _ _ other (hother : other ∈ []) => absurd hother List.not_mem_nil

/-- A rehearsal of edits that are all refused alone leaves the store. -/
theorem rehearse_of_refused (hs : s.Sound)
    (hrefused : ∀ edit ∈ edits, ¬ edit.Accepted s.get?) : (rehearse edits s).2 = s := by
  induction edits with
  | nil => rfl
  | cons edit rest ih =>
    obtain ⟨hedit, hrest⟩ := List.forall_mem_cons.1 hrefused
    rw [rehearse]
    rcases hs.make_cases edit with ⟨haccepted, -⟩ | ⟨-, cause, hmake, -⟩
    · exact absurd haccepted hedit
    · rw [hmake]
      exact ih hrest

/-- A rehearsal of plain edits changes nothing under other top-level names. -/
theorem get?_rehearse_of_apart (hs : s.Sound) {path : DataPath}
    (hplain : ∀ edit ∈ edits, edit.IsPlain) (h : ∀ edit ∈ edits, edit.path.top ≠ path.top) :
    (rehearse edits s).2.get? path = s.get? path := by
  induction edits generalizing s with
  | nil => rfl
  | cons edit rest ih =>
    obtain ⟨hfirst, hothers⟩ := List.forall_mem_cons.1 hplain
    obtain ⟨hedit, hrest⟩ := List.forall_mem_cons.1 h
    rw [rehearse]
    rcases hs.make_cases edit with ⟨-, undo, t, hmake, -, ht, hget⟩ | ⟨-, cause, hmake, -⟩
    · rw [hmake]
      exact (ih ht hothers hrest).trans (by rw [hget, hfirst.on_apply hedit])
    · rw [hmake]
      exact ih hs hothers hrest

/-- **A rehearsal keeps what an edit alone would make** under its top-level name, whatever becomes
of the other edits. So a rehearsal that reports errors still shows what the accepted edits come
to. -/
theorem Apart.get?_rehearse (hs : s.Sound) (hapart : Apart edits)
    (hplain : ∀ edit ∈ edits, edit.IsPlain) (hedit : edit ∈ edits)
    (haccepted : edit.Accepted s.get?) {path : DataPath} (hpath : path.top = edit.path.top) :
    (rehearse edits s).2.get? path = edit.on s.get? path := by
  induction edits generalizing s with
  | nil => cases hedit
  | cons first rest ih =>
    obtain ⟨hfirst, hothers⟩ := List.forall_mem_cons.1 hplain
    obtain ⟨haway, hrest⟩ := List.pairwise_cons.1 hapart
    rw [rehearse]
    rcases List.mem_cons.1 hedit with rfl | hlater
    -- The edit is made, and none of the later ones concerns its name.
    · rcases hs.make_cases edit with ⟨-, undo, t, hmake, -, ht, hget⟩ | ⟨hrefused, -⟩
      · rw [hmake, ← hget]
        exact get?_rehearse_of_apart ht hothers fun later hlater htop =>
          haway later hlater (hpath ▸ htop).symm
      · exact absurd haccepted hrefused
    -- Whether the first edit is made or refused, the store remains as it was under the name of the
    -- later one.
    · rcases hs.make_cases first with ⟨-, undo, t, hmake, -, ht, hget⟩ | ⟨-, cause, hmake, -⟩
      · have hsame : ∀ other : DataPath, other.top = edit.path.top → t.get? other = s.get? other := by
          intro other hother
          rw [hget, hfirst.on_apply (hother ▸ haway edit hlater)]
        rw [hmake]
        refine (ih ht hrest hothers hlater ?_).trans ((hothers edit hlater).on_congr (hsame path hpath))
        exact ((hothers edit hlater).accepted_congr hsame).2 haccepted
      · rw [hmake]
        exact ih hs hrest hothers hlater haccepted

/-- **Plain edits apart that the check finds no fault with are accepted.** This is the use of the
check for filters: with nothing found beforehand, a commit cannot fail. -/
theorem Apart.acceptedEach_of_checkEdits (hapart : Apart edits)
    (hplain : ∀ edit ∈ edits, edit.IsPlain) (hs : s.Sound)
    (hcheck : (checkEdits s edits).hasErrors = false) : AcceptedEach s.get? edits := by
  refine (hs.rehearse_of_hasErrors_eq_false ?_).1
  rw [hapart.rehearse_eq hplain hs]
  exact hcheck

/-- The check finds no fault with plain edits apart that are accepted. -/
theorem Apart.checkEdits_of_acceptedEach (hapart : Apart edits)
    (hplain : ∀ edit ∈ edits, edit.IsPlain) (hs : s.Sound)
    (haccepted : AcceptedEach s.get? edits) : checkEdits s edits = .none := by
  rw [← hapart.rehearse_eq hplain hs]
  rcases (hs.rehearse_cases edits).2 with ⟨-, hnone, -⟩ | ⟨hrefused, -⟩
  · exact hnone
  · exact absurd haccepted hrefused

end Edit

end Meshwork
