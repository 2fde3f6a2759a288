import Meshwork.Edit.Outlook
import Meshwork.Proofs.Edit.Effect

/-!
# What the check in advance knows

The check follows edits by two lists of paths, those that edits make and those that
they take out. `Outlook.foreseen` is what it has come to after some edits. Here that is
said in terms of the edits: a path remains if the store has it and no edit took it out
(`Outlook.remains_foreseen_iff`); a path counts as made if an edit has made it or
something beneath it that was not taken out since (`Outlook.isMade_foreseen_iff`); and
every error is the fault of one edit after those before it (`mem_checkEdits_iff`).

When a place is refused to an object is listed once, for any outlook
(`Outlook.isSome_insertFault?_iff`).
-/

namespace Meshwork

/-- No refusal of a child is about the path itself, or about the one above. -/
theorem checkChild_error {path : DataPath} {parent child : DataObject} {name : String}
    {cause : StoreError} (h : checkChild path parent name child = .error cause) (p : DataPath) :
    cause ≠ .duplicatePath p ∧ cause ≠ .parentNotFound p := by
  unfold checkChild at h
  repeat' split at h
  all_goals cases h <;> exact ⟨nofun, nofun⟩

/-- The path that an edit makes, if it makes one. -/
def Edit.made? : Edit → Option DataPath
  | groups path | insert path _ _ => some path
  | remove _ => none

namespace Outlook

/-! ## The two lists of the check

An outlook is built edit by edit. Removing a path takes all that lies beneath it off the
list of what was made, so membership in that list depends on the order of edits; the
statements quantify over the edit that made a path and over those behind it. -/

/-- What is to be expected of a store after edits. -/
def foreseen (s : Store) (edits : List Edit) : Outlook := edits.foldl after ⟨s, [], []⟩

variable {s : Store} {edits : List Edit} {path : DataPath}

theorem foreseen_concat (s : Store) (edits : List Edit) (edit : Edit) :
    foreseen s (edits ++ [edit]) = (foreseen s edits).after edit := by
  rw [foreseen, List.foldl_append]
  rfl

@[simp] theorem store_foreseen (s : Store) (edits : List Edit) : (foreseen s edits).store = s := by
  induction edits using List.reverseRecOn with
  | nil => rfl
  | append_singleton init edit ih =>
    rw [foreseen_concat]
    cases edit <;> exact ih

theorem mem_removed_foreseen {top : DataPath} :
    top ∈ (foreseen s edits).removed ↔ .remove top ∈ edits := by
  induction edits using List.reverseRecOn with
  | nil => simp [foreseen]
  | append_singleton init edit ih =>
    rw [foreseen_concat, List.mem_append, List.mem_singleton, ← ih]
    cases edit <;> simp [after, or_comm]

/-- **What remains** is what the store has and no edit takes out. It does not matter whether the
edit that takes it out comes before or after one that brings something in there. -/
theorem remains_foreseen_iff (h : s.Coherent) : (foreseen s edits).remains path = true
    ↔ (s.get? path).isSome = true ∧ ∀ top, .remove top ∈ edits → path.startsWith top = false := by
  rw [remains, store_foreseen, h.contains_eq, Bool.and_eq_true, Bool.not_eq_true',
    List.any_eq_false]
  simp only [mem_removed_foreseen, Bool.not_eq_true]

theorem mem_made_after {o : Outlook} {edit : Edit} {way : DataPath} :
    way ∈ (o.after edit).made ↔ edit.made? = some way
      ∨ way ∈ o.made ∧ ∀ top, edit = .remove top → way.startsWith top = false := by
  cases edit with
  | groups path | insert path =>
    show way ∈ path :: o.made ↔ some path = some way ∨ _
    rw [List.mem_cons, Option.some.injEq, eq_comm (a := way)]
    exact or_congr_right ⟨fun hmem => ⟨hmem, nofun⟩, And.left⟩
  | remove top =>
    show way ∈ o.made.filter _ ↔ none = some way ∨ _
    rw [List.mem_filter, Bool.not_eq_true']
    constructor
    · exact fun ⟨hmem, haway⟩ => Or.inr ⟨hmem, fun other h => by injection h with h; exact h ▸ haway⟩
    · rintro (h | ⟨hmem, haway⟩)
      · cases h
      · exact ⟨hmem, haway top rfl⟩

/-- **What counts as made**: the paths of the edits that make one, unless it was taken out since.
Of groups along a path only the path itself is on the list, and of a tree only its root. -/
theorem mem_made_foreseen_iff {way : DataPath} : way ∈ (foreseen s edits).made ↔
    ∃ before edit later, edits = before ++ edit :: later ∧ edit.made? = some way
      ∧ ∀ top, .remove top ∈ later → way.startsWith top = false := by
  induction edits using List.reverseRecOn with
  | nil =>
    exact iff_of_false List.not_mem_nil fun ⟨before, _, _, h, _⟩ => by cases before <;> cases h
  | append_singleton init last ih =>
    -- By induction from the right: the last edit makes a path, or it takes out paths that were made
    -- before, or it leaves them.
    rw [foreseen_concat, mem_made_after, ih]
    constructor
    · rintro (hmade | ⟨⟨before, edit, later, rfl, hmade, haway⟩, hlast⟩)
      · exact ⟨init, last, [], rfl, hmade, fun _ h => nomatch h⟩
      · refine ⟨before, edit, later ++ [last], by simp, hmade, fun top hmem => ?_⟩
        rcases List.mem_append.1 hmem with hmem | hmem
        · exact haway top hmem
        · exact hlast top (List.mem_singleton.1 hmem).symm
    · rintro ⟨before, edit, later, hedits, hmade, haway⟩
      rcases later.eq_nil_or_concat with rfl | ⟨later, other, rfl⟩
      · obtain ⟨-, hlast⟩ := List.append_inj' hedits rfl
        cases hlast
        exact Or.inl hmade
      · rw [List.concat_eq_append] at hedits haway
        rw [← List.cons_append, ← List.append_assoc] at hedits
        obtain ⟨rfl, hlast⟩ := List.append_inj' hedits rfl
        cases hlast
        exact Or.inr ⟨⟨before, edit, later, rfl, hmade,
          fun top hmem => haway top (List.mem_append_left _ hmem)⟩,
          fun top h => haway top (List.mem_append_right _ (List.mem_singleton.2 h.symm))⟩

/-- **The faults are those of the edits**, each after those before it. An edit with a fault is
remembered like any other, so a later edit may rely on what was refused. -/
theorem mem_faults_iff {rest : List Edit} {refusal : StoreError} :
    refusal ∈ (foreseen s edits).faults rest ↔ ∃ done edit others, rest = done ++ edit :: others
      ∧ (foreseen s (edits ++ done)).fault? edit = some refusal := by
  induction rest generalizing edits with
  | nil => exact iff_of_false List.not_mem_nil fun ⟨done, _, _, h, _⟩ => by cases done <;> cases h
  | cons edit others ih =>
    -- The first edit has the fault, or one of the others does, after the first has joined those
    -- before.
    rw [faults, List.mem_append, Option.mem_toList, ← foreseen_concat, ih]
    constructor
    · rintro (hfault | ⟨done, next, last, rfl, hfault⟩)
      · exact ⟨[], edit, others, rfl, by rw [List.append_nil]; exact hfault⟩
      · exact ⟨edit :: done, next, last, rfl, by simpa using hfault⟩
    · rintro ⟨done, next, last, hrest, hfault⟩
      cases done with
      | nil =>
        obtain ⟨rfl, rfl⟩ := List.cons.inj hrest
        rw [List.append_nil] at hfault
        exact Or.inl hfault
      | cons first done =>
        obtain ⟨rfl, rfl⟩ := List.cons.inj hrest
        exact Or.inr ⟨done, next, last, rfl, by simpa using hfault⟩

theorem isMade_iff {o : Outlook} :
    o.isMade path = true ↔ ∃ other ∈ o.made, other.startsWith path = true := List.any_eq_true

/-- **A path counts as made** if an edit has made it or something beneath it that was not taken
out since. Taking out a path makes the check forget what was made beneath it, and with it the way
there. -/
theorem isMade_foreseen_iff : (foreseen s edits).isMade path = true ↔
    ∃ before edit later way, edits = before ++ edit :: later ∧ edit.made? = some way
      ∧ way.startsWith path = true ∧ ∀ top, .remove top ∈ later → way.startsWith top = false := by
  rw [isMade_iff]
  constructor
  · rintro ⟨way, hway, hstarts⟩
    obtain ⟨before, edit, later, hedits, hmade, haway⟩ := mem_made_foreseen_iff.1 hway
    exact ⟨before, edit, later, way, hedits, hmade, hstarts, haway⟩
  · rintro ⟨before, edit, later, way, hedits, hmade, hstarts, haway⟩
    exact ⟨way, mem_made_foreseen_iff.2 ⟨before, edit, later, hedits, hmade, haway⟩, hstarts⟩

/-- An edit that makes a path is remembered, and nothing else is forgotten. -/
theorem known_of_made (o : Outlook) (way : DataPath)
    (h : (o.remains path = true ∨ o.isMade path = true) ∨ way.startsWith path = true) :
    o.remains path = true ∨ (⟨o.store, way :: o.made, o.removed⟩ : Outlook).isMade path = true := by
  rcases h with (hremains | hmade) | hway
  · exact Or.inl hremains
  · obtain ⟨other, hother, hstarts⟩ := isMade_iff.1 hmade
    exact Or.inr (isMade_iff.2 ⟨other, List.mem_cons_of_mem _ hother, hstarts⟩)
  · exact Or.inr (isMade_iff.2 ⟨way, List.mem_cons_self, hway⟩)

/-- After groups along the way to a path, nothing above it is missing. -/
theorem missingParent?_after_groups {o : Outlook} {above : DataPath}
    (habove : path.parent? = some above) : (o.after (.groups above)).missingParent? path = none := by
  have hmade : (o.after (.groups above)).isMade above = true :=
    isMade_iff.2 ⟨above, List.mem_cons_self, above.startsWith_self⟩
  rw [missingParent?, habove, Option.filter_some, hmade]
  simp

/-- After a removal the check still knows of a path that lies neither within what was
removed nor on the way there. -/
theorem known_of_removed {o : Outlook} {top : DataPath} (hstarts : path.startsWith top = false)
    (hbeneath : top.isDescendantOf path = false) (h : o.remains path = true ∨ o.isMade path = true) :
    (o.after (.remove top)).remains path = true ∨ (o.after (.remove top)).isMade path = true := by
  rcases h with hremains | hmade
  · refine Or.inl ?_
    rw [remains, Bool.and_eq_true] at hremains ⊢
    refine ⟨hremains.1, ?_⟩
    show (!(top :: o.removed).any _) = true
    rw [List.any_cons, Bool.not_or, Bool.and_eq_true, hstarts]
    exact ⟨rfl, hremains.2⟩
  · obtain ⟨other, hother, hway⟩ := isMade_iff.1 hmade
    refine Or.inr (isMade_iff.2 ⟨other, List.mem_filter.2 ⟨hother, ?_⟩, hway⟩)
    -- What is forgotten lies at or beneath the removal, which then lies beneath the path.
    rw [Bool.not_eq_true', ← Bool.not_eq_true]
    intro htop
    rcases DataPath.startsWith_total hway htop with hbad | hbelow
    · exact Bool.false_ne_true (hstarts.symm.trans hbad)
    · have hne : top ≠ path := by
        rintro rfl
        exact Bool.false_ne_true (hstarts.symm.trans top.startsWith_self)
      rw [DataPath.isDescendantOf_iff.2 ⟨hbelow, hne⟩] at hbeneath
      cases hbeneath

/-! ## Places

The checks of a place come one after another: the way to it, the path itself, and then
what the parent says to a child of this kind. Only the last one needs the data of the
parent, for which the check can only ask the store as it was. -/

/-- **Beneath an object, the check of a place is that of a child**, if nothing is wrong with the
paths. The check asks the store for what lies above, even if edits have put something else there. -/
theorem insertFault?_of_holder {o : Outlook} {above : DataPath} {holder object : DataObject}
    {overwrite : Bool} (hmissing : o.missingParent? path = none)
    (hfree : (o.store.contains path && !overwrite) = false) (habove : path.parent? = some above)
    (hholder : o.store.get? above = some holder) :
    o.insertFault? path object overwrite
      = match checkChild above holder path.name object with
        | .ok _ => none
        | .error cause => some cause := by
  have hcreate : o.store.checkCreate path object overwrite
      = checkChild above holder path.name object := by
    rw [Store.checkCreate, hfree, if_neg Bool.false_ne_true, habove]
    simp only [hholder]
  rw [insertFault?, hmissing]
  dsimp only
  rw [hcreate]
  cases hcheck : checkChild above holder path.name object with
  | ok _ => rfl
  | error cause =>
    have hother := checkChild_error hcheck
    cases cause with
    | duplicatePath p => exact absurd rfl (hother p).1
    | parentNotFound p => exact absurd rfl (hother p).2
    | notFound | notAContainer | invalidChild | tupleCountMismatch => rfl

theorem missingParent?_eq_some_iff {o : Outlook} {above : DataPath} :
    o.missingParent? path = some above ↔
      path.parent? = some above ∧ ¬(o.remains above = true ∨ o.isMade above = true) := by
  rw [missingParent?, Option.filter_eq_some_iff]
  simp

/-- **When an object is refused a place**: nothing is known of what should be above it; or
something remains at the place itself; or what the store has above it may not hold it. -/
theorem isSome_insertFault?_iff {o : Outlook} {object : DataObject} {overwrite : Bool} :
    (o.insertFault? path object overwrite).isSome = true ↔
      (∃ above, path.parent? = some above ∧ ¬(o.remains above = true ∨ o.isMade above = true))
      ∨ (overwrite = false ∧ o.remains path = true)
      ∨ ∃ above holder, path.parent? = some above ∧ o.store.get? above = some holder
          ∧ ¬Fits holder path.name object ∧ (o.store.contains path && !overwrite) = false := by
  cases hmissing : o.missingParent? path with
  | some above =>
    rw [insertFault?, hmissing]
    exact iff_of_true rfl (Or.inl ⟨above, missingParent?_eq_some_iff.1 hmissing⟩)
  | none =>
    have hknown : ¬∃ above, path.parent? = some above
        ∧ ¬(o.remains above = true ∨ o.isMade above = true) := fun ⟨above, hunknown⟩ => by
      rw [missingParent?_eq_some_iff.2 hunknown] at hmissing
      cases hmissing
    rw [or_iff_right hknown]
    by_cases htaken : (o.store.contains path && !overwrite) = true
    -- If the place is taken, what is above it is not looked at.
    · rw [insertFault?, hmissing, Store.checkCreate, if_pos htaken]
      rw [Bool.and_eq_true, Bool.not_eq_true'] at htaken
      simp [htaken.1, htaken.2, throw, throwThe, MonadExceptOf.throw, bind, Except.bind]
    · have hplace : ¬(overwrite = false ∧ o.remains path = true) := by
        rintro ⟨rfl, hremains⟩
        rw [remains, Bool.and_eq_true] at hremains
        exact htaken (by rw [hremains.1]; rfl)
      rw [Bool.not_eq_true] at htaken
      rw [or_iff_right hplace]
      cases habove : path.parent? with
      | none => simp [insertFault?, hmissing, Store.checkCreate, htaken, habove, pure, Except.pure]
      | some above =>
        cases hholder : o.store.get? above with
        | none =>
          simp [insertFault?, hmissing, Store.checkCreate, htaken, habove, hholder, throw, throwThe,
            MonadExceptOf.throw]
        | some holder =>
          rw [insertFault?_of_holder hmissing htaken habove hholder]
          cases hchild : checkChild above holder path.name object with
          | ok _ => simp [hholder, (checkChild_eq_ok_iff above).1 hchild]
          | error cause =>
            have hfits : ¬Fits holder path.name object := fun hfits => by
              rw [(checkChild_eq_ok_iff above).2 hfits] at hchild
              cases hchild
            simp [hholder, hfits, htaken]

end Outlook

/-- **The errors of the check are the faults of the edits**, each after those before it. The code
and the message are those of the refusal, and no filter is named yet. -/
theorem mem_checkEdits_iff {s : Store} {edits : List Edit} {d : Diagnostic} :
    d ∈ (checkEdits s edits).errors ↔ ∃ done edit rest refusal, edits = done ++ edit :: rest
      ∧ (Outlook.foreseen s done).fault? edit = some refusal
      ∧ d = ⟨refusal.code, refusal.message, none⟩ := by
  show d ∈ ((Outlook.foreseen s []).faults edits).map _ ↔ _
  rw [List.mem_map]
  constructor
  · rintro ⟨refusal, hmem, rfl⟩
    obtain ⟨done, edit, rest, hedits, hfault⟩ := Outlook.mem_faults_iff.1 hmem
    exact ⟨done, edit, rest, refusal, hedits, hfault, rfl⟩
  · rintro ⟨done, edit, rest, refusal, hedits, hfault, rfl⟩
    exact ⟨refusal, Outlook.mem_faults_iff.2 ⟨done, edit, rest, hedits, hfault⟩, rfl⟩

end Meshwork
