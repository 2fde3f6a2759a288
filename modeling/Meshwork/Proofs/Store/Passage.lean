import Meshwork.Proofs.Store.Reachable

/-!
# When groups can be created along a path

Creating the groups along a path comes past every prefix of it. What is there
already must be a container, and where the first group is missing, the object
above must be one that may hold a group of that name. Nothing else can be in
the way (`Store.Sound.exists_createGroups_iff`), since what comes after the
first missing group lies in groups that were just created.

Prefixes are spoken of through `DataPath.startsWith`, whose laws come first.
-/

namespace Meshwork

namespace DataPath

variable {p q a b : DataPath}

/-! ## Prefixes

A path starts with another if it lies at or beneath it. The prefixes of a path are in
line: of any two, one starts with the other. -/

theorem startsWith_iff : p.startsWith q = true ↔ q.segments <+: p.segments :=
  List.isPrefixOf_iff_prefix

theorem startsWith_eq_isSome (p q : DataPath) : p.startsWith q = (q.relative? p).isSome := by
  rw [Bool.eq_iff_iff, startsWith_iff, Option.isSome_iff_exists]
  exact ⟨fun ⟨rest, h⟩ => ⟨rest, relative?_eq_some_iff.2 h.symm⟩,
    fun ⟨rest, h⟩ => ⟨rest, (relative?_eq_some_iff.1 h).symm⟩⟩

@[simp] theorem startsWith_self (p : DataPath) : p.startsWith p = true :=
  startsWith_iff.2 (List.prefix_refl _)

theorem startsWith_trans (h : p.startsWith q = true) (h' : q.startsWith a = true) :
    p.startsWith a = true :=
  startsWith_iff.2 ((startsWith_iff.1 h').trans (startsWith_iff.1 h))

/-- Of two prefixes of a path, one is a prefix of the other. -/
theorem startsWith_total (h : p.startsWith a = true) (h' : p.startsWith b = true) :
    a.startsWith b = true ∨ b.startsWith a = true :=
  (List.prefix_or_prefix_of_prefix (startsWith_iff.1 h') (startsWith_iff.1 h)).imp
    startsWith_iff.2 startsWith_iff.2

/-- To lie beneath is to lie at or beneath, and not at. -/
theorem isDescendantOf_iff : p.isDescendantOf q = true ↔ p.startsWith q = true ∧ p ≠ q := by
  rw [isDescendantOf, Bool.and_eq_true, decide_eq_true_iff, and_comm]
  refine and_congr_right fun h => ⟨?_, fun hne => ?_⟩
  · rintro hlt rfl
    exact Nat.lt_irrefl _ hlt
  · have hle := (startsWith_iff.1 h).length_le
    exact Nat.lt_of_le_of_ne hle fun he => hne (ext ((startsWith_iff.1 h).eq_of_length he).symm)

/-- What lies beneath a path lies at or beneath the one that comes next on the
way. -/
theorem isDescendantOf_of_parent? (h : p.parent? = some a) :
    p.isDescendantOf q = a.startsWith q := by
  rw [Bool.eq_iff_iff, isDescendantOf_iff, startsWith_eq_isSome, startsWith_eq_isSome,
    relative?_of_parent? h]
  by_cases hpq : p = q
  · subst hpq
    simp [relative?_above h]
  · simp [hpq]

/-- Nothing lies above a top-level path. -/
theorem not_isDescendantOf_of_parent? (h : p.parent? = none) : p.isDescendantOf q = false := by
  have hlength : p.segments.length = 1 := congrArg List.length (segments_of_parent?_eq_none h)
  have hpos := List.length_pos_iff.2 q.nonempty
  rw [isDescendantOf, Bool.and_eq_false_iff, decide_eq_false_iff_not]
  left
  show ¬ q.segments.length < p.segments.length
  omega

/-- The prefixes of a path are itself and those of the path above. -/
theorem startsWith_iff_of_parent? (h : p.parent? = some a) :
    p.startsWith q = true ↔ p = q ∨ a.startsWith q = true := by
  rw [← isDescendantOf_of_parent? h, isDescendantOf_iff]
  by_cases hpq : p = q
  · simp [hpq]
  · simp [hpq]

theorem startsWith_iff_of_parent?_none (h : p.parent? = none) : p.startsWith q = true ↔ p = q := by
  have hnot := not_isDescendantOf_of_parent? (q := q) h
  constructor
  · intro hstarts
    by_contra hne
    rw [isDescendantOf_iff.2 ⟨hstarts, hne⟩] at hnot
    cases hnot
  · rintro rfl
    exact p.startsWith_self

/-- **The prefixes of a path** are the paths that it starts with. The path itself is one of them. -/
theorem mem_prefixes : a ∈ p.prefixes ↔ p.startsWith a = true := by
  rw [startsWith_iff, prefixes, List.mem_map]
  constructor
  · rintro ⟨n, -, rfl⟩
    exact List.take_prefix _ _
  · intro h
    have hpos := List.length_pos_iff.2 a.nonempty
    refine ⟨a.segments.length - 1, List.mem_range.2 ?_, ext ?_⟩
    · have hle := h.length_le
      show _ < p.segments.length
      omega
    · show p.segments.take (a.segments.length - 1 + 1) = a.segments
      rw [Nat.sub_add_cancel hpos]
      exact (List.prefix_iff_eq_take.1 h).symm

end DataPath

namespace PathMap

/-! ## What can be passed

Whether one prefix can be passed is asked of the map alone. The way to a path can be
passed if all its prefixes can, so the question can be put from above or from below. -/

/-- **A path can be passed**: there is a container, or a group may be created. Nothing is asked of
what lies above if that is missing too, because a group will then be made there first. -/
def Ready (map : PathMap) (path : DataPath) : Prop :=
  match map path with
  | some object => object.isContainer = true
  | none => ∀ above holder, path.parent? = some above → map above = some holder →
    Fits holder path.name .group

/-- **Groups may be created along a path**: every prefix of it can be passed. The last of them is
the path itself, which has to be a container or missing. -/
def Passable (map : PathMap) (path : DataPath) : Prop := ∀ next ∈ path.prefixes, map.Ready next

/-- **A missing group on the way to a path would lie where no group may lie.** This is what the
check of groups does not look for. -/
def Blocked (map : PathMap) (path : DataPath) : Prop :=
  ∃ next above holder, path.isDescendantOf next = true ∧ next.parent? = some above
    ∧ map next = none ∧ map above = some holder ∧ ¬Fits holder next.name .group

variable {map : PathMap}

/-- A path is passed by way of the path above it. -/
theorem passable_iff_of_parent? {path above : DataPath} (h : path.parent? = some above) :
    map.Passable path ↔ map.Ready path ∧ map.Passable above := by
  simp only [Passable, DataPath.mem_prefixes, DataPath.startsWith_iff_of_parent? h]
  constructor
  · exact fun hpass => ⟨hpass path (Or.inl rfl), fun next hnext => hpass next (Or.inr hnext)⟩
  · rintro ⟨hready, hpass⟩ next (rfl | hnext)
    · exact hready
    · exact hpass next hnext

theorem passable_iff_of_parent?_none {path : DataPath} (h : path.parent? = none) :
    map.Passable path ↔ map.Ready path := by
  simp only [Passable, DataPath.mem_prefixes, DataPath.startsWith_iff_of_parent?_none h,
    forall_eq']

/-- What is blocked cannot be passed. -/
theorem Blocked.not_passable {path : DataPath} (h : map.Blocked path) : ¬map.Passable path := by
  obtain ⟨next, above, holder, hpath, habove, hfree, hholder, hfits⟩ := h
  intro hpass
  have hready := hpass next (DataPath.mem_prefixes.2 (DataPath.isDescendantOf_iff.1 hpath).1)
  rw [Ready, hfree] at hready
  exact hfits (hready above holder habove hholder)

theorem ready_of_some {path : DataPath} {object : DataObject} (h : map path = some object) :
    map.Ready path ↔ object.isContainer = true := by
  rw [Ready, h]

theorem ready_of_none {path : DataPath} (h : map path = none) :
    map.Ready path ↔ ∀ above holder, path.parent? = some above → map above = some holder →
      Fits holder path.name .group := by
  rw [Ready, h]

/-- Beneath a free path, every path can be passed. -/
theorem Closed.ready_of_descending (h : map.Closed) {first : DataPath} {others : List DataPath}
    (hpaths : DataPath.Descending (some first) others) (hfree : map first = none) :
    ∀ next ∈ others, map.Ready next := by
  have hbelow : ∀ path rest, first.relative? path = some rest → map path = none :=
    fun path rest hrest => Option.not_isSome_iff_eq_none.1 fun hpath => by
      have hfirst := h.isSome_of_relative? hrest hpath
      rw [hfree] at hfirst
      cases hfirst
  intro next hnext
  obtain ⟨rest, hne, hrest⟩ := hpaths.relative? next hnext
  refine (ready_of_none (hbelow next rest hrest)).2 fun above holder habove hholder => ?_
  -- What lies above lies at or beneath the free path as well.
  have hdescends : next.isDescendantOf first = true := DataPath.isDescendantOf_iff.2
    ⟨by rw [DataPath.startsWith_eq_isSome, hrest]; rfl, by
      rintro rfl
      rw [DataPath.relative?_self] at hrest
      exact hne (Option.some.inj hrest).symm⟩
  rw [DataPath.isDescendantOf_of_parent? habove, DataPath.startsWith_eq_isSome] at hdescends
  obtain ⟨rest', hrest'⟩ := Option.isSome_iff_exists.1 hdescends
  rw [hbelow above rest' hrest'] at hholder
  cases hholder

end PathMap

namespace Store

variable {s : Store}

/-- **A container is at a path afterwards** exactly if it can be passed. What lies above has to be
there, as it is when groups are made from the top. -/
theorem Coherent.exists_ensureGroup_iff (h : s.Coherent) (path : DataPath)
    (habove : ∀ above, path.parent? = some above → (s.get? above).isSome) :
    (∃ id s', (Store.ensureGroup path).apply s = (.ok id, s')) ↔ PathMap.Ready s.get? path := by
  -- What is at the path decides if there is something, and what holds it otherwise.
  cases hid : s.idOf? path with
  | some id =>
    have hpath : (s.get? path).isSome := by
      rw [← h.contains_eq, contains, hid]
      rfl
    obtain ⟨object, hobject⟩ := Option.isSome_iff_exists.1 hpath
    rw [PathMap.ready_of_some hobject]
    rw [get?, hid] at hobject
    rw [ensureGroup_some hid hobject]
    cases object.isContainer <;> simp
  | none =>
    have hfree : s.get? path = none := by rw [get?, hid]; rfl
    rw [ensureGroup_none hid, PathMap.ready_of_none hfree]
    constructor
    · rintro ⟨id, s', happly⟩ above holder hparent hholder
      cases hcheck : s.checkAttach path (.leaf .group) false with
      | error e => cases (attach_error hcheck).symm.trans happly
      | ok _ =>
        obtain ⟨other, hother, hfits⟩ := (h.checkAttach_eq_ok_iff.1 hcheck).1.2 above hparent
        obtain rfl := Option.some.inj (hholder.symm.trans hother)
        exact hfits
    · intro hready
      obtain ⟨id, s', happly, -⟩ := h.attach (h.checkAttach_leaf hfree fun above hparent => by
        obtain ⟨holder, hholder⟩ := Option.isSome_iff_exists.1 (habove above hparent)
        exact ⟨holder, hholder, hready above holder hparent hholder⟩)
      exact ⟨id, s', happly⟩

/-- **Groups are created along a way** down exactly if all of it can be passed. By induction on
the way: a group that was made lets the next one pass. -/
theorem Coherent.exists_ensureGroups_iff (h : s.Coherent) (hplaced : PathMap.Placed s.get?)
    {paths : List DataPath} {above : Option DataPath} (hpaths : DataPath.Descending above paths)
    (habove : ∀ top, above = some top → (s.get? top).isSome) :
    (∃ s', (Store.ensureGroups paths).apply s = (.ok (), s'))
      ↔ ∀ next ∈ paths, PathMap.Ready s.get? next := by
  induction paths generalizing above with
  | nil => exact ⟨fun _ => by simp, fun _ => ⟨s, rfl⟩⟩
  | cons first others ih =>
    have hfirst := h.exists_ensureGroup_iff first fun top htop =>
      habove top (hpaths.1.symm.trans htop)
    rw [List.forall_mem_cons, ensureGroups_cons, ← hfirst]
    rcases h.ensureGroup hplaced first with ⟨e, he⟩ | ⟨id, hthere, happly⟩ |
      ⟨id, s', hfree, happly, hs', hplaced', hget⟩
    · simp [he]
    -- What is there already changes nothing for the rest of the way.
    · rw [happly, ← ih hpaths.2 fun top htop => Option.some.inj htop ▸ hthere]
      exact ⟨fun hrest => ⟨⟨id, s, rfl⟩, hrest⟩, fun ⟨_, hrest⟩ => hrest⟩
    -- The first group that is created lets all others be.
    · have hgroup : s'.get? first = some .group := by
        rw [hget, PathMap.addGroups, hfree]
        simp
      have hrest : ∀ path ∈ others, s'.get? path = none := by
        rw [hget]
        refine PathMap.addGroups_eq_none hpaths.2 fun path hpath => ?_
        obtain ⟨rest, -, hrest⟩ := hpaths.2.relative? path hpath
        refine Option.not_isSome_iff_eq_none.1 fun hsome => ?_
        have htop := hplaced.closed.isSome_of_relative? hrest hsome
        rw [hfree] at htop
        cases htop
      obtain ⟨s'', happly', -⟩ := hs'.ensureGroups_of_group hplaced' hpaths.2 hgroup hrest
      rw [happly]
      exact ⟨fun _ => ⟨⟨id, s', rfl⟩, hplaced.closed.ready_of_descending hpaths.2 hfree⟩,
        fun _ => ⟨s'', happly'⟩⟩

/-- **Groups are created along a path** exactly if every prefix can be passed. The answer to
whether it succeeds depends on the map of the store alone. -/
theorem Sound.exists_createGroups_iff (h : s.Sound) (path : DataPath) :
    (∃ id s', (Store.createGroups path).apply s = (.ok id, s'))
      ↔ PathMap.Passable s.get? path := by
  rw [PathMap.Passable, ← h.coherent.exists_ensureGroups_iff h.placed path.descending_prefixes
    nofun, createGroups_apply]
  generalize (Store.createGroups path).apply s = result
  obtain ⟨_ | id, s'⟩ := result
  · exact ⟨fun ⟨_, _, he⟩ => (nomatch he), fun ⟨_, he⟩ => (nomatch he)⟩
  · exact ⟨fun _ => ⟨s', rfl⟩, fun _ => ⟨id, s', rfl⟩⟩

end Store

end Meshwork
