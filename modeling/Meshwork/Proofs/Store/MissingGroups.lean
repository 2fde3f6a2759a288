import Meshwork.Proofs.Store.Equality
import Meshwork.Proofs.Store.Handles
import Meshwork.Proofs.Store.Passage

/-!
# The groups that are missing along a path

Creating the groups along a path makes a group of every prefix that is missing, and of nothing
else. `Store.missing` is the list of these prefixes, the topmost first.

`Store.Allows` says when they can be created: what is there is no array, and the object above
the first one that is missing may hold a group of its name. `Store.MakesGroups` says what
has changed then, down to the identifiers, the children and the number of objects. That
nothing is missing afterwards makes a second time do nothing
(`Store.createGroups_of_containers`).
-/

namespace Meshwork

namespace DataPath

variable {path a b : DataPath}

theorem nodup_prefixes (path : DataPath) : path.prefixes.Nodup := by
  refine path.descending_prefixes.pairwise.imp fun {a b} h he => ?_
  rw [he, relative?_self] at h
  cases h

/-- No prefix of a path begins with a later one. -/
theorem pairwise_prefixes (path : DataPath) :
    path.prefixes.Pairwise fun a b => a.startsWith b = false := by
  refine path.descending_prefixes.pairwise.imp fun {a b} h => ?_
  rw [startsWith_eq_isSome, h]
  rfl

theorem depth_of_parent? (h : b.parent? = some a) : b.depth = a.depth + 1 := by
  rw [depth, parent?_eq_some_iff.1 h, List.length_append]
  rfl

/-- Of the prefixes of a path, no more than one lies directly beneath another. -/
theorem eq_of_parent?_eq {above : DataPath} (ha : a ∈ path.prefixes) (hb : b ∈ path.prefixes)
    (habove : a.parent? = some above) (hbbove : b.parent? = some above) : a = b := by
  have hlength : a.segments.length = b.segments.length :=
    (depth_of_parent? habove).trans (depth_of_parent? hbbove).symm
  rcases startsWith_total (mem_prefixes.1 ha) (mem_prefixes.1 hb) with h | h
  · exact ext ((startsWith_iff.1 h).eq_of_length hlength.symm).symm
  · exact ext ((startsWith_iff.1 h).eq_of_length hlength)

/-- What lies above a prefix is one. -/
theorem parent?_mem_prefixes (ha : a ∈ path.prefixes) (h : a.parent? = some b) :
    b ∈ path.prefixes := by
  rw [mem_prefixes] at ha ⊢
  exact startsWith_trans ha ((startsWith_iff_of_parent? h).2 (Or.inr b.startsWith_self))

/-- Nothing beneath a path is a prefix of it. -/
theorem parent?_ne_of_mem_prefixes (ha : a ∈ path.prefixes) : a.parent? ≠ some path := by
  intro h
  have hle : a.depth ≤ path.depth := (startsWith_iff.1 (mem_prefixes.1 ha)).length_le
  rw [depth_of_parent? h] at hle
  omega

end DataPath

/-- Containers are all objects but arrays. -/
theorem DataObject.isContainer_iff {object : DataObject} :
    object.isContainer = true ↔ object.kind ≠ .array := by
  cases object <;> simp [isContainer, kind]

namespace Store

open DataObject (isContainer_iff)

/-! ## What is missing and what is allowed

The missing prefixes are the lower part of the way, since above an object there is always
another. So one object decides, the one above the first that is missing. -/

/-- **The prefixes of a path that are missing**, the topmost first. Where one is missing, so are
all below it, as far as the store is sound. -/
def missing (s : Store) (path : DataPath) : List DataPath :=
  path.prefixes.filter fun top => !s.contains top

/-- **A store allows the groups along a path**: no prefix is an array, and the object above the
first one that is missing, if there is one above, may hold a group of its name. -/
structure Allows (s : Store) (path : DataPath) : Prop where
  /-- What is there is no array. -/
  noArray : ∀ top ∈ path.prefixes, ∀ object, s.get? top = some object → object.kind ≠ .array
  /-- What is there last may hold the first group that is created. -/
  holder : ∀ first above, (s.missing path).head? = some first → first.parent? = some above →
    ∃ object, s.get? above = some object ∧ Fits object first.name .group

/-- **The groups along a path have been made**, and nothing else has changed. The fields say of
every path what lies there, and of every identifier that it still denotes what it did. -/
structure MakesGroups (s : Store) (path : DataPath) (id : ObjectId) (t : Store) : Prop where
  /-- What was missing is a group. -/
  made : ∀ top ∈ s.missing path, t.get? top = some .group
  /-- It holds the next prefix and nothing else. -/
  child : ∀ top ∈ s.missing path, ∀ next ∈ path.prefixes, next.parent? = some top →
    t.children? top = some [next]
  /-- The last one holds nothing. -/
  last : path ∈ s.missing path → t.children? path = some []
  /-- At all other paths, there is what there was. -/
  kept : ∀ other, other ∉ s.missing path → t.get? other = s.get? other
  /-- What there was has the same identifier. -/
  held : ∀ other held, s.idOf? other = some held → t.idOf? other = some held
  /-- The answer is the identifier of the path. -/
  answer : t.idOf? path = some id
  /-- Every missing group counts. -/
  len : t.len = s.len + (s.missing path).length
  /-- A second time, the answer is the same, and nothing changes. -/
  again : (createGroups path).apply t = (.ok id, t)

variable {s t : Store} {path top : DataPath} {id : ObjectId}

theorem Sound.mem_missing (h : s.Sound) :
    top ∈ s.missing path ↔ top ∈ path.prefixes ∧ s.get? top = none := by
  rw [missing, List.mem_filter, h.coherent.contains_eq, Bool.not_eq_eq_eq_not, Bool.not_true,
    Option.isSome_eq_false_iff, Option.isNone_iff_eq_none]

theorem nodup_missing (s : Store) (path : DataPath) : (s.missing path).Nodup :=
  path.nodup_prefixes.filter _

/-! ## When they can be created

A prefix that is there is passed if it is a container; one that is missing needs an object
above that takes a group of its name. For all but the first, that object is a new group. -/

/-- **The prefixes can be passed** exactly if the groups along the path are allowed. The one is
asked prefix by prefix; the other looks at what is there, and at the first that is missing. -/
theorem Sound.passable_iff (h : s.Sound) : PathMap.Passable s.get? path ↔ s.Allows path := by
  have hpairwise : (s.missing path).Pairwise fun a b => a.startsWith b = false :=
    path.pairwise_prefixes.filter _
  constructor
  · refine fun hpass => ⟨fun top htop object hobject => ?_, fun first above hhead habove => ?_⟩
    · exact isContainer_iff.1 ((PathMap.ready_of_some hobject).1 (hpass top htop))
    · obtain ⟨rest, hrest⟩ := List.head?_eq_some_iff.1 hhead
      obtain ⟨hfirst, hfree⟩ := h.mem_missing.1 (hrest ▸ List.mem_cons_self)
      cases hholder : s.get? above with
      | some holder =>
        exact ⟨holder, rfl, (PathMap.ready_of_none hfree).1 (hpass first hfirst) above holder
          habove hholder⟩
      -- A missing path above the first one would come before it.
      | none =>
        have hmissing : above ∈ s.missing path :=
          h.mem_missing.2 ⟨DataPath.parent?_mem_prefixes hfirst habove, hholder⟩
        rw [hrest] at hmissing hpairwise
        rcases List.mem_cons.1 hmissing with rfl | hmem
        · have hdepth := DataPath.depth_of_parent? habove
          omega
        · have hnot := (List.pairwise_cons.1 hpairwise).1 above hmem
          rw [(DataPath.startsWith_iff_of_parent? habove).2 (Or.inr above.startsWith_self)] at hnot
          cases hnot
  · intro hallows next hnext
    cases hobject : s.get? next with
    | some object =>
      exact (PathMap.ready_of_some hobject).2
        (isContainer_iff.2 (hallows.noArray next hnext object hobject))
    | none =>
      refine (PathMap.ready_of_none hobject).2 fun above holder habove hholder => ?_
      have hmem : next ∈ s.missing path := h.mem_missing.2 ⟨hnext, hobject⟩
      obtain ⟨first, rest, hrest⟩ := List.exists_cons_of_ne_nil (List.ne_nil_of_mem hmem)
      obtain ⟨hfirst, hfree⟩ := h.mem_missing.1 (hrest ▸ List.mem_cons_self)
      -- Only the first one has something above it.
      obtain rfl : next = first := by
        by_contra hne
        rw [hrest] at hmem hpairwise
        have hafter := (List.pairwise_cons.1 hpairwise).1 next (List.mem_of_ne_of_mem hne hmem)
        have hstarts := (DataPath.startsWith_total (DataPath.mem_prefixes.1 hfirst)
          (DataPath.mem_prefixes.1 hnext)).resolve_left (by simp [hafter])
        have hbeneath := DataPath.isDescendantOf_iff.2 ⟨hstarts, hne⟩
        rw [DataPath.isDescendantOf_of_parent? habove, DataPath.startsWith_eq_isSome] at hbeneath
        obtain ⟨names, hnames⟩ := Option.isSome_iff_exists.1 hbeneath
        have hthere := h.placed.closed.isSome_of_relative? hnames (Option.isSome_of_eq_some hholder)
        rw [hfree] at hthere
        cases hthere
      obtain ⟨object, hobject', hfits⟩ := hallows.holder next above (by rw [hrest]; rfl) habove
      rwa [Option.some.inj (hholder.symm.trans hobject')]

/-! ## A second time

After groups were created, every prefix is a container, so all of them are passed. -/

/-- Where there is a container, `ensureGroup` answers with it and changes nothing. -/
theorem ensureGroup_of_container {object : DataObject} (hobject : s.get? path = some object)
    (hcontainer : object.isContainer = true) :
    ∃ id, s.idOf? path = some id ∧ (ensureGroup path).apply s = (.ok id, s) := by
  obtain ⟨id, hid, hobject⟩ := Option.bind_eq_some_iff.1 hobject
  exact ⟨id, hid, by rw [ensureGroup_some hid hobject, if_pos hcontainer]⟩

theorem ensureGroups_of_containers {paths : List DataPath}
    (h : ∀ top ∈ paths, ∃ object, s.get? top = some object ∧ object.isContainer = true) :
    (ensureGroups paths).apply s = (.ok (), s) := by
  induction paths with
  | nil => rfl
  | cons first others ih =>
    obtain ⟨object, hobject, hcontainer⟩ := h first List.mem_cons_self
    obtain ⟨id, -, happly⟩ := ensureGroup_of_container hobject hcontainer
    rw [ensureGroups_cons, happly]
    exact ih fun top htop => h top (List.mem_cons_of_mem _ htop)

/-- The groups along a path are those above it and the one at it. -/
theorem createGroups_eq (s : Store) (path : DataPath) :
    (createGroups path).apply s = match (ensureGroups path.ancestors).apply s with
      | (.ok _, t) => (ensureGroup path).apply t
      | (.error e, t) => (.error e, t) := by
  rw [createGroups, Change.apply_bind, ← ensureGroups]
  obtain ⟨_ | _, _⟩ := (ensureGroups path.ancestors).apply s <;> rfl

/-- **Where nothing is missing**, creating groups changes nothing. The answer is then the
identifier that the path has already. -/
theorem createGroups_of_containers
    (h : ∀ top ∈ path.prefixes, ∃ object, s.get? top = some object ∧ object.isContainer = true) :
    ∃ id, s.idOf? path = some id ∧ (createGroups path).apply s = (.ok id, s) := by
  rw [path.prefixes_eq] at h
  obtain ⟨object, hobject, hcontainer⟩ := h path (by simp)
  obtain ⟨id, hid, happly⟩ := ensureGroup_of_container hobject hcontainer
  refine ⟨id, hid, ?_⟩
  rw [createGroups_eq, ensureGroups_of_containers fun top htop => h top (by simp [htop])]
  exact happly

/-! ## What is created

Each clause is about one view of the store: identifiers, objects, children and their
number. -/

/-- The answer of `ensureGroup` is the identifier that the path then leads to. -/
theorem Sound.idOf?_ensureGroup (h : s.Sound) (happly : (ensureGroup path).apply s = (.ok id, t)) :
    t.idOf? path = some id := by
  cases hid : s.idOf? path with
  | none =>
    rw [ensureGroup_none hid] at happly
    exact (h.coherent.idOf?_attach happly).1
  | some held =>
    obtain ⟨object, hdenotes⟩ := h.exists_denotes hid
    rw [ensureGroup_some hid hdenotes.object?] at happly
    split at happly
    · obtain ⟨hanswer, rfl⟩ := Prod.mk.inj happly
      rw [hid, Except.ok.inj hanswer]
    · cases (Prod.mk.inj happly).1

/-- **The answer is the identifier** that the path then leads to. The last group of the way is the
one at the path itself. -/
theorem Sound.idOf?_createGroups (h : s.Sound)
    (happly : (Store.createGroups path).apply s = (.ok id, t)) : t.idOf? path = some id := by
  have hsound : ((ensureGroups path.ancestors).apply s).2.Sound :=
    (Change.Strikes.forM (fun above _ => (strikes_ensureGroup above).discard) s h).1
  rw [createGroups_eq] at happly
  generalize (ensureGroups path.ancestors).apply s = result at hsound happly
  obtain ⟨e | _, s'⟩ := result
  · cases (Prod.mk.inj happly).1
  · exact hsound.idOf?_ensureGroup happly

section

variable (h : s.Sound) (hget : t.get? = PathMap.addGroups path.prefixes s.get?)

include h hget

theorem get?_of_mem_missing (htop : top ∈ s.missing path) : t.get? top = some .group := by
  obtain ⟨hwithin, hfree⟩ := h.mem_missing.1 htop
  rw [hget, PathMap.addGroups, hfree, if_pos hwithin, Option.none_or]

theorem get?_of_not_mem_missing (htop : top ∉ s.missing path) : t.get? top = s.get? top := by
  rw [hget, PathMap.addGroups]
  cases hfree : s.get? top with
  | some object => rfl
  | none => rw [if_neg fun hwithin => htop (h.mem_missing.2 ⟨hwithin, hfree⟩), Option.none_or]

/-- Beneath a group that was missing, there are only prefixes. -/
theorem children?_of_mem_missing (ht : t.Sound) (htop : top ∈ s.missing path)
    {below : List DataPath} (hnames : (below.map DataPath.name).Pairwise (· < ·))
    (hbelow : ∀ child, child ∈ below ↔ child.parent? = some top ∧ child ∈ path.prefixes) :
    t.children? top = some below := by
  obtain ⟨paths, hpaths, hpairwise, hmem⟩ := ht.represents.children top
    (Option.isSome_of_eq_some (get?_of_mem_missing h hget htop))
  rw [hpaths, eq_of_pairwise_name hpairwise hnames fun child => ?_]
  rw [hmem, hbelow]
  refine and_congr_right fun hparent => ?_
  -- Nothing was beneath it before.
  have hfree : s.get? child = none := by
    refine Option.not_isSome_iff_eq_none.1 fun hthere => ?_
    have habove := h.placed.closed child top hparent hthere
    rw [(h.mem_missing.1 htop).2] at habove
    cases habove
  rw [hget, PathMap.addGroups, hfree, Option.none_or]
  split <;> simp_all

/-- There are as many more objects as groups were missing. -/
theorem len_of_missing (ht : t.Sound) : t.len = s.len + (s.missing path).length := by
  obtain ⟨paths, hnodup, hmem, hlength⟩ := h.represents.len
  have hnodup' : (paths ++ s.missing path).Nodup := by
    refine List.nodup_append'.2 ⟨hnodup, nodup_missing s path, fun other hother hmissing => ?_⟩
    have hthere := (hmem other).1 hother
    rw [(h.mem_missing.1 hmissing).2] at hthere
    cases hthere
  rw [ht.represents.len_eq hnodup' fun other => ?_, List.length_append, hlength]
  rw [List.mem_append, hmem]
  by_cases hmissing : other ∈ s.missing path
  · simp [get?_of_mem_missing h hget hmissing, hmissing]
  · simp [get?_of_not_mem_missing h hget hmissing, hmissing]

end

/-- **What creating groups does** where they are allowed. Each field follows from the map after
the change, and those about identifiers from the layout. -/
theorem Sound.makesGroups (h : s.Sound)
    (happly : (Store.createGroups path).apply s = (.ok id, t)) : s.MakesGroups path id t := by
  have hallows : s.Allows path :=
    h.passable_iff.1 ((h.exists_createGroups_iff path).1 ⟨id, t, happly⟩)
  have hfollows := (strikes_createGroups path s h).2
  have hanswer := h.idOf?_createGroups happly
  rcases h.createGroups path with ⟨e, he⟩ | ⟨id', t', happly', ht, hget⟩
  · cases he.symm.trans happly
  obtain ⟨-, rfl⟩ := Prod.mk.inj (happly'.symm.trans happly)
  rw [happly] at hfollows
  have hmade : ∀ top ∈ s.missing path, t'.get? top = some .group :=
    fun top => get?_of_mem_missing h hget
  have hkept : ∀ other, other ∉ s.missing path → t'.get? other = s.get? other :=
    fun other => get?_of_not_mem_missing h hget
  refine ⟨hmade, fun top htop next hnext hparent => ?_, fun hpath => ?_, hkept, ?_, hanswer,
    len_of_missing h hget ht, ?_⟩
  · refine children?_of_mem_missing h hget ht htop (List.pairwise_singleton _ _) fun child => ?_
    rw [List.mem_singleton]
    exact ⟨fun he => he ▸ ⟨hparent, hnext⟩,
      fun ⟨hchild, hprefix⟩ => DataPath.eq_of_parent?_eq hprefix hnext hchild hparent⟩
  · refine children?_of_mem_missing h hget ht hpath List.Pairwise.nil fun child => ?_
    simpa using fun hchild hprefix => DataPath.parent?_ne_of_mem_prefixes hprefix hchild
  · exact fun other held hheld => (hfollows.lost other held hheld).resolve_right (by simp)
  -- No prefix is missing any more, and none is an array.
  · have hthere : ∀ top ∈ path.prefixes,
        ∃ object, t'.get? top = some object ∧ object.isContainer = true := fun top htop => by
      by_cases hmissing : top ∈ s.missing path
      · exact ⟨.group, hmade top hmissing, rfl⟩
      · rw [hkept top hmissing]
        cases hobject : s.get? top with
        | none => exact absurd (h.mem_missing.2 ⟨htop, hobject⟩) hmissing
        | some object =>
          exact ⟨object, rfl, isContainer_iff.2 (hallows.noArray top htop object hobject)⟩
    obtain ⟨held, hheld, hsame⟩ := createGroups_of_containers hthere
    rwa [Option.some.inj (hanswer.symm.trans hheld)]

/-- **Creating the groups along a path** succeeds in a reachable store exactly if they are allowed,
and then it makes those that are missing and changes nothing else. -/
theorem makesGroups_after (operations : List Operation) (path : DataPath) :
    ((∃ id t, (createGroups path).apply (after operations) = (.ok id, t))
        ↔ (after operations).Allows path)
      ∧ ∀ id t, (createGroups path).apply (after operations) = (.ok id, t) →
          (after operations).MakesGroups path id t := by
  have h := sound_after operations
  exact ⟨(h.exists_createGroups_iff path).trans h.passable_iff,
    fun id t happly => h.makesGroups happly⟩

/-- Beneath the one group of a store, two are created. -/
theorem makesGroups_nested :
    let top := DataPath.single "A" (by decide)
    let path := (top.push "B" (by decide)).push "C" (by decide)
    let s := after [.create top .group false]
    ∃ id t, (createGroups path).apply s = (.ok id, t) ∧ s.MakesGroups path id t ∧ t.len = 3 := by
  intro top path s
  have hmakes := (makesGroups_after [.create top .group false] path).2
  have hmissing : (s.missing path).length = 2 := by decide +kernel
  have hlen : s.len = 1 := by decide +kernel
  -- That the call succeeds is computed; what it leaves behind is the general statement.
  cases happly : (createGroups path).apply s with
  | mk answer t =>
    cases answer with
    | error e =>
      have hok : ((createGroups path).apply s).1.isOk = true := by decide +kernel
      rw [happly] at hok
      cases hok
    | ok id =>
      have hmade := hmakes id t happly
      exact ⟨id, t, rfl, hmade, by rw [hmade.len, hlen, hmissing]⟩

end Store

end Meshwork
