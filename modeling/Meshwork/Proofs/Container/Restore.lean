import Mathlib.Data.List.Perm.Lattice
import Meshwork.Proofs.Container.Checksum
import Meshwork.Proofs.Store.Refinement
import Meshwork.Proofs.Store.WellPlaced

/-!
# What a container lists is what the store holds

Reading a container puts the listed objects into an empty store one after another,
and the store refuses what does not belong: a path that is taken, an object without
one above it, an object that does not fit. So the list of a container that is accepted
is in order, and the store holds what it lists and nothing else.

`Container.Lists` says this of a list and a store. One entry keeps it
(`Container.Lists.restoreEntry`), hence all do (`Container.Lists.restore`), and with
the invariant of stores it gives `Container.lists_of_decode`. As a list says of every
path what lies there, its order does not matter beyond that: two containers that list
the same objects in different orders hold the same (`Container.Lists.get?_eq`).
-/

namespace Meshwork.Container

/-! ## One entry

Putting an entry back is creating an object in the store, so what is known of
`Store.create` says when it succeeds and what it changes. -/

/-- **An entry that is put into a store** describes an object, its path was free, and something
lies above it. Nothing else changes. This is all that is used of restoring an entry: what it asks
for and what it does to the map. -/
theorem of_restoreEntry_eq_ok {s t : Store} {e : Entry} (hs : s.Sound)
    (h : restoreEntry s e = .ok t) :
    t.Sound ∧ ∃ object, e.record.object = .ok object ∧ s.get? e.path = none
      ∧ (∀ above, e.path.parent? = some above → (s.get? above).isSome)
      ∧ t.get? = fun path => if path = e.path then some object else s.get? path := by
  rw [Container.restoreEntry] at h
  obtain ⟨object, hobject, h⟩ := bind_eq_ok_iff.1 h
  rcases hs.attach e.path (.leaf object) false with
    ⟨refusal, -, he⟩ | ⟨id, s', hcheck, happly, hs', hget⟩
  · rw [Store.create, he] at h
    cases h
  · rw [Store.create, happly] at h
    obtain rfl := pure_eq_ok_iff.1 h
    obtain ⟨⟨hfree, habove⟩, -⟩ := hs.coherent.checkAttach_eq_ok_iff.1 hcheck
    have hfree : s.get? e.path = none := hfree.resolve_right Bool.false_ne_true
    refine ⟨hs', object, mapError_eq_ok_iff.1 hobject, hfree, fun above hparent => ?_,
      hget.trans (hs.placed.closed.graft_leaf hfree object)⟩
    obtain ⟨holder, hholder, -⟩ := habove above hparent
    exact Option.isSome_of_eq_some hholder

/-! ## All entries

The entries are put back in the order of the list. What is known before an entry is that
the list so far lists the store so far; an entry that is accepted extends both. -/

/-- **A list of entries lists a store**: it is in order, and at its paths, and only there, lie
the objects that it describes. -/
structure Lists (entries : List Entry) (s : Store) : Prop where
  /-- No path is listed twice. -/
  distinct : (entries.map Entry.path).Nodup
  /-- What lies above an object is listed before it. -/
  above : ∀ (i : Nat) (e : Entry), entries[i]? = some e →
    ∀ above, e.path.parent? = some above →
      ∃ (j : Nat) (holder : Entry), j < i ∧ entries[j]? = some holder ∧ holder.path = above
  /-- At the path of an entry lies the object that it describes. -/
  holds : ∀ e ∈ entries, ∃ object, e.record.Describes object ∧ s.get? e.path = some object
  /-- Objects lie only at paths of entries. -/
  only : ∀ path, (s.get? path).isSome → ∃ e ∈ entries, e.path = path

namespace Lists

variable {entries : List Entry} {s t : Store}

theorem nil : Lists [] .empty where
  distinct := List.nodup_nil
  above i e he := by simp at he
  holds := nofun
  only path hpath := by
    rw [Store.get?_empty] at hpath
    cases hpath

/-- **One more entry** that is put into the store is listed. The new entry comes at the end, where
everything that has to lie above its object is listed already. -/
theorem restoreEntry (h : Lists entries s) (hs : s.Sound) {e : Entry}
    (he : Container.restoreEntry s e = .ok t) : Lists (entries ++ [e]) t := by
  obtain ⟨-, object, hobject, hfree, habove, hget⟩ := of_restoreEntry_eq_ok hs he
  have hnew : ∀ other ∈ entries, other.path ≠ e.path := by
    intro other hother hpath
    obtain ⟨found, -, hfound⟩ := h.holds other hother
    rw [hpath, hfree] at hfound
    cases hfound
  refine ⟨?_, fun i other hi above hparent => ?_, fun other hother => ?_, fun path hpath => ?_⟩
  · rw [List.map_append, List.nodup_append]
    refine ⟨h.distinct, List.nodup_singleton _, fun path hpath last hlast => ?_⟩
    obtain ⟨other, hother, rfl⟩ := List.mem_map.1 hpath
    rw [List.map_singleton, List.mem_singleton] at hlast
    exact hlast ▸ hnew other hother
  -- What lies above the new entry is in the store, so it is listed.
  · obtain ⟨j, holder, hj, hholder, rfl⟩ : ∃ (j : Nat) (holder : Entry), j < i
        ∧ entries[j]? = some holder ∧ holder.path = above := by
      rcases Nat.lt_or_ge i entries.length with hlt | hge
      · rw [List.getElem?_append_left hlt] at hi
        exact h.above i other hi above hparent
      · rw [List.getElem?_append_right hge, List.getElem?_singleton] at hi
        obtain rfl : e = other := by
          split at hi
          · exact Option.some.inj hi
          · cases hi
        obtain ⟨holder, hmem, hpath⟩ := h.only above (habove above hparent)
        obtain ⟨j, hj⟩ := List.getElem?_of_mem hmem
        have hlt := (List.getElem?_eq_some_iff.1 hj).1
        exact ⟨j, holder, Nat.lt_of_lt_of_le hlt hge, hj, hpath⟩
    have hlt := (List.getElem?_eq_some_iff.1 hholder).1
    exact ⟨j, holder, hj, by rw [List.getElem?_append_left hlt, hholder], rfl⟩
  · rcases List.mem_append.1 hother with hother | hother
    · obtain ⟨found, hdescribes, hfound⟩ := h.holds other hother
      exact ⟨found, hdescribes, by rw [hget]; exact (if_neg (hnew other hother)).trans hfound⟩
    · obtain rfl := List.mem_singleton.1 hother
      exact ⟨object, Record.describes_of_object hobject, by rw [hget]; exact if_pos rfl⟩
  · rw [hget] at hpath
    dsimp only at hpath
    split at hpath <;> rename_i he
    · exact ⟨e, by simp, he.symm⟩
    · obtain ⟨other, hother, hpath⟩ := h.only path hpath
      exact ⟨other, List.mem_append_left _ hother, hpath⟩

/-- **All entries** that are put into the store are listed, and the store stays sound. The
induction is on the entries that are left, with those before as the list so far. -/
theorem restore (h : Lists entries s) (hs : s.Sound) {rest : List Entry}
    (hrest : Container.restore s rest = .ok t) : Lists (entries ++ rest) t ∧ t.Sound := by
  induction rest generalizing entries s with
  | nil =>
    obtain rfl := Except.ok.inj hrest
    rw [List.append_nil]
    exact ⟨h, hs⟩
  | cons e rest ih =>
    rw [Container.restore] at hrest
    obtain ⟨next, he, hrest⟩ := bind_eq_ok_iff.1 hrest
    have hnext := ih (h.restoreEntry hs he) (of_restoreEntry_eq_ok hs he).1 hrest
    rwa [List.append_assoc] at hnext

/-- An object lies at a path if and only if an entry for the path describes it. -/
theorem get?_eq_some_iff (h : Lists entries s) {path : DataPath} {object : DataObject} :
    s.get? path = some object ↔ ∃ e ∈ entries, e.path = path ∧ e.record.Describes object := by
  constructor
  · intro hobject
    obtain ⟨e, he, rfl⟩ := h.only path (Option.isSome_of_eq_some hobject)
    obtain ⟨found, hdescribes, hfound⟩ := h.holds e he
    exact ⟨e, he, rfl, Option.some.inj (hobject.symm.trans hfound) ▸ hdescribes⟩
  · rintro ⟨e, he, rfl, hdescribes⟩
    obtain ⟨found, hfound, hget⟩ := h.holds e he
    -- A record describes one object only.
    have hsame := (Record.object_of_describes hfound).symm.trans (Record.object_of_describes hdescribes)
    rw [hget, Except.ok.inj hsame]

/-- **The order of a list does not matter** for what lies where. Both maps are determined by which
entries there are, since no path has two of them. -/
theorem get?_eq {entries' : List Entry} (h : Lists entries s) (h' : Lists entries' t)
    (hperm : entries'.Perm entries) : t.get? = s.get? := by
  funext path
  refine Option.ext fun object => ?_
  rw [h.get?_eq_some_iff, h'.get?_eq_some_iff]
  simp only [hperm.mem_iff]

/-- There are as many objects as entries. -/
theorem len_eq (h : Lists entries s) (hs : s.Sound) : s.len = entries.length := by
  rw [hs.represents.len_eq h.distinct fun path => ?_, List.length_map]
  rw [List.mem_map]
  constructor
  · rintro ⟨e, he, rfl⟩
    obtain ⟨object, -, hobject⟩ := h.holds e he
    exact Option.isSome_of_eq_some hobject
  · exact h.only path

end Lists

/-! ## Accepted bytes

The final statement collects what being accepted means for the store: its invariant, that
the list and the objects correspond, and that nothing else about the bytes matters. -/

/-- **What is accepted lists the store that it holds.** The empty store is listed by no entries,
and all the others are put into it one by one. -/
theorem exists_lists_of_decode {bytes : Bytes} {s : Store} (h : decode bytes = .ok s) :
    ∃ d, parse bytes = .ok d ∧ Lists d.entries s ∧ s.Sound := by
  rw [decode] at h
  obtain ⟨d, hparse, h⟩ := bind_eq_ok_iff.1 h
  exact ⟨d, hparse, Lists.nil.restore Store.sound_empty h⟩

/-- **A store that is read is sound.** Therefore everything that holds of stores after operations
holds of it as well. -/
theorem sound_decode {bytes : Bytes} {s : Store} (h : decode bytes = .ok s) : s.Sound := by
  obtain ⟨-, -, -, hs⟩ := exists_lists_of_decode h
  exact hs

/-- A document with the right marks is accepted. -/
theorem parse_pretty {d : Document} (htime : d.createdAt.IsMoment) (hformat : d.format = format)
    (hversion : d.version = version) (hchecksum : d.checksum = checksum d.entries) :
    parse (bytesOf d.json.pretty) = .ok d := by
  have hread : Reads (bytesOf d.json.pretty) d := takeDocument_pretty htime
  rw [hread.parse_eq, if_neg (not_not.2 hformat), if_neg (hversion ▸ UInt32.lt_irrefl _),
    if_neg (not_not.2 hchecksum.symm)]

/-- **Accepted bytes list a valid store.** The list is in order, and the store holds what it
describes and nothing else. The store is a forest in which every object fits where it lies, the
corners of faces are vertices, and arrays divide into tuples. The header of the bytes counts
the objects. Other accepted bytes that list the same objects in some order hold the same. -/
theorem lists_of_decode {bytes : Bytes} {s : Store} (h : decode bytes = .ok s) :
    ∃ d, parse bytes = .ok d ∧ Lists d.entries s
      ∧ s.WellFormed ∧ s.NeverMisses ∧ s.WellPlaced
      ∧ (∀ path g, s.get? path = some (.geometry g) →
          ∀ f ∈ g.faces, ∀ i ∈ f.corners, i.toNat < g.vertexCount)
      ∧ (∀ path a, s.get? path = some (.array a) → a.size = a.tupleCount * a.components.toNat)
      ∧ (∃ header, readHeader bytes = .ok header ∧ header.objectCount = s.len)
      ∧ ∀ bytes' d' s', parse bytes' = .ok d' → decode bytes' = .ok s' →
          d'.entries.Perm d.entries → s'.contents = s.contents := by
  obtain ⟨d, hparse, hlists, hs⟩ := exists_lists_of_decode h
  obtain ⟨layout, hlaid⟩ := hs.coherent
  refine ⟨d, hparse, hlists, hlaid.wellFormed, hlaid.neverMisses, hs.wellPlaced,
    fun path g _ => g.inRange, fun path a _ => a.size_eq, ⟨d.header, ?_, ?_⟩, ?_⟩
  · rw [readHeader, hparse]
    rfl
  · exact (hlists.len_eq hs).symm
  · intro bytes' d' s' hparse' h' hperm
    obtain ⟨other, hother, hlists', hs'⟩ := exists_lists_of_decode h'
    obtain rfl := Except.ok.inj (hparse'.symm.trans hother)
    exact hs'.coherent.contents_eq hs.coherent (hlists.get?_eq hlists' hperm)

/-- A triangle with a matrix for its vertices, and a group with an array, in two orders. -/
theorem lists_of_decode_swapped :
    let mesh : List Entry := [⟨.single "G" (by decide), .geometry
        (Hex.encode (Payload.ofPoints [.origin, .origin, .origin]))
        (Hex.encode (Payload.ofFaces [⟨0, 1, 2⟩])) (some "D") none⟩,
      ⟨(DataPath.single "G" (by decide)).push "D" (by decide), .attributeMatrix 3⟩]
    let scalars : List Entry := [⟨.single "A" (by decide), .group⟩,
      ⟨(DataPath.single "A" (by decide)).push "x" (by decide), .array .uint16 2 "0a00FFff"⟩]
    let of : List Entry → Document := fun entries => ⟨format, version, ⟨0, 0⟩, checksum entries, entries⟩
    ∃ s t, decode (bytesOf (of (mesh ++ scalars)).json.pretty) = .ok s
      ∧ decode (bytesOf (of (scalars ++ mesh)).json.pretty) = .ok t
      ∧ s.len = 4 ∧ t.contents = s.contents := by
  intro mesh scalars of
  have hnow : (⟨0, 0⟩ : Timestamp).IsMoment := ⟨by decide, Or.inl (by decide)⟩
  have hparse : ∀ entries, parse (bytesOf (of entries).json.pretty) = .ok (of entries) :=
    fun entries => parse_pretty hnow rfl rfl rfl
  have hstore : ∀ entries, (restore .empty entries).isOk = true →
      ∃ s, restore .empty entries = .ok s := fun entries h => by
    cases hrestore : restore .empty entries with
    | error e => rw [hrestore] at h; cases h
    | ok s => exact ⟨s, rfl⟩
  obtain ⟨s, hs⟩ := hstore (mesh ++ scalars) (by decide +kernel)
  obtain ⟨t, ht⟩ := hstore (scalars ++ mesh) (by decide +kernel)
  have hs' := (decode_of_parse (hparse (mesh ++ scalars))).trans hs
  have ht' := (decode_of_parse (hparse (scalars ++ mesh))).trans ht
  obtain ⟨d, hd, -, -, -, -, -, -, ⟨header, hheader, hcount⟩, hsame⟩ := lists_of_decode hs'
  obtain rfl := Except.ok.inj ((hparse _).symm.trans hd)
  refine ⟨s, t, hs', ht', ?_, hsame _ _ _ (hparse _) ht' List.perm_append_comm⟩
  rw [readHeader, hparse] at hheader
  obtain rfl := Except.ok.inj hheader
  exact hcount.symm

end Meshwork.Container
