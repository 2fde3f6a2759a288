import Meshwork.Proofs.Container.Document
import Meshwork.Proofs.Store.Refinement

/-!
# Containers hold stores

Reading a container puts the objects of the store into an empty one, in the
order of their list. There, every object comes after the one above it
(`Store.Coherent.pairwise_list`), so that each is put beneath what it lay beneath
and fits there as it did (`Container.restoreEntry_ok`). The store that results
has the same map, hence the same container (`Container.roundTrip_after`).

Nothing may fail on the way. The object of a record is there again, whatever it
is (`Record.object_ofObject`); its path is free, since a list of paths repeats
none; and the path above it is taken, by the object that lay there in the store.
Only the time of writing may be foreign to the reader, which knows the moments of
a calendar and no others, so that is asked of it.
-/

namespace Meshwork.Container

/-- The entry of an object at a path. -/
def entryOf (path : DataPath) (object : DataObject) : Entry := ⟨path, Record.ofObject object⟩

/-- The entries of some paths of a store. -/
def entriesAt (s : Store) (paths : List DataPath) : List Entry :=
  paths.filterMap fun path => (s.get? path).map (entryOf path)

theorem entriesOf_eq (s : Store) : entriesOf s = entriesAt s (s.list none) := by
  unfold entriesOf entriesAt Store.contents
  rw [List.map_filterMap]
  refine List.filterMap_congr fun path _ => ?_
  cases s.get? path <;> rfl

/-! ## Replaying the objects

The list of a store is cut in two: the objects that are back already and those still to
come. The store on the way agrees with the original one at the first and is empty at the
others, so what the original holds above an object is there when its turn comes. -/

/-- **An object of a store is put back** if all that lies above it is there. The store on the way
has the same object above the path as the original, and so the check that was passed there is
passed again. -/
theorem restoreEntry_ok {s t : Store} (hs : s.Sound) (ht : t.Sound) {path : DataPath}
    {object : DataObject} (hobject : s.get? path = some object) (hfree : t.get? path = none)
    (habove : ∀ above, path.parent? = some above → t.get? above = s.get? above) :
    ∃ t', restoreEntry t (entryOf path object) = .ok t' ∧ t'.Sound
      ∧ t'.get? = fun q => if q = path then some object else t.get? q := by
  have hfits : ∀ above, path.parent? = some above →
      ∃ holder, t.get? above = some holder ∧ Fits holder path.name object := by
    intro above hparent
    rw [habove above hparent]
    exact hs.placed path above object hparent hobject
  obtain ⟨id, t', hcreate, ht', hget⟩ := ht.create hfree hfits
  have hrecord : (entryOf path object).record.object = .ok object := Record.object_ofObject object
  refine ⟨t', ?_, ht', hget⟩
  unfold restoreEntry
  rw [hrecord]
  show (Except.ok object).bind _ = _
  simp only [Except.bind, entryOf, hcreate]
  rfl

variable {s : Store}

theorem entriesAt_cons {path : DataPath} {object : DataObject} (h : s.get? path = some object)
    (rest : List DataPath) :
    entriesAt s (path :: rest) = entryOf path object :: entriesAt s rest := by
  rw [entriesAt, List.filterMap_cons, h]
  rfl

/-- **The rest of the objects of a store is put back** onto those before. The store on the way has
the objects at the paths before and none at the others; with each step one path changes sides. -/
theorem restore_rest (hs : s.Sound) {done rest : List DataPath} (hlist : s.list none = done ++ rest)
    {t : Store} (ht : t.Sound)
    (hget : ∀ path, t.get? path = if path ∈ done then s.get? path else none) :
    ∃ t', restore t (entriesAt s rest) = .ok t' ∧ t'.Sound ∧ t'.get? = s.get? := by
  -- On what is left of the list; `t` has the objects of what is done, and no others.
  induction rest generalizing done t with
  | nil =>
    refine ⟨t, rfl, ht, funext fun path => ?_⟩
    have hmem : path ∈ s.list none ↔ (s.get? path).isSome := hs.coherent.mem_list
    rw [hlist, List.append_nil] at hmem
    rw [hget]
    split <;> rename_i hdone
    · rfl
    · exact (Option.not_isSome_iff_eq_none.1 (mt hmem.2 hdone)).symm
  | cons path rest ih =>
    have hlisted : ∀ q, (s.get? q).isSome → q ∈ done ∨ q = path ∨ q ∈ rest := fun q hq => by
      simpa [hlist] using hs.coherent.mem_list.2 hq
    have hpath : path ∈ s.list none := by simp [hlist]
    obtain ⟨object, hobject⟩ := Option.isSome_iff_exists.1 (hs.coherent.mem_list.1 hpath)
    obtain ⟨-, hrest, hdone⟩ := List.pairwise_append.1 (hlist ▸ hs.coherent.pairwise_list)
    -- A path that is done is not listed again.
    have hfree : t.get? path = none := by
      rw [hget]
      refine if_neg fun hmem => ?_
      have hself := hdone path hmem path List.mem_cons_self
      rw [DataPath.relative?_self] at hself
      cases hself
    -- What lies above is listed, but neither here nor later.
    have habove : ∀ above, path.parent? = some above → t.get? above = s.get? above := by
      intro above hparent
      obtain ⟨holder, hholder, -⟩ := hs.placed path above object hparent hobject
      have hbelow : above.relative? path = some [path.name] :=
        DataPath.relative?_eq_some_iff.2 (DataPath.parent?_eq_some_iff.1 hparent)
      rw [hget]
      refine if_pos ?_
      rcases hlisted above (Option.isSome_of_eq_some hholder) with hmem | rfl | hmem
      · exact hmem
      · rw [DataPath.relative?_self] at hbelow
        cases hbelow
      · rw [(List.pairwise_cons.1 hrest).1 above hmem] at hbelow
        cases hbelow
    obtain ⟨t', hentry, ht', hget'⟩ := restoreEntry_ok hs ht hobject hfree habove
    have hnext : ∀ q, t'.get? q = if q ∈ done ++ [path] then s.get? q else none := by
      intro q
      rw [hget']
      by_cases hq : q = path
      · simp [hq, hobject]
      · simp [hq, hget]
    have hlist' : s.list none = (done ++ [path]) ++ rest := by
      rw [hlist, List.append_assoc, List.singleton_append]
    obtain ⟨t'', hrestore, hsound, heq⟩ := ih hlist' ht' hnext
    refine ⟨t'', ?_, hsound, heq⟩
    rw [entriesAt_cons hobject, restore, hentry]
    exact hrestore

/-- **The objects of a store are put back**, in the order of their list. The store that results
need not be the same value, as its identifiers are given out afresh. Its map is the same. -/
theorem restore_entriesOf (hs : s.Sound) :
    ∃ t, restore .empty (entriesOf s) = .ok t ∧ t.Sound ∧ t.get? = s.get? := by
  rw [entriesOf_eq]
  refine restore_rest hs (List.nil_append _).symm Store.sound_empty fun path => ?_
  rw [Store.get?_empty, if_neg List.not_mem_nil]

/-! ## Writing and reading

The document in between is read back as it was written, which leaves only the replay. -/

/-- Reading the container of a store is putting its objects back. -/
theorem decode_encode_eq {now : Timestamp} (hnow : now.IsMoment) (s : Store) :
    decode (bytesOf (encode now s)) = restore .empty (entriesOf s) := by
  unfold decode
  rw [parse_encode hnow]
  rfl

/-- **A store that operations lead to is read back from its container.** The store that is read has
the same objects at the same paths, to the last bit. Written again at any time, its container has
the same entries and the same checksum. -/
theorem roundTrip_after {now : Timestamp} (hnow : now.IsMoment) (operations : List Operation) :
    let s := Store.after operations
    ∃ t, decode (bytesOf (encode now s)) = .ok t ∧ t.Represents s.get?
      ∧ ∀ later, (ofStore later t).entries = (ofStore now s).entries
          ∧ (ofStore later t).checksum = (ofStore now s).checksum := by
  intro s
  have hs : s.Sound := Store.sound_after operations
  obtain ⟨t, ht, hsound, hget⟩ := restore_entriesOf hs
  have hentries : entriesOf t = entriesOf s := by
    unfold entriesOf
    rw [hsound.coherent.contents_eq hs.coherent hget]
  refine ⟨t, ?_, hget ▸ hsound.represents, fun later => ⟨hentries, congrArg checksum hentries⟩⟩
  rw [decode_encode_eq hnow, ht]

/-- A signalling NaN with a payload and a negative zero, neither of which a comparison of floats
could tell from others of their kind, are there again, bit by bit. -/
theorem roundTrip_after_nan :
    let array : DataObject :=
      .array ⟨.float64 [.ofNat 0xfff0000000000123, .ofNat 0x8000000000000000], 2, by decide, by decide⟩
    let path := DataPath.single "A" (by decide)
    let s := Store.after [.create path array false]
    (⟨0, 0⟩ : Timestamp).IsMoment
      ∧ ∃ t, decode (bytesOf (encode ⟨0, 0⟩ s)) = .ok t ∧ t.get? path = some array := by
  intro array path s
  have hnow : (⟨0, 0⟩ : Timestamp).IsMoment := ⟨by decide, Or.inl (by decide)⟩
  obtain ⟨t, ht, hrepresents, -⟩ := roundTrip_after hnow [.create path array false]
  exact ⟨hnow, t, ht, (hrepresents.get? path).trans (Store.get?_after_create rfl array)⟩

end Meshwork.Container
