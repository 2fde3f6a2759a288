import Meshwork.Proofs.DataObject
import Meshwork.Proofs.Store.Reachable
import Meshwork.Proofs.Text.Utf8
import Meshwork.Store.Fingerprint

/-!
# What a fingerprint tells

A fingerprint covers the entries of a store one after another: a path, a zero
character, the rendering of the object and a line feed. A rendering shows the object
and has no zero character (Proofs/DataObject), so an entry ends where it seems to,
once it is known where its path ends.

A name may have any character but the one that separates names, and also the two that
separate entries. Then the beginning of one path may look like a whole entry
(`Store.Confused`). Stores for which the fingerprint covers the same bytes are the same
exactly if nowhere among their entries this happens (`Store.same_iff_not_confused`), in
particular if no name has a zero character (`Store.same_of_zeroFree`).
-/

namespace Meshwork

/-! ## Entries as characters

Two texts of entries are compared from the front. As long as the paths end at the same
place, the entries do; where they do not, one path goes on through the other's zero
character. -/

/-- The characters of which an entry has the bytes. -/
def entryChars (entry : DataPath × DataObject) : List Char :=
  entry.1.text.toList ++ '\x00' :: (entry.2.canonical.toList ++ ['\n'])

theorem entryBytes_eq (path : DataPath) (object : DataObject) :
    Store.entryBytes path object = (entryChars (path, object)).flatMap String.utf8EncodeChar := by
  have hzero : String.utf8EncodeChar '\x00' = [0] := by decide
  have hline : String.utf8EncodeChar '\n' = [10] := by decide
  simp [Store.entryBytes, entryChars, bytesOf, hzero, hline]

theorem fingerprintBytes_eq (s : Store) :
    s.fingerprintBytes = bytesOf (String.ofList (s.contents.flatMap entryChars)) := by
  unfold Store.fingerprintBytes bytesOf
  rw [String.toList_ofList, List.flatMap_assoc]
  exact List.flatMap_congr fun entry _ => entryBytes_eq entry.1 entry.2

/-- **The path of one entry begins with the whole of the other.** Then a path has a zero character
in it, which is where the path of the other entry ends. -/
def Store.Confused (a b : DataPath × DataObject) : Prop :=
  entryChars a <+: b.1.text.toList ∨ entryChars b <+: a.1.text.toList

/-- **Two entries are the same**: the paths are, and the objects. Objects are the same bit by bit,
but for NaNs. -/
def EntriesSame (a b : DataPath × DataObject) : Prop := a.1 = b.1 ∧ a.2.Same b.2

theorem text_inj {p q : DataPath} (h : p.text = q.text) : p = q := by
  have hparse := p.parse_text
  rw [h, q.parse_text] at hparse
  exact (Except.ok.inj hparse).symm

variable {a b : DataPath × DataObject} {u v : List Char}

/-- The first zero character behind a path is the one that ends it. -/
theorem nil_or_begins {rendering z w : List Char} (hzero : '\x00' ∉ rendering)
    (h : '\x00' :: (rendering ++ '\n' :: u) = z ++ '\x00' :: w) :
    z = [] ∨ '\x00' :: (rendering ++ ['\n']) <+: z := by
  cases z with
  | nil => exact .inl rfl
  | cons c z =>
    obtain ⟨rfl, htail⟩ := List.cons.inj h
    refine .inr ?_
    -- The zero character is not within the rendering, so the line has to end before it.
    rcases List.append_eq_append_iff.1 htail with ⟨between, rfl, hrest⟩ | ⟨between, rfl, hrest⟩
    · cases between with
      | nil => exact absurd (List.cons.inj hrest).1 (by decide)
      | cons d between =>
        obtain ⟨rfl, -⟩ := List.cons.inj hrest
        exact ⟨between, by simp⟩
    · cases between with
      | nil => exact absurd (List.cons.inj hrest).1 (by decide)
      | cons d between =>
        obtain ⟨rfl, -⟩ := List.cons.inj hrest
        exact absurd (List.mem_append_right _ List.mem_cons_self) hzero

/-- **An entry is told from another one**, unless they are confused. -/
theorem same_or_confused (h : entryChars a ++ u = entryChars b ++ v) :
    EntriesSame a b ∧ u = v ∨ Store.Confused a b := by
  have hchars : ∀ (entry : DataPath × DataObject) (rest : List Char), entryChars entry ++ rest
      = entry.1.text.toList ++ '\x00' :: (entry.2.canonical.toList ++ '\n' :: rest) := by
    intro entry rest
    simp [entryChars]
  -- If one path is longer than the other, the zero character behind the shorter one lies within the
  -- longer one, and the whole entry with it.
  have hextends : ∀ {a b : DataPath × DataObject} {z u w : List Char},
      b.1.text.toList = a.1.text.toList ++ z →
      '\x00' :: (a.2.canonical.toList ++ '\n' :: u) = z ++ '\x00' :: w →
      z = [] ∨ entryChars a <+: b.1.text.toList := by
    intro a b z u w htext hrest
    refine (nil_or_begins a.2.zeroFree_canonical hrest).imp_right fun hbegins => ?_
    rw [htext]
    exact (List.prefix_append_right_inj _).2 hbegins
  -- If the paths end together, the renderings do, for they are told apart by what follows.
  have hsame : a.1.text.toList = b.1.text.toList →
      '\x00' :: (a.2.canonical.toList ++ '\n' :: u)
        = '\x00' :: (b.2.canonical.toList ++ '\n' :: v) → EntriesSame a b ∧ u = v := by
    intro htext hrest
    have htold : Told (fun _ => True) (a.2.Same b.2) _ _ := a.2.told_canonical b.2
    obtain ⟨hobject, hline⟩ := htold _ _ (fun _ _ => trivial) (fun _ _ => trivial)
      (List.cons.inj hrest).2
    exact ⟨⟨text_inj (String.toList_inj.1 htext), hobject⟩, (List.cons.inj hline).2⟩
  rw [hchars, hchars] at h
  rcases List.append_eq_append_iff.1 h with ⟨z, htext, hrest⟩ | ⟨z, htext, hrest⟩
  · rcases hextends htext hrest with rfl | hbegins
    · exact .inl (hsame (by rw [htext, List.append_nil]) hrest)
    · exact .inr (.inl hbegins)
  · rcases hextends htext hrest with rfl | hbegins
    · exact .inl (hsame (by rw [htext, List.append_nil]) hrest.symm)
    · exact .inr (.inr hbegins)

/-- **Lists of entries with the same characters** are the same entry by entry, unless two of them
at the same position are confused. By induction on the lists: as long as entries agree, what is
left of the texts agrees too. -/
theorem forall₂_or_confused {xs ys : List (DataPath × DataObject)}
    (h : xs.flatMap entryChars = ys.flatMap entryChars) :
    List.Forall₂ EntriesSame xs ys
      ∨ ∃ (i : Nat) (a b : DataPath × DataObject), xs[i]? = some a ∧ ys[i]? = some b
        ∧ Store.Confused a b := by
  induction xs generalizing ys with
  | nil =>
    cases ys with
    | nil => exact .inl .nil
    | cons b ys => simp [entryChars] at h
  | cons a xs ih =>
    cases ys with
    | nil => simp [entryChars] at h
    | cons b ys =>
      rw [List.flatMap_cons, List.flatMap_cons] at h
      rcases same_or_confused h with ⟨hab, hrest⟩ | hconfused
      · rcases ih hrest with hall | ⟨i, x, y, hx, hy, hconfused⟩
        · exact .inl (.cons hab hall)
        · exact .inr ⟨i + 1, x, y, hx, hy, hconfused⟩
      · exact .inr ⟨0, a, b, rfl, rfl, hconfused⟩

namespace Store

/-! ## Stores

Stores are compared by their lists of entries, which come in order of their paths. The
first position at which the lists differ is the one at which entries are told apart, or
confused. -/

variable {s t : Store}

/-- **Two stores are the same**: at every path the same object, or none in either. This is finer
than being equal for zeros of both signs, and coarser for NaNs. -/
def Same (s t : Store) : Prop := ∀ path, Option.Rel DataObject.Same (s.get? path) (t.get? path)

theorem isSome_eq_of_rel {α β : Type} {R : α → β → Prop} {a : Option α} {b : Option β}
    (h : Option.Rel R a b) : a.isSome = b.isSome := by
  cases h <;> rfl

theorem Coherent.mem_contents (h : s.Coherent) {path : DataPath} {object : DataObject} :
    (path, object) ∈ s.contents ↔ s.get? path = some object := by
  unfold contents
  rw [List.mem_filterMap]
  constructor
  · rintro ⟨p, -, hp⟩
    obtain ⟨o, ho, heq⟩ := Option.map_eq_some_iff.1 hp
    obtain ⟨rfl, rfl⟩ := Prod.mk.inj heq
    exact ho
  · intro hobject
    exact ⟨path, h.mem_list.2 (Option.isSome_of_eq_some hobject), by rw [hobject]; rfl⟩

theorem Coherent.map_fst_contents (h : s.Coherent) : s.contents.map Prod.fst = s.list none := by
  have hall : ∀ path ∈ s.list none,
      ((s.get? path).map fun object => (path, object)).map Prod.fst = some path := by
    intro path hpath
    obtain ⟨object, hobject⟩ := Option.isSome_iff_exists.1 (h.mem_list.1 hpath)
    rw [hobject]
    rfl
  unfold contents
  rw [List.map_filterMap]
  calc (s.list none).filterMap _ = (s.list none).filterMap some := List.filterMap_congr hall
    _ = s.list none := List.filterMap_some

/-- Every entry has a counterpart. -/
theorem exists_of_forall₂ {α β : Type} {related : α → β → Prop} {xs : List α} {ys : List β}
    (h : List.Forall₂ related xs ys) {a : α} (ha : a ∈ xs) : ∃ b ∈ ys, related a b := by
  induction h with
  | nil => cases ha
  | @cons x y xs ys hxy _ ih =>
    rcases List.mem_cons.1 ha with rfl | ha
    · exact ⟨y, List.mem_cons_self, hxy⟩
    · obtain ⟨b, hb, hab⟩ := ih ha
      exact ⟨b, List.mem_cons_of_mem _ hb, hab⟩

/-- Stores with the same entries are the same. -/
theorem same_of_forall₂ (hs : s.Coherent) (ht : t.Coherent)
    (h : List.Forall₂ EntriesSame s.contents t.contents) : s.Same t := by
  -- The entries are in the order of the list of paths, so these agree first.
  have hpaths : s.list none = t.list none := by
    rw [← hs.map_fst_contents, ← ht.map_fst_contents, ← List.forall₂_eq_eq_eq,
      List.forall₂_map_left_iff, List.forall₂_map_right_iff]
    exact h.imp fun _ _ hab => hab.1
  intro path
  cases hobject : s.get? path with
  | some object =>
    obtain ⟨⟨q, other⟩, hmem, hpath, hsame⟩ := exists_of_forall₂ h (hs.mem_contents.2 hobject)
    obtain rfl : path = q := hpath
    rw [ht.mem_contents.1 hmem]
    exact .some hsame
  | none =>
    have hnone : ¬ (t.get? path).isSome := by
      rw [← ht.mem_list, ← hpaths, hs.mem_list, hobject]
      exact Bool.false_ne_true
    rw [Option.not_isSome_iff_eq_none.1 hnone]
    exact .none

/-- The entries of stores with the same paths are not confused: the paths at one position
agree, and an entry is longer than its path. -/
theorem Same.not_confused (h : s.Same t) (hs : s.Coherent) (ht : t.Coherent) {i : Nat}
    {a b : DataPath × DataObject} (ha : s.contents[i]? = some a) (hb : t.contents[i]? = some b) :
    ¬ Confused a b := by
  have hsome := fun path => isSome_eq_of_rel (h path)
  have hpath : a.1 = b.1 := by
    have hpaths := hs.list_eq_of_isSome ht hsome
    rw [← hs.map_fst_contents, ← ht.map_fst_contents] at hpaths
    have hat := congrArg (fun paths => paths[i]?) hpaths
    simp only [List.getElem?_map, ha, hb] at hat
    exact Option.some.inj hat
  have hlength : ∀ entry : DataPath × DataObject, ¬ entryChars entry <+: entry.1.text.toList := by
    intro entry hbegins
    have hle := hbegins.length_le
    simp only [entryChars, List.length_append, List.length_cons] at hle
    omega
  rintro (hbegins | hbegins)
  · exact hlength a (hpath ▸ hbegins)
  · exact hlength b (hpath ▸ hbegins)

/-- **Stores for which the same bytes are digested** are the same, or two entries at one position
are confused. The lists are compared from the front, and at the first difference two entries are
confused. -/
theorem same_or_exists_confused (hs : s.Coherent) (ht : t.Coherent)
    (h : s.fingerprintBytes = t.fingerprintBytes) :
    s.Same t ∨ ∃ (i : Nat) (a b : DataPath × DataObject), s.contents[i]? = some a
      ∧ t.contents[i]? = some b ∧ Confused a b := by
  rw [fingerprintBytes_eq, fingerprintBytes_eq, Utf8.bytesOf_inj] at h
  exact (forall₂_or_confused (String.ofList_injective h)).imp_left (same_of_forall₂ hs ht)

/-- **Reachable stores for which the same bytes are digested** are the same if and only if
nowhere the path of an entry of one begins with the whole entry that the other has at
this position. -/
theorem same_iff_not_confused {operations operations' : List Operation}
    (h : (after operations).fingerprintBytes = (after operations').fingerprintBytes) :
    (after operations).Same (after operations')
      ↔ ∀ (i : Nat) (a b : DataPath × DataObject), (after operations).contents[i]? = some a →
          (after operations').contents[i]? = some b → ¬ Confused a b := by
  have hs := (sound_after operations).coherent
  have ht := (sound_after operations').coherent
  refine ⟨fun hsame i a b ha hb => hsame.not_confused hs ht ha hb, fun hclear => ?_⟩
  rcases same_or_exists_confused hs ht h with hsame | ⟨i, a, b, ha, hb, hconfused⟩
  · exact hsame
  · exact absurd hconfused (hclear i a b ha hb)

/-- A name with a zero character and a line feed imitates the entry of a group and the
beginning of the next one. -/
theorem not_same_imitated :
    let two := [Operation.create (.single "A" (by decide)) .group false,
      .create (.single "B" (by decide)) .group false]
    let one := [Operation.create (.single "A\x00Group\nB" (by decide)) .group false]
    (after two).fingerprintBytes = (after one).fingerprintBytes
      ∧ ¬ (after two).Same (after one) := by
  intro two one
  have hbytes : (after two).fingerprintBytes = (after one).fingerprintBytes := by decide
  refine ⟨hbytes, fun hsame => ?_⟩
  exact (same_iff_not_confused hbytes).1 hsame 0 _ _ rfl rfl (.inl (by decide))

/-- **Without zero characters in names, the fingerprint tells** what a store holds. Names with
that character are the only ones which can be confused. -/
theorem same_of_zeroFree {operations operations' : List Operation}
    (hzero : ∀ path, ((after operations).get? path).isSome → ZeroFree path.text)
    (hzero' : ∀ path, ((after operations').get? path).isSome → ZeroFree path.text)
    (h : (after operations).fingerprintBytes = (after operations').fingerprintBytes) :
    (after operations).Same (after operations') := by
  have hs := (sound_after operations).coherent
  have ht := (sound_after operations').coherent
  have hentry : ∀ entry : DataPath × DataObject, '\x00' ∈ entryChars entry := fun entry =>
    List.mem_append_right _ List.mem_cons_self
  rcases same_or_exists_confused hs ht h with hsame | ⟨i, ⟨p, o⟩, ⟨q, r⟩, ha, hb, hconfused⟩
  · exact hsame
  · have hp := hs.mem_contents.1 (List.mem_of_getElem? ha)
    have hq := ht.mem_contents.1 (List.mem_of_getElem? hb)
    rcases hconfused with hbegins | hbegins
    · exact absurd (hbegins.subset (hentry _)) (hzero' q (Option.isSome_of_eq_some hq))
    · exact absurd (hbegins.subset (hentry _)) (hzero p (Option.isSome_of_eq_some hp))

end Store

end Meshwork
