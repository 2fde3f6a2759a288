/-!
# Values under names

A list of named values in increasing order of the names, each name at most
once. Children of an object, the arguments of a filter and the entries of a
directory are such lists. Every listing in name order is then the list
itself, and a value is found by its name alone.

`insert` and `erase` keep the order (`ordered_insert`, `ordered_erase`), and
`find?_insert` and `find?_erase` say what they do to a look-up.
-/

namespace Meshwork

/-- Values under names. -/
abbrev Keyed (α : Type) := List (String × α)

namespace Keyed

variable {α β γ : Type}

/-- The names, in order. -/
def keys (l : Keyed α) : List String := l.map Prod.fst

/-- **The list is in order**: names increase from one entry to all later ones. Names are compared
by their characters, which is the order of their bytes. -/
def Ordered (l : Keyed α) : Prop := l.Pairwise fun a b => a.1 < b.1

/-- The value under a name. -/
def find? (key : String) : Keyed α → Option α
  | [] => none
  | (k, v) :: rest => if k = key then some v else find? key rest

/-- Whether there is a value under a name. -/
def contains (key : String) (l : Keyed α) : Bool := (find? key l).isSome

/-- Puts a value under a name, in place of one that is there. -/
def insert (key : String) (value : α) : Keyed α → Keyed α
  | [] => [(key, value)]
  | (k, v) :: rest =>
    if key < k then (key, value) :: (k, v) :: rest
    else if key = k then (key, value) :: rest
    else (k, v) :: insert key value rest

/-- Takes out the value under a name. -/
def erase (key : String) : Keyed α → Keyed α
  | [] => []
  | (k, v) :: rest => if k = key then rest else (k, v) :: erase key rest

/-- Puts entries into a list, one after another. -/
def insertEach (entries : List (String × α)) (l : Keyed α) : Keyed α :=
  entries.foldl (fun l (key, value) => insert key value l) l

/-- The list of the given entries, a later one in place of an earlier one of
the same name. -/
def ofList (entries : List (String × α)) : Keyed α := insertEach entries []

/-- The values, in the order of their names. -/
def values (l : Keyed α) : List α := l.map Prod.snd

/-- The list with every value changed. -/
def mapValues (f : α → β) (l : Keyed α) : Keyed β := l.map fun (key, value) => (key, f value)

@[simp] theorem find?_nil (key : String) : find? key ([] : Keyed α) = none := rfl

/-- **After an insertion** the value is found under its key, and every other key is looked up as
before. The list need not be in order for that. -/
theorem find?_insert (key other : String) (value : α) (l : Keyed α) :
    find? other (insert key value l) = if other = key then some value else find? other l := by
  induction l with
  | nil =>
    by_cases h : other = key
    · simp [insert, find?, h]
    · simp [insert, find?, h, Ne.symm h]
  | cons entry rest ih =>
    obtain ⟨k, v⟩ := entry
    unfold insert
    split
    · by_cases h : other = key
      · simp [find?, h]
      · simp [find?, h, Ne.symm h]
    · split <;> rename_i hk
      -- The key is there already: its entry is replaced, and the entry that is skipped has the same
      -- key.
      · subst hk
        by_cases h : other = key
        · simp [find?, h]
        · simp [find?, h, Ne.symm h]
      · simp only [find?, ih]
        by_cases h : k = other
        · subst h; simp [Ne.symm hk]
        · simp [h]

/-- An entry after an insertion is the new one, or was there before. -/
theorem mem_insert {key : String} {value : α} {l : Keyed α} {entry : String × α}
    (h : entry ∈ insert key value l) : entry = (key, value) ∨ entry ∈ l := by
  induction l with
  | nil => exact Or.inl (by simpa [insert] using h)
  | cons head rest ih =>
    obtain ⟨k, v⟩ := head
    unfold insert at h
    split at h
    · rcases List.mem_cons.1 h with h | h
      · exact Or.inl h
      · exact Or.inr h
    · split at h
      · rcases List.mem_cons.1 h with h | h
        · exact Or.inl h
        · exact Or.inr (List.mem_cons_of_mem _ h)
      · rcases List.mem_cons.1 h with h | h
        · exact Or.inr (h ▸ List.mem_cons_self)
        · exact (ih h).imp_right (List.mem_cons_of_mem _)

theorem mem_erase {key : String} {l : Keyed α} {entry : String × α}
    (h : entry ∈ erase key l) : entry ∈ l := by
  induction l with
  | nil => exact absurd h (by simp [erase])
  | cons head rest ih =>
    obtain ⟨k, v⟩ := head
    unfold erase at h
    split at h
    · exact List.mem_cons_of_mem _ h
    · rcases List.mem_cons.1 h with h | h
      · exact h ▸ List.mem_cons_self
      · exact List.mem_cons_of_mem _ (ih h)

/-- **An insertion keeps the order**: the new entry comes before the first greater key, or takes
the place of its own. -/
theorem ordered_insert {key : String} {value : α} {l : Keyed α} (h : Ordered l) :
    Ordered (insert key value l) := by
  induction l with
  | nil => simp [insert, Ordered]
  | cons head rest ih =>
    obtain ⟨k, v⟩ := head
    obtain ⟨hk, hrest⟩ := List.pairwise_cons.1 h
    unfold insert
    split <;> rename_i hlt
    -- The new entry is the first. What was first is greater, and so is all that comes after it.
    · refine List.pairwise_cons.2 ⟨fun entry he => ?_, h⟩
      rcases List.mem_cons.1 he with rfl | he
      · exact hlt
      · exact String.lt_trans hlt (hk entry he)
    · split <;> rename_i heq
      · subst heq
        exact List.pairwise_cons.2 ⟨hk, hrest⟩
      -- The new entry comes later, and its key is neither smaller than the first one nor the same.
      · refine List.pairwise_cons.2 ⟨fun entry he => ?_, ih hrest⟩
        rcases mem_insert he with rfl | he
        · exact Std.lt_of_le_of_ne (Std.not_lt.1 hlt) (Ne.symm heq)
        · exact hk entry he

theorem ordered_erase {key : String} {l : Keyed α} (h : Ordered l) : Ordered (erase key l) := by
  induction l with
  | nil => exact h
  | cons head rest ih =>
    obtain ⟨k, v⟩ := head
    obtain ⟨hk, hrest⟩ := List.pairwise_cons.1 h
    unfold erase
    split
    · exact hrest
    · exact List.pairwise_cons.2 ⟨fun entry he => hk entry (mem_erase he), ih hrest⟩

theorem mem_insertEach {entries : List (String × α)} {l : Keyed α} {entry : String × α}
    (h : entry ∈ insertEach entries l) : entry ∈ entries ∨ entry ∈ l := by
  induction entries generalizing l with
  | nil => exact Or.inr h
  | cons head rest ih =>
    rcases ih h with h | h
    · exact Or.inl (List.mem_cons_of_mem _ h)
    · rcases mem_insert h with rfl | h
      · exact Or.inl List.mem_cons_self
      · exact Or.inr h

theorem mem_ofList {entries : List (String × α)} {entry : String × α}
    (h : entry ∈ ofList entries) : entry ∈ entries :=
  (mem_insertEach h).resolve_right List.not_mem_nil

theorem ordered_insertEach (entries : List (String × α)) {l : Keyed α} (h : Ordered l) :
    Ordered (insertEach entries l) := by
  induction entries generalizing l with
  | nil => exact h
  | cons head rest ih => exact ih (ordered_insert h)

theorem ordered_ofList (entries : List (String × α)) : Ordered (ofList entries) :=
  ordered_insertEach entries List.Pairwise.nil

/-! ## Lists in order

If the names are in order, a list is a finite map: it is determined by its look-ups, and
every way to find an entry finds the same one. -/

theorem ordered_of_keys_eq {l : Keyed α} {m : Keyed β} (h : l.keys = m.keys) (hm : Ordered m) :
    Ordered l := by
  have key : ∀ {δ : Type} {n : Keyed δ}, Ordered n ↔ n.keys.Pairwise (· < ·) := fun {δ n} => by
    simp [Ordered, keys, List.pairwise_map]
  rw [key, h]
  exact key.1 hm

/-- An entry that is found is in the list. -/
theorem mem_of_find? {key : String} {value : α} {l : Keyed α} (h : find? key l = some value) :
    (key, value) ∈ l := by
  induction l with
  | nil => simp at h
  | cons head rest ih =>
    obtain ⟨k, v⟩ := head
    unfold find? at h
    split at h
    · rename_i hk
      obtain rfl := hk
      obtain rfl := Option.some.inj h
      exact List.mem_cons_self
    · exact List.mem_cons_of_mem _ (ih h)

/-- What stands behind a name is not under an earlier one. -/
theorem find?_eq_none_of_lt {key : String} {l : Keyed α} (h : ∀ entry ∈ l, key < entry.1) :
    find? key l = none := by
  induction l with
  | nil => rfl
  | cons head rest ih =>
    obtain ⟨k, v⟩ := head
    have hk : k ≠ key := fun he =>
      absurd (h (k, v) List.mem_cons_self) (he ▸ String.lt_irrefl k)
    rw [find?, if_neg hk]
    exact ih fun entry he => h entry (List.mem_cons_of_mem _ he)

/-- **In a list in order, every entry is found.** Without order an earlier entry of the same name
would hide it. -/
theorem find?_of_mem {key : String} {value : α} {l : Keyed α} (hl : Ordered l)
    (h : (key, value) ∈ l) : find? key l = some value := by
  induction l with
  | nil => simp at h
  | cons head rest ih =>
    obtain ⟨k, v⟩ := head
    obtain ⟨hk, hrest⟩ := List.pairwise_cons.1 hl
    rcases List.mem_cons.1 h with he | he
    · obtain ⟨rfl, rfl⟩ := Prod.mk.inj he
      simp [find?]
    · have hne : k ≠ key := fun hke =>
        absurd (hk _ he) (hke ▸ String.lt_irrefl k)
      rw [find?, if_neg hne]
      exact ih hrest he

theorem find?_eq_some_iff {key : String} {value : α} {l : Keyed α} (hl : Ordered l) :
    find? key l = some value ↔ (key, value) ∈ l :=
  ⟨mem_of_find?, find?_of_mem hl⟩

theorem mem_keys_iff {key : String} {l : Keyed α} : key ∈ l.keys ↔ (find? key l).isSome := by
  induction l with
  | nil => simp [keys]
  | cons head rest ih =>
    obtain ⟨k, v⟩ := head
    have hcons : keys ((k, v) :: rest) = k :: keys rest := rfl
    rw [hcons, find?, List.mem_cons, ih]
    by_cases h : k = key
    · simp [h]
    · simp [h, Ne.symm h]

/-- **After an entry is taken out**, nothing is found under its key, and every other key is looked
up as before. The order is needed: it excludes a second entry with the key. -/
theorem find?_erase (key other : String) {l : Keyed α} (hl : Ordered l) :
    find? other (erase key l) = if other = key then none else find? other l := by
  induction l with
  | nil => simp [erase]
  | cons head rest ih =>
    obtain ⟨k, v⟩ := head
    obtain ⟨hk, hrest⟩ := List.pairwise_cons.1 hl
    unfold erase
    split <;> rename_i he
    -- All keys after this one are greater, so the key is not found again.
    · subst he
      by_cases h : other = k
      · subst h
        simpa using find?_eq_none_of_lt hk
      · simp [find?, h, Ne.symm h]
    · simp only [find?, ih hrest]
      by_cases h : k = other
      · subst h; simp [he]
      · simp [h]

/-- Taking out what is not there changes nothing. -/
theorem erase_of_find?_eq_none {key : String} {l : Keyed α} (h : find? key l = none) :
    erase key l = l := by
  induction l with
  | nil => rfl
  | cons head rest ih =>
    obtain ⟨k, v⟩ := head
    unfold find? at h
    split at h <;> rename_i hk
    · simp at h
    · rw [erase, if_neg hk, ih h]

/-- What comes behind all others is entered at the end. -/
theorem insert_eq_append {key : String} {value : α} {l : Keyed α}
    (h : ∀ entry ∈ l, entry.1 < key) : insert key value l = l ++ [(key, value)] := by
  induction l with
  | nil => rfl
  | cons head rest ih =>
    obtain ⟨k, v⟩ := head
    have hk : k < key := h (k, v) List.mem_cons_self
    rw [insert, if_neg (fun hlt => String.lt_irrefl _ (String.lt_trans hk hlt)),
      if_neg (fun he : key = k => String.lt_irrefl k (he ▸ hk)),
      ih fun entry he => h entry (List.mem_cons_of_mem _ he), List.cons_append]

/-- Entering what is in order, after what comes before it, puts the two one
after the other. -/
theorem insertEach_eq_append {l m : Keyed α} (h : Ordered (l ++ m)) : insertEach m l = l ++ m := by
  induction m generalizing l with
  | nil => exact (List.append_nil l).symm
  | cons head rest ih =>
    obtain ⟨k, v⟩ := head
    have hlt : ∀ entry ∈ l, entry.1 < k := fun entry he =>
      (List.pairwise_append.1 h).2.2 entry he (k, v) List.mem_cons_self
    have happ : l ++ (k, v) :: rest = (l ++ [(k, v)]) ++ rest := by simp
    show insertEach rest (insert k v l) = _
    rw [insert_eq_append hlt, ih (happ ▸ h), happ]

/-- A list in order is the list of its entries. -/
theorem ofList_of_ordered {l : Keyed α} (h : Ordered l) : ofList l = l :=
  insertEach_eq_append (l := []) h

/-- Taking out an entry that is there leaves the others. -/
theorem perm_cons_erase {key : String} {value : α} {l : Keyed α} (h : find? key l = some value) :
    l.Perm ((key, value) :: erase key l) := by
  induction l with
  | nil => simp at h
  | cons head rest ih =>
    obtain ⟨k, v⟩ := head
    unfold find? at h
    unfold erase
    split at h <;> rename_i hk
    · obtain rfl := Option.some.inj h
      rw [if_pos hk, hk]
    · rw [if_neg hk]
      exact ((ih h).cons _).trans (List.Perm.swap _ _ _)

/-- Entering what is not there leaves the others. -/
theorem insert_perm_cons {key : String} {value : α} {l : Keyed α} (h : find? key l = none) :
    (insert key value l).Perm ((key, value) :: l) := by
  induction l with
  | nil => exact List.Perm.refl _
  | cons head rest ih =>
    obtain ⟨k, v⟩ := head
    unfold find? at h
    split at h <;> rename_i hk
    · simp at h
    unfold insert
    split
    · exact List.Perm.refl _
    · rw [if_neg (Ne.symm hk)]
      exact ((ih h).cons _).trans (List.Perm.swap _ _ _)

/-- Two lists in order with the same look-ups are the same. -/
theorem ext_find? {l m : Keyed α} (hl : Ordered l) (hm : Ordered m)
    (h : ∀ key, find? key l = find? key m) : l = m := by
  -- In order, the look-ups say which entries there are, and it is their order that the induction on
  -- both lists uses: the first entries are the same, since each of them would otherwise come before
  -- the other.
  have hmem : ∀ entry : String × α, entry ∈ l ↔ entry ∈ m := fun (key, value) => by
    rw [← find?_eq_some_iff hl, ← find?_eq_some_iff hm, h key]
  have irrefl : ∀ entry : String × α, ¬ entry.1 < entry.1 := fun _ => String.lt_irrefl _
  induction l generalizing m with
  | nil =>
    cases m with
    | nil => rfl
    | cons head rest => exact absurd ((hmem head).2 List.mem_cons_self) List.not_mem_nil
  | cons head rest ih =>
    cases m with
    | nil => exact absurd ((hmem head).1 List.mem_cons_self) List.not_mem_nil
    | cons head' rest' =>
      obtain ⟨hlt, hrest⟩ := List.pairwise_cons.1 hl
      obtain ⟨hlt', hrest'⟩ := List.pairwise_cons.1 hm
      have hhead : head = head' := by
        rcases List.mem_cons.1 ((hmem head).1 List.mem_cons_self) with he | he
        · exact he
        rcases List.mem_cons.1 ((hmem head').2 List.mem_cons_self) with he' | he'
        · exact he'.symm
        exact absurd (String.lt_trans (hlt' _ he) (hlt _ he')) (irrefl head')
      subst hhead
      have hmem' : ∀ entry : String × α, entry ∈ rest ↔ entry ∈ rest' := fun entry => by
        constructor
        · intro he
          rcases List.mem_cons.1 ((hmem entry).1 (List.mem_cons_of_mem _ he)) with rfl | he'
          · exact absurd (hlt _ he) (irrefl _)
          · exact he'
        · intro he
          rcases List.mem_cons.1 ((hmem entry).2 (List.mem_cons_of_mem _ he)) with rfl | he'
          · exact absurd (hlt' _ he) (irrefl _)
          · exact he'
      refine congrArg (head :: ·) (ih hrest hrest' (fun key => ?_) hmem')
      refine Option.ext fun value => ?_
      rw [find?_eq_some_iff hrest, find?_eq_some_iff hrest', hmem']

/-! ## Changing the values

A map over the values keeps the names, and with them the order. -/

section MapValues

variable (f : α → β)

@[simp] theorem keys_mapValues (l : Keyed α) : (mapValues f l).keys = l.keys := by
  simp [mapValues, keys, Function.comp_def]

@[simp] theorem mapValues_cons (key : String) (value : α) (l : Keyed α) :
    mapValues f ((key, value) :: l) = (key, f value) :: mapValues f l := rfl

theorem mapValues_mapValues (g : β → γ) (l : Keyed α) :
    mapValues g (mapValues f l) = mapValues (fun value => g (f value)) l := by
  simp [mapValues, Function.comp_def]

theorem mapValues_congr {f g : α → β} {l : Keyed α} (h : ∀ entry ∈ l, f entry.2 = g entry.2) :
    mapValues f l = mapValues g l :=
  List.map_congr_left fun (key, value) he => congrArg (key, ·) (h (key, value) he)

theorem ordered_mapValues {l : Keyed α} (h : Ordered l) : Ordered (mapValues f l) :=
  ordered_of_keys_eq (keys_mapValues f l) h

@[simp] theorem find?_mapValues (key : String) (l : Keyed α) :
    find? key (mapValues f l) = (find? key l).map f := by
  induction l with
  | nil => rfl
  | cons head rest ih =>
    rw [mapValues_cons, find?, find?, ih]
    split <;> rfl

theorem mapValues_insert (key : String) (value : α) (l : Keyed α) :
    mapValues f (insert key value l) = insert key (f value) (mapValues f l) := by
  induction l with
  | nil => rfl
  | cons head rest ih =>
    rw [mapValues_cons, insert, insert]
    split
    · rfl
    · split
      · rfl
      · rw [mapValues_cons, ih]

theorem mapValues_erase (key : String) (l : Keyed α) :
    mapValues f (erase key l) = erase key (mapValues f l) := by
  induction l with
  | nil => rfl
  | cons head rest ih =>
    rw [mapValues_cons, erase, erase]
    split
    · rfl
    · rw [mapValues_cons, ih]

end MapValues

end Keyed

end Meshwork
