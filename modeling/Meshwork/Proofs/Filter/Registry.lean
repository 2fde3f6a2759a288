import Mathlib.Data.List.Nodup
import Mathlib.Data.List.Perm.Subperm
import Meshwork.Filter.Builtin
import Meshwork.Proofs.Text.Order
import Meshwork.Proofs.Uuid

/-!
# Filters under their names and identifiers

No two filters of a registry share a name or an identifier (`Registry.Distinct`): a
registration takes out those that would. There are two of them at most, the one
that has the name and the one that has the identifier.

So a text stands for one filter at most, the one of this name, or else the one whose
identifier it spells (`Registry.resolve?_eq_some_iff`). Only a name that spells an
identifier itself stands before another filter.
-/

namespace Meshwork.Registry

variable {r : Registry} {f g : Filter}

/-! ## Distinct filters

A registration removes first and adds then, so that two filters with one name or
identifier never meet. -/

/-- **No two filters** share a name or an identifier. Clashing is symmetric, so it is enough to
compare each filter with those behind it. -/
def Distinct (r : Registry) : Prop := r.filters.Pairwise fun f g => clash f g = false

theorem clash_eq_false_iff :
    clash f g = false ↔ f.name ≠ g.name ∧ f.info.uuid ≠ g.info.uuid := by
  rw [clash, Bool.or_eq_false_iff, decide_eq_false_iff_not, decide_eq_false_iff_not]
  rfl

theorem distinct_register (h : r.Distinct) (f : Filter) : (r.register f).Distinct := by
  refine List.pairwise_append.2 ⟨h.filter _, List.pairwise_singleton _ _, fun g hg f' hf' => ?_⟩
  rw [List.mem_singleton.1 hf']
  simpa using (List.mem_filter.1 hg).2

/-- Filters stay distinct over any registrations. -/
theorem distinct_foldl (h : r.Distinct) (filters : List Filter) :
    (filters.foldl register r).Distinct := by
  induction filters generalizing r with
  | nil => exact h
  | cons f rest ih => exact ih (distinct_register h f)

theorem distinct_empty : empty.Distinct := List.Pairwise.nil

/-- The filters of the library are distinct. -/
theorem distinct_builtin : builtin.Distinct := distinct_foldl distinct_empty _

namespace Distinct

theorem nodup_names (h : r.Distinct) : (r.filters.map Filter.name).Nodup :=
  List.pairwise_map.2 (h.imp fun hclash => (clash_eq_false_iff.1 hclash).1)

theorem nodup_uuids (h : r.Distinct) : (r.filters.map fun f => f.info.uuid).Nodup :=
  List.pairwise_map.2 (h.imp fun hclash => (clash_eq_false_iff.1 hclash).2)

end Distinct

/-! ## Looking filters up

A text is tried as a name before it is tried as an identifier. Identifiers have several
spellings, and all of them are understood. -/

/-- A member that is looked up by a key that no other has is the one with the key. -/
theorem find?_eq_some_iff_of_nodup {α κ : Type} [DecidableEq κ] {key : α → κ} {l : List α}
    (h : (l.map key).Nodup) {k : κ} {a : α} :
    l.find? (fun b => key b = k) = some a ↔ a ∈ l ∧ key a = k := by
  have hkey : ∀ b, l.find? (fun b => key b = k) = some b → key b = k := fun b hfound => by
    simpa using List.find?_some hfound
  refine ⟨fun hfound => ⟨List.mem_of_find?_eq_some hfound, hkey a hfound⟩, ?_⟩
  rintro ⟨hmem, rfl⟩
  cases hfound : l.find? (fun b => key b = key a) with
  | none => simpa using List.find?_eq_none.1 hfound a hmem
  | some b =>
    rw [List.inj_on_of_nodup_map h (List.mem_of_find?_eq_some hfound) hmem (hkey b hfound)]

theorem byName?_eq_some_iff (h : r.Distinct) {name : String} :
    r.byName? name = some f ↔ f ∈ r.filters ∧ f.name = name :=
  find?_eq_some_iff_of_nodup h.nodup_names

theorem byName?_eq_none_iff {name : String} :
    r.byName? name = none ↔ ∀ f ∈ r.filters, f.name ≠ name := by
  simp only [byName?, List.find?_eq_none, decide_eq_true_eq]
  rfl

theorem byUuid?_eq_some_iff (h : r.Distinct) {uuid : Uuid} :
    r.byUuid? uuid = some f ↔ f ∈ r.filters ∧ f.info.uuid = uuid :=
  find?_eq_some_iff_of_nodup h.nodup_uuids

/-- **A text stands for a filter** if it is its name, or if it is no name and spells its
identifier. There is at most one such filter, which makes the order in which they are kept
irrelevant. -/
theorem resolve?_eq_some_iff (h : r.Distinct) {id : String} :
    r.resolve? id = some f ↔ f ∈ r.filters
      ∧ (f.name = id ∨ (∀ g ∈ r.filters, g.name ≠ id) ∧ Uuid.Spells id f.info.uuid) := by
  rw [resolve?, Option.or_eq_some_iff, Option.bind_eq_some_iff, byName?_eq_some_iff h,
    byName?_eq_none_iff, and_or_left]
  refine or_congr_right ?_
  simp only [byUuid?_eq_some_iff h, Uuid.ofText?_eq_some_iff]
  constructor
  · rintro ⟨hnone, uuid, hspells, hmem, rfl⟩
    exact ⟨hmem, hnone, hspells⟩
  · rintro ⟨hmem, hnone, hspells⟩
    exact ⟨hnone, _, hspells, hmem, rfl⟩

/-- **A filter is found under its name.** No identifier can come in between, as names go first. -/
theorem resolve?_name (h : r.Distinct) (hf : f ∈ r.filters) :
    r.resolve? f.name = some f :=
  (resolve?_eq_some_iff h).2 ⟨hf, .inl rfl⟩

/-- **A text stands for nothing** if it is no name and spells no identifier. It need not be well
formed in any way. -/
theorem resolve?_eq_none_iff (h : r.Distinct) {id : String} :
    r.resolve? id = none ↔ ∀ f ∈ r.filters, f.name ≠ id ∧ ¬ Uuid.Spells id f.info.uuid := by
  simp only [Option.eq_none_iff_forall_ne_some, ne_eq, resolve?_eq_some_iff h]
  constructor
  · intro hnone
    have hnames : ∀ f ∈ r.filters, f.name ≠ id := fun f hf hname => hnone f ⟨hf, .inl hname⟩
    exact fun f hf => ⟨hnames f hf, fun hspells => hnone f ⟨hf, .inr ⟨hnames, hspells⟩⟩⟩
  · rintro hall f ⟨hf, hname | ⟨-, hspells⟩⟩
    · exact (hall f hf).1 hname
    · exact (hall f hf).2 hspells

/-! ## Registrations

A new filter may push out two others, if it has the name of one and the identifier of the
other. -/

/-- **What a registration does.** The filters that share neither name nor identifier with the new
one are kept in order, the others, two at most, are gone, and the new one comes last. -/
structure Registers (r : Registry) (f : Filter) (kept : List Filter) : Prop where
  /-- The new filter comes behind those that are kept. -/
  filters_eq : (r.register f).filters = kept ++ [f]
  /-- These are in order. -/
  sublist : kept.Sublist r.filters
  /-- They are those that share nothing with the new one. -/
  mem_iff : ∀ g, g ∈ kept ↔ g ∈ r.filters ∧ g.name ≠ f.name ∧ g.info.uuid ≠ f.info.uuid
  /-- Two are gone at most. -/
  length_le : r.filters.length ≤ kept.length + 2

/-- **Two filters at most** share something with another one. One may share the name and another
the identifier, and both are replaced by one registration. -/
theorem length_filter_clash_le (h : r.Distinct) (f : Filter) :
    (r.filters.filter (clash · f)).length ≤ 2 := by
  have hsub : r.filters.filter (clash · f)
      ⊆ (r.byName? f.name).toList ++ (r.byUuid? f.info.uuid).toList := by
    intro g hg
    obtain ⟨hmem, hclash⟩ := List.mem_filter.1 hg
    rw [List.mem_append, Option.mem_toList, Option.mem_toList]
    exact (Bool.or_eq_true_iff.1 hclash).imp
      (fun hname => (byName?_eq_some_iff h).2 ⟨hmem, of_decide_eq_true hname⟩)
      (fun huuid => (byUuid?_eq_some_iff h).2 ⟨hmem, of_decide_eq_true huuid⟩)
  have hnodup := (h.nodup_names.of_map _).filter (clash · f)
  have hle := (List.subperm_of_subset hnodup hsub).length_le
  rw [List.length_append] at hle
  have hone : ∀ o : Option Filter, o.toList.length ≤ 1 := fun o => by cases o <;> simp
  exact Nat.le_trans hle (Nat.add_le_add (hone _) (hone _))

theorem registers_register (h : r.Distinct) (f : Filter) :
    Registers r f (r.filters.filter fun g => !clash g f) where
  filters_eq := rfl
  sublist := List.filter_sublist
  mem_iff g := by
    rw [List.mem_filter, Bool.not_eq_true', clash_eq_false_iff]
  length_le := by
    rw [List.length_eq_length_filter_add (clash · f), Nat.add_comm]
    exact Nat.add_le_add_left (length_filter_clash_le h f) _

/-! ## What filters are called

The list for display is sorted by names, which are different, so its order is determined. -/

theorem perm_infos (r : Registry) : r.infos.Perm (r.filters.map Filter.info) :=
  List.mergeSort_perm _ _

/-- **What filters are called is listed in order** of the bytes of their names. They are strictly
increasing, as no two filters have the same name. -/
theorem pairwise_infos (h : r.Distinct) :
    r.infos.Pairwise fun a b => bytesOf a.name < bytesOf b.name := by
  have hle : r.infos.Pairwise fun a b => decide (a.name ≤ b.name) = true :=
    @List.pairwise_mergeSort FilterInfo (fun a b => decide (a.name ≤ b.name))
      (fun a b c hab hbc => decide_eq_true
        (String.le_trans (of_decide_eq_true hab) (of_decide_eq_true hbc)))
      (fun a b => by simpa using String.le_total a.name b.name) _
  have hne : r.infos.Pairwise fun a b => a.name ≠ b.name := by
    have hnames : ((r.filters.map Filter.info).map FilterInfo.name).Nodup := by
      rw [List.map_map]
      exact h.nodup_names
    exact List.pairwise_map.1 (((perm_infos r).map FilterInfo.name).nodup_iff.2 hnames)
  refine (hle.and hne).imp fun hab => ?_
  rw [Utf8.bytesOf_lt_iff]
  exact Std.lt_of_le_of_ne (of_decide_eq_true hab.1) hab.2

/-! ## The registry as a whole

All of these are consequences of distinctness, which every registration keeps. -/

/-- **What can be relied on in a registry.** Each field is a statement about the filters that are
registered, not about how they came to be. -/
structure Serves (r : Registry) : Prop where
  /-- Every filter has a name of its own. -/
  nodup_names : (r.filters.map Filter.name).Nodup
  /-- Every filter has an identifier of its own. -/
  nodup_uuids : (r.filters.map fun f => f.info.uuid).Nodup
  /-- A registration replaces the filters that share something with the new one. -/
  registers : ∀ f, ∃ kept, Registers r f kept
  /-- A filter is found under its name. -/
  named : ∀ f ∈ r.filters, r.resolve? f.name = some f
  /-- It is found under every spelling of its identifier, if no name spells one. -/
  spelled : (∀ g ∈ r.filters, ∀ uuid, ¬ Uuid.Spells g.name uuid) →
    ∀ f ∈ r.filters, ∀ id, Uuid.Spells id f.info.uuid → r.resolve? id = some f
  /-- A name goes before an identifier. -/
  resolves_iff : ∀ id f, r.resolve? id = some f ↔ f ∈ r.filters
    ∧ (f.name = id ∨ (∀ g ∈ r.filters, g.name ≠ id) ∧ Uuid.Spells id f.info.uuid)
  /-- Nothing is found under any other text. -/
  unknown_iff : ∀ id, r.resolve? id = none
    ↔ ∀ f ∈ r.filters, f.name ≠ id ∧ ¬ Uuid.Spells id f.info.uuid
  /-- What the filters are called is listed. -/
  perm_infos : r.infos.Perm (r.filters.map Filter.info)
  /-- The list is in strict order of the names. -/
  pairwise_infos : r.infos.Pairwise fun a b => bytesOf a.name < bytesOf b.name

theorem serves_of_distinct (h : r.Distinct) : r.Serves where
  nodup_names := h.nodup_names
  nodup_uuids := h.nodup_uuids
  registers f := ⟨_, registers_register h f⟩
  named _ := resolve?_name h
  spelled hnames f hf id hspells := by
    refine (resolve?_eq_some_iff h).2 ⟨hf, .inr ⟨fun g hg hname => ?_, hspells⟩⟩
    exact hnames g hg f.info.uuid (hname ▸ hspells)
  resolves_iff _ _ := resolve?_eq_some_iff h
  unknown_iff _ := resolve?_eq_none_iff h
  perm_infos := r.perm_infos
  pairwise_infos := pairwise_infos h

/-- **Any registrations leave a registry that can be relied on**, whether it was empty before or
had the filters of the library. The invariant that carries the induction is that no two filters
share a name or an identifier. -/
theorem serves_after (filters : List Filter) :
    (filters.foldl register empty).Serves ∧ (filters.foldl register builtin).Serves :=
  ⟨serves_of_distinct (distinct_foldl distinct_empty filters),
    serves_of_distinct (distinct_foldl distinct_builtin filters)⟩

end Meshwork.Registry
