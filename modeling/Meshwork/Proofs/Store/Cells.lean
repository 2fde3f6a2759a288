import Mathlib.Data.List.Nodup
import Meshwork.Store.Change

/-!
# The cells of an arena

What an arena holds is written down as a list of cells, an identifier with
its node each. The order of the list does not matter (`Arena.Holds.perm`), so
a list can be taken apart where a change needs it: the cells that the change
is about in front, the others behind, which it leaves as they are.
-/

namespace Meshwork

/-- An identifier with the node under it. -/
abbrev Cell := ObjectId × Node

namespace Arena

/-! ## Looking up after a change

A table of nodes changes at one identifier at a time. All others have after a change what
they had before. -/

section Lookup

variable (nodes : Arena) (id other : ObjectId)

theorem getElem?_insert (node : Node) :
    (nodes.insert id node)[other]? = if id = other then some node else nodes[other]? := by
  simp only [Std.TreeMap.getElem?_insert, Nat.compare_eq_eq]

theorem getElem?_erase :
    (nodes.erase id)[other]? = if id = other then none else nodes[other]? := by
  simp only [Std.TreeMap.getElem?_erase, Nat.compare_eq_eq]

theorem getElem?_modify (f : Node → Node) :
    (nodes.modify id f)[other]? = if id = other then nodes[id]?.map f else nodes[other]? := by
  simp only [Std.TreeMap.getElem?_modify, Nat.compare_eq_eq]

end Lookup

/-! ## The cells

The list names every node once, so inserting, erasing and modifying are changes of its
first cell, once that is brought to the front. -/

/-- **The arena holds these cells** and no others. The order of the list is of no account, and any
permutation of it will do. -/
structure Holds (nodes : Arena) (cells : List Cell) : Prop where
  /-- No identifier has two cells. -/
  nodup : (cells.map Prod.fst).Nodup
  /-- What is looked up is in the list. -/
  getElem?_eq_some : ∀ id node, nodes[id]? = some node ↔ (id, node) ∈ cells

namespace Holds

variable {nodes : Arena} {cells rest : List Cell} {id : ObjectId} {node : Node}

theorem empty : Holds ∅ [] := ⟨List.nodup_nil, by simp⟩

theorem perm {other : List Cell} (h : Holds nodes cells) (hperm : cells.Perm other) :
    Holds nodes other :=
  ⟨(hperm.map Prod.fst).nodup_iff.1 h.nodup, fun id node => by
    rw [h.getElem?_eq_some, hperm.mem_iff]⟩

theorem getElem?_of_mem (h : Holds nodes cells) (hmem : (id, node) ∈ cells) :
    nodes[id]? = some node := (h.getElem?_eq_some id node).2 hmem

theorem getElem?_head (h : Holds nodes ((id, node) :: rest)) : nodes[id]? = some node :=
  h.getElem?_of_mem List.mem_cons_self

theorem not_mem_of_cons (h : Holds nodes ((id, node) :: rest)) : id ∉ rest.map Prod.fst :=
  (List.nodup_cons.1 h.nodup).1

theorem insert (h : Holds nodes cells) (hid : id ∉ cells.map Prod.fst) :
    Holds (nodes.insert id node) ((id, node) :: cells) := by
  refine ⟨List.nodup_cons.2 ⟨hid, h.nodup⟩, fun other found => ?_⟩
  rw [Arena.getElem?_insert, List.mem_cons, Prod.mk.injEq]
  split <;> rename_i hother
  · subst hother
    rw [Option.some.injEq]
    constructor
    · exact fun he => Or.inl ⟨rfl, he.symm⟩
    · rintro (⟨-, rfl⟩ | hmem)
      · rfl
      · exact absurd (List.mem_map_of_mem (f := Prod.fst) hmem) hid
  · rw [h.getElem?_eq_some]
    exact ⟨Or.inr, fun hmem => hmem.resolve_left fun he => hother he.1.symm⟩

theorem erase (h : Holds nodes ((id, node) :: rest)) : Holds (nodes.erase id) rest := by
  refine ⟨(List.nodup_cons.1 h.nodup).2, fun other found => ?_⟩
  rw [Arena.getElem?_erase]
  split <;> rename_i hother
  · subst hother
    refine ⟨fun he => by simp at he, fun hmem => ?_⟩
    exact absurd (List.mem_map_of_mem (f := Prod.fst) hmem) h.not_mem_of_cons
  · rw [h.getElem?_eq_some, List.mem_cons, Prod.mk.injEq]
    exact ⟨fun hmem => hmem.resolve_left fun he => hother he.1.symm, Or.inr⟩

theorem modify (f : Node → Node) (h : Holds nodes ((id, node) :: rest)) :
    Holds (nodes.modify id f) ((id, f node) :: rest) := by
  refine ⟨h.nodup, fun other found => ?_⟩
  rw [Arena.getElem?_modify, List.mem_cons, Prod.mk.injEq]
  split <;> rename_i hother
  · subst hother
    rw [h.getElem?_head, Option.map_some, Option.some.injEq]
    constructor
    · exact fun he => Or.inl ⟨rfl, he.symm⟩
    · rintro (⟨-, rfl⟩ | hmem)
      · rfl
      · exact absurd (List.mem_map_of_mem (f := Prod.fst) hmem) h.not_mem_of_cons
  · rw [h.getElem?_eq_some, List.mem_cons, Prod.mk.injEq]
    exact ⟨fun hmem => hmem.imp_left fun he => absurd he.1.symm hother,
      fun hmem => hmem.imp_left fun he => absurd he.1.symm hother⟩

/-- The arena has as many nodes as the list has cells. -/
theorem size_eq (h : Holds nodes cells) : nodes.size = cells.length := by
  have hkeys : (nodes.toList.map Prod.fst).Nodup := by
    rw [Std.TreeMap.map_fst_toList_eq_keys]
    exact Std.TreeMap.nodup_keys
  have hperm : nodes.toList.Perm cells := by
    refine (List.perm_ext_iff_of_nodup (hkeys.of_map _) (h.nodup.of_map _)).2 fun (id, node) => ?_
    rw [Std.TreeMap.mem_toList_iff_getElem?_eq_some, h.getElem?_eq_some]
  rw [← Std.TreeMap.length_toList, hperm.length_eq]

end Holds

end Arena

/-- **The store holds these cells**, all under identifiers that it has given out. So a new object
gets an identifier that no cell has. -/
structure Store.Holds (s : Store) (cells : List Cell) : Prop where
  /-- The arena holds them. -/
  nodes : s.nodes.Holds cells
  /-- The next identifier comes after theirs. -/
  fresh : ∀ cell ∈ cells, cell.1 < s.nextId

namespace Store.Holds

variable {s : Store} {cells : List Cell}

theorem perm {other : List Cell} (h : s.Holds cells) (hperm : cells.Perm other) :
    s.Holds other :=
  ⟨h.nodes.perm hperm, fun cell hcell => h.fresh cell (hperm.mem_iff.2 hcell)⟩

/-- The next identifier is not in use. -/
theorem nextId_not_mem (h : s.Holds cells) : s.nextId ∉ cells.map Prod.fst := by
  intro hmem
  obtain ⟨cell, hcell, hid⟩ := List.mem_map.1 hmem
  exact Nat.lt_irrefl _ (hid ▸ h.fresh cell hcell)

theorem node?_of_mem (h : s.Holds cells) {id : ObjectId} {node : Node}
    (hmem : (id, node) ∈ cells) : s.node? id = some node := h.nodes.getElem?_of_mem hmem

end Store.Holds

end Meshwork
