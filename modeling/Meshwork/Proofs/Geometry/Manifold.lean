import Mathlib.Algebra.BigOperators.Group.List.Basic
import Mathlib.Data.List.Count
import Mathlib.Data.List.SplitBy
import Mathlib.Data.List.Chain
import Mathlib.Data.List.TakeWhile
import Meshwork.Geometry.Manifold
import Meshwork.Mesh.Basic

/-!
# Meshes that pass the checks of a geometry

A mesh is a surface if every corner of a face is a vertex, and no two vertices
are corners of more than two faces (`Mesh.IsSurface`). These are the meshes whose
geometry passes the manifold check (`Geometry.checkManifold_eq_ok_iff`,
`Mesh.IsSurface.exists_geometry`). The check looks at the runs of equal edges in a
sorted list; all that are equal stand in one run, so its length is the number of
faces with both ends as corners.
-/

namespace Meshwork

/-- **A mesh that is a surface.** This is all that an import asks of what a file holds. -/
structure Mesh.IsSurface (mesh : Mesh) : Prop where
  /-- Every corner of a face is a vertex. -/
  inRange : ∀ face ∈ mesh.faces, face.inRange mesh.vertices.length
  /-- No two vertices are corners of more than two faces. -/
  shared : ∀ i j : UInt64, i ≠ j →
    mesh.faces.countP (fun face => i ∈ face.corners ∧ j ∈ face.corners) ≤ 2

/-! ## Runs of equal entries

A run is a longest stretch of neighbours that are equal. Sorting is what makes the runs of
a list say how often it holds each entry. -/

/-- **In a sorted list equal entries stand together**: all of them are one run. The check sorts
the edges and takes runs, and this is why a run is as long as its edge occurs. -/
theorem replicate_count_mem_splitBy {α : Type} [BEq α] [LawfulBEq α] {le : α → α → Prop}
    (antisymm : ∀ x y, le x y → le y x → x = y) {l : List α} (hsorted : l.Pairwise le) {a : α}
    (ha : a ∈ l) : List.replicate (l.count a) a ∈ l.splitBy (· == ·) := by
  obtain ⟨before, rest, rfl, hbefore⟩ := List.eq_append_cons_of_mem ha
  let run := a :: rest.takeWhile (· == a)
  let after := rest.dropWhile (· == a)
  have hrest : a :: rest = run ++ after :=
    congrArg (a :: ·) List.takeWhile_append_dropWhile.symm
  have hrun : ∀ x ∈ run, x = a := by
    intro x hx
    rcases List.mem_cons.1 hx with rfl | hx
    · rfl
    · simpa using List.mem_takeWhile_imp hx
  have hreplicate : run = List.replicate run.length a := List.eq_replicate_iff.2 ⟨rfl, hrun⟩
  have hhead : ∀ y ∈ after.head?, y ≠ a := by
    intro y hy
    have hnot := List.head?_dropWhile_not (· == a) rest
    rw [show (rest.dropWhile (· == a)).head? = some y from hy] at hnot
    simpa using hnot
  -- What follows the run comes after its first entry, which is not `a`.
  have hafter : a ∉ after := by
    intro hmem
    rw [hrest] at hsorted
    obtain ⟨-, hsorted, -⟩ := List.pairwise_append.1 hsorted
    obtain ⟨-, hsorted, hcross⟩ := List.pairwise_append.1 hsorted
    obtain ⟨y, others, hothers⟩ := List.exists_cons_of_ne_nil (List.ne_nil_of_mem hmem)
    rw [hothers] at hmem hsorted hcross hhead
    have hne : y ≠ a := hhead y rfl
    have hle : le y a := (List.pairwise_cons.1 hsorted).1 a
      ((List.mem_cons.1 hmem).resolve_left hne.symm)
    exact hne (antisymm y a hle (hcross a List.mem_cons_self y List.mem_cons_self))
  have hcount : (before ++ a :: rest).count a = run.length := by
    rw [hrest, List.count_append, List.count_append, List.count_eq_zero_of_not_mem hbefore,
      List.count_eq_zero_of_not_mem hafter, hreplicate, List.count_replicate_self]
    simp
  have hsplit : run.splitBy (· == ·) = [run] := by
    refine List.splitBy_of_isChain (List.cons_ne_nil _ _) ?_
    rw [hreplicate]
    exact List.isChain_replicate_of_rel _ (beq_self_eq_true a)
  rw [hcount, ← hreplicate, hrest, List.splitBy_append, List.splitBy_append, hsplit]
  · simp
  · intro x hx y hy
    rw [hrun x (List.mem_of_mem_getLast? hx)]
    exact beq_false_of_ne (hhead y hy).symm
  · intro x hx y hy
    obtain rfl : a = y := Option.some.inj hy
    exact beq_false_of_ne fun he => hbefore (he ▸ List.mem_of_mem_getLast? hx)

/-- A run holds one entry only, no more often than the list does. -/
theorem length_le_count_of_mem_splitBy {α : Type} [BEq α] [LawfulBEq α] {l rest : List α} {a : α}
    (h : a :: rest ∈ l.splitBy (· == ·)) : (a :: rest).length ≤ l.count a := by
  have hequal : a :: rest = List.replicate (a :: rest).length a := by
    have hchain := List.isChain_of_mem_splitBy h
    simp only [beq_iff_eq] at hchain
    exact List.isChain_eq_iff_eq_replicate.1 hchain a rfl
  have hsublist : (a :: rest).Sublist l := by
    have hpart := List.sublist_flatten_of_mem h
    rwa [List.flatten_splitBy] at hpart
  calc (a :: rest).length = (a :: rest).count a := by
        conv_rhs => rw [hequal, List.count_replicate_self]
    _ ≤ l.count a := hsublist.count_le _

/-! ## Edges

An edge is a pair of different vertices, the smaller one first. A face has an edge between
each two of its corners that differ, and none twice. -/

namespace Edge

/-- The edge between two vertices has them as its ends. -/
theorem between?_eq_some_iff {i j : UInt64} {edge : Edge} : between? i j = some edge ↔
    edge.low < edge.high ∧ (edge.low = i ∧ edge.high = j ∨ edge.low = j ∧ edge.high = i) := by
  obtain ⟨low, high⟩ := edge
  unfold between?
  -- One case for each order of the two vertices; a vertex has no edge to itself.
  split <;> rename_i hij
  · simp only [Option.some.injEq, mk.injEq]
    constructor
    · rintro ⟨rfl, rfl⟩
      exact ⟨hij, Or.inl ⟨rfl, rfl⟩⟩
    · rintro ⟨hlt, ⟨rfl, rfl⟩ | ⟨rfl, rfl⟩⟩
      · exact ⟨rfl, rfl⟩
      · exact absurd hlt (UInt64.lt_asymm hij)
  · split <;> rename_i hji
    · simp only [Option.some.injEq, mk.injEq]
      constructor
      · rintro ⟨rfl, rfl⟩
        exact ⟨hji, Or.inr ⟨rfl, rfl⟩⟩
      · rintro ⟨hlt, ⟨rfl, rfl⟩ | ⟨rfl, rfl⟩⟩
        · exact absurd hlt hij
        · exact ⟨rfl, rfl⟩
    · refine iff_of_false nofun ?_
      rintro ⟨hlt, ⟨rfl, rfl⟩ | ⟨rfl, rfl⟩⟩
      · exact hij hlt
      · exact hji hlt

variable {d e f : Edge}

theorem le_iff : d.le e ↔ d.low < e.low ∨ d.low = e.low ∧ d.high ≤ e.high := by
  simp [le]

theorem le_trans (h : d.le e) (h' : e.le f) : d.le f := by
  rw [le_iff] at *
  simp only [UInt64.lt_iff_toNat_lt, UInt64.le_iff_toNat_le, ← UInt64.toNat_inj] at *
  omega

theorem le_total (d e : Edge) : (d.le e || e.le d) = true := by
  rw [Bool.or_eq_true, le_iff, le_iff]
  simp only [UInt64.lt_iff_toNat_lt, UInt64.le_iff_toNat_le, ← UInt64.toNat_inj]
  omega

theorem le_antisymm (h : d.le e) (h' : e.le d) : d = e := by
  obtain ⟨low, high⟩ := d
  obtain ⟨low', high'⟩ := e
  rw [le_iff] at h h'
  rw [mk.injEq]
  simp only [UInt64.lt_iff_toNat_lt, UInt64.le_iff_toNat_le, ← UInt64.toNat_inj] at *
  omega

end Edge

theorem nodup_eraseDups {α : Type} [BEq α] [LawfulBEq α] : (l : List α) → l.eraseDups.Nodup
  | [] => List.nodup_nil
  | a :: rest => by
    rw [List.eraseDups_cons, List.nodup_cons]
    refine ⟨fun hmem => ?_, nodup_eraseDups _⟩
    simpa using (List.mem_filter.1 (List.mem_eraseDups.1 hmem)).2
termination_by l => l.length
decreasing_by exact Nat.lt_succ_of_le (List.length_filter_le _ _)

namespace Face

theorem nodup_edges (face : Face) : face.edges.Nodup := nodup_eraseDups _

/-- **The edges of a face** are those between two of its corners. They are stored with the lower
end first, so that both directions of an edge are one. -/
theorem mem_edges_iff {face : Face} {edge : Edge} : edge ∈ face.edges ↔
    edge.low < edge.high ∧ edge.low ∈ face.corners ∧ edge.high ∈ face.corners := by
  have hcases : edge ∈ face.edges ↔ Edge.between? face.a face.b = some edge
      ∨ Edge.between? face.b face.c = some edge ∨ Edge.between? face.c face.a = some edge := by
    simp [edges, List.mem_eraseDups, eq_comm]
  simp only [hcases, Edge.between?_eq_some_iff, corners, List.mem_cons, List.not_mem_nil, or_false]
  rw [← and_or_left, ← and_or_left]
  refine and_congr_right fun hlt => ?_
  -- The ends differ, so they are not the same corner.
  have hne := UInt64.ne_of_lt hlt
  constructor
  · rintro ((⟨hl, hh⟩ | ⟨hl, hh⟩) | (⟨hl, hh⟩ | ⟨hl, hh⟩) | (⟨hl, hh⟩ | ⟨hl, hh⟩)) <;> simp [hl, hh]
  · rintro ⟨hl | hl | hl, hh | hh | hh⟩ <;>
      first | exact absurd (hl.trans hh.symm) hne | simp [hl, hh]

end Face

namespace Geometry

/-! ## The check

The edges of all faces are put in one list, with one entry for each face that has the
edge. Counting faces is then counting entries. -/

/-- **The edges of all faces** hold an edge as often as faces have both its ends. A face has an
edge once at most, also if one of its corners occurs twice. -/
theorem count_edges (g : Geometry) {edge : Edge} (h : edge.low < edge.high) :
    g.edges.count edge
      = g.faces.countP fun face => edge.low ∈ face.corners ∧ edge.high ∈ face.corners := by
  rw [edges, List.count_flatMap]
  induction g.faces with
  | nil => rfl
  | cons face rest ih =>
    rw [List.map_cons, List.sum_cons, List.countP_cons, Nat.add_comm, ih]
    congr 1
    show face.edges.count edge = _
    rw [face.nodup_edges.count]
    simp [Face.mem_edges_iff, h]

/-- No edge is reported exactly if none belongs to more than two faces. -/
theorem overSharedEdge?_eq_none_iff {g : Geometry} :
    g.overSharedEdge? = none ↔ ∀ edge, g.edges.count edge ≤ 2 := by
  -- Sorting the edges brings equal ones together, so a run of the sorted list is as long as its
  -- edge is frequent.
  have hcount : ∀ edge, (g.edges.mergeSort Edge.le).count edge = g.edges.count edge :=
    fun edge => (List.mergeSort_perm _ _).count_eq _
  rw [overSharedEdge?, List.findSome?_eq_none_iff]
  constructor
  · intro hnone edge
    by_contra hmany
    have hmem : edge ∈ g.edges.mergeSort Edge.le := by
      rw [← List.count_pos_iff, hcount]
      omega
    have hsorted : (g.edges.mergeSort Edge.le).Pairwise fun d e => d.le e :=
      @List.pairwise_mergeSort _ Edge.le (fun _ _ _ => Edge.le_trans) Edge.le_total g.edges
    have hrun := hnone _ (replicate_count_mem_splitBy (fun _ _ => Edge.le_antisymm) hsorted hmem)
    rw [hcount] at hrun
    obtain ⟨more, hmore⟩ := Nat.exists_eq_add_of_lt (Nat.lt_of_not_le hmany)
    rw [hmore] at hrun
    simp only [List.replicate_succ, List.length_cons, List.length_replicate] at hrun
    rw [if_pos (by omega)] at hrun
    cases hrun
  · intro hfew run hrun
    split
    · rfl
    · rename_i edge rest
      have hlength := length_le_count_of_mem_splitBy hrun
      rw [hcount] at hlength
      exact if_neg (Nat.not_lt.2 (hlength.trans (hfew edge)))

/-- **The manifold check accepts** exactly what has no two vertices in more than two faces. Faces
are counted here, and not edges, so the condition does not speak of how the check works. -/
theorem checkManifold_eq_ok_iff {g : Geometry} : g.checkManifold = .ok () ↔
    ∀ i j : UInt64, i ≠ j →
      g.faces.countP (fun face => i ∈ face.corners ∧ j ∈ face.corners) ≤ 2 := by
  have hok : g.checkManifold = .ok () ↔ g.overSharedEdge? = none := by
    rw [checkManifold]
    cases g.overSharedEdge? <;> simp
  rw [hok, overSharedEdge?_eq_none_iff]
  constructor
  · intro hfew i j hne
    rcases UInt64.lt_or_lt_of_ne hne with hlt | hlt
    · have hedge := hfew ⟨i, j⟩
      rwa [g.count_edges hlt] at hedge
    · have hedge := hfew ⟨j, i⟩
      rw [g.count_edges hlt] at hedge
      simpa only [and_comm] using hedge
  -- An edge whose ends are out of order belongs to no face: the count is zero there.
  · intro hfew edge
    by_cases hlt : edge.low < edge.high
    · exact g.count_edges hlt ▸ hfew _ _ (UInt64.ne_of_lt hlt)
    · rw [List.count_eq_zero_of_not_mem fun hmem => ?_]
      · exact Nat.zero_le _
      obtain ⟨face, -, hface⟩ := List.mem_flatMap.1 hmem
      exact hlt (Face.mem_edges_iff.1 hface).1

/-! ## Geometries of meshes

A geometry keeps with it that its corners are vertices, which a mesh need not satisfy.
This is checked when a geometry is made. -/

/-- The mesh of a geometry is a geometry again. -/
theorem ofMesh_mesh (g : Geometry) :
    ofMesh g.vertices g.faces = .ok ⟨g.vertices, g.faces, g.inRange, none, none⟩ := by
  have hnone : outOfRange? g.vertices.size 0 g.faces = none :=
    outOfRange?_eq_none_iff.2 g.inRange
  unfold ofMesh
  split <;> rename_i h
  · rw [hnone] at h
    cases h
  · rfl

theorem of_ofMesh_eq_ok {vertices : Array Point} {faces : List Face} {g : Geometry}
    (h : ofMesh vertices faces = .ok g) : g.vertices = vertices ∧ g.faces = faces := by
  unfold ofMesh at h
  split at h
  · cases h
  · obtain rfl := Except.ok.inj h
    exact ⟨rfl, rfl⟩

end Geometry

/-- Two faces are a surface if their corners are vertices. -/
theorem Mesh.isSurface_of_length_le {mesh : Mesh} (hfaces : mesh.faces.length ≤ 2)
    (hrange : ∀ face ∈ mesh.faces, face.inRange mesh.vertices.length) : mesh.IsSurface :=
  ⟨hrange, fun _ _ _ => List.countP_le_length.trans hfaces⟩

/-- **A surface has a geometry** that passes the manifold check. Either field of the surface rules
out one of the two errors. -/
theorem Mesh.IsSurface.exists_geometry {mesh : Mesh} (h : mesh.IsSurface) :
    ∃ geometry : Geometry, Geometry.ofMesh mesh.vertices.toArray mesh.faces = .ok geometry
      ∧ geometry.checkManifold = .ok () := by
  let g : Geometry :=
    ⟨mesh.vertices.toArray, mesh.faces, by simpa using h.inRange, none, none⟩
  exact ⟨_, g.ofMesh_mesh, Geometry.checkManifold_eq_ok_iff.2 h.shared⟩

end Meshwork
