import Std.Data.HashMap
import Meshwork.Proofs.Geometry.Manifold

/-!
# Which edge the manifold check reports

Two vertices are shared by the faces that have both as corners (`Geometry.sharing`). The
check accepts a geometry if no two vertices are shared by more than two faces, and otherwise
reports the least pair that is, with the number of its faces (`Geometry.Verdict`). A degenerate
face takes part like any other: it counts once for the two vertices that it has, whichever of
them it repeats, and for no pair if it has one vertex only.

The check finds the pair in a sorted list of edges. Counting the edges in a table, and taking
the least of its entries in whatever order they come, finds the same one (`leastOver_eq`). As
only the numbers of sharing faces matter, neither the order of the faces does, nor that of the
corners of a face (`Geometry.Rearranged`).
-/

namespace Meshwork

/-! ## Runs of a sorted list

The runs of a sorted list are in order themselves. So the first run with a property
belongs to the least entry that has it. -/

section Runs

variable {α : Type} [BEq α] [LawfulBEq α] {le : α → α → Prop} {l : List α}
  {before after : List (List α)} {a : α} {rest : List α}

omit [LawfulBEq α] in
/-- The list is its runs one after another. -/
theorem eq_of_splitBy_eq_append (h : l.splitBy (· == ·) = before ++ (a :: rest) :: after) :
    l = before.flatten ++ (a :: rest) ++ after.flatten := by
  rw [← List.flatten_splitBy (· == ·) l, h, List.flatten_append, List.flatten_cons,
    List.append_assoc]

/-- **A run of a sorted list** holds all that are equal. So the length of the first run that is
too long is the number that is reported. -/
theorem length_eq_count_of_splitBy (antisymm : ∀ x y, le x y → le y x → x = y)
    (hsorted : l.Pairwise le) (h : l.splitBy (· == ·) = before ++ (a :: rest) :: after) :
    (a :: rest).length = l.count a := by
  have hrun : a :: rest ∈ l.splitBy (· == ·) := h ▸ List.mem_append_right _ List.mem_cons_self
  refine Nat.le_antisymm (length_le_count_of_mem_splitBy hrun) ?_
  have heq := eq_of_splitBy_eq_append h
  have hmem : a ∈ l := heq ▸ List.mem_append_left _ (List.mem_append_right _ List.mem_cons_self)
  have hall := replicate_count_mem_splitBy antisymm hsorted hmem
  -- Were another run all of them, there would be more of them than there are.
  have hother : ∀ {runs : List (List α)}, List.replicate (l.count a) a ∈ runs →
      l.count a ≤ runs.flatten.count a := fun hruns => by
    have hsub := (List.sublist_flatten_of_mem hruns).count_le a
    rwa [List.count_replicate_self] at hsub
  have hcount := congrArg (List.count a) heq
  rw [List.count_append, List.count_append, List.count_cons_self] at hcount
  rw [h, List.mem_append, List.mem_cons] at hall
  rcases hall with hbefore | hthis | hafter
  · have := hother hbefore
    omega
  · rw [← hthis, List.length_replicate]
  · have := hother hafter
    omega

omit [LawfulBEq α] in
/-- **Later runs of a sorted list** hold what comes after. This makes the first run that is too
long that of the least edge. -/
theorem le_of_splitBy_eq_append (hsorted : l.Pairwise le)
    (h : l.splitBy (· == ·) = before ++ (a :: rest) :: after) :
    ∀ b ∈ after.flatten, le a b := by
  rw [eq_of_splitBy_eq_append h, List.append_assoc] at hsorted
  obtain ⟨-, hsorted, -⟩ := List.pairwise_append.1 hsorted
  obtain ⟨-, -, hcross⟩ := List.pairwise_append.1 hsorted
  exact hcross a List.mem_cons_self

end Runs

namespace Edge

/-- Whether an edge stands before another: by the smaller vertex, then by the greater. -/
def lt (d e : Edge) : Bool := d.low < e.low || (d.low == e.low && d.high < e.high)

theorem lt_iff_not_le {d e : Edge} : d.lt e ↔ ¬ e.le d := by
  rw [le_iff, lt, Bool.or_eq_true, Bool.and_eq_true, decide_eq_true_eq, decide_eq_true_eq,
    beq_iff_eq]
  simp only [UInt64.lt_iff_toNat_lt, UInt64.le_iff_toNat_le, ← UInt64.toNat_inj]
  omega

theorem le_refl (e : Edge) : e.le e := le_iff.2 (Or.inr ⟨rfl, UInt64.le_refl _⟩)

end Edge

/-- A face that has two vertices as corners has an edge. -/
theorem Face.edges_ne_nil {face : Face} {i j : UInt64} (hne : i ≠ j) (hi : i ∈ face.corners)
    (hj : j ∈ face.corners) : face.edges ≠ [] := by
  rcases UInt64.lt_or_lt_of_ne hne with hlt | hlt
  · have hmem : ⟨i, j⟩ ∈ face.edges := Face.mem_edges_iff.2 ⟨hlt, hi, hj⟩
    exact List.ne_nil_of_mem hmem
  · have hmem : ⟨j, i⟩ ∈ face.edges := Face.mem_edges_iff.2 ⟨hlt, hj, hi⟩
    exact List.ne_nil_of_mem hmem

/-- Lists that satisfy a condition entry by entry do so equally often. -/
theorem countP_eq_of_forall₂ {α : Type} {p : α → Bool} {l l' : List α}
    (h : List.Forall₂ (fun a b => p a = p b) l l') : l.countP p = l'.countP p := by
  induction h with
  | nil => rfl
  | cons hab _ ih => rw [List.countP_cons, List.countP_cons, hab, ih]

namespace Geometry

variable {g h : Geometry} {edge other : Edge} {count count' : Nat}

/-! ## The first long run

The search goes through the runs and stops at the first of more than two. What it reports
is characterized without runs or sorting. -/

/-- **The least edge of more than two faces**, and how many have it. Edges are compared by their
lower ends and then by the others, which is a linear order. -/
structure IsLeastOver (g : Geometry) (edge : Edge) (count : Nat) : Prop where
  /-- So many faces have it. -/
  count_eq : g.edges.count edge = count
  /-- They are more than two. -/
  many : 2 < count
  /-- No edge before it has more than two. -/
  least : ∀ other, 2 < g.edges.count other → edge.le other

/-- There is one such edge at most. -/
theorem IsLeastOver.unique (h : g.IsLeastOver edge count) (h' : g.IsLeastOver other count') :
    edge = other ∧ count = count' := by
  have hmany : 2 < g.edges.count edge := h.count_eq ▸ h.many
  have hmany' : 2 < g.edges.count other := h'.count_eq ▸ h'.many
  obtain rfl := Edge.le_antisymm (h.least other hmany') (h'.least edge hmany)
  exact ⟨rfl, h.count_eq.symm.trans h'.count_eq⟩

/-- The run that the search stops at is that of the least edge. -/
theorem isLeastOver_of_overSharedEdge? (h : g.overSharedEdge? = some (edge, count)) :
    g.IsLeastOver edge count := by
  have hcount : ∀ e, (g.edges.mergeSort Edge.le).count e = g.edges.count e :=
    fun e => (List.mergeSort_perm _ _).count_eq _
  have hsorted : (g.edges.mergeSort Edge.le).Pairwise fun d e => d.le e :=
    @List.pairwise_mergeSort _ Edge.le (fun _ _ _ => Edge.le_trans) Edge.le_total g.edges
  have hantisymm : ∀ d e : Edge, d.le e → e.le d → d = e := fun _ _ => Edge.le_antisymm
  obtain ⟨before, run, after, hruns, hfound, hshort⟩ := List.findSome?_eq_some_iff.1 h
  split at hfound
  · cases hfound
  rename_i first rest
  split at hfound
  case isFalse => cases hfound
  rename_i hlong
  obtain ⟨rfl, rfl⟩ := Prod.mk.inj (Option.some.inj hfound)
  have hlength := length_eq_count_of_splitBy hantisymm hsorted hruns
  refine ⟨by rw [hlength, hcount], hlong, fun other hother => ?_⟩
  rw [← hcount] at hother
  have hmem : List.replicate _ other ∈ _ :=
    replicate_count_mem_splitBy hantisymm hsorted (List.count_pos_iff.1 (by omega))
  obtain ⟨n, hn⟩ := Nat.exists_eq_add_of_lt hother
  rw [hn, List.replicate_succ, hruns, List.mem_append, List.mem_cons] at hmem
  rcases hmem with hbefore | hthis | hafter
  · -- The search would have stopped at the run of the other edge.
    have hnone := hshort _ hbefore
    simp only [List.length_cons, List.length_replicate] at hnone
    rw [if_pos (by omega)] at hnone
    cases hnone
  · obtain rfl := (List.cons.inj hthis).1
    exact Edge.le_refl _
  · exact le_of_splitBy_eq_append hsorted hruns other
      (List.mem_flatten.2 ⟨_, hafter, List.mem_cons_self⟩)

/-- **The search finds the least edge** of more than two faces. There is at most one such edge, so
the two sides determine each other. -/
theorem overSharedEdge?_eq_some_iff :
    g.overSharedEdge? = some (edge, count) ↔ g.IsLeastOver edge count := by
  refine ⟨isLeastOver_of_overSharedEdge?, fun h => ?_⟩
  cases hfound : g.overSharedEdge? with
  | none =>
    have hfew := overSharedEdge?_eq_none_iff.1 hfound edge
    exact absurd (h.count_eq ▸ h.many) (Nat.not_lt.2 hfew)
  | some found =>
    obtain ⟨rfl, rfl⟩ := (isLeastOver_of_overSharedEdge? hfound).unique h
    rfl

/-! ## Counting in a table

The faces may also be counted in a table that is keyed by edges, whose entries come out in
an order that nobody controls. The loop over them keeps the least edge seen so far, so it
ends with the least of all. -/

instance : Hashable Edge := ⟨fun edge => mixHash (hash edge.low) (hash edge.high)⟩

/-- The table with an edge counted once more. -/
def countEdge (table : Std.HashMap Edge Nat) (edge : Edge) : Std.HashMap Edge Nat :=
  table.alter edge fun n => some (n.getD 0 + 1)

/-- **The edges in a table**, each with the number of faces that have it. It is filled face by
face, in whatever order its entries are kept. -/
def edgeTable (g : Geometry) : Std.HashMap Edge Nat :=
  g.faces.foldl (fun table face => face.edges.foldl countEdge table) ∅

/-- **The least entry with more than two faces**, the entries being gone through one after
another. `best` is the least one so far. An entry replaces the best one only if its edge is less. -/
def leastOver (best : Option (Edge × Nat)) : List (Edge × Nat) → Option (Edge × Nat)
  | [] => best
  | (edge, n) :: rest =>
    leastOver (if 2 < n ∧ best.all (fun found => edge.lt found.1) then some (edge, n) else best) rest

/-- The manifold check by the entries of a table, in some order. -/
def checkEntries (entries : List (Edge × Nat)) : Except GeometryError Unit :=
  match leastOver none entries with
  | some (edge, count) => .error (.nonManifoldEdge edge.low edge.high count)
  | none => .ok ()

theorem getElem?_foldl_countEdge (edges : List Edge) (table : Std.HashMap Edge Nat) (edge : Edge) :
    (edges.foldl countEdge table)[edge]?
      = if edge ∈ edges then some (table[edge]?.getD 0 + edges.count edge) else table[edge]? := by
  induction edges generalizing table with
  | nil => simp
  | cons first rest ih =>
    rw [List.foldl_cons, ih, countEdge, Std.HashMap.getElem?_alter]
    by_cases hfirst : first = edge
    · subst hfirst
      simp only [beq_self_eq_true, if_true, List.mem_cons_self, List.count_cons_self]
      split <;> rename_i hmem
      · simp only [Option.getD_some]
        congr 1
        omega
      · rw [List.count_eq_zero_of_not_mem hmem]
    · simp [hfirst, Ne.symm hfirst, List.count_cons_of_ne hfirst]

/-- **The table counts the edges** of all faces. An edge that no face has is not in the table,
rather than there with zero. -/
theorem getElem?_edgeTable (g : Geometry) (edge : Edge) :
    g.edgeTable[edge]? = if edge ∈ g.edges then some (g.edges.count edge) else none := by
  rw [edgeTable, ← List.foldl_flatMap]
  have htable := getElem?_foldl_countEdge g.edges ∅ edge
  rw [Std.HashMap.getElem?_empty, Option.getD_none, Nat.zero_add] at htable
  exact htable

/-- What the loop over the entries ends with is the least of all that it has seen. -/
theorem leastOver_cases (best : Option (Edge × Nat)) (entries : List (Edge × Nat)) :
    (leastOver best entries = none ∧ best = none ∧ ∀ entry ∈ entries, entry.2 ≤ 2)
      ∨ ∃ found, leastOver best entries = some found
        ∧ (best = some found ∨ found ∈ entries ∧ 2 < found.2)
        ∧ (∀ other ∈ best, found.1.le other.1)
        ∧ ∀ other ∈ entries, 2 < other.2 → found.1.le other.1 := by
  induction entries generalizing best with
  | nil =>
    cases best with
    | none => exact Or.inl ⟨rfl, rfl, nofun⟩
    | some found =>
      refine Or.inr ⟨found, rfl, Or.inl rfl, fun other hother => ?_, nofun⟩
      obtain rfl := Option.some.inj hother
      exact Edge.le_refl _
  | cons entry rest ih =>
    obtain ⟨edge, n⟩ := entry
    rw [leastOver]
    split <;> rename_i hnew
    · obtain ⟨hmany, hbefore⟩ := hnew
      rcases ih (some (edge, n)) with ⟨-, hnone, -⟩ | ⟨found, hfound, hfrom, hbest, hleast⟩
      · cases hnone
      have hedge : found.1.le edge := hbest (edge, n) rfl
      refine Or.inr ⟨found, hfound, Or.inr ?_, fun other hother => ?_, ?_⟩
      · rcases hfrom with heq | ⟨hmem, hover⟩
        · obtain rfl := Option.some.inj heq
          exact ⟨List.mem_cons_self, hmany⟩
        · exact ⟨List.mem_cons_of_mem _ hmem, hover⟩
      · -- The entry stands before the best one so far.
        obtain rfl := Option.mem_def.1 hother
        have hlt : edge.lt other.1 = true := hbefore
        have htotal := Edge.le_total edge other.1
        rw [Bool.or_eq_true] at htotal
        exact Edge.le_trans hedge (htotal.resolve_right (Edge.lt_iff_not_le.1 hlt))
      · exact List.forall_mem_cons.2 ⟨fun _ => hedge, hleast⟩
    · rcases ih best with ⟨hfound, rfl, hfew⟩ | ⟨found, hfound, hfrom, hbest, hleast⟩
      · have hn : n ≤ 2 := Nat.not_lt.1 fun hmany => hnew ⟨hmany, rfl⟩
        exact Or.inl ⟨hfound, rfl, List.forall_mem_cons.2 ⟨hn, hfew⟩⟩
      · refine Or.inr ⟨found, hfound, ?_, hbest, List.forall_mem_cons.2 ⟨fun hmany => ?_, hleast⟩⟩
        · exact hfrom.imp_right fun ⟨hmem, hover⟩ => ⟨List.mem_cons_of_mem _ hmem, hover⟩
        -- The entry was passed over for the best one so far, which does not come after it.
        · cases best with
          | none => exact absurd ⟨hmany, rfl⟩ hnew
          | some held =>
            have hnot : ¬ edge.lt held.1 = true := fun hlt => hnew ⟨hmany, hlt⟩
            rw [Edge.lt_iff_not_le, not_not] at hnot
            exact Edge.le_trans (hbest held rfl) hnot

/-- **The loop over the table finds the least edge**, in whatever order its entries come. The
sorted list is one way to go through them, and any other gives the same. -/
theorem leastOver_eq {entries : List (Edge × Nat)} (h : entries.Perm g.edgeTable.toList) :
    leastOver none entries = g.overSharedEdge? := by
  have hmem : ∀ edge n, (edge, n) ∈ entries ↔ edge ∈ g.edges ∧ g.edges.count edge = n := by
    intro edge n
    rw [h.mem_iff, Std.HashMap.mem_toList_iff_getElem?_eq_some, getElem?_edgeTable]
    split <;> simp [*]
  have hcount : ∀ edge, 2 < g.edges.count edge → (edge, g.edges.count edge) ∈ entries :=
    fun edge hmany => (hmem _ _).2 ⟨List.count_pos_iff.1 (by omega), rfl⟩
  rcases leastOver_cases none entries with ⟨hnone, -, hfew⟩ | ⟨found, hfound, hfrom, -, hleast⟩
  · rw [hnone, eq_comm, overSharedEdge?_eq_none_iff]
    exact fun edge => Nat.not_lt.1 fun hmany => Nat.not_lt.2 (hfew _ (hcount edge hmany)) hmany
  · obtain ⟨hentry, hmany⟩ := hfrom.resolve_left nofun
    rw [hfound, eq_comm, overSharedEdge?_eq_some_iff]
    exact ⟨((hmem _ _).1 hentry).2, hmany, fun other hother => hleast _ (hcount other hother) hother⟩

/-! ## What the check says of a geometry

The verdict speaks of vertices and faces only. All the ways to find it agree, since each
of them is determined by how many faces share two vertices. -/

/-- **How many faces share two vertices**: as many as have both as corners. Unlike the count of an
edge this is symmetric in the two vertices. -/
def sharing (g : Geometry) (i j : UInt64) : Nat :=
  g.faces.countP fun face => i ∈ face.corners ∧ j ∈ face.corners

/-- **Two geometries have the same faces in another arrangement**: the faces come in another
order, and the corners of a face in another order or with another one repeated. Faces with a
single vertex are left aside. -/
def Rearranged (g h : Geometry) : Prop :=
  ∃ faces, faces.Perm (h.faces.filter fun face => face.edges ≠ [])
    ∧ List.Forall₂ (fun face other => ∀ i, i ∈ face.corners ↔ i ∈ other.corners)
      (g.faces.filter fun face => face.edges ≠ []) faces

/-- **What the manifold check says** of a geometry. It is said in terms of vertices and faces
alone, so that it can be compared with what a manifold is. -/
structure Verdict (g : Geometry) : Prop where
  /-- It accepts if at most two faces share any two vertices. -/
  accepts : g.checkManifold = .ok () ↔ ∀ i j, i ≠ j → g.sharing i j ≤ 2
  /-- Otherwise it reports the least pair that more than two faces share, and their number. -/
  reports : ∀ e, g.checkManifold = .error e ↔ ∃ a b, a < b ∧ 2 < g.sharing a b
    ∧ (∀ i j, i < j → 2 < g.sharing i j → a < i ∨ a = i ∧ b ≤ j)
    ∧ e = .nonManifoldEdge a b (g.sharing a b)
  /-- The edges may be counted in a table, and its entries come in any order. -/
  counted : ∀ entries : List (Edge × Nat), entries.Perm g.edgeTable.toList →
    checkEntries entries = g.checkManifold
  /-- The arrangement of the faces and of their corners does not matter. -/
  rearranged : ∀ h : Geometry, g.Rearranged h → h.checkManifold = g.checkManifold

/-- An edge is in the list as often as faces share its ends. -/
theorem count_edges_eq (g : Geometry) (edge : Edge) :
    g.edges.count edge = if edge.low < edge.high then g.sharing edge.low edge.high else 0 := by
  split <;> rename_i hlt
  · exact g.count_edges hlt
  · refine List.count_eq_zero_of_not_mem fun hmem => ?_
    obtain ⟨face, -, hface⟩ := List.mem_flatMap.1 hmem
    exact hlt (Face.mem_edges_iff.1 hface).1

/-- The edge of more than two faces is a pair of vertices that they share. -/
theorem lt_count_edges_iff {n : Nat} : n < g.edges.count edge
    ↔ edge.low < edge.high ∧ n < g.sharing edge.low edge.high := by
  rw [count_edges_eq]
  split <;> simp [*]

/-- **Only how many faces share two vertices matters.** The geometries may differ in all else, as
in the positions of the vertices. -/
theorem checkManifold_congr (hsharing : ∀ i j, i ≠ j → g.sharing i j = h.sharing i j) :
    g.checkManifold = h.checkManifold := by
  have hcount : ∀ edge, g.edges.count edge = h.edges.count edge := fun edge => by
    rw [count_edges_eq, count_edges_eq]
    split <;> rename_i hlt
    · exact hsharing _ _ (UInt64.ne_of_lt hlt)
    · rfl
  have hleast : ∀ edge count, g.IsLeastOver edge count ↔ h.IsLeastOver edge count :=
    fun edge count => by
      constructor <;> rintro ⟨heq, hmany, hleast⟩
      · exact ⟨(hcount edge).symm.trans heq, hmany, fun other => hcount other ▸ hleast other⟩
      · exact ⟨(hcount edge).trans heq, hmany, fun other => (hcount other).symm ▸ hleast other⟩
  have hfound : g.overSharedEdge? = h.overSharedEdge? := by
    refine Option.ext fun ⟨edge, count⟩ => ?_
    rw [overSharedEdge?_eq_some_iff, overSharedEdge?_eq_some_iff, hleast]
  rw [checkManifold, checkManifold, hfound]

/-- **The check fails with the least edge of more than two faces.** The check has no other error. -/
theorem checkManifold_eq_error_iff {e : GeometryError} : g.checkManifold = .error e
    ↔ ∃ edge count, g.IsLeastOver edge count
      ∧ e = .nonManifoldEdge edge.low edge.high count := by
  simp only [← overSharedEdge?_eq_some_iff]
  rw [checkManifold]
  rcases g.overSharedEdge? with _ | ⟨edge, count⟩
  · simp
  · simp only [Except.error.injEq, Option.some.injEq, Prod.mk.injEq]
    constructor
    · rintro rfl
      exact ⟨edge, count, ⟨rfl, rfl⟩, rfl⟩
    · rintro ⟨_, _, ⟨rfl, rfl⟩, rfl⟩
      rfl

/-- Faces with a single vertex share no two. -/
theorem sharing_eq_countP_filter (g : Geometry) {i j : UInt64} (hne : i ≠ j) :
    g.sharing i j = (g.faces.filter fun face => face.edges ≠ []).countP
      fun face => i ∈ face.corners ∧ j ∈ face.corners := by
  rw [sharing, List.countP_filter]
  refine List.countP_congr fun face _ => ?_
  simp only [decide_eq_true_eq, Bool.and_eq_true]
  exact ⟨fun hboth => ⟨hboth, Face.edges_ne_nil hne hboth.1 hboth.2⟩, And.left⟩

/-- Another arrangement shares the same. -/
theorem Rearranged.sharing_eq (hr : g.Rearranged h) {i j : UInt64} (hne : i ≠ j) :
    g.sharing i j = h.sharing i j := by
  obtain ⟨faces, hperm, hcorners⟩ := hr
  rw [sharing_eq_countP_filter g hne, sharing_eq_countP_filter h hne, ← hperm.countP_eq]
  exact countP_eq_of_forall₂ (hcorners.imp fun face other hsame =>
    decide_eq_decide.2 (and_congr (hsame i) (hsame j)))

/-- **The manifold check is exact**, and does not depend on the order of anything. Each field is
proved from what the search finds, which is the least edge of too many faces. -/
theorem verdict (g : Geometry) : g.Verdict where
  accepts := checkManifold_eq_ok_iff
  -- An edge is over-shared if its two vertices are, so the least edge and the least pair of
  -- vertices are the same.
  reports e := by
    rw [checkManifold_eq_error_iff]
    constructor
    · rintro ⟨edge, count, ⟨rfl, hmany, hleast⟩, rfl⟩
      obtain ⟨hlt, hover⟩ := lt_count_edges_iff.1 hmany
      refine ⟨edge.low, edge.high, hlt, hover, fun i j hij hshared => ?_, ?_⟩
      · exact Edge.le_iff.1 (hleast ⟨i, j⟩ (lt_count_edges_iff.2 ⟨hij, hshared⟩))
      · rw [count_edges_eq, if_pos hlt]
    · rintro ⟨a, b, hlt, hover, hleast, rfl⟩
      have hcount : g.edges.count ⟨a, b⟩ = g.sharing a b := (count_edges_eq _ _).trans (if_pos hlt)
      refine ⟨⟨a, b⟩, g.sharing a b, ⟨hcount, hover, fun other hother => ?_⟩, rfl⟩
      obtain ⟨hlt', hover'⟩ := lt_count_edges_iff.1 hother
      exact Edge.le_iff.2 (hleast _ _ hlt' hover')
  counted entries hperm := by
    rw [checkEntries, leastOver_eq hperm]
    rfl
  rearranged h hr := (checkManifold_congr fun _ _ hne => hr.sharing_eq hne).symm

end Geometry

end Meshwork
