import Meshwork.Proofs.Store.Passage
import Meshwork.Proofs.Store.Refinement
import Meshwork.Proofs.Text.Order

/-!
# Listing a store

A list of paths is gathered on a stack of nodes: the topmost node is taken off, its path is
found by going up from it, and the nodes beneath it are put in its place. `Store.Visits` says
what such a traversal gathers until nothing is left on the stack, without a bound on the number
of its steps; so a list that is visited is one that the traversal comes to the end of.

The list of all paths of a store is visited, and it is complete and in order
(`Store.Lists`). The order is that of paths as lists of names whose bytes are compared
(`DataPath.Before`). The list of what lies at or beneath a path is a part of it in one piece
(`Store.IsPart`). The places of a forest come first, where order and parts are those of a
recursion on trees.
-/

namespace Meshwork

/-! ## The order of paths

Paths are compared as lists of names, and names by their bytes. A path comes before all
that lies beneath it. -/

namespace DataPath

/-- **A path comes before another**: names are compared one by one, and each by its bytes. A path
comes before those that lie beneath it, since it is a beginning of them. -/
def Before (p q : DataPath) : Prop := p.segments.map bytesOf < q.segments.map bytesOf

/-- The bytes of names are in order if the names are. -/
theorem map_bytesOf_lt_iff {names others : List String} :
    names.map bytesOf < others.map bytesOf ↔ names < others := by
  induction names generalizing others with
  | nil => cases others <;> simp
  | cons name names ih =>
    cases others with
    | nil => simp
    | cons other others =>
      rw [List.map_cons, List.map_cons, List.cons_lt_cons_iff, List.cons_lt_cons_iff, ih,
        Utf8.bytesOf_lt_iff, Utf8.bytesOf_inj]

theorem before_iff {p q : DataPath} : p.Before q ↔ p.segments < q.segments := map_bytesOf_lt_iff

theorem compareNames_eq_lt_iff {names others : List String} :
    compareNames names others = .lt ↔ names < others := by
  induction names generalizing others with
  | nil => cases others <;> simp [compareNames]
  | cons name names ih =>
    cases others with
    | nil => simp [compareNames]
    | cons other others =>
      have hlt : compare name other = .lt ↔ name < other := compareOfLessAndEq_eq_lt
      have heq : compare name other = .eq ↔ name = other :=
        compareOfLessAndEq_eq_eq (fun _ => String.le_refl _) String.not_le
      rw [compareNames, Ordering.then_eq_lt, List.cons_lt_cons_iff, ih, hlt, heq]

/-- **The comparison of paths** finds which one comes before the other. Paths are thus ordered as
lists of lists of bytes. -/
theorem compare_eq_lt_iff {p q : DataPath} : compare p q = .lt ↔ p.Before q :=
  compareNames_eq_lt_iff.trans before_iff.symm

end DataPath

/-! ## The places of a forest

The places of a lawful forest are in this order, because the names in each list are. Those
of one tree come together, between the trees before it and those behind. -/

namespace NamedForest

variable {α : Type}

/-- **The places of a forest are in order.** Siblings are ordered by name, and what lies beneath
the first of two comes before the second. -/
theorem pairwise_places_lt {above : List String} {forest : NamedForest α} (h : Lawful forest) :
    (places above forest).Pairwise (· < ·) := by
  induction forest using induction generalizing above with
  | nil => rw [places]; exact List.Pairwise.nil
  | cons name label children rest ihc ihr =>
    obtain ⟨⟨-, hlaw, hrest⟩, hord⟩ := And.intro h.each h.ordered
    obtain ⟨hlater, hord⟩ := List.pairwise_cons.1 hord
    -- The later trees have later names, whatever lies beneath this one.
    have hbeside : ∀ r, ∀ later ∈ places above rest, above ++ name :: r < later := by
      intro r later hl
      obtain ⟨other, s, rfl, hother⟩ := exists_of_mem_places hl
      obtain ⟨entry, hentry, rfl⟩ := List.mem_map.1 hother
      exact List.append_left_lt (List.cons_lt_cons_iff.2 (.inl (hlater entry hentry)))
    rw [places, List.pairwise_cons, List.pairwise_append]
    refine ⟨fun later hl => ?_, ihc ⟨hlaw.1, hlaw.2⟩, ihr ⟨hord, hrest⟩, ?_⟩
    · rcases List.mem_append.1 hl with hl | hl
      · obtain ⟨next, r, rfl, -⟩ := exists_of_mem_places hl
        rw [List.append_assoc]
        exact List.append_left_lt (List.cons_lt_cons_iff.2 (.inr ⟨rfl, List.nil_lt_cons _ _⟩))
      · exact hbeside [] later hl
    · intro place hp later hl
      obtain ⟨next, r, rfl, -⟩ := exists_of_mem_places hp
      rw [List.append_assoc]
      exact hbeside (next :: r) later hl

/-- What lies beneath a place is what lies beneath its tree. -/
theorem at?_append_of_at? {place : List String} {forest : NamedForest α} {tree : NamedTree α}
    (h : at? place forest = some tree) (rest : List String) :
    at? (place ++ rest) forest = tree.at? rest := by
  cases place with
  | nil => simp [at?] at h
  | cons name place =>
    obtain ⟨top, htop, hplace⟩ := Option.bind_eq_some_iff.1 h
    rw [List.cons_append, at?, htop, Option.bind_some, NamedTree.at?_append, hplace,
      Option.bind_some]

/-- **The places of the tree at a place** are those that begin with it. They are the place itself
and those beneath it, where the forest has a tree. -/
theorem mem_places_singleton {above place : List String} {name : String} {forest : NamedForest α}
    {tree : NamedTree α} (h : Lawful forest) (hat : at? (above ++ [name]) forest = some tree) :
    place ∈ places above [(name, tree)]
      ↔ above ++ [name] <+: place ∧ (at? place forest).isSome := by
  -- A forest of that one tree is lawful too, so its places are known.
  obtain ⟨kids, hkids, hfind⟩ := exists_below?_of_at? hat
  rw [mem_places ((h.below hkids).singleton hfind)]
  constructor
  · rintro ⟨rest, rfl, hrest⟩
    obtain ⟨found, hfound⟩ := Option.isSome_iff_exists.1 hrest
    cases rest with
    | nil => cases hfound
    | cons other rest =>
      rw [at?, Keyed.find?] at hfound
      split at hfound <;> rename_i hname
      · subst hname
        have hplace : above ++ name :: rest = above ++ [name] ++ rest := by simp
        refine ⟨⟨rest, hplace.symm⟩, ?_⟩
        rw [hplace, at?_append_of_at? hat, ← Option.bind_some (a := tree) (f := NamedTree.at? rest),
          hfound]
        rfl
      · cases hfound
  · rintro ⟨⟨rest, rfl⟩, hrest⟩
    rw [at?_append_of_at? hat] at hrest
    refine ⟨name :: rest, by simp, ?_⟩
    rw [at?, Keyed.find?, if_pos rfl, Option.bind_some]
    exact hrest

/-- **The places of a tree are a part of those of the forest**, in one piece. It is a traversal
that does not leave the tree before it is done with it. -/
theorem exists_places_eq (above : List String) {place : List String} {name : String}
    {forest : NamedForest α} {tree : NamedTree α} (hat : at? (place ++ [name]) forest = some tree) :
    ∃ before after, places above forest
      = before ++ places (above ++ place) [(name, tree)] ++ after := by
  induction forest using induction generalizing above place with
  | nil => cases place <;> simp [at?] at hat
  | cons top label children rest ihc ihr =>
    obtain ⟨first, more, hplace⟩ : ∃ first more, place ++ [name] = first :: more :=
      List.exists_cons_of_ne_nil (by simp)
    -- The tree lies at the first name, in the children there, or behind.
    by_cases hfirst : top = first
    · subst hfirst
      rw [hplace, at?, Keyed.find?, if_pos rfl, Option.bind_some] at hat
      cases place with
      | nil =>
        obtain ⟨rfl, rfl⟩ := List.cons.inj hplace
        obtain rfl := Option.some.inj hat
        refine ⟨[], places above rest, ?_⟩
        rw [places, places, places]
        simp
      | cons other place =>
        obtain ⟨rfl, rfl⟩ := List.cons.inj hplace
        have hbelow : at? (place ++ [name]) children = some tree := by
          cases place <;> exact hat
        obtain ⟨before, after, heq⟩ := ihc (above ++ [other]) hbelow
        refine ⟨(above ++ [other]) :: before, after ++ places above rest, ?_⟩
        rw [places, heq]
        simp
    · have hrest : at? (place ++ [name]) rest = some tree := by
        rw [hplace, at?, Keyed.find?, if_neg hfirst] at hat
        rw [hplace, at?]
        exact hat
      obtain ⟨before, after, heq⟩ := ihr above hrest
      refine ⟨(above ++ [top]) :: (places (above ++ [top]) children ++ before), after, ?_⟩
      rw [places, heq]
      simp

end NamedForest

namespace Store

/-! ## Traversals

A traversal is a relation without a bound on the steps. That it holds says that the
traversal comes to an end, and with what. -/

/-- **Going up from a node** comes to the top and gathers these names, before those that lie
below. It is a relation and not a function, so that it does not need any fuel: it holds only where
the way ends. -/
inductive Climbs (s : Store) : ObjectId → (below names : List String) → Prop
  /-- The node is a topmost one. -/
  | top {id : ObjectId} {node : Node} {below : List String} (hnode : s.node? id = some node)
      (hparent : node.parent = none) : Climbs s id below (node.name :: below)
  /-- There is a node above it. -/
  | up {id above : ObjectId} {node : Node} {below names : List String}
      (hnode : s.node? id = some node) (hparent : node.parent = some above)
      (habove : Climbs s above (node.name :: below) names) : Climbs s id below names

/-- **A traversal** of what is on a stack comes to its end and gathers these paths. Every node
has its path before those of the nodes beneath it, which come before the rest of the stack. -/
inductive Visits (s : Store) : (stack : List ObjectId) → List DataPath → Prop
  /-- Nothing is left. -/
  | done : Visits s [] []
  /-- The topmost node is taken off. -/
  | node {id : ObjectId} {node : Node} {names : List String} {path : DataPath}
      {stack : List ObjectId} {paths : List DataPath} (hnode : s.node? id = some node)
      (hclimbs : s.Climbs id [] names) (hpath : DataPath.ofSegments names = .ok path)
      (hrest : Visits s (node.children.values ++ stack) paths) : Visits s (id :: stack) (path :: paths)

variable {s : Store}

theorem climbs_of_climb {fuel : Nat} {id : ObjectId} {below names : List String}
    (h : s.climb fuel id below = some names) : s.Climbs id below names := by
  induction fuel generalizing id below with
  | zero => cases h
  | succ fuel ih =>
    obtain ⟨node, hnode, h⟩ := Option.bind_eq_some_iff.1 h
    split at h <;> rename_i hparent
    · obtain rfl := Option.some.inj h
      exact .top hnode hparent
    · exact .up hnode hparent (ih h)

/-- Going up leads to one place only. -/
theorem Climbs.unique {id : ObjectId} {below names names' : List String} (h : s.Climbs id below names)
    (h' : s.Climbs id below names') : names = names' := by
  -- A node has one parent or none, so both ways up take the same step.
  induction h with
  | top hnode hparent =>
    cases h' with
    | top hnode' =>
      obtain rfl := Option.some.inj (hnode.symm.trans hnode')
      rfl
    | up hnode' hparent' =>
      obtain rfl := Option.some.inj (hnode.symm.trans hnode')
      cases hparent.symm.trans hparent'
  | up hnode hparent _ ih =>
    cases h' with
    | top hnode' hparent' =>
      obtain rfl := Option.some.inj (hnode.symm.trans hnode')
      cases hparent.symm.trans hparent'
    | up hnode' hparent' habove' =>
      obtain rfl := Option.some.inj (hnode.symm.trans hnode')
      obtain rfl := Option.some.inj (hparent.symm.trans hparent')
      exact ih habove'

/-- **A traversal gathers one list only.** At each step the stack determines which node is next
and what it adds. -/
theorem Visits.unique {stack : List ObjectId} {paths paths' : List DataPath}
    (h : s.Visits stack paths) (h' : s.Visits stack paths') : paths = paths' := by
  induction h generalizing paths' with
  | done =>
    cases h'
    rfl
  | node hnode hclimbs hpath _ ih =>
    cases h' with
    | node hnode' hclimbs' hpath' hrest' =>
      obtain rfl := Option.some.inj (hnode.symm.trans hnode')
      obtain rfl := hclimbs.unique hclimbs'
      obtain rfl := Except.ok.inj (hpath.symm.trans hpath')
      rw [ih hrest']

namespace LaidOut

variable {layout : Layout}

/-- Going up from an object leads through the names of its path. -/
theorem climbs (h : s.LaidOut layout) {path : DataPath} {tree : LayoutTree}
    (hat : NamedForest.at? path.segments layout = some tree) :
    s.Climbs tree.label.id [] path.segments := by
  obtain ⟨names, hclimb, hnames⟩ := Option.bind_eq_some_iff.1 (h.pathOf?_eq hat)
  have hsegments : DataPath.ofSegments names = .ok path := by
    cases hpath : DataPath.ofSegments names with
    | error e => simp [hpath, Except.toOption] at hnames
    | ok other => simpa [hpath, Except.toOption] using hnames
  rw [DataPath.segments_of_ofSegments hsegments]
  exact climbs_of_climb hclimb

/-- With the entries of a forest on the stack, a traversal comes past its places first. -/
theorem exists_visits (h : s.LaidOut layout) {forest : Layout} {above : List String}
    {stack : List ObjectId} {rest : List DataPath} (hstack : s.Visits stack rest)
    (hforest : ∀ entry ∈ forest, NamedForest.at? (above ++ [entry.1]) layout = some entry.2) :
    ∃ paths : List DataPath, paths.map (·.segments) = NamedForest.places above forest
      ∧ s.Visits ((Layout.entries forest).values ++ stack) (paths ++ rest) := by
  induction forest using NamedForest.induction generalizing above stack rest with
  | nil => exact ⟨[], by rw [NamedForest.places]; rfl, hstack⟩
  | cons name tag children others ihc iho =>
    have hat : NamedForest.at? (above ++ [name]) layout = some (.node tag children) :=
      hforest _ List.mem_cons_self
    have hlaw : NamedForest.Lawful children := h.lawful.below (NamedForest.below?_of_at? hat)
    have hchildren : ∀ entry ∈ children,
        NamedForest.at? (above ++ [name] ++ [entry.1]) layout = some entry.2 := fun entry hentry =>
      NamedForest.at?_concat hat (Keyed.find?_of_mem hlaw.ordered hentry)
    -- The traversal is put together from its end.
    obtain ⟨later, hlater, hvisits⟩ := iho hstack fun entry hentry =>
      hforest entry (List.mem_cons_of_mem _ hentry)
    obtain ⟨below, hbelow, hvisits⟩ := ihc hvisits hchildren
    obtain ⟨path, hpath⟩ := h.exists_path hat
    have hnode : NamedForest.at? path.segments layout = some (.node tag children) := hpath ▸ hat
    have hclimbs : s.Climbs tag.id [] path.segments := h.climbs hnode
    refine ⟨path :: (below ++ later), ?_, ?_⟩
    · rw [NamedForest.places, List.map_cons, List.map_append, hpath, hbelow, hlater]
    · rw [List.cons_append, List.append_assoc]
      exact .node (h.node?_eq hat) hclimbs path.ofSegments_segments hvisits

/-- **A traversal of a forest** ends with its places. The stack holds what is still to be visited,
which are trees of the layout. -/
theorem visits_of_map_segments (h : s.LaidOut layout) (forest : Layout) (above : List String)
    (hforest : ∀ entry ∈ forest, NamedForest.at? (above ++ [entry.1]) layout = some entry.2)
    {paths : List DataPath} (hpaths : paths.map (·.segments) = NamedForest.places above forest) :
    s.Visits (Layout.entries forest).values paths := by
  obtain ⟨visited, hvisited, hvisits⟩ := h.exists_visits .done hforest
  rw [List.append_nil, List.append_nil] at hvisits
  rwa [(List.map_inj_right fun p q he => DataPath.ext he).1 (hpaths.trans hvisited.symm)]

theorem visits_list_none (h : s.LaidOut layout) : s.Visits s.roots.values (s.list none) := by
  rw [h.roots]
  refine h.visits_of_map_segments layout [] (fun (name, tree) hmem => ?_) h.list_none_eq
  rw [List.nil_append, NamedForest.at?, Keyed.find?_of_mem h.lawful.ordered hmem]
  rfl

/-- Nothing is listed beneath a path where nothing is. -/
theorem list_some_eq_nil (h : s.LaidOut layout) {top : DataPath}
    (hat : NamedForest.at? top.segments layout = none) : s.list (some top) = [] := by
  rw [list, h.idOf?_eq, hat]
  exact walk_nil s _

theorem visits_list_some (h : s.LaidOut layout) (top : DataPath) :
    s.Visits (s.idOf? top).toList (s.list (some top)) := by
  cases hat : NamedForest.at? top.segments layout with
  | none =>
    rw [h.list_some_eq_nil hat, h.idOf?_eq, hat]
    exact .done
  | some tree =>
    rw [h.idOf?_eq, hat]
    refine h.visits_of_map_segments [(top.name, tree)] top.above (fun entry hentry => ?_)
      (h.list_some_eq hat)
    rw [List.mem_singleton.1 hentry, ← top.segments_eq, hat]

end LaidOut

/-! ## Lists of paths

The two functions that list are related to traversals, and these to places. What a caller
relies on is then said without either. -/

/-- **A list has all paths of a store**, each once, in order. The order makes each path appear
once, and the list unique. -/
structure Lists (s : Store) (paths : List DataPath) : Prop where
  /-- It has the paths with an object. -/
  mem_iff : ∀ path, path ∈ paths ↔ (s.get? path).isSome
  /-- Each path comes before all that follow. -/
  increasing : paths.Pairwise DataPath.Before
  /-- Each path comes before all that lie beneath it. -/
  downwards : ∀ before path after, paths = before ++ path :: after →
    ∀ above, path.isDescendantOf above = true → above ∈ before
  /-- There are as many as there are objects. -/
  length_eq : paths.length = s.len

/-- **A list is the part of all paths at or beneath one**, in one piece. What lies outside of this
piece is neither at the path nor beneath it. -/
structure IsPart (s : Store) (top : DataPath) (part : List DataPath) : Prop where
  /-- Other paths come before it and after it. -/
  exists_eq : ∃ before after, s.list none = before ++ part ++ after
    ∧ ∀ path ∈ before ++ after, path.startsWith top = false
  /-- Its own paths lie at or beneath the one. -/
  startsWith : ∀ path ∈ part, path.startsWith top = true
  /-- It is empty if there is no object. -/
  eq_nil_iff : part = [] ↔ s.get? top = none

/-- A path comes before those beneath it. -/
theorem before_of_isDescendantOf {path above : DataPath} (h : path.isDescendantOf above = true) :
    above.Before path := by
  obtain ⟨hstarts, hne⟩ := DataPath.isDescendantOf_iff.1 h
  obtain ⟨rest, hrest⟩ := DataPath.startsWith_iff.1 hstarts
  rw [DataPath.before_iff, ← hrest]
  cases rest with
  | nil => exact absurd (DataPath.ext (by rw [← hrest, List.append_nil])) hne
  | cons name rest =>
    have hlt : above.segments ++ [] < above.segments ++ name :: rest :=
      List.append_left_lt (List.nil_lt_cons name rest)
    rwa [List.append_nil] at hlt

namespace LaidOut

variable {layout : Layout}

theorem pairwise_before_list (h : s.LaidOut layout) : (s.list none).Pairwise DataPath.Before := by
  have hplaces : (NamedForest.places [] layout).Pairwise _ := NamedForest.pairwise_places_lt h.lawful
  rw [← h.list_none_eq, List.pairwise_map] at hplaces
  exact hplaces.imp DataPath.before_iff.2

/-- **The list of all paths** has them all, in order. The four fields come from what is known of
the places of a forest. -/
theorem lists (h : s.LaidOut layout) (hclosed : PathMap.Closed s.get?) : s.Lists (s.list none) where
  mem_iff path := by rw [h.mem_list_none, h.isSome_get?]
  increasing := h.pairwise_before_list
  downwards before path after heq above habove := by
    have hpath : (s.get? path).isSome := by
      rw [h.isSome_get?, ← h.mem_list_none, heq]
      simp
    obtain ⟨rest, hrest⟩ := Option.isSome_iff_exists.1
      ((DataPath.startsWith_eq_isSome _ _).symm.trans (DataPath.isDescendantOf_iff.1 habove).1)
    have hmem : above ∈ s.list none := by
      rw [h.mem_list_none, ← h.isSome_get?]
      exact hclosed.isSome_of_relative? hrest hpath
    have hbefore := before_of_isDescendantOf habove
    have hincreasing := h.pairwise_before_list
    rw [heq] at hmem hincreasing
    -- What stands at the path or after it does not come before it.
    rcases List.mem_append.1 hmem with hmem | hmem
    · exact hmem
    · rcases List.mem_cons.1 hmem with rfl | hmem
      · exact absurd hbefore (List.lt_irrefl _)
      · have hafter := (List.pairwise_cons.1 (List.pairwise_append.1 hincreasing).2.1).1 above hmem
        exact absurd (List.lt_trans hbefore hafter) (List.lt_irrefl _)
  length_eq := h.neverMisses.listed

/-- **The paths at or beneath one** are those that begin with it. Those without an object are in
neither list. -/
theorem mem_list_some (h : s.LaidOut layout) {top path : DataPath} {tree : LayoutTree}
    (hat : NamedForest.at? top.segments layout = some tree) :
    path ∈ s.list (some top) ↔ path.startsWith top = true ∧ path ∈ s.list none := by
  rw [← DataPath.mem_map_segments, h.list_some_eq hat, h.mem_list_none, DataPath.startsWith_iff]
  rw [top.segments_eq] at hat ⊢
  exact NamedForest.mem_places_singleton h.lawful hat

/-- The paths at or beneath one stand in one piece. -/
theorem exists_list_eq (h : s.LaidOut layout) {top : DataPath} {tree : LayoutTree}
    (hat : NamedForest.at? top.segments layout = some tree) :
    ∃ before after : List DataPath, s.list none = before ++ s.list (some top) ++ after := by
  have hplaces : ∃ before after, NamedForest.places [] layout
      = before ++ NamedForest.places top.above [(top.name, tree)] ++ after :=
    NamedForest.exists_places_eq [] (top.segments_eq ▸ hat)
  obtain ⟨before, after, heq⟩ := hplaces
  rw [← h.list_none_eq, ← h.list_some_eq hat] at heq
  obtain ⟨init, after', hlist, hinit, -⟩ := List.map_eq_append_iff.1 heq
  obtain ⟨before', part, rfl, -, hpart⟩ := List.map_eq_append_iff.1 hinit
  rw [(List.map_inj_right fun p q he => DataPath.ext he).1 hpart] at hlist
  exact ⟨before', after', hlist⟩

/-- **The list of what lies at or beneath a path** is a part of the list of all paths. If there is
no object at the path, the piece is empty. -/
theorem isPart (h : s.LaidOut layout) (hclosed : PathMap.Closed s.get?) (top : DataPath) :
    s.IsPart top (s.list (some top)) := by
  have hfound := h.isSome_get? top
  cases hat : NamedForest.at? top.segments layout with
  | none =>
    rw [hat] at hfound
    rw [h.list_some_eq_nil hat]
    refine ⟨⟨s.list none, [], by simp, fun path hpath => ?_⟩, nofun, ?_⟩
    · rw [List.append_nil, h.mem_list_none, ← h.isSome_get?] at hpath
      rw [DataPath.startsWith_eq_isSome, Option.isSome_eq_false_iff, Option.isNone_iff_eq_none,
        Option.eq_none_iff_forall_ne_some]
      intro rest hrest
      simp [hclosed.isSome_of_relative? hrest hpath] at hfound
    · exact iff_of_true rfl (Option.not_isSome_iff_eq_none.1 (by simp [hfound]))
  | some tree =>
    rw [hat] at hfound
    have hmem : ∀ path, path ∈ s.list (some top) ↔ path.startsWith top = true ∧ path ∈ s.list none :=
      fun _ => h.mem_list_some hat
    obtain ⟨before, after, heq⟩ := h.exists_list_eq hat
    have hnodup : (before ++ s.list (some top) ++ after).Nodup := by
      refine heq ▸ List.Nodup.of_map DataPath.segments ?_
      rw [h.list_none_eq]
      exact NamedForest.nodup_places h.lawful
    obtain ⟨hnodup, -, hafter⟩ := List.nodup_append.1 hnodup
    refine ⟨⟨before, after, heq, fun path hpath => ?_⟩, fun path hpath => ((hmem path).1 hpath).1, ?_⟩
    · -- A path that begins with the one has its place in the part, and no other place.
      rw [Bool.eq_false_iff]
      intro hstarts
      have hlist : path ∈ s.list none := by
        rw [heq, List.append_assoc, List.mem_append, List.mem_append]
        exact (List.mem_append.1 hpath).imp_right .inr
      have hpart := (hmem path).2 ⟨hstarts, hlist⟩
      rcases List.mem_append.1 hpath with hpath | hpath
      · exact (List.nodup_append.1 hnodup).2.2 path hpath path hpart rfl
      · exact hafter path (List.mem_append_right _ hpart) path hpath rfl
    · have htop : top ∈ s.list (some top) :=
        (hmem top).2 ⟨top.startsWith_self, h.mem_list_none.2 (by rw [hat]; rfl)⟩
      exact iff_of_false (List.ne_nil_of_mem htop) fun hnone => by simp [hnone] at hfound

end LaidOut

/-- **A list of paths is complete and in order**, after any operations: the traversal of the
store comes to its end with it and with nothing else. -/
theorem lists_after (operations : List Operation) :
    let s := after operations
    (∀ p q : DataPath, compare p q = .lt ↔ p.Before q)
      ∧ (∀ paths, s.Visits s.roots.values paths ↔ paths = s.list none)
      ∧ s.Lists (s.list none)
      ∧ ∀ top, (∀ paths, s.Visits (s.idOf? top).toList paths ↔ paths = s.list (some top))
        ∧ s.IsPart top (s.list (some top)) := by
  intro s
  have hs : s.Sound := sound_after operations
  obtain ⟨layout, h⟩ := hs.coherent
  have hvisits := h.visits_list_none
  refine ⟨fun p q => DataPath.compare_eq_lt_iff, fun paths => ?_, h.lists hs.placed.closed,
    fun top => ⟨fun paths => ?_, h.isPart hs.placed.closed top⟩⟩
  · exact ⟨fun hpaths => hpaths.unique hvisits, fun he => he ▸ hvisits⟩
  · have hpart := h.visits_list_some top
    exact ⟨fun hpaths => hpaths.unique hpart, fun he => he ▸ hpart⟩

end Store

end Meshwork
