import Meshwork.DataPath
import Meshwork.NamedTree

/-!
# Places in a forest

A place in a forest is a list of names, followed from the top. `at?` is the
tree there, `below?` what lies beneath it – for the empty place, the forest
itself – and `alter` changes what lies beneath a place and nothing else.
Every change of a store is such a change: what is taken out or brought in
is an entry of the forest beneath the place above it.

The label at a place is what a reader sees (`labelAt?`). `labelAt?_erase` and
`labelAt?_insert` say what it becomes when an entry is taken out or brought
in, and `ext_labelAt?` that a forest in order is determined by its labels.

Trees are nested in lists of named trees, so every recursion goes into the
children of the first tree and on to the rest of the list; `induction` is
the induction of that form.
-/

namespace Meshwork

namespace NamedTree

variable {α : Type}

/-- The tree at a place below the root. -/
def at? : List String → NamedTree α → Option (NamedTree α)
  | [], tree => some tree
  | name :: rest, tree => (Keyed.find? name tree.children).bind (at? rest)

/-- The label at a place below the root. -/
def labelAt? (place : List String) (tree : NamedTree α) : Option α := (tree.at? place).map label

@[simp] theorem labelAt?_nil (tree : NamedTree α) : tree.labelAt? [] = some tree.label := rfl

theorem labelAt?_cons (name : String) (rest : List String) (tree : NamedTree α) :
    tree.labelAt? (name :: rest) = (Keyed.find? name tree.children).bind (labelAt? rest) :=
  Option.map_bind

theorem at?_append (p q : List String) (tree : NamedTree α) :
    tree.at? (p ++ q) = (tree.at? p).bind (at? q) := by
  induction p generalizing tree with
  | nil => rfl
  | cons name rest ih =>
    show (Keyed.find? name tree.children).bind _ = ((Keyed.find? name tree.children).bind _).bind _
    rw [Option.bind_assoc]
    exact congrArg _ (funext ih)

theorem size_eq (tree : NamedTree α) : tree.size = 1 + sizeForest tree.children := by
  cases tree
  rfl

theorem size_pos (tree : NamedTree α) : 0 < tree.size := by
  rw [size_eq]
  omega

theorem size_le_of_find? {name : String} {forest : NamedForest α} {tree : NamedTree α}
    (h : Keyed.find? name forest = some tree) : tree.size ≤ sizeForest forest := by
  induction forest with
  | nil => simp at h
  | cons head rest ih =>
    unfold Keyed.find? at h
    unfold sizeForest
    split at h
    · obtain rfl := Option.some.inj h
      omega
    · have hrest := ih h
      omega

/-- A tree is larger than the one at a place below by the way there at
least. -/
theorem length_add_size_le {place : List String} {tree found : NamedTree α}
    (h : tree.at? place = some found) : place.length + found.size ≤ tree.size := by
  induction place generalizing tree with
  | nil =>
    obtain rfl := Option.some.inj h
    simp
  | cons name rest ih =>
    obtain ⟨next, hnext, hrest⟩ := Option.bind_eq_some_iff.1 h
    have hle := ih hrest
    have hnext := size_le_of_find? hnext
    rw [size_eq tree, List.length_cons]
    omega

mutual

/-- **Children are in order and their names valid**, throughout the tree. This is what makes a
forest the same as a map of places: no name stands twice among siblings, and their order is
fixed. -/
def Lawful : NamedTree α → Prop
  | node _ children => Keyed.Ordered children ∧ LawfulEach children

/-- The names of a list are valid, and its trees lawful. -/
def LawfulEach : List (String × NamedTree α) → Prop
  | [] => True
  | (name, tree) :: rest => ValidName name ∧ Lawful tree ∧ LawfulEach rest

end

theorem lawfulEach_iff {forest : List (String × NamedTree α)} :
    LawfulEach forest ↔ ∀ entry ∈ forest, ValidName entry.1 ∧ entry.2.Lawful := by
  induction forest with
  | nil => simp [LawfulEach]
  | cons entry rest ih => simp [LawfulEach, ih, and_assoc]

theorem lawful_iff {tree : NamedTree α} :
    tree.Lawful ↔ Keyed.Ordered tree.children
      ∧ ∀ entry ∈ tree.children, ValidName entry.1 ∧ entry.2.Lawful := by
  obtain ⟨label, children⟩ := tree
  rw [← lawfulEach_iff]
  rfl

end NamedTree

namespace NamedForest

variable {α β : Type}

/-- **Induction on a forest**: into the children of the first tree, and on to the other trees. The
recursion is the one that most functions on forests have, so their equations fit its two cases. -/
@[elab_as_elim]
theorem induction {motive : NamedForest α → Prop} (nil : motive [])
    (cons : ∀ name label children rest, motive children → motive rest →
      motive ((name, .node label children) :: rest)) :
    ∀ forest, motive forest
  | [] => nil
  | (name, .node label children) :: rest =>
    cons name label children rest (induction nil cons children) (induction nil cons rest)

/-- **Induction on what lies beneath the trees of a forest.** Here the trees of a forest are taken
all at once, as a walk by a place does. -/
@[elab_as_elim]
theorem inductionOnChildren {motive : NamedForest α → Prop}
    (step : ∀ forest, (∀ entry ∈ forest, motive entry.2.children) → motive forest)
    (forest : NamedForest α) : motive forest := by
  refine step forest ?_
  induction forest using induction with
  | nil => simp
  | cons name label children rest ihc ihr =>
    intro entry h
    rcases List.mem_cons.1 h with rfl | h
    · exact step children ihc
    · exact ihr entry h

/-- **Induction on a tree** by its children. It is the form for what is said of one tree, with its
subtrees for the hypotheses. -/
@[elab_as_elim]
theorem inductionOnTree {motive : NamedTree α → Prop}
    (step : ∀ tree : NamedTree α, (∀ entry ∈ tree.children, motive entry.2) → motive tree)
    (tree : NamedTree α) : motive tree := by
  refine step tree ?_
  induction tree.children using inductionOnChildren with
  | step forest ih => exact fun entry h => step entry.2 (ih entry h)

/-! ## Looking up a place

A place is followed name by name, a tree being found among those of one list and the next
among its children. The empty place is that of no tree, but there is something beneath it:
the forest. So statements about what lies beneath a place hold for all places, and
statements about trees for those with a last name. -/

/-- The tree at a place. -/
def at? : List String → NamedForest α → Option (NamedTree α)
  | [], _ => none
  | name :: rest, forest => (Keyed.find? name forest).bind (NamedTree.at? rest)

/-- **The label at a place.** -/
def labelAt? (place : List String) (forest : NamedForest α) : Option α :=
  (at? place forest).map NamedTree.label

/-- What lies beneath a place. -/
def below? : List String → NamedForest α → Option (NamedForest α)
  | [], forest => some forest
  | name :: rest, forest => (Keyed.find? name forest).bind fun tree => below? rest tree.children

theorem below?_cons (name : String) (rest : List String) (forest : NamedForest α) :
    below? (name :: rest) forest = (at? (name :: rest) forest).map NamedTree.children := by
  induction rest generalizing name forest with
  | nil =>
    show (Keyed.find? name forest).bind _ = ((Keyed.find? name forest).bind _).map _
    rw [Option.map_bind]
    rfl
  | cons next rest ih =>
    show (Keyed.find? name forest).bind _ = ((Keyed.find? name forest).bind _).map _
    rw [Option.map_bind]
    exact congrArg _ (funext fun tree => ih next tree.children)

theorem at?_append {p q : List String} (hq : q ≠ []) (forest : NamedForest α) :
    at? (p ++ q) forest = (below? p forest).bind (at? q) := by
  obtain ⟨name, q, rfl⟩ := List.exists_cons_of_ne_nil hq
  cases p with
  | nil => rfl
  | cons top rest =>
    rw [below?_cons, Option.bind_map]
    show (Keyed.find? top forest).bind _ = ((Keyed.find? top forest).bind _).bind _
    rw [Option.bind_assoc]
    exact congrArg _ (funext fun tree => tree.at?_append rest (name :: q))

/-- The place of a tree has a last name. -/
theorem exists_eq_concat_of_at? {place : List String} {forest : NamedForest α} {tree : NamedTree α}
    (h : at? place forest = some tree) : ∃ init name, place = init ++ [name] := by
  have hne : place ≠ [] := by
    rintro rfl
    simp [at?] at h
  exact ⟨place.dropLast, place.getLast hne, (List.dropLast_concat_getLast hne).symm⟩

theorem below?_of_at? {place : List String} {forest : NamedForest α} {tree : NamedTree α}
    (h : at? place forest = some tree) : below? place forest = some tree.children := by
  cases place with
  | nil => simp [at?] at h
  | cons name rest => rw [below?_cons, h, Option.map_some]

/-- A child of the tree at a place lies at the place with its name. -/
theorem at?_concat {place : List String} {name : String} {forest : NamedForest α}
    {tree child : NamedTree α} (h : at? place forest = some tree)
    (hchild : Keyed.find? name tree.children = some child) :
    at? (place ++ [name]) forest = some child := by
  rw [at?_append (List.cons_ne_nil _ _), below?_of_at? h, Option.bind_some, at?, hchild,
    Option.bind_some]
  rfl

/-- The place above a place with a tree has something beneath it, the last
name of the place among it. -/
theorem exists_below?_of_at? {p : List String} {name : String} {forest : NamedForest α}
    {tree : NamedTree α} (h : at? (p ++ [name]) forest = some tree) :
    ∃ children, below? p forest = some children ∧ Keyed.find? name children = some tree := by
  rw [at?_append (List.cons_ne_nil _ _)] at h
  obtain ⟨children, hchildren, h⟩ := Option.bind_eq_some_iff.1 h
  obtain ⟨found, hfound, h⟩ := Option.bind_eq_some_iff.1 h
  obtain rfl := Option.some.inj h
  exact ⟨children, hchildren, hfound⟩

/-- A tree that is not topmost is a child of the one at the place above. -/
theorem exists_at?_of_at?_concat {place : List String} {name : String} {forest : NamedForest α}
    {tree : NamedTree α} (hplace : place ≠ []) (h : at? (place ++ [name]) forest = some tree) :
    ∃ above, at? place forest = some above ∧ Keyed.find? name above.children = some tree := by
  obtain ⟨children, hchildren, hfind⟩ := exists_below?_of_at? h
  obtain ⟨top, rest, rfl⟩ := List.exists_cons_of_ne_nil hplace
  rw [below?_cons] at hchildren
  obtain ⟨above, habove, rfl⟩ := Option.map_eq_some_iff.1 hchildren
  exact ⟨above, habove, hfind⟩

/-- The names that lead from one place on to another at or beneath it. -/
def relative? : (top place : List String) → Option (List String)
  | [], place => some place
  | _ :: _, [] => none
  | name :: top, other :: place => if name = other then relative? top place else none

theorem relative?_eq_some_iff {top place rest : List String} :
    relative? top place = some rest ↔ place = top ++ rest := by
  induction top generalizing place with
  | nil => simp [relative?]
  | cons name top ih =>
    cases place with
    | nil => simp [relative?]
    | cons other place =>
      rw [relative?, List.cons_append, List.cons.injEq]
      split <;> rename_i h
      · rw [ih, and_iff_right h.symm]
      · simp [Ne.symm h]

@[simp] theorem relative?_append (top rest : List String) :
    relative? top (top ++ rest) = some rest := relative?_eq_some_iff.2 rfl

theorem relative?_eq_none_iff {top place : List String} :
    relative? top place = none ↔ ∀ rest, place ≠ top ++ rest := by
  rw [Option.eq_none_iff_forall_ne_some]
  exact forall_congr' fun rest => not_congr relative?_eq_some_iff

/-! ## Changing what lies beneath a place

`alter` is the one way in which forests change. It follows a place as looking up does, and
applies a change to the list that it finds there. What it keeps, it keeps for any change
that keeps it. -/

/-- The list with the first value of a name changed. -/
def modify (name : String) (f : NamedTree α → NamedTree α) : NamedForest α → NamedForest α
  | [] => []
  | (other, tree) :: rest =>
    if other = name then (other, f tree) :: rest else (other, tree) :: modify name f rest

/-- **The forest with a change beneath a place.** -/
def alter (f : NamedForest α → NamedForest α) : List String → NamedForest α → NamedForest α
  | [], forest => f forest
  | name :: rest, forest =>
    modify name (fun tree => .node tree.label (alter f rest tree.children)) forest

section Modify

variable {name : String} {f : NamedTree α → NamedTree α}

/-- A change of one tree, seen in the list. -/
theorem modify_eq_of_find? {forest : NamedForest α} {tree : NamedTree α}
    (h : Keyed.find? name forest = some tree) :
    ∃ before after, forest = before ++ (name, tree) :: after
      ∧ ∀ f, modify name f forest = before ++ (name, f tree) :: after := by
  induction forest with
  | nil => simp at h
  | cons head rest ih =>
    obtain ⟨other, first⟩ := head
    unfold Keyed.find? at h
    split at h <;> rename_i hname
    · subst hname
      obtain rfl := Option.some.inj h
      exact ⟨[], rest, rfl, fun f => by simp [modify]⟩
    · obtain ⟨before, after, rfl, hmodify⟩ := ih h
      refine ⟨(other, first) :: before, after, rfl, fun f => ?_⟩
      rw [modify, if_neg hname, hmodify f, List.cons_append]

@[simp] theorem keys_modify (forest : NamedForest α) :
    Keyed.keys (modify name f forest) = Keyed.keys forest := by
  induction forest with
  | nil => rfl
  | cons head rest ih =>
    unfold modify
    split
    · rfl
    · exact congrArg (head.1 :: ·) ih

theorem find?_modify (other : String) (forest : NamedForest α) :
    Keyed.find? other (modify name f forest)
      = if other = name then (Keyed.find? other forest).map f else Keyed.find? other forest := by
  induction forest with
  | nil => simp [modify]
  | cons head rest ih =>
    obtain ⟨key, tree⟩ := head
    unfold modify
    split <;> rename_i hkey
    · subst hkey
      by_cases h : other = key
      · simp [Keyed.find?, h]
      · simp [Keyed.find?, h, Ne.symm h]
    · simp only [Keyed.find?, ih]
      by_cases h : key = other
      · subst h; simp [hkey]
      · simp [h]

theorem lawfulEach_modify {forest : NamedForest α} (h : NamedTree.LawfulEach forest)
    (hf : ∀ tree, Keyed.find? name forest = some tree → (f tree).Lawful) :
    NamedTree.LawfulEach (modify name f forest) := by
  induction forest with
  | nil => trivial
  | cons head rest ih =>
    obtain ⟨key, tree⟩ := head
    obtain ⟨hkey, htree, hrest⟩ := h
    unfold modify
    split <;> rename_i hname
    · exact ⟨hkey, hf tree (by simp [Keyed.find?, hname]), hrest⟩
    · exact ⟨hkey, htree, ih hrest fun tree h => hf tree (by simp [Keyed.find?, hname, h])⟩

end Modify

/-- A change of a list depends on the change of what is there. -/
theorem modify_congr {name : String} {f g : NamedTree α → NamedTree α} {forest : NamedForest α}
    (h : ∀ tree, Keyed.find? name forest = some tree → f tree = g tree) :
    modify name f forest = modify name g forest := by
  induction forest with
  | nil => rfl
  | cons head rest ih =>
    obtain ⟨other, tree⟩ := head
    rw [modify, modify]
    split <;> rename_i hname
    · rw [h tree (by rw [Keyed.find?, if_pos hname])]
    · rw [ih fun found hfound => h found (by rw [Keyed.find?, if_neg hname, hfound])]

theorem modify_id (name : String) (forest : NamedForest α) : modify name id forest = forest := by
  induction forest with
  | nil => rfl
  | cons head rest ih =>
    rw [modify]
    split
    · rfl
    · rw [ih]

/-- A change beneath a place depends on what it does to what is there. -/
theorem alter_congr {f g : NamedForest α → NamedForest α} {place : List String}
    {forest : NamedForest α} (h : ∀ children, below? place forest = some children →
      f children = g children) : alter f place forest = alter g place forest := by
  induction place generalizing forest with
  | nil => exact h forest rfl
  | cons name rest ih =>
    refine modify_congr fun tree htree => ?_
    refine congrArg _ (ih fun children hchildren => h children ?_)
    rw [below?, htree, Option.bind_some, hchildren]

@[simp] theorem alter_id (place : List String) (forest : NamedForest α) :
    alter id place forest = forest := by
  induction place generalizing forest with
  | nil => rfl
  | cons name rest ih =>
    refine Eq.trans (modify_congr fun tree _ => ?_) (modify_id name forest)
    rw [ih]
    cases tree
    rfl

/-- Beneath the place, there is what the change makes of what was there. -/
theorem at?_alter_append (f : NamedForest α → NamedForest α) (p : List String) {q : List String}
    (hq : q ≠ []) (forest : NamedForest α) :
    at? (p ++ q) (alter f p forest) = (below? p forest).bind fun children => at? q (f children) := by
  induction p generalizing forest with
  | nil => rfl
  | cons name rest ih =>
    show (Keyed.find? name (modify name _ forest)).bind _
      = ((Keyed.find? name forest).bind _).bind _
    rw [find?_modify, if_pos rfl, Option.bind_map, Option.bind_assoc]
    refine congrArg _ (funext fun tree => ?_)
    obtain ⟨next, rest', h⟩ := List.exists_cons_of_ne_nil
      (List.append_ne_nil_of_right_ne_nil rest hq)
    show NamedTree.at? (rest ++ q) _ = _
    rw [← ih tree.children, h]
    rfl

/-- The place itself has beneath it what the change makes of what was there. -/
theorem below?_alter (f : NamedForest α → NamedForest α) (p : List String)
    (forest : NamedForest α) : below? p (alter f p forest) = (below? p forest).map f := by
  induction p generalizing forest with
  | nil => rfl
  | cons name rest ih =>
    show (Keyed.find? name (modify name _ forest)).bind _ = ((Keyed.find? name forest).bind _).map f
    rw [find?_modify, if_pos rfl, Option.bind_map, Option.map_bind]
    exact congrArg _ (funext fun tree => ih tree.children)

/-- Elsewhere, the labels stay as they are. -/
theorem labelAt?_alter_of_not_below (f : NamedForest α → NamedForest α) (p : List String)
    {q : List String} (h : ∀ r, r ≠ [] → q ≠ p ++ r) (forest : NamedForest α) :
    labelAt? q (alter f p forest) = labelAt? q forest := by
  induction p generalizing q forest with
  | nil =>
    cases q with
    | nil => rfl
    | cons name rest => exact absurd rfl (h (name :: rest) (List.cons_ne_nil _ _))
  -- The two paths are walked together: they part at the first name that differs, and `h` says that
  -- `q` does not go on where `p` ends.
  | cons name rest ih =>
    cases q with
    | nil => rfl
    | cons other q =>
      show ((Keyed.find? other (modify name _ forest)).bind _).map _
        = ((Keyed.find? other forest).bind _).map _
      rw [find?_modify]
      split <;> rename_i hname
      · rw [Option.bind_map, Option.map_bind, Option.map_bind]
        refine congrArg _ (funext fun tree => ?_)
        cases q with
        | nil => rfl
        | cons next q =>
          have hrest : ∀ r, r ≠ [] → next :: q ≠ rest ++ r := fun r hr he =>
            h r hr (by rw [hname, he, List.cons_append])
          exact ih hrest tree.children
      · rfl

/-- The law of a forest: its names are valid and in order, throughout. -/
structure Lawful (forest : NamedForest α) : Prop where
  /-- The topmost names are in order. -/
  ordered : Keyed.Ordered forest
  /-- Names are valid, and what lies beneath them is lawful. -/
  each : NamedTree.LawfulEach forest

theorem Lawful.nil : Lawful ([] : NamedForest α) := ⟨List.Pairwise.nil, trivial⟩

/-- Without its first tree, a lawful forest is lawful. -/
theorem Lawful.tail {entry : String × NamedTree α} {rest : NamedForest α}
    (h : Lawful (entry :: rest)) : Lawful rest :=
  ⟨(List.pairwise_cons.1 h.ordered).2, NamedTree.lawfulEach_iff.2 fun other hother =>
    NamedTree.lawfulEach_iff.1 h.each other (List.mem_cons_of_mem _ hother)⟩

/-- What lies beneath a tree of a lawful forest is lawful. -/
theorem Lawful.of_mem {entry : String × NamedTree α} {forest : NamedForest α}
    (h : Lawful forest) (hmem : entry ∈ forest) : Lawful entry.2.children := by
  obtain ⟨name, label, children⟩ := entry
  obtain ⟨hordered, heach⟩ := (NamedTree.lawfulEach_iff.1 h.each _ hmem).2
  exact ⟨hordered, heach⟩

/-- A tree of a lawful forest is lawful by itself. -/
theorem Lawful.singleton {name : String} {tree : NamedTree α} {forest : NamedForest α}
    (h : Lawful forest) (htree : Keyed.find? name forest = some tree) :
    Lawful [(name, tree)] :=
  have hentry := NamedTree.lawfulEach_iff.1 h.each _ (Keyed.mem_of_find? htree)
  ⟨List.pairwise_singleton _ _, hentry.1, hentry.2, trivial⟩

theorem Lawful.below {p : List String} {forest children : NamedForest α} (h : Lawful forest)
    (hp : below? p forest = some children) : Lawful children := by
  induction p generalizing forest with
  | nil => exact Option.some.inj hp ▸ h
  | cons name rest ih =>
    obtain ⟨⟨label, next⟩, htree, hp⟩ := Option.bind_eq_some_iff.1 hp
    have hnext := (NamedTree.lawfulEach_iff.1 h.each _ (Keyed.mem_of_find? htree)).2
    exact ih ⟨hnext.1, hnext.2⟩ hp

theorem Lawful.alter {f : NamedForest α → NamedForest α} {p : List String}
    {forest : NamedForest α} (h : Lawful forest)
    (hf : ∀ children, below? p forest = some children → Lawful (f children)) :
    Lawful (alter f p forest) := by
  induction p generalizing forest with
  | nil => exact hf forest rfl
  | cons name rest ih =>
    refine ⟨Keyed.ordered_of_keys_eq (keys_modify _) h.ordered, lawfulEach_modify h.each ?_⟩
    rintro ⟨label, next⟩ htree
    have hnext := (NamedTree.lawfulEach_iff.1 h.each _ (Keyed.mem_of_find? htree)).2
    have hrest := ih ⟨hnext.1, hnext.2⟩ fun children hchildren => hf children (by
      show (Keyed.find? name forest).bind _ = _
      rw [htree]
      exact hchildren)
    exact ⟨hrest.ordered, hrest.each⟩

theorem Lawful.erase {name : String} {forest : NamedForest α} (h : Lawful forest) :
    Lawful (Keyed.erase name forest) :=
  ⟨Keyed.ordered_erase h.ordered, NamedTree.lawfulEach_iff.2 fun entry he =>
    NamedTree.lawfulEach_iff.1 h.each entry (Keyed.mem_erase he)⟩

theorem Lawful.insert {name : String} {tree : NamedTree α} {forest : NamedForest α}
    (h : Lawful forest) (hname : ValidName name) (htree : tree.Lawful) :
    Lawful (Keyed.insert name tree forest) := by
  refine ⟨Keyed.ordered_insert h.ordered, NamedTree.lawfulEach_iff.2 fun entry he => ?_⟩
  rcases Keyed.mem_insert he with rfl | he
  · exact ⟨hname, htree⟩
  · exact NamedTree.lawfulEach_iff.1 h.each entry he

/-- Every name on the way to a tree of a lawful forest is valid. -/
theorem Lawful.validName {place : List String} {forest : NamedForest α} {tree : NamedTree α}
    (h : Lawful forest) (hplace : at? place forest = some tree) :
    ∀ name ∈ place, ValidName name := by
  -- The way down is followed name by name: the children of a lawful tree are a lawful forest.
  induction place generalizing forest with
  | nil => simp
  | cons top rest ih =>
    obtain ⟨⟨label, next⟩, htop, hrest⟩ := Option.bind_eq_some_iff.1 hplace
    obtain ⟨hvalid, hnext⟩ := NamedTree.lawfulEach_iff.1 h.each _ (Keyed.mem_of_find? htop)
    intro name hname
    rcases List.mem_cons.1 hname with rfl | hname
    · exact hvalid
    cases rest with
    | nil => simp at hname
    | cons second rest => exact ih ⟨hnext.1, hnext.2⟩ hrest name hname

/-- Every name on the way to a tree below a lawful one is valid. -/
theorem validName_of_at? {place : List String} {tree found : NamedTree α} (h : tree.Lawful)
    (hplace : tree.at? place = some found) : ∀ name ∈ place, ValidName name := by
  cases place with
  | nil => simp
  | cons top rest =>
    obtain ⟨label, children⟩ := tree
    exact Lawful.validName ⟨h.1, h.2⟩ hplace

/-! ## The labels after a change

An entry beneath a place is taken out or brought in. For any other place, either it goes
through that entry, and then the rest of the way decides, or it is not affected. -/

/-- A place beneath `p` is at or beneath the entry `name` there if that is its
next name. -/
theorem relative?_entry (p : List String) (name other : String) (rest : List String) :
    relative? (p ++ [name]) (p ++ other :: rest) = if other = name then some rest else none := by
  induction p with
  | nil =>
    by_cases h : other = name
    · simp [relative?, h]
    · simp [relative?, h, Ne.symm h]
  | cons top p ih =>
    show (if top = top then _ else none) = _
    rw [if_pos rfl]
    exact ih

/-- A place that is not beneath `p` is not beneath an entry there. -/
theorem relative?_entry_of_not_below {p q : List String} (name : String)
    (h : ∀ r, r ≠ [] → q ≠ p ++ r) : relative? (p ++ [name]) q = none :=
  relative?_eq_none_iff.2 fun rest he =>
    h (name :: rest) (List.cons_ne_nil _ _) (by rw [he, List.append_assoc, List.singleton_append])

/-- **Taking out an entry takes out the labels at and beneath its place**, and no others. The
change happens in the forest beneath `p`, which may be the whole. -/
theorem labelAt?_erase {p : List String} {name : String} {forest : NamedForest α}
    (h : Lawful forest) (q : List String) :
    labelAt? q (alter (Keyed.erase name) p forest)
      = match relative? (p ++ [name]) q with
        | some _ => none
        | none => labelAt? q forest := by
  -- Only beneath `p` can the label have changed, and there the next name decides.
  by_cases hbelow : ∃ r, r ≠ [] ∧ q = p ++ r
  · obtain ⟨r, hr, rfl⟩ := hbelow
    obtain ⟨other, rest, rfl⟩ := List.exists_cons_of_ne_nil hr
    rw [labelAt?, at?_alter_append _ _ hr, labelAt?, at?_append hr, relative?_entry]
    cases hp : below? p forest with
    | none => split <;> rfl
    | some children =>
      show ((Keyed.find? other (Keyed.erase name children)).bind _).map _ = _
      rw [Keyed.find?_erase name other (h.below hp).ordered]
      by_cases ho : other = name
      · rw [if_pos ho, if_pos ho]
        rfl
      · rw [if_neg ho, if_neg ho]
        rfl
  · have hq : ∀ r, r ≠ [] → q ≠ p ++ r := fun r hr he => hbelow ⟨r, hr, he⟩
    rw [labelAt?_alter_of_not_below _ _ hq, relative?_entry_of_not_below name hq]

/-- **Bringing in an entry puts its labels at and beneath its place**, and leaves all others. What
lay at the place before is hidden with all beneath it, as an insertion replaces. -/
theorem labelAt?_insert {p : List String} {name : String} {tree : NamedTree α}
    {forest children : NamedForest α} (hp : below? p forest = some children) (q : List String) :
    labelAt? q (alter (Keyed.insert name tree) p forest)
      = match relative? (p ++ [name]) q with
        | some r => tree.labelAt? r
        | none => labelAt? q forest := by
  -- As for taking out, the next name beneath `p` decides.
  by_cases hbelow : ∃ r, r ≠ [] ∧ q = p ++ r
  · obtain ⟨r, hr, rfl⟩ := hbelow
    obtain ⟨other, rest, rfl⟩ := List.exists_cons_of_ne_nil hr
    rw [labelAt?, at?_alter_append _ _ hr, labelAt?, at?_append hr, hp, relative?_entry]
    show ((Keyed.find? other (Keyed.insert name tree children)).bind _).map _ = _
    rw [Keyed.find?_insert]
    by_cases ho : other = name
    · rw [if_pos ho, if_pos ho]
      rfl
    · rw [if_neg ho, if_neg ho]
      rfl
  · have hq : ∀ r, r ≠ [] → q ≠ p ++ r := fun r hr he => hbelow ⟨r, hr, he⟩
    rw [labelAt?_alter_of_not_below _ _ hq, relative?_entry_of_not_below name hq]

/-! ## A forest is its labels

In a lawful forest the names are in order, so the list of trees can be recovered from what
is found under each name. -/

/-- **A lawful forest is determined by the labels at all places.** So it is enough to compare two
forests place by place. -/
theorem ext_labelAt? {forest other : NamedForest α} (hf : Lawful forest) (ho : Lawful other)
    (h : ∀ q, labelAt? q forest = labelAt? q other) : forest = other := by
  induction forest using inductionOnChildren generalizing other with
  | step forest ih =>
    refine Keyed.ext_find? hf.ordered ho.ordered fun name => ?_
    have hname := h [name]
    cases hfind : Keyed.find? name forest with
    | none =>
      cases hfind' : Keyed.find? name other with
      | none => rfl
      | some tree => simp [labelAt?, at?, hfind, hfind', NamedTree.at?] at hname
    | some tree =>
      cases hfind' : Keyed.find? name other with
      | none => simp [labelAt?, at?, hfind, hfind', NamedTree.at?] at hname
      | some tree' =>
        have hlabel : tree.label = tree'.label := by
          simpa [labelAt?, at?, hfind, hfind', NamedTree.at?] using hname
        have hmem := Keyed.mem_of_find? hfind
        have hlaw := (NamedTree.lawfulEach_iff.1 hf.each _ hmem).2
        have hlaw' := (NamedTree.lawfulEach_iff.1 ho.each _ (Keyed.mem_of_find? hfind')).2
        -- Beneath the name, the two trees have the labels of the forests there.
        have hbelow : ∀ q, labelAt? q tree.children = labelAt? q tree'.children := fun q => by
          cases q with
          | nil => rfl
          | cons next q =>
            have hq := h (name :: next :: q)
            simp only [labelAt?, at?, hfind, hfind', Option.bind_some] at hq
            exact hq
        have hchildren : tree.children = tree'.children := by
          refine ih (name, tree) hmem ?_ ?_ hbelow
          · cases tree; exact ⟨hlaw.1, hlaw.2⟩
          · cases tree'; exact ⟨hlaw'.1, hlaw'.2⟩
        cases tree
        cases tree'
        simp only [NamedTree.label, NamedTree.children] at hlabel hchildren
        rw [hlabel, hchildren]

/-- The forest with every label changed. -/
def mapLabels (f : α → β) : NamedForest α → NamedForest β
  | [] => []
  | (name, .node label children) :: rest =>
    (name, .node (f label) (mapLabels f children)) :: mapLabels f rest

theorem mapLabels_eq (f : α → β) (forest : NamedForest α) :
    mapLabels f forest
      = Keyed.mapValues (fun tree => .node (f tree.label) (mapLabels f tree.children)) forest := by
  induction forest using induction with
  | nil => rw [mapLabels]; rfl
  | cons name label children rest _ ih => rw [mapLabels, ih]; rfl

theorem at?_mapLabels (f : α → β) (place : List String) (forest : NamedForest α) :
    at? place (mapLabels f forest)
      = (at? place forest).map fun tree => .node (f tree.label) (mapLabels f tree.children) := by
  induction place generalizing forest with
  | nil => rfl
  | cons name rest ih =>
    rw [at?, at?, mapLabels_eq, Keyed.find?_mapValues]
    cases Keyed.find? name forest with
    | none => rfl
    | some tree =>
      cases rest with
      | nil => rfl
      | cons next rest => exact ih tree.children

theorem labelAt?_mapLabels (f : α → β) (place : List String) (forest : NamedForest α) :
    labelAt? place (mapLabels f forest) = (labelAt? place forest).map f := by
  rw [labelAt?, labelAt?, at?_mapLabels, Option.map_map, Option.map_map]
  rfl

theorem Lawful.mapLabels {f : α → β} {forest : NamedForest α} (h : Lawful forest) :
    Lawful (mapLabels f forest) := by
  induction forest using inductionOnChildren with
  | step forest ih =>
    rw [mapLabels_eq]
    refine ⟨Keyed.ordered_mapValues _ h.ordered, NamedTree.lawfulEach_iff.2 fun entry he => ?_⟩
    obtain ⟨⟨name, ⟨label, children⟩⟩, hmem, rfl⟩ := List.mem_map.1 he
    obtain ⟨hname, hlaw⟩ := NamedTree.lawfulEach_iff.1 h.each _ hmem
    have hchildren := ih _ hmem ⟨hlaw.1, hlaw.2⟩
    exact ⟨hname, hchildren.ordered, hchildren.each⟩

theorem sizeForest_mapLabels (f : α → β) (forest : NamedForest α) :
    NamedTree.sizeForest (mapLabels f forest) = NamedTree.sizeForest forest := by
  induction forest using induction with
  | nil => rw [mapLabels]; rfl
  | cons name label children rest ihc ihr =>
    rw [mapLabels, NamedTree.sizeForest, NamedTree.sizeForest, NamedTree.size, NamedTree.size, ihc,
      ihr]

/-! ## All places

The places are listed as they are met when every tree is passed before its children. This
is the order in which a store lists its paths. -/

/-- **All places of a forest that lies beneath `above`**, every tree before those beneath it. This
is the order in which a store lists its paths. -/
def places (above : List String) : NamedForest α → List (List String)
  | [] => []
  | (name, .node _ children) :: rest =>
    (above ++ [name]) :: (places (above ++ [name]) children ++ places above rest)

theorem length_places (above : List String) (forest : NamedForest α) :
    (places above forest).length = NamedTree.sizeForest forest := by
  induction forest using induction generalizing above with
  | nil => rw [places]; rfl
  | cons name label children rest ihc ihr =>
    rw [places, List.length_cons, List.length_append, ihc, ihr, NamedTree.sizeForest,
      NamedTree.size]
    omega

theorem places_mapLabels (f : α → β) (above : List String) (forest : NamedForest α) :
    places above (mapLabels f forest) = places above forest := by
  induction forest using induction generalizing above with
  | nil => rw [mapLabels, places, places]
  | cons name label children rest ihc ihr => rw [mapLabels, places, places, ihc, ihr]

/-- A place begins with the one above all, and a name follows. -/
theorem exists_of_mem_places {above place : List String} {forest : NamedForest α}
    (h : place ∈ places above forest) :
    ∃ name rest, place = above ++ name :: rest ∧ name ∈ Keyed.keys forest := by
  induction forest using induction generalizing above with
  | nil => rw [places] at h; simp at h
  | cons name label children rest ihc ihr =>
    rw [places, List.mem_cons, List.mem_append] at h
    rcases h with rfl | h | h
    · exact ⟨name, [], rfl, List.mem_cons_self⟩
    · obtain ⟨next, r, rfl, -⟩ := ihc h
      exact ⟨name, next :: r, by simp, List.mem_cons_self⟩
    · obtain ⟨next, r, rfl, hnext⟩ := ihr h
      exact ⟨next, r, rfl, List.mem_cons_of_mem _ hnext⟩

/-- No place of the first tree is one of the others. -/
theorem not_mem_places_of_ordered (above : List String) {name : String} {tree : NamedTree α}
    {rest : NamedForest α} (h : Keyed.Ordered ((name, tree) :: rest)) (r : List String) :
    above ++ name :: r ∉ places above rest := by
  intro hmem
  obtain ⟨other, r', he, hother⟩ := exists_of_mem_places hmem
  obtain ⟨rfl, -⟩ := List.cons.inj (List.append_cancel_left he)
  obtain ⟨entry, hentry, he⟩ := List.mem_map.1 hother
  exact String.lt_irrefl _ (he ▸ (List.pairwise_cons.1 h).1 entry hentry)

/-- The places of a part of a forest are places of the forest. -/
theorem isSome_at?_of_mem_places {above place : List String} {part forest : NamedForest α}
    (hforest : Lawful forest) (hpart : ∀ entry ∈ part, at? (above ++ [entry.1]) forest = some entry.2)
    (h : place ∈ places above part) : (at? place forest).isSome := by
  induction part using induction generalizing above with
  | nil => rw [places] at h; simp at h
  | cons name label children rest ihc ihr =>
    have hat : at? (above ++ [name]) forest = some (.node label children) :=
      hpart _ List.mem_cons_self
    have hlaw : Lawful children := hforest.below (below?_of_at? hat)
    rw [places, List.mem_cons, List.mem_append] at h
    rcases h with rfl | h | h
    · rw [hat]
      rfl
    · exact ihc (fun entry hentry => at?_concat hat (Keyed.find?_of_mem hlaw.ordered hentry)) h
    · exact ihr (fun entry hentry => hpart entry (List.mem_cons_of_mem _ hentry)) h

theorem mem_places {above place : List String} {forest : NamedForest α} (h : Lawful forest) :
    place ∈ places above forest ↔ ∃ rest, place = above ++ rest ∧ (at? rest forest).isSome := by
  induction forest using induction generalizing above place with
  | nil =>
    rw [places]
    refine ⟨fun hmem => absurd hmem List.not_mem_nil, ?_⟩
    rintro ⟨_ | ⟨name, rest⟩, -, hrest⟩
    · simp [at?] at hrest
    · simp [at?] at hrest
  | cons name label children rest ihc ihr =>
    obtain ⟨⟨-, hlaw, hrest⟩, hord⟩ := And.intro h.each h.ordered
    have hlawr : Lawful rest := ⟨(List.pairwise_cons.1 hord).2, hrest⟩
    have hlawc : Lawful children := ⟨hlaw.1, hlaw.2⟩
    rw [places, List.mem_cons, List.mem_append, ihc hlawc, ihr hlawr]
    constructor
    · rintro (rfl | ⟨r, rfl, hr⟩ | ⟨r, rfl, hr⟩)
      · exact ⟨[name], rfl, by simp [at?, Keyed.find?, NamedTree.at?]⟩
      · obtain ⟨next, r', rfl⟩ := List.exists_cons_of_ne_nil
          (show r ≠ [] by rintro rfl; simp [at?] at hr)
        refine ⟨name :: next :: r', by simp, ?_⟩
        rw [at?, Keyed.find?, if_pos rfl]
        exact hr
      · obtain ⟨other, r', rfl⟩ := List.exists_cons_of_ne_nil
          (show r ≠ [] by rintro rfl; simp [at?] at hr)
        -- A later tree has another name, since names are in order.
        have hne : name ≠ other := by
          rintro rfl
          exact not_mem_places_of_ordered [] hord r' ((ihr hlawr).2 ⟨_, rfl, hr⟩)
        refine ⟨other :: r', rfl, ?_⟩
        rw [at?, Keyed.find?, if_neg hne]
        exact hr
    · rintro ⟨r, rfl, hr⟩
      cases r with
      | nil => simp [at?] at hr
      | cons other r =>
        rw [at?, Keyed.find?] at hr
        split at hr <;> rename_i hname
        · subst hname
          cases r with
          | nil => exact Or.inl rfl
          | cons next r => exact Or.inr (Or.inl ⟨next :: r, by simp, hr⟩)
        · exact Or.inr (Or.inr ⟨other :: r, rfl, hr⟩)

/-- **A later place is neither an earlier one nor above it.** In particular no place comes twice,
and parents come before what lies beneath them. -/
theorem pairwise_places {above : List String} {forest : NamedForest α} (h : Lawful forest) :
    (places above forest).Pairwise fun place later => relative? later place = none := by
  induction forest using induction generalizing above with
  | nil => rw [places]; exact List.Pairwise.nil
  | cons name label children rest ihc ihr =>
    obtain ⟨⟨-, hlaw, hrest⟩, hord⟩ := And.intro h.each h.ordered
    have hmem : ∀ r, above ++ name :: r ∉ places above rest := not_mem_places_of_ordered above hord
    -- The later trees have other names, whatever lies beneath this one.
    have hlater : ∀ r, ∀ later ∈ places above rest, relative? later (above ++ name :: r) = none := by
      intro r later hl
      rw [relative?_eq_none_iff]
      intro r' he
      obtain ⟨other, s, rfl, -⟩ := exists_of_mem_places hl
      rw [List.append_assoc, List.cons_append] at he
      obtain ⟨rfl, -⟩ := List.cons.inj (List.append_cancel_left he)
      exact hmem s hl
    rw [places, List.pairwise_cons, List.pairwise_append]
    refine ⟨fun later hl => ?_, ihc ⟨hlaw.1, hlaw.2⟩, ihr ⟨(List.pairwise_cons.1 hord).2, hrest⟩, ?_⟩
    · rcases List.mem_append.1 hl with hl | hl
      · obtain ⟨next, r, rfl, -⟩ := exists_of_mem_places hl
        rw [relative?_eq_none_iff]
        intro r' he
        simpa using congrArg List.length he
      · exact hlater [] later hl
    · intro place hp later hl
      obtain ⟨next, r, rfl, -⟩ := exists_of_mem_places hp
      rw [List.append_assoc]
      exact hlater (next :: r) later hl

theorem nodup_places {above : List String} {forest : NamedForest α} (h : Lawful forest) :
    (places above forest).Nodup := by
  refine (pairwise_places h).imp fun {place later} hnone he => ?_
  rw [he, relative?_eq_none_iff] at hnone
  exact hnone [] (List.append_nil later).symm

/-- A forest is larger than the tree at a place by the way there at least. -/
theorem length_add_size_le {place : List String} {forest : NamedForest α} {tree : NamedTree α}
    (h : at? place forest = some tree) :
    place.length + tree.size ≤ NamedTree.sizeForest forest + 1 := by
  cases place with
  | nil => simp [at?] at h
  | cons name rest =>
    obtain ⟨top, htop, hrest⟩ := Option.bind_eq_some_iff.1 h
    have hle := NamedTree.length_add_size_le hrest
    have htop := NamedTree.size_le_of_find? htop
    rw [List.length_cons]
    omega

end NamedForest

end Meshwork
