import Meshwork.Proofs.Store.WellFormed

/-!
# Every object lies where it may

The placement rules are checked where an object comes into a store, by one
function for the object itself and by another for the pairs within a
subtree. `PlacementRules` states them one by one, and they are all that the
checks ask for (`fits_iff_placementRules`). `Store.WellPlaced` says that they
hold wherever a store says that one object lies beneath another: along every
entry, along every link upwards, and between paths. Every reachable store has
this (`Store.wellPlaced_after`).

For a geometry the rules have one number of tuples to a name. A name that is
registered for the vertices and for the faces counts vertices, so what lies
there is right for the vertices, and right for the faces only if there are
as many of them (`Store.registered_after`, `Store.not_registered_twice`).
-/

namespace Meshwork

/-- **The placement rules**, for what lies under a name beneath an object. There is one rule for
each kind of parent but groups, beneath which anything may lie. -/
structure PlacementRules (parent : DataObject) (name : String) (child : DataObject) : Prop where
  /-- Nothing lies beneath an array. -/
  array : ∀ a, parent ≠ .array a
  /-- Beneath an attribute matrix lie arrays with its number of tuples. -/
  matrix : ∀ m, parent = .attributeMatrix m →
    ∃ a, child = .array a ∧ a.tupleCount = m.tupleCount.toNat
  /-- Where a geometry asks for a number of tuples, there lies an attribute
  matrix that has it. -/
  geometry : ∀ g count, parent = .geometry g → g.requiredTuples? name = some count →
    ∃ m, child = .attributeMatrix m ∧ m.tupleCount.toNat = count

/-- **What fits is what the rules allow.** The one is a case distinction by which the check is
proved right; the other is how the rules are told. -/
theorem fits_iff_placementRules {parent : DataObject} {name : String} {child : DataObject} :
    Fits parent name child ↔ PlacementRules parent name child := by
  constructor
  · intro h
    -- Each rule speaks of one kind of holder and says nothing of the others.
    cases parent with
    | group => exact ⟨nofun, nofun, nofun⟩
    | array a => exact h.elim
    | attributeMatrix m =>
      refine ⟨nofun, fun other he => ?_, nofun⟩
      obtain rfl := DataObject.attributeMatrix.inj he
      exact h
    | geometry g =>
      refine ⟨nofun, nofun, fun other count he hcount => ?_⟩
      obtain rfl := DataObject.geometry.inj he
      exact h count hcount
  · intro h
    cases parent with
    | group => exact trivial
    | array a => exact h.array a rfl
    | attributeMatrix m => exact h.matrix m rfl
    | geometry g => exact fun count hcount => h.geometry g count rfl hcount

namespace Store

/-- **The placement rules hold** wherever one object lies beneath another. The three fields are
three ways to come from an object to one beneath it. -/
structure WellPlaced (s : Store) : Prop where
  /-- Along an entry of a node. -/
  entry : ∀ holder name id, (name, id) ∈ s.entriesOf (some holder) →
    ∃ above below, s.node? holder = some above ∧ s.node? id = some below
      ∧ PlacementRules above.object name below.object
  /-- Along the link of a node to the one above. -/
  link : ∀ id below holder, s.node? id = some below → below.parent = some holder →
    ∃ above, s.node? holder = some above ∧ PlacementRules above.object below.name below.object
  /-- From the object at a path to the one at the path above. -/
  path : ∀ path above child, path.parent? = some above → s.get? path = some child →
    ∃ parent, s.get? above = some parent ∧ PlacementRules parent path.name child

namespace LaidOut

variable {s : Store} {layout : Layout}

/-- **An object that is not topmost lies beneath one of the layout**, and obeys the rules there.
The object above is the label at the place without its last name. -/
theorem exists_above (h : s.LaidOut layout) (hplaced : PathMap.Placed s.get?)
    {place : List String} {name : String} {tree : LayoutTree} {holder : ObjectId}
    (hat : NamedForest.at? (place ++ [name]) layout = some tree)
    (hholder : Layout.holderAt none place layout = some holder) :
    ∃ above, s.node? holder = some above ∧ PlacementRules above.object name tree.label.object := by
  rcases List.eq_nil_or_concat' place with rfl | ⟨init, top, rfl⟩
  · cases hholder
  obtain ⟨above, habove, -⟩ := NamedForest.exists_at?_of_at?_concat (by simp) hat
  obtain rfl := Option.some.inj ((Layout.holderAt_of_at? habove).symm.trans hholder)
  -- Both places are paths, and the map has at them what the layout has.
  obtain ⟨path, hpath⟩ := h.exists_path hat
  obtain ⟨parent, hparent⟩ := h.exists_path habove
  have hname : path.name = name := by
    rw [path.segments_eq] at hpath
    exact List.singleton_inj.1 (List.append_inj' hpath rfl).2
  have hbeneath : path.parent? = some parent :=
    DataPath.parent?_eq_some_iff.2 (by rw [hpath, hparent, hname])
  have hchild : s.get? path = some tree.label.object := by
    rw [h.get?_eq, hpath, NamedForest.labelAt?, hat]
    rfl
  obtain ⟨object, hobject, hfits⟩ := hplaced path parent tree.label.object hbeneath hchild
  rw [h.get?_eq, hparent, NamedForest.labelAt?, habove] at hobject
  obtain rfl := Option.some.inj hobject
  exact ⟨_, h.node?_eq habove, hname ▸ fits_iff_placementRules.1 hfits⟩

theorem wellPlaced (h : s.LaidOut layout) (hplaced : PathMap.Placed s.get?) : s.WellPlaced where
  entry holder name id hmem := by
    obtain ⟨place, tree, hat, rfl, hholder⟩ := h.mem_entriesOf.1 hmem
    obtain ⟨above, habove, hrules⟩ := h.exists_above hplaced hat hholder
    exact ⟨above, _, habove, h.node?_eq hat, hrules⟩
  link id below holder hnode hholder := by
    obtain ⟨place, name, tree, hat, -, rfl⟩ := h.exists_at?_of_node? hnode
    exact h.exists_above hplaced hat hholder
  path path above child hparent hchild := by
    obtain ⟨parent, hget, hfits⟩ := hplaced path above child hparent hchild
    exact ⟨parent, hget, fits_iff_placementRules.1 hfits⟩

end LaidOut

theorem Sound.wellPlaced {s : Store} (h : s.Sound) : s.WellPlaced := by
  obtain ⟨layout, hlaid⟩ := h.coherent
  exact hlaid.wellPlaced h.placed

/-- **After any operations, the placement rules hold.** No sequence of operations leads around the
checks. -/
theorem wellPlaced_after (operations : List Operation) : (after operations).WellPlaced :=
  (sound_after operations).wellPlaced

end Store

/-! ## Data per vertex and per face

The check asks for one number of tuples under a name, and asks for the vertices first. Two
roles for one name are not excluded, and the second then goes unchecked. -/

namespace Geometry

variable {g : Geometry} {name : String}

/-- A name that is registered for the vertices counts vertices. -/
theorem requiredTuples?_vertexData (h : g.vertexData = some name) :
    g.requiredTuples? name = some g.vertexCount := if_pos h

/-- A name that is registered for the faces counts faces, unless it is registered
for the vertices too. -/
theorem requiredTuples?_faceData (h : g.faceData = some name) :
    g.requiredTuples? name
      = some (if g.vertexData = some name then g.vertexCount else g.faceCount) := by
  unfold requiredTuples?
  rw [if_pos h]
  split <;> rfl

end Geometry

namespace Store

/-- **What lies under the name for the vertices has a tuple for each of them**;
what lies under the name for the faces has a tuple for each of them exactly
if that is another name, or there are as many faces as vertices. -/
theorem registered_after (operations : List Operation) :
    let s := after operations
    ∀ place g, s.get? place = some (.geometry g) →
      ∀ path child, path.parent? = some place → s.get? path = some child →
        (g.vertexData = some path.name →
          ∃ m, child = .attributeMatrix m ∧ m.tupleCount.toNat = g.vertexCount)
        ∧ (g.faceData = some path.name →
          ∃ m, child = .attributeMatrix m ∧ (m.tupleCount.toNat = g.faceCount
            ↔ g.vertexData ≠ some path.name ∨ g.vertexCount = g.faceCount)) := by
  intro s place g hg path child hparent hchild
  obtain ⟨parent, hget, hrules⟩ :=
    (wellPlaced_after operations).path path place child hparent hchild
  obtain rfl := Option.some.inj (hget.symm.trans hg)
  refine ⟨fun hvertex => ?_, fun hface => ?_⟩
  · exact hrules.geometry g _ rfl (Geometry.requiredTuples?_vertexData hvertex)
  · obtain ⟨m, hm, hcount⟩ := hrules.geometry g _ rfl (Geometry.requiredTuples?_faceData hface)
    refine ⟨m, hm, ?_⟩
    rw [hcount]
    -- A name registered for both roles is asked for the tuples of the vertices.
    split <;> rename_i hvertex
    · simp [hvertex]
    · simp [hvertex]

/-- A matrix that has the number of tuples asked for is put beneath a geometry. -/
theorem get?_after_matrix (place : DataPath) (hplace : place.parent? = none) (g : Geometry)
    (name : String) (hname : ValidName name) (m : AttributeMatrix)
    (hcount : ∀ count, g.requiredTuples? name = some count → m.tupleCount.toNat = count) :
    let path := place.push name hname
    let s := after [.create place (.geometry g) false, .create path (.attributeMatrix m) false]
    s.get? place = some (.geometry g) ∧ s.get? path = some (.attributeMatrix m) := by
  intro path s
  have hpath : path.name = name := by simp [path, DataPath.name, DataPath.push]
  have hparent : path.parent? = some place :=
    DataPath.parent?_eq_some_iff.2 (by rw [hpath]; rfl)
  have hne : place ≠ path := fun he => by
    rw [← he, hplace] at hparent
    cases hparent
  let t := (Operation.create place (.geometry g) false).run .empty
  -- Each of the two calls finds its path free and its holder there, so it adds just that.
  have hget : ∀ q, t.get? q = if q = place then some (.geometry g) else empty.get? q :=
    sound_empty.get?_run_create (get?_empty place) fun above habove => by
      rw [hplace] at habove
      cases habove
  have hget' : ∀ q, s.get? q = if q = path then some (.attributeMatrix m) else t.get? q := by
    refine (Operation.sound_run _ sound_empty : t.Sound).get?_run_create ?_ fun above habove => ?_
    · rw [hget, if_neg hne.symm, get?_empty]
    · obtain rfl := Option.some.inj (hparent.symm.trans habove)
      refine ⟨.geometry g, by rw [hget, if_pos rfl], fun count hrequired => ⟨m, rfl, ?_⟩⟩
      exact hcount count (hpath ▸ hrequired)
  constructor
  · rw [hget', if_neg hne, hget, if_pos rfl]
  · rw [hget', if_pos rfl]

/-- Three vertices and one face under one name: the matrix there has three
tuples, which is wrong for the face. -/
theorem not_registered_twice :
    let g : Geometry :=
      ⟨#[.origin, .origin, .origin], [⟨0, 1, 2⟩],
        Geometry.outOfRange?_eq_none_iff.1 (rfl : Geometry.outOfRange? 3 0 _ = none),
        some "D", some "D"⟩
    let place := DataPath.single "G" (by decide)
    let path := place.push "D" (by decide)
    let s := after [.create place (.geometry g) false, .create path (.attributeMatrix ⟨3⟩) false]
    s.get? place = some (.geometry g) ∧ path.parent? = some place ∧ g.faceData = some path.name
      ∧ ∃ child, s.get? path = some child
        ∧ ¬ ∃ m, child = .attributeMatrix m ∧ m.tupleCount.toNat = g.faceCount := by
  intro g place path s
  obtain ⟨hg, hmatrix⟩ := get?_after_matrix place rfl g "D" (by decide) ⟨3⟩
    fun count hcount => Option.some.inj hcount
  obtain ⟨m, hm, hiff⟩ := (registered_after _ place g hg path _ rfl hmatrix).2 rfl
  refine ⟨hg, rfl, rfl, _, hmatrix, fun ⟨other, hother, hcount⟩ => ?_⟩
  obtain rfl := DataObject.attributeMatrix.inj (hother.symm.trans hm)
  -- The name is not another one, and three vertices are not one face.
  rcases hiff.1 hcount with hname | hsame
  · exact hname rfl
  · exact absurd hsame (by decide)

end Store

end Meshwork
