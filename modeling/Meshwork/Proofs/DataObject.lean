import Meshwork.DataObject
import Meshwork.Proofs.Number.Word
import Meshwork.Proofs.Text.Quoted

/-!
# Objects that are told by their canonical rendering

The canonical rendering of an object shows all that the object holds: its kind, its
shape and its contents, floats by their shortest digits (`DataObject.told_canonical`).
What it does not show is which NaN a NaN is, so objects are compared by `DataObject.Same`.

Nothing in a rendering is a zero character (`DataObject.zeroFree_canonical`), which
separates it from a path in front of it.
-/

namespace Meshwork

/-! ## The same objects

Sameness is equality but for floats, where all NaNs count as one. It is what a rendering
can show at most, for there every NaN is written with the same three letters. -/

/-- **Elements are the same**, floats bit by bit except that all NaNs are alike. Elements of
different types are never the same, not even where there are none. -/
def Elements.Same : Elements → Elements → Prop
  | .float32 v, .float32 w => List.Forall₂ Single.Same v w
  | .float64 v, .float64 w => List.Forall₂ Double.Same v w
  | v, w => v = w

/-- Points are the same coordinate by coordinate. -/
def Point.Same (p q : Point) : Prop := p.x.Same q.x ∧ p.y.Same q.y ∧ p.z.Same q.z

/-- **Geometries are the same**: the points, the faces and the names for the data. Points are
compared by their bits, except that a NaN is any NaN; all else is compared as it is. -/
structure Geometry.Same (g h : Geometry) : Prop where
  /-- The points are. -/
  vertices : List.Forall₂ Point.Same g.vertices.toList h.vertices.toList
  /-- The faces are. -/
  faces : g.faces = h.faces
  /-- The name for the vertices is. -/
  vertexData : g.vertexData = h.vertexData
  /-- The name for the faces is. -/
  faceData : g.faceData = h.faceData

/-- **Objects are the same**: kind, shape and contents. This is finer than the comparison of
objects as numbers, for which zeros of both signs are one and a NaN is not even itself. -/
def DataObject.Same : DataObject → DataObject → Prop
  | .array a, .array b => a.elements.Same b.elements ∧ a.components = b.components
  | .geometry g, .geometry h => g.Same h
  | o, o' => o = o'

/-! ## Lists of words

A word is a text without the characters that end an item, so a list of them in brackets
shows each item and where the list ends. -/

/-- An item is a word, so it ends where an item ends. -/
theorem isWordChar_of_endsItem {c : Char} (h : EndsItem c) : isWordChar c = false := by
  rcases h with rfl | rfl <;> decide

/-- **A list of words shows the words.** The brackets show where the list ends, and the commas how
many words there are. -/
theorem told_words {stops : Char → Prop} {xs ys : List String} (hx : ∀ a ∈ xs, IsWord a)
    (hy : ∀ b ∈ ys, IsWord b) :
    Told stops (xs = ys) (bracketed xs).toList (bracketed ys).toList := by
  have hstart : ∀ {text : String}, IsWord text → ∃ c rest, text.toList = c :: rest ∧ c ≠ ']' := by
    intro text h
    obtain ⟨c, rest, htext, hc⟩ := h.cons
    exact ⟨c, rest, htext, by rintro rfl; exact absurd hc (by decide)⟩
  have hlists : Told stops (List.Forall₂ Eq xs ys) (bracketed (xs.map id)).toList
      (bracketed (ys.map id)).toList :=
    told_bracketed (fun a ha => hstart (hx a ha)) (fun b hb => hstart (hy b hb))
      fun a ha b hb => told_of_isWord (fun _ => isWordChar_of_endsItem) (hx a ha) (hy b hb)
  rwa [List.forall₂_eq_eq_eq, List.map_id, List.map_id] at hlists

/-- What has the same texts is alike, one by one. -/
theorem forall₂_of_map_eq {α β : Type} {alike : α → α → Prop} {write : α → β} {xs ys : List α}
    (halike : ∀ a b, write a = write b → alike a b) (h : xs.map write = ys.map write) :
    List.Forall₂ alike xs ys := by
  rw [← List.forall₂_eq_eq_eq, List.forall₂_map_left_iff, List.forall₂_map_right_iff] at h
  exact h.imp fun a b hab => halike a b hab

/-- Numbers with the same digits are the same, one by one. -/
theorem eq_of_map_toString_eq {α β : Type} [ToString β] {value : α → β} {xs ys : List α}
    (hdigits : ∀ {m n : β}, toString m = toString n → m = n)
    (hvalue : ∀ {x y}, value x = value y → x = y)
    (h : xs.map (fun x => toString (value x)) = ys.map fun x => toString (value x)) : xs = ys :=
  (List.map_inj_right fun _ _ h => hvalue (hdigits h)).1 h

/-! ## Arrays

An array is written with its type, its elements and its components. The type comes first
and tells how the elements are to be read. -/

namespace Elements

/-- The texts of truth values in a rendering. -/
def truthText (b : Bool) : String := if b then "true" else "false"

/-- **The texts of elements are words** in a layout without plus signs, if names are words. -/
theorem isWord_texts_of {layout : FloatLayout} (hsign : layout.plusSign = false)
    (hnames : ∀ name ∈ [layout.nan, layout.infinity, layout.negativeInfinity],
      name.toList ≠ [] ∧ name.toList.all isWordChar = true)
    {truth : Bool → String} (htruth : ∀ b, IsWord (truth b)) (e : Elements) :
    ∀ text ∈ e.texts layout truth, IsWord text := by
  cases e <;> simp only [texts, List.mem_map] <;> rintro _ ⟨x, -, rfl⟩
  all_goals first
    | exact isWord_int _
    | exact isWord_nat _
    | exact FloatLayout.isWord_write hsign hnames (by decide) x.toNat
    | exact htruth x

theorem isWord_texts (e : Elements) : ∀ text ∈ e.texts .canonical truthText, IsWord text := by
  have htruth : ∀ b, IsWord (truthText b) := fun b => by
    cases b <;> exact isWord_of_all (by decide) (by decide)
  exact isWord_texts_of rfl (by decide) htruth e

/-- **Elements of one type with the same texts** are the same. For integers and truth values the
texts give the values themselves; for floats this is what shortest digits are for. -/
theorem same_of_texts_eq {e e' : Elements} (htype : e.type = e'.type)
    (h : e.texts .canonical truthText = e'.texts .canonical truthText) : e.Same e' := by
  have htruth : ∀ b b', truthText b = truthText b' → b = b' := by decide
  -- The texts of the elements are compared one by one. Whole numbers and truth values have
  -- different texts if they differ; floats with the same text are the same but for the payload of a
  -- NaN.
  match e, e', htype, h with
  | .int8 _, .int8 _, _, h =>
    exact congrArg _ (eq_of_map_toString_eq toString_int_inj Int8.toInt_inj.1 h)
  | .uint8 _, .uint8 _, _, h =>
    exact congrArg _ (eq_of_map_toString_eq toString_nat_inj UInt8.toNat_inj.1 h)
  | .int16 _, .int16 _, _, h =>
    exact congrArg _ (eq_of_map_toString_eq toString_int_inj Int16.toInt_inj.1 h)
  | .uint16 _, .uint16 _, _, h =>
    exact congrArg _ (eq_of_map_toString_eq toString_nat_inj UInt16.toNat_inj.1 h)
  | .int32 _, .int32 _, _, h =>
    exact congrArg _ (eq_of_map_toString_eq toString_int_inj Int32.toInt_inj.1 h)
  | .uint32 _, .uint32 _, _, h =>
    exact congrArg _ (eq_of_map_toString_eq toString_nat_inj UInt32.toNat_inj.1 h)
  | .int64 _, .int64 _, _, h =>
    exact congrArg _ (eq_of_map_toString_eq toString_int_inj Int64.toInt_inj.1 h)
  | .uint64 _, .uint64 _, _, h =>
    exact congrArg _ (eq_of_map_toString_eq toString_nat_inj UInt64.toNat_inj.1 h)
  | .float32 _, .float32 _, _, h => exact forall₂_of_map_eq (fun _ _ => Single.same_of_write_eq) h
  | .float64 _, .float64 _, _, h => exact forall₂_of_map_eq (fun _ _ => Double.same_of_write_eq) h
  | .bool _, .bool _, _, h => exact congrArg _ ((List.map_inj_right htruth).1 h)

theorem told_canonical {stops : Char → Prop} (e e' : Elements) :
    Told stops (e.Same e') e.canonical.toList e'.canonical.toList := by
  have hnames : ∀ t t' : ElementType, canonicalName t = canonicalName t' → t = t' := by
    intro t t'
    cases t <;> cases t' <;> decide
  have hword : ∀ t, IsWord (canonicalName t) := fun t => by
    cases t <;> exact isWord_of_all (by decide) (by decide)
  have hname : Told (· = '(') (canonicalName e.type = canonicalName e'.type)
      (canonicalName e.type).toList (canonicalName e'.type).toList :=
    told_of_isWord (by rintro c rfl; decide) (hword _) (hword _)
  have hitems : Told (fun _ => True) _ _ _ := told_words (e.isWord_texts) (e'.isWord_texts)
  refine (((hname.closed rfl rfl).next hitems).closed rfl trivial).mono (fun _ => id) ?_
  exact fun ⟨htype, htexts⟩ => same_of_texts_eq (hnames _ _ htype) htexts

end Elements

theorem DataArray.told_canonical {stops : Char → Prop} (a b : DataArray) :
    Told stops (a.elements.Same b.elements ∧ a.components = b.components) a.canonical.toList
      b.canonical.toList := by
  have helements : Told (fun _ => True) (a.elements.Same b.elements) _ _ :=
    Elements.told_canonical a.elements b.elements
  have hcomponents : Told (· = ' ') _ _ _ := told_of_isWord (by rintro c rfl; decide)
    (isWord_nat a.components.toNat) (isWord_nat b.components.toNat)
  refine ((((helements.opened "DataArray \x7b data: ").closed rfl trivial).next hcomponents).closed
    rfl rfl).mono (fun _ => id) ?_
  exact fun ⟨hsame, hcount⟩ => ⟨hsame, UInt64.toNat_inj.1 (toString_nat_inj hcount)⟩

/-! ## Geometries

Points and faces are bracketed lists of three words; a geometry is three lists, an
optional list and two optional names. -/

/-- A list in brackets begins with its bracket. -/
theorem bracketed_cons (items : List String) :
    ∃ c rest, (bracketed items).toList = c :: rest ∧ c ≠ ']' := by
  refine ⟨'[', (", ".intercalate items).toList ++ [']'], ?_, by decide⟩
  rw [bracketed, String.toList_append, String.toList_append, List.append_assoc]
  rfl

theorem Point.isWord_coordinates (p : Point) :
    ∀ text ∈ p.coordinates.map (Single.write .canonical), IsWord text := by
  intro text htext
  obtain ⟨x, -, rfl⟩ := List.mem_map.1 htext
  exact x.isWord_write

theorem Point.told_canonical {stops : Char → Prop} (p q : Point) :
    Told stops (p.Same q) p.canonical.toList q.canonical.toList := by
  refine (told_words p.isWord_coordinates q.isWord_coordinates).mono (fun _ => id) fun h => ?_
  have hsame := forall₂_of_map_eq (fun _ _ => Single.same_of_write_eq) h
  simpa [coordinates, Point.Same] using hsame

theorem Face.isWord_corners (f : Face) :
    ∀ text ∈ f.corners.map (fun i => toString i.toNat), IsWord text := by
  intro text htext
  obtain ⟨i, -, rfl⟩ := List.mem_map.1 htext
  exact isWord_nat i.toNat

theorem Face.told_canonical {stops : Char → Prop} (f g : Face) :
    Told stops (f = g) f.canonical.toList g.canonical.toList := by
  refine (told_words f.isWord_corners g.isWord_corners).mono (fun _ => id) fun h => ?_
  have hcorners : f.corners = g.corners :=
    eq_of_map_toString_eq toString_nat_inj UInt64.toNat_inj.1 h
  cases f
  cases g
  simpa [corners] using hcorners

theorem Geometry.told_canonical {stops : Char → Prop} (g h : Geometry) :
    Told stops (g.Same h) g.canonical.toList h.canonical.toList := by
  have hvertices :
      Told (fun _ => True) (List.Forall₂ Point.Same g.vertices.toList h.vertices.toList) _ _ :=
    told_bracketed (fun p _ => bracketed_cons _) (fun p _ => bracketed_cons _)
    fun p _ q _ => Point.told_canonical p q
  have hfaces : Told (fun _ => True) (List.Forall₂ Eq g.faces h.faces) _ _ :=
    told_bracketed (fun f _ => bracketed_cons _) (fun f _ => bracketed_cons _)
      fun f _ f' _ => Face.told_canonical f f'
  have hvertexData : Told (fun _ => True) _ _ _ := told_quotedOption g.vertexData h.vertexData
  have hfaceData : Told (fun _ => True) _ _ _ := told_quotedOption g.faceData h.faceData
  refine ((((((((hvertices.opened "TriangleGeometry \x7b vertices: ").closed rfl trivial).next
    hfaces).closed rfl trivial).next hvertexData).closed rfl trivial).next hfaceData).closed rfl
      trivial).mono (fun _ => id) ?_
  rintro ⟨⟨⟨hvertices, hfaces⟩, hvertexData⟩, hfaceData⟩
  rw [List.forall₂_eq_eq_eq] at hfaces
  exact ⟨hvertices, hfaces, hvertexData, hfaceData⟩

/-! ## Objects

The kind comes first, and two kinds differ in the first two characters of their
renderings. -/

/-- The first two characters of a rendering. -/
def ObjectKind.initials : ObjectKind → List Char
  | .group => ['G', 'r']
  | .array => ['A', 'r']
  | .attributeMatrix => ['A', 't']
  | .geometry => ['G', 'e']

namespace DataObject

theorem take_canonical (o : DataObject) : o.canonical.toList.take 2 = o.kind.initials := by
  have hbegins : ∀ start middle after : String, 2 ≤ start.toList.length →
      (start ++ middle ++ after).toList.take 2 = start.toList.take 2 := by
    intro start middle after h
    rw [String.toList_append, String.toList_append, List.append_assoc,
      List.take_append_of_le_length h]
  cases o with
  | group => decide
  | array a => exact hbegins "Array(" _ _ (by decide)
  | attributeMatrix m =>
    exact hbegins "AttributeMatrix(AttributeMatrix \x7b tuple_count: " _ _ (by decide)
  | geometry g => exact hbegins "Geometry(" _ _ (by decide)

/-- **Objects are told by their rendering.** So a rendering may stand anywhere within a longer
text, whatever follows it, and still shows its object. -/
theorem told_canonical {stops : Char → Prop} (o o' : DataObject) :
    Told stops (o.Same o') o.canonical.toList o'.canonical.toList := by
  -- Objects of one kind are told by what comes after the name of the kind. For objects of different
  -- kinds the first two characters of the names are enough.
  by_cases hkind : o.kind = o'.kind
  · match o, o', hkind with
    | .group, .group, _ => exact (told_self _).mono (fun _ => id) fun _ => rfl
    | .array a, .array b, _ =>
      have harray : Told (fun _ => True) (a.elements.Same b.elements ∧ a.components = b.components)
          _ _ := a.told_canonical b
      exact (harray.opened "Array(").closed rfl trivial
    | .attributeMatrix m, .attributeMatrix n, _ =>
      have hcount : Told (· = ' ') _ _ _ := told_of_isWord (by rintro c rfl; decide)
        (isWord_nat m.tupleCount.toNat) (isWord_nat n.tupleCount.toNat)
      refine ((hcount.opened "AttributeMatrix(AttributeMatrix \x7b tuple_count: ").closed rfl
        rfl).mono (fun _ => id) fun h => ?_
      have hsame := UInt64.toNat_inj.1 (toString_nat_inj h)
      exact congrArg (fun count => attributeMatrix ⟨count⟩) hsame
    | .geometry g, .geometry h, _ =>
      have hgeometry : Told (fun _ => True) (g.Same h) _ _ := g.told_canonical h
      exact (hgeometry.opened "Geometry(").closed rfl trivial
  · have hinitials : ∀ k k' : ObjectKind, k.initials = k'.initials → k = k' := by
      intro k k'
      cases k <;> cases k' <;> decide
    have hlength : ∀ o : DataObject, 2 ≤ o.canonical.toList.length := by
      intro o
      have htake := congrArg List.length o.take_canonical
      rw [List.length_take] at htake
      have htwo : o.kind.initials.length = 2 := by cases o <;> rfl
      omega
    intro u v _ _ heq
    have htake := congrArg (List.take 2) heq
    rw [List.take_append_of_le_length (hlength o), List.take_append_of_le_length (hlength o'),
      o.take_canonical, o'.take_canonical] at htake
    exact absurd (hinitials _ _ htake) hkind

end DataObject

/-! ## Zero characters

Names may hold any character, but a rendering escapes them. All its other parts are words
and punctuation. -/

/-- **A text without zero characters.** The zero character is what ends a path where paths and
renderings are put one behind the other. -/
def ZeroFree (text : String) : Prop := '\x00' ∉ text.toList

instance (text : String) : Decidable (ZeroFree text) :=
  inferInstanceAs (Decidable ('\x00' ∉ text.toList))

theorem ZeroFree.append {a b : String} (ha : ZeroFree a) (hb : ZeroFree b) : ZeroFree (a ++ b) := by
  unfold ZeroFree
  rw [String.toList_append, List.mem_append, not_or]
  exact ⟨ha, hb⟩

theorem IsWord.zeroFree {text : String} (h : IsWord text) : ZeroFree text := fun hzero =>
  absurd (h.chars _ hzero) (by decide)

theorem zeroFree_bracketed {items : List String} (h : ∀ text ∈ items, ZeroFree text) :
    ZeroFree (bracketed items) := by
  have hitems : ZeroFree (", ".intercalate items) := by
    induction items with
    | nil => decide
    | cons first rest ih =>
      have hfirst := h first List.mem_cons_self
      cases rest with
      | nil => rwa [String.intercalate_singleton]
      | cons next rest =>
        rw [String.intercalate_cons_cons]
        have hrest := ih fun text ht => h text (List.mem_cons_of_mem _ ht)
        exact (hfirst.append (by decide)).append hrest
  exact (ZeroFree.append (by decide) hitems).append (by decide)

/-- Between quotation marks, a zero character is an escape. -/
theorem zeroFree_quoted (text : String) : ZeroFree (quoted text) := by
  unfold ZeroFree
  rw [quoted, String.toList_ofList]
  have hchar : ∀ c, '\x00' ∉ escapeChar '"' c := by
    intro c
    have hletter : ∀ p ∈ shortEscapes, p.2 ≠ '\x00' := by decide
    -- A character is kept as it is only if it is not the zero character, and an escape consists of
    -- a backslash and letters or digits.
    rcases escapeChar_cases c with ⟨hc, -, -, hzero, -⟩ | ⟨letter, hmem, hc⟩ | hc <;> rw [hc]
    · simp [Ne.symm hzero]
    · simp [Ne.symm (hletter _ hmem)]
    · simp only [List.mem_cons, List.mem_append, List.not_mem_nil, or_false]
      rintro (h | h | h | h | h)
      · exact absurd h (by decide)
      · exact absurd h (by decide)
      · exact absurd h (by decide)
      · exact absurd (mem_of_mem_hexDigits h) (by decide)
      · exact absurd h (by decide)
  simp [hchar]

theorem zeroFree_quotedOption (text : Option String) : ZeroFree (quotedOption text) := by
  cases text with
  | none => decide
  | some text => exact (ZeroFree.append (by decide) (zeroFree_quoted text)).append (by decide)

/-- **A rendering has no zero character**, whatever the names that it shows. Names are the only
part that a user chooses freely, and they stand between quotation marks, where the zero character
has an escape. -/
theorem DataObject.zeroFree_canonical (o : DataObject) : ZeroFree o.canonical := by
  have hnat : ∀ n : Nat, ZeroFree (toString n) := fun n => (isWord_nat n).zeroFree
  have hpoint : ∀ p : Point, ZeroFree p.canonical := fun p =>
    zeroFree_bracketed fun text htext => (p.isWord_coordinates text htext).zeroFree
  have hface : ∀ f : Face, ZeroFree f.canonical := fun f =>
    zeroFree_bracketed fun text htext => (f.isWord_corners text htext).zeroFree
  -- The rendering is put together from fixed pieces, words, and quoted names, none of which has a
  -- zero character.
  cases o with
  | group => decide
  | array a =>
    have hname : ∀ t, ZeroFree (Elements.canonicalName t) := fun t => by cases t <;> decide
    have helements : ZeroFree a.elements.canonical :=
      (((hname _).append (by decide)).append
        (zeroFree_bracketed fun text ht => (a.elements.isWord_texts text ht).zeroFree)).append
          (by decide)
    have harray : ZeroFree a.canonical :=
      ((((ZeroFree.append (by decide) helements).append (by decide)).append (hnat _)).append
        (by decide))
    exact (ZeroFree.append (by decide) harray).append (by decide)
  | attributeMatrix m => exact (ZeroFree.append (by decide) (hnat _)).append (by decide)
  | geometry g =>
    have hgeometry : ZeroFree g.canonical := by
      refine (((((((ZeroFree.append (by decide) (zeroFree_bracketed ?_)).append (by decide)).append
        (zeroFree_bracketed ?_)).append (by decide)).append (zeroFree_quotedOption _)).append
          (by decide)).append (zeroFree_quotedOption _)).append (by decide)
      · intro text htext
        obtain ⟨p, -, rfl⟩ := List.mem_map.1 htext
        exact hpoint p
      · intro text htext
        obtain ⟨f, -, rfl⟩ := List.mem_map.1 htext
        exact hface f
    exact (ZeroFree.append (by decide) hgeometry).append (by decide)

end Meshwork
