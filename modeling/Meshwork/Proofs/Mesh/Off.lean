import Mathlib.Algebra.BigOperators.Group.List.Basic
import Mathlib.Algebra.GroupWithZero.Nat
import Mathlib.Data.List.Forall2
import Meshwork.Proofs.Failure
import Meshwork.Proofs.Mesh.Rows
import Meshwork.Proofs.Text.Utf8

/-!
# OFF texts and their meshes

A text describes a mesh if its rows of words are those of a header, of the vertices and of the
polygons (`Off.Describes`). Reading such a text gives the vertices, and the triangles of each
polygon around its first corner (`Off.IsFan`). No other text is read, and what is refused is
refused as not of the format (`Off.reads`).
-/

namespace Meshwork.Off

/-! ## Descriptions

A description is a relation between a text and a mesh, given by rows of words. It allows
what the format allows: more numbers on a row than are needed, and anything behind the
last face. -/

/-- **A word is a number of the machine**: digits, with a plus sign or without. Zeros at the
beginning are allowed, and a number that is no word is excluded. -/
def IsNumeral (word : List Char) (n : UInt64) : Prop :=
  ∃ digits, (word = digits ∨ word = '+' :: digits) ∧ digits ≠ []
    ∧ (∀ c ∈ digits, isDecimalDigit c = true) ∧ Decimal.ofDigits digits = n.toNat

/-- **A row is that of a vertex**: three coordinates, and perhaps more numbers. The numbers behind
the coordinates may be colors, and they are read but not kept. -/
def VertexRow (row : List (List Char)) (p : Point) : Prop :=
  ∃ more, List.Forall₂ (fun word x => Single.ofText? word = some x) row (p.x :: p.y :: p.z :: more)

/-- **A row is that of a polygon**: how many corners it has, three at least, the corners, and
perhaps more numbers. The first number is the count, and the corners come next. -/
def PolygonRow (row : List (List Char)) (corners : List UInt64) : Prop :=
  3 ≤ corners.length ∧ ∃ (count : UInt64) (more : List UInt64), count.toNat = corners.length
    ∧ List.Forall₂ IsNumeral row (count :: (corners ++ more))

/-- **A row is that of the counts**: the numbers of vertices and of faces, and perhaps more
numbers. The third number is usually that of the edges, which nobody needs. -/
def Counts (row : List (List Char)) (vertexCount faceCount : Nat) : Prop :=
  ∃ (vertices faces : UInt64) (more : List UInt64),
    List.Forall₂ IsNumeral row (vertices :: faces :: more)
      ∧ vertices.toNat = vertexCount ∧ faces.toNat = faceCount

/-- **Rows are a header**: the word `OFF` and the counts, on one row or on two. With the counts on
a row of their own, the first row is the word alone. -/
def Header (rows : List (List (List Char))) (vertexCount faceCount : Nat) : Prop :=
  ∃ counts, (rows = [name.toList :: counts] ∨ rows = [[name.toList], counts])
    ∧ Counts counts vertexCount faceCount

/-- **A text describes a mesh** of so many vertices and polygons. Whatever follows the rows that
are counted is ignored, because the rows come first among those of the text. -/
def Describes (text : String) (vertices : List Point) (polygons : List (List UInt64)) : Prop :=
  ∃ header vertexRows polygonRows,
    Rows (header ++ vertexRows ++ polygonRows) text.toList
      ∧ Header header vertices.length polygons.length
      ∧ List.Forall₂ VertexRow vertexRows vertices ∧ List.Forall₂ PolygonRow polygonRows polygons

/-- **Triangles are those of a polygon** around its first corner: one for each of its sides that
the corner is not on. The two fields determine the triangles, since they say each of them and how
many there are. -/
structure IsFan (corners : List UInt64) (triangles : List Face) : Prop where
  /-- There are two less than corners. -/
  length_eq : triangles.length = corners.length - 2
  /-- Each has the first corner and the next two of the others. -/
  getElem?_eq : ∀ i (h : i + 2 < corners.length),
    triangles[i]? = some ⟨corners[0], corners[i + 1], corners[i + 2]⟩

/-- **The triangles of a polygon are its fan**: all of them start at its first corner. A polygon
with less than three corners has none. -/
theorem isFan_fan (corners : List UInt64) : IsFan corners (fan corners) := by
  induction corners using fan.induct with
  | case1 first a b rest ih =>
    rw [fan]
    refine ⟨?_, fun i hi => ?_⟩
    · rw [List.length_cons, ih.length_eq]
      rfl
    · cases i with
      | zero => rfl
      | succ i => exact ih.getElem?_eq i (Nat.lt_of_succ_lt_succ hi)
  -- Fewer than three corners have no triangle.
  | case2 corners hshort =>
    have hlength : corners.length ≤ 2 := by
      rcases corners with _ | ⟨a, _ | ⟨b, _ | ⟨c, rest⟩⟩⟩
      · exact Nat.zero_le _
      · exact Nat.le_succ _
      · exact Nat.le_refl _
      · exact absurd rfl (hshort a b c rest)
    rw [fan]
    · exact ⟨by rw [List.length_nil]; omega, fun i hi => absurd hi (by omega)⟩
    · exact hshort

/-- The triangles of a polygon are determined. -/
theorem IsFan.eq_fan {corners : List UInt64} {triangles : List Face}
    (h : IsFan corners triangles) : triangles = fan corners := by
  have hfan := isFan_fan corners
  refine List.ext_getElem? fun i => ?_
  by_cases hi : i + 2 < corners.length
  · rw [h.getElem?_eq i hi, hfan.getElem?_eq i hi]
  · rw [List.getElem?_eq_none (by rw [h.length_eq]; omega),
      List.getElem?_eq_none (by rw [hfan.length_eq]; omega)]

/-! ## Reading rows

The reader works on lines that hold words. Each part of it takes some lines from the
front, and what it takes is characterized by equivalences, so that both directions come
out of one induction. -/

theorem readNat?_eq_some_iff {limit n : Nat} {word : List Char} :
    readNat? limit word = some n
      ↔ n < limit ∧ ∃ digits, (word = digits ∨ word = '+' :: digits) ∧ digits ≠ []
        ∧ (∀ c ∈ digits, isDecimalDigit c = true) ∧ Decimal.ofDigits digits = n := by
  -- What is read without the sign.
  have hread : ∀ digits, (if digits.isEmpty || !digits.all isDecimalDigit then none
        else if Decimal.ofDigits digits < limit then some (Decimal.ofDigits digits) else none)
          = some n
      ↔ digits ≠ [] ∧ (∀ c ∈ digits, isDecimalDigit c = true) ∧ Decimal.ofDigits digits = n
        ∧ n < limit := by
    intro digits
    rw [Option.ite_none_left_eq_some, Option.ite_none_right_eq_some, Bool.or_eq_true, not_or,
      List.isEmpty_iff, Bool.not_eq_true, Bool.not_eq_false', List.all_eq_true]
    constructor
    · rintro ⟨⟨hne, hdigits⟩, hlimit, hn⟩
      obtain rfl := Option.some.inj hn
      exact ⟨hne, hdigits, rfl, hlimit⟩
    · rintro ⟨hne, hdigits, rfl, hlimit⟩
      exact ⟨⟨hne, hdigits⟩, hlimit, rfl⟩
  have hsign : ∀ digits, ¬ ∀ c ∈ '+' :: digits, isDecimalDigit c = true := fun digits h =>
    absurd (h '+' List.mem_cons_self) (by decide)
  unfold readNat?
  split
  · rename_i digits
    refine (hread digits).trans ⟨?_, ?_⟩
    · rintro ⟨hne, hdigits, hn, hlimit⟩
      exact ⟨hlimit, digits, .inr rfl, hne, hdigits, hn⟩
    · rintro ⟨hlimit, others, rfl | hothers, hne, hdigits, hn⟩
      · exact absurd hdigits (hsign digits)
      · obtain rfl := (List.cons.inj hothers).2
        exact ⟨hne, hdigits, hn, hlimit⟩
  · rename_i hplus
    refine (hread word).trans ⟨?_, ?_⟩
    · rintro ⟨hne, hdigits, hn, hlimit⟩
      exact ⟨hlimit, word, .inl rfl, hne, hdigits, hn⟩
    · rintro ⟨hlimit, others, rfl | hothers, hne, hdigits, hn⟩
      · exact ⟨hne, hdigits, hn, hlimit⟩
      · exact absurd hothers (hplus others)

theorem readIndex_eq_some_iff {word : List Char} {n : UInt64} :
    readIndex word = some n ↔ IsNumeral word n := by
  rw [readIndex, Option.map_eq_some_iff, IsNumeral]
  simp only [readNat?_eq_some_iff]
  constructor
  · rintro ⟨m, ⟨hm, hword⟩, rfl⟩
    rwa [Nat.toUInt64, UInt64.toNat_ofNat_of_lt' hm]
  · rintro hword
    exact ⟨n.toNat, ⟨n.toNat_lt, hword⟩, UInt64.ofNat_toNat⟩

/-- **A row is read** if each of its words is. The line only goes into the message of an error. -/
theorem readWords_eq_ok_iff {α : Type} {read : List Char → Option α} {line : Nat}
    {row : List (List Char)} {values : List α} : readWords read line row = .ok values
      ↔ List.Forall₂ (fun word value => read word = some value) row values := by
  induction row generalizing values with
  | nil =>
    rw [readWords, List.forall₂_nil_left_iff]
    exact ⟨fun h => (Except.ok.inj h).symm, fun h => h ▸ rfl⟩
  | cons word rest ih =>
    rw [readWords, List.forall₂_cons_left_iff]
    split <;> rename_i hword
    · refine iff_of_false nofun ?_
      rintro ⟨value, _, hvalue, -⟩
      rw [hword] at hvalue
      cases hvalue
    · rw [bind_eq_ok_iff]
      simp only [pure_eq_ok_iff, ih]
      constructor
      · rintro ⟨others, hothers, rfl⟩
        exact ⟨_, others, hword, hothers, rfl⟩
      · rintro ⟨value, others, hvalue, hothers, rfl⟩
        obtain rfl := Option.some.inj (hword.symm.trans hvalue)
        exact ⟨others, hothers, rfl⟩

variable {lines rest : List Line}

/-- Words that are at least two numbers give the first two. -/
theorem readTwo_eq_ok_iff {line : Nat} {row : List (List Char)} {vertexCount faceCount : Nat} :
    (do match ← readWords readIndex line row with
      | vertices :: faces :: _ => return ((vertices.toNat, faces.toNat), rest)
      | _ => malformed "expected vertex and face counts")
        = (Except.ok ((vertexCount, faceCount), lines) : Except CodecError _)
      ↔ Counts row vertexCount faceCount ∧ rest = lines := by
  rw [bind_eq_ok_iff]
  simp only [readWords_eq_ok_iff, readIndex_eq_some_iff]
  constructor
  · rintro ⟨counts, hcounts, h⟩
    split at h
    · rename_i vertices faces more
      obtain ⟨hvalues, rfl⟩ := Prod.mk.inj (pure_eq_ok_iff.1 h)
      obtain ⟨rfl, rfl⟩ := Prod.mk.inj hvalues
      exact ⟨⟨vertices, faces, more, hcounts, rfl, rfl⟩, rfl⟩
    · cases h
  · rintro ⟨⟨vertices, faces, more, hcounts, rfl, rfl⟩, rfl⟩
    exact ⟨_, hcounts, rfl⟩

/-- **The counts are read** from the row of the header or from the next. The next row is taken
only if nothing stands behind the word `OFF`. -/
theorem readCounts_eq_ok_iff {header : List (List Char)} {vertexCount faceCount : Nat} :
    readCounts header lines = .ok ((vertexCount, faceCount), rest)
      ↔ Counts header vertexCount faceCount ∧ lines = rest
        ∨ header = [] ∧ ∃ line, lines = line :: rest ∧ Counts line.words vertexCount faceCount := by
  have hempty : ¬ Counts [] vertexCount faceCount := by
    rintro ⟨vertices, faces, more, hcounts, -, -⟩
    cases hcounts
  cases header with
  | cons word header =>
    rw [readCounts.eq_def]
    simp only [pure_bind]
    refine readTwo_eq_ok_iff.trans ⟨.inl, fun h => h.resolve_right ?_⟩
    rintro ⟨hcons, -⟩
    cases hcons
  -- The counts are on a row of their own: the header has to be empty for that.
  | nil =>
    cases lines with
    | nil => exact iff_of_false nofun (by simp [hempty])
    | cons line lines =>
      rw [readCounts.eq_def]
      simp only [pure_bind]
      refine readTwo_eq_ok_iff.trans ⟨?_, ?_⟩
      · rintro ⟨hcounts, rfl⟩
        exact .inr ⟨trivial, line, rfl, hcounts⟩
      · rintro (⟨hcounts, -⟩ | ⟨-, next, hnext, hcounts⟩)
        · exact absurd hcounts hempty
        · obtain ⟨rfl, rfl⟩ := List.cons.inj hnext
          exact ⟨hcounts, rfl⟩

/-- The lines of a header start with the word and go on with the counts. -/
theorem Header.exists_readCounts {used : List Line} {vertexCount faceCount : Nat}
    (h : Header (used.map Line.words) vertexCount faceCount) :
    ∃ first others counts, used = first :: others ∧ first.words = name.toList :: counts
      ∧ readCounts counts (others ++ rest) = .ok ((vertexCount, faceCount), rest) := by
  obtain ⟨counts, hrows | hrows, hcounts⟩ := h
  · obtain ⟨first, rfl, hfirst⟩ := List.map_eq_singleton_iff.1 hrows
    exact ⟨first, [], counts, rfl, hfirst, readCounts_eq_ok_iff.2 (.inl ⟨hcounts, rfl⟩)⟩
  · obtain ⟨first, others, rfl, hfirst, hothers⟩ := List.map_eq_cons_iff.1 hrows
    obtain ⟨line, rfl, rfl⟩ := List.map_eq_singleton_iff.1 hothers
    exact ⟨first, [line], [], rfl, hfirst,
      readCounts_eq_ok_iff.2 (.inr ⟨rfl, line, rfl, hcounts⟩)⟩

/-- What is read as counts behind the word belongs to a header. -/
theorem exists_header_of_readCounts {first : Line} {counts : List (List Char)}
    {vertexCount faceCount : Nat} (hfirst : first.words = name.toList :: counts)
    (h : readCounts counts lines = .ok ((vertexCount, faceCount), rest)) :
    ∃ used, first :: lines = used ++ rest
      ∧ Header (used.map Line.words) vertexCount faceCount := by
  rcases readCounts_eq_ok_iff.1 h with ⟨hcounts, rfl⟩ | ⟨rfl, line, rfl, hcounts⟩
  · exact ⟨[first], rfl, counts, .inl (congrArg (fun row => [row]) hfirst), hcounts⟩
  · exact ⟨[first, line], rfl, line.words, .inr (congrArg (fun row => [row, line.words]) hfirst),
      hcounts⟩

/-- If lines are read as items, the first line is read as the first item. -/
theorem exists_used_of_cons {α : Type} {R : List (List Char) → α → Prop} {line : Line}
    {used : List Line} {item : α} {items : List α} (hlines : line :: lines = used ++ rest)
    (h : List.Forall₂ R (used.map Line.words) (item :: items)) :
    ∃ after, lines = after ++ rest ∧ R line.words item
      ∧ List.Forall₂ R (after.map Line.words) items := by
  cases used with
  | nil => cases h
  | cons first after =>
    obtain ⟨rfl, hrest⟩ := List.cons.inj hlines
    obtain ⟨hitem, hitems⟩ := List.forall₂_cons.1 h
    exact ⟨after, hrest, hitem, hitems⟩

/-- **Vertices are read** one a row. As many rows are used as are missing, and the others are left
for the faces. -/
theorem readVertices_eq_ok_iff {total missing : Nat} {vertices : List Point} :
    readVertices total missing lines = .ok (vertices, rest)
      ↔ vertices.length = missing ∧ ∃ used, lines = used ++ rest
        ∧ List.Forall₂ VertexRow (used.map Line.words) vertices := by
  -- The induction is on the vertices still missing; `used` collects the rows that were taken, which
  -- is what the next part of the text is found behind.
  induction missing generalizing lines vertices with
  | zero =>
    rw [readVertices, List.length_eq_zero_iff]
    constructor
    · intro h
      obtain ⟨rfl, rfl⟩ := Prod.mk.inj (Except.ok.inj h)
      exact ⟨rfl, [], rfl, .nil⟩
    · rintro ⟨rfl, used, rfl, hused⟩
      obtain rfl := List.map_eq_nil_iff.1 (List.forall₂_nil_right_iff.1 hused)
      rfl
  | succ missing ih =>
    cases lines with
    | nil =>
      refine iff_of_false nofun ?_
      rintro ⟨hlength, used, hlines, hused⟩
      obtain ⟨rfl, -⟩ := List.append_eq_nil_iff.1 hlines.symm
      obtain rfl := List.forall₂_nil_left_iff.1 hused
      cases hlength
    | cons line lines =>
      rw [readVertices, bind_eq_ok_iff]
      simp only [readWords_eq_ok_iff]
      constructor
      · rintro ⟨coordinates, hcoordinates, h⟩
        split at h
        · rename_i x y z more
          obtain ⟨⟨others, after⟩, hothers, h⟩ := bind_eq_ok_iff.1 h
          obtain ⟨rfl, rfl⟩ := Prod.mk.inj (pure_eq_ok_iff.1 h)
          obtain ⟨hlength, used, rfl, hused⟩ := ih.1 hothers
          exact ⟨congrArg (· + 1) hlength, line :: used, rfl, .cons ⟨more, hcoordinates⟩ hused⟩
        · cases h
      · rintro ⟨hlength, used, hlines, hused⟩
        obtain ⟨p, others, rfl⟩ := List.exists_cons_of_length_eq_add_one hlength
        obtain ⟨used, rfl, ⟨more, hcoordinates⟩, hothers⟩ := exists_used_of_cons hlines hused
        refine ⟨_, hcoordinates, bind_eq_ok_iff.2 ⟨(others, rest), ih.2 ?_, rfl⟩⟩
        exact ⟨Nat.succ.inj hlength, used, rfl, hothers⟩

/-- **Faces are read** one polygon a row, and become triangles at once. What is left behind the
last of them is ignored. -/
theorem readFaces_eq_ok_iff {total missing : Nat} {faces : List Face} :
    readFaces total missing lines = .ok faces
      ↔ ∃ used rest polygons, lines = used ++ rest ∧ polygons.length = missing
        ∧ List.Forall₂ PolygonRow (used.map Line.words) polygons
        ∧ faces = polygons.flatMap fan := by
  induction missing generalizing lines faces with
  | zero =>
    rw [readFaces]
    constructor
    · intro h
      obtain rfl := Except.ok.inj h
      exact ⟨[], lines, [], rfl, rfl, .nil, rfl⟩
    · rintro ⟨used, rest, polygons, rfl, hlength, hused, rfl⟩
      obtain rfl := List.length_eq_zero_iff.1 hlength
      rfl
  | succ missing ih =>
    cases lines with
    | nil =>
      refine iff_of_false nofun ?_
      rintro ⟨used, rest, polygons, hlines, hlength, hused, rfl⟩
      obtain ⟨rfl, -⟩ := List.append_eq_nil_iff.1 hlines.symm
      obtain rfl := List.forall₂_nil_left_iff.1 hused
      cases hlength
    | cons line lines =>
      rw [readFaces, bind_eq_ok_iff]
      simp only [readWords_eq_ok_iff, readIndex_eq_some_iff]
      constructor
      · rintro ⟨values, hvalues, h⟩
        split at h
        · cases h
        · rename_i corners indices
          split at h <;> rename_i hcorners
          · cases h
          -- The row names as many corners as it says, and may go on: the rest is dropped.
          obtain ⟨hthree, hlength⟩ := not_or.1 hcorners
          obtain ⟨others, hothers, hfaces⟩ := bind_eq_ok_iff.1 h
          obtain rfl := pure_eq_ok_iff.1 hfaces
          obtain ⟨used, rest, polygons, rfl, rfl, hused, rfl⟩ := ih.1 hothers
          refine ⟨line :: used, rest, indices.take corners.toNat :: polygons, rfl, rfl,
            .cons ⟨?_, corners, indices.drop corners.toNat, ?_, ?_⟩ hused, rfl⟩
          · rw [List.length_take]
            omega
          · rw [List.length_take]
            omega
          · rwa [List.take_append_drop]
      · rintro ⟨used, rest, polygons, hlines, hlength, hused, rfl⟩
        obtain ⟨corners, polygons, rfl⟩ := List.exists_cons_of_length_eq_add_one hlength
        obtain ⟨used, rfl, ⟨hthree, count, more, hcount, hvalues⟩, hothers⟩ :=
          exists_used_of_cons hlines hused
        refine ⟨_, hvalues, ?_⟩
        have hshort : ¬ (count.toNat < 3 ∨ (corners ++ more).length < count.toNat) := by
          rw [List.length_append]
          omega
        -- Taking as many as the row says gives the corners back, whatever follows them.
        have htake : (corners ++ more).take count.toNat = corners := by
          rw [hcount, List.take_left]
        dsimp only
        rw [if_neg hshort, htake]
        exact bind_eq_ok_iff.2
          ⟨_, ih.2 ⟨used, rest, polygons, rfl, Nat.succ.inj hlength, hothers, rfl⟩, rfl⟩

/-- **A text is read if it describes a mesh**, and then as this mesh. So the reader accepts
nothing else, whatever the layout of the text. -/
theorem ofText_eq_ok_iff {text : String} {mesh : Mesh} : ofText text = .ok mesh
    ↔ ∃ polygons, Describes text mesh.vertices polygons ∧ mesh.faces = polygons.flatMap fan
      ∧ mesh.normals = none := by
  simp only [Describes, rows_iff_isPrefix, ← map_words_lines]
  rw [ofText]
  constructor
  -- From a text that is read, the rows of its three parts in the order they were taken.
  · intro h
    split at h
    · cases h
    rename_i header lines hlines
    split at h
    · rename_i counts hheader
      obtain ⟨⟨⟨vertexCount, faceCount⟩, after⟩, hcounts, h⟩ := bind_eq_ok_iff.1 h
      obtain ⟨⟨vertices, others⟩, hvertices, h⟩ := bind_eq_ok_iff.1 h
      obtain ⟨faces, hfaces, h⟩ := bind_eq_ok_iff.1 h
      obtain rfl := pure_eq_ok_iff.1 h
      obtain ⟨rfl, vertexLines, rfl, hvertexLines⟩ := readVertices_eq_ok_iff.1 hvertices
      obtain ⟨polygonLines, rest, polygons, rfl, rfl, hpolygonLines, rfl⟩ :=
        readFaces_eq_ok_iff.1 hfaces
      obtain ⟨headerLines, hall, hheaderLines⟩ := exists_header_of_readCounts hheader hcounts
      refine ⟨polygons, ⟨_, _, _, ⟨rest.map Line.words, ?_⟩, hheaderLines, hvertexLines,
        hpolygonLines⟩, rfl, rfl⟩
      rw [hlines, hall, List.map_append, List.map_append, List.map_append, List.append_assoc,
        List.append_assoc]
    · cases h
  · rintro ⟨polygons, ⟨header, vertexRows, polygonRows, ⟨tail, hall⟩, hheader, hvertexRows,
      hpolygonRows⟩, hfaces, hnormals⟩
    -- Back, the rows are cut into the same three parts, and each part is read.
    rw [List.append_assoc, List.append_assoc] at hall
    obtain ⟨headerLines, after, hlines, rfl, hafter⟩ := List.map_eq_append_iff.1 hall.symm
    obtain ⟨vertexLines, last, rfl, rfl, hlast⟩ := List.map_eq_append_iff.1 hafter
    obtain ⟨polygonLines, rest, rfl, rfl, -⟩ := List.map_eq_append_iff.1 hlast
    obtain ⟨first, others, counts, rfl, hfirst, hcounts⟩ := hheader.exists_readCounts
    have hvertices : readVertices mesh.vertices.length mesh.vertices.length
        (vertexLines ++ (polygonLines ++ rest)) = .ok (mesh.vertices, polygonLines ++ rest) :=
      readVertices_eq_ok_iff.2 ⟨rfl, vertexLines, rfl, hvertexRows⟩
    have hpolygons : readFaces polygons.length polygons.length (polygonLines ++ rest)
        = .ok mesh.faces :=
      readFaces_eq_ok_iff.2 ⟨polygonLines, rest, polygons, rfl, rfl, hpolygonRows, hfaces⟩
    rw [hlines, List.cons_append]
    dsimp only
    rw [hfirst]
    refine bind_eq_ok_iff.2 ⟨_, hcounts, bind_eq_ok_iff.2 ⟨_, hvertices,
      bind_eq_ok_iff.2 ⟨_, hpolygons, ?_⟩⟩⟩
    rw [← hnormals]
    rfl

/-! ## Refusals

Every step fails with the same kind of error. Which line is blamed for which fault is in
the error, but no statement here depends on it. -/

/-- **A computation fails only as one on data that is not of the format.** No other error can come
of a text, since nothing is read but the text. -/
def FailsByFormat {α : Type} (x : Except CodecError α) : Prop :=
  ∀ error, x = .error error → ∃ message, error = .parse name message

section FailsByFormat

variable {α β : Type}

theorem failsByFormat_ok (a : α) : FailsByFormat (.ok a) := nofun

theorem failsByFormat_malformed (message : String) :
    FailsByFormat (malformed message : Except CodecError α) :=
  fun _ h => ⟨message, (Except.error.inj h).symm⟩

theorem FailsByFormat.bind {x : Except CodecError α} {f : α → Except CodecError β}
    (hx : FailsByFormat x) (hf : ∀ a, FailsByFormat (f a)) : FailsByFormat (x >>= f) := by
  cases x with
  | error e => exact fun error h => hx error (congrArg Except.error (Except.error.inj h))
  | ok a => exact hf a

theorem failsByFormat_readWords (read : List Char → Option α) (line : Nat)
    (row : List (List Char)) : FailsByFormat (readWords read line row) := by
  induction row with
  | nil => exact failsByFormat_ok _
  | cons word row ih =>
    rw [readWords]
    split
    · exact failsByFormat_malformed _
    · exact ih.bind fun _ => failsByFormat_ok _

theorem failsByFormat_readCounts (header : List (List Char)) (lines : List Line) :
    FailsByFormat (readCounts header lines) := by
  have hlast : ∀ read : List UInt64 × List Line, FailsByFormat
      (match read.1 with
        | vertices :: faces :: _ => pure ((vertices.toNat, faces.toNat), read.2)
        | _ => malformed "expected vertex and face counts"
        : Except CodecError ((Nat × Nat) × List Line)) := by
    intro read
    split
    · exact failsByFormat_ok _
    · exact failsByFormat_malformed _
  rw [readCounts.eq_def]
  split
  · exact (failsByFormat_malformed _).bind hlast
  · exact (failsByFormat_readWords _ _ _).bind fun _ => (failsByFormat_ok _).bind hlast
  · exact (failsByFormat_readWords _ _ _).bind fun _ => (failsByFormat_ok _).bind hlast

theorem failsByFormat_readVertices (total missing : Nat) (lines : List Line) :
    FailsByFormat (readVertices total missing lines) := by
  induction missing generalizing lines with
  | zero => exact failsByFormat_ok _
  | succ missing ih =>
    cases lines with
    | nil => exact failsByFormat_malformed _
    | cons line lines =>
      rw [readVertices]
      refine (failsByFormat_readWords _ _ _).bind fun coordinates => ?_
      split
      · exact (ih lines).bind fun _ => failsByFormat_ok _
      · exact failsByFormat_malformed _

theorem failsByFormat_readFaces (total missing : Nat) (lines : List Line) :
    FailsByFormat (readFaces total missing lines) := by
  induction missing generalizing lines with
  | zero => exact failsByFormat_ok _
  | succ missing ih =>
    cases lines with
    | nil => exact failsByFormat_malformed _
    | cons line lines =>
      rw [readFaces]
      refine (failsByFormat_readWords _ _ _).bind fun values => ?_
      split
      · exact failsByFormat_malformed _
      · split
        · exact failsByFormat_malformed _
        · exact (ih lines).bind fun _ => failsByFormat_ok _

theorem failsByFormat_ofText (text : String) : FailsByFormat (ofText text) := by
  rw [ofText]
  split
  · exact failsByFormat_malformed _
  split
  · refine (failsByFormat_readCounts _ _).bind fun counts => ?_
    refine (failsByFormat_readVertices _ _ _).bind fun vertices => ?_
    exact (failsByFormat_readFaces _ _ _).bind fun _ => failsByFormat_ok _
  · exact failsByFormat_malformed _

end FailsByFormat

/-! ## Places in a row

The same faces are found by counting places in a row, as a program with arrays does. Where
it would ask for a place that is not there, it would break off; the guards before exclude
that. -/

/-- The first entries of a list, if it has as many. -/
def slice? {α : Type} (l : List α) (count : Nat) : Option (List α) :=
  if count ≤ l.length then some (l.take count) else none

/-- A difference that is not below zero. -/
def sub? (a b : Nat) : Option Nat := if b ≤ a then some (a - b) else none

/-- **The triangles around the first corner**, from where the corners stand among the numbers of
a row. There is no result if one is asked for that is not there. -/
def fan? (indices : List UInt64) (corners : Nat) : Option (List Face) := do
  let polygon ← slice? indices corners
  let last ← sub? corners 1
  (List.range' 1 (last - 1)).mapM fun i => do
    return ⟨← polygon[0]?, ← polygon[i]?, ← polygon[i + 1]?⟩

/-- The polygons with their triangles made by place. -/
def readFaces? (total : Nat) : (missing : Nat) → List Line →
    Option (Except CodecError (List Face))
  | 0, _ => some (.ok [])
  | _ + 1, [] => some (malformed s!"expected {total} faces")
  | missing + 1, line :: lines =>
    match readWords readIndex line.number line.words with
    | .error error => some (.error error)
    | .ok [] => some (malformed s!"line {line.number}: empty face")
    | .ok (corners :: indices) =>
      if corners.toNat < 3 ∨ indices.length < corners.toNat then
        some (malformed s!"line {line.number}: face needs at least 3 indices")
      else do
        let triangles ← fan? indices corners.toNat
        let faces ← readFaces? total missing lines
        return faces.map (triangles ++ ·)

theorem mapM_eq_some_map {α β : Type} {f : α → Option β} {g : α → β} {l : List α}
    (h : ∀ a ∈ l, f a = some (g a)) : l.mapM f = some (l.map g) := by
  induction l with
  | nil => rfl
  | cons a l ih =>
    rw [List.mapM_cons, h a List.mem_cons_self, ih fun b hb => h b (List.mem_cons_of_mem a hb)]
    rfl

/-- A row that has been checked has its corners. -/
theorem fan?_eq_some {indices : List UInt64} {corners : Nat} (hthree : 3 ≤ corners)
    (hlength : corners ≤ indices.length) :
    fan? indices corners = some (fan (indices.take corners)) := by
  have hslice : slice? indices corners = some (indices.take corners) := if_pos hlength
  have hlast : sub? corners 1 = some (corners - 1) := if_pos (by omega)
  rw [fan?, hslice, hlast]
  have hcorners : (indices.take corners).length = corners := List.length_take_of_le hlength
  generalize indices.take corners = polygon at hcorners ⊢
  -- The places are in range by `hcorners`, so the checked access and the default agree.
  let triangle (i : Nat) : Face := ⟨polygon.getD 0 0, polygon.getD i 0, polygon.getD (i + 1) 0⟩
  have hfan : IsFan polygon ((List.range' 1 (corners - 1 - 1)).map triangle) := by
    refine ⟨by rw [List.length_map, List.length_range', hcorners]; rfl, fun i hi => ?_⟩
    have hi' : i < corners - 1 - 1 := by omega
    rw [List.getElem?_map, List.getElem?_range' hi', Nat.one_mul, Nat.add_comm 1 i]
    simp (disch := omega) only [Option.map_some, triangle, List.getD_eq_getElem?_getD,
      List.getElem?_eq_getElem, Option.getD_some]
  have htriangle : ∀ i ∈ List.range' 1 (corners - 1 - 1),
      (do return (⟨← polygon[0]?, ← polygon[i]?, ← polygon[i + 1]?⟩ : Face)) = some (triangle i) := by
    intro i hi
    have hplaces := List.mem_range'_1.1 hi
    simp (disch := omega) only [triangle, List.getD_eq_getElem?_getD, List.getElem?_eq_getElem,
      Option.getD_some]
    rfl
  exact (mapM_eq_some_map htriangle).trans (congrArg some hfan.eq_fan)

/-- **Every number that is asked for is there**, whatever a text declares. The list stops at the
first row that is missing, so a count that is too large asks for no more than there is. -/
theorem readFaces?_eq_some (total missing : Nat) (lines : List Line) :
    readFaces? total missing lines = some (readFaces total missing lines) := by
  induction missing generalizing lines with
  | zero => rfl
  | succ missing ih =>
    cases lines with
    | nil => rfl
    | cons line lines =>
      rw [readFaces?, readFaces]
      cases hwords : readWords readIndex line.number line.words with
      | error error => rfl
      | ok values =>
        cases values with
        | nil => rfl
        | cons corners indices =>
          dsimp only
          -- The row is refused before it is cut, if it is too short for that.
          by_cases hshort : corners.toNat < 3 ∨ indices.length < corners.toNat
          · rw [if_pos hshort]
            exact congrArg some (if_pos hshort).symm
          · rw [if_neg hshort, fan?_eq_some (by omega) (by omega), ih]
            refine congrArg some (Eq.trans ?_ (if_neg hshort).symm)
            cases readFaces total missing lines <;> rfl

/-! ## Files

A file is decoded to a text first. Bytes that are no text are refused like a text that is
no mesh. -/

theorem decode_eq_ok_iff {bytes : Bytes} {mesh : Mesh} : decode bytes = .ok mesh
    ↔ ∃ text, Utf8.decode bytes = .ok text ∧ ofText text = .ok mesh := by
  rw [decode]
  cases Utf8.decode bytes with
  | error fault => exact ⟨nofun, nofun⟩
  | ok text => exact ⟨fun h => ⟨text, rfl, h⟩, fun ⟨_, htext, h⟩ => Except.ok.inj htext ▸ h⟩

theorem failsByFormat_decode (bytes : Bytes) : FailsByFormat (decode bytes) := by
  rw [decode]
  cases Utf8.decode bytes with
  | error fault => exact failsByFormat_malformed _
  | ok text => exact failsByFormat_ofText text

/-- The triangles of all polygons are as many as their sides, less two for each polygon. -/
theorem length_flatten_of_isFan {polygons : List (List UInt64)} {triangles : List (List Face)}
    (h : List.Forall₂ IsFan polygons triangles) :
    triangles.flatten.length = (polygons.map fun corners => corners.length - 2).sum := by
  induction h with
  | nil => rfl
  | cons hfan _ ih =>
    rw [List.flatten_cons, List.length_append, ih, hfan.length_eq, List.map_cons, List.sum_cons]

theorem forall₂_isFan_iff {polygons : List (List UInt64)} {triangles : List (List Face)} :
    List.Forall₂ IsFan polygons triangles ↔ triangles = polygons.map fan := by
  constructor
  · intro h
    induction h with
    | nil => rfl
    | cons hfan _ ih => rw [hfan.eq_fan, ih, List.map_cons]
  · rintro rfl
    rw [List.forall₂_map_right_iff, List.forall₂_same]
    exact fun corners _ => isFan_fan corners

/-- **Reading finds the mesh that a text describes**, and no other text is read.

* A text that describes a mesh, however it is laid out, is read as its vertices and the triangles
  of its polygons.
* Any other bytes are refused as data that is not of the format.
* What has been read is described by the text: it has as many vertices as the text declares, and
  its faces are the triangles of as many polygons.
* No place is asked for that a row does not have, whatever the text declares. -/
theorem reads :
    (∀ text vertices polygons, Describes text vertices polygons →
      ∃ triangles, List.Forall₂ IsFan polygons triangles
        ∧ decode (bytesOf text) = .ok ⟨vertices, triangles.flatten, none⟩
        ∧ triangles.flatten.length = (polygons.map fun corners => corners.length - 2).sum)
    ∧ (∀ bytes, (∃ mesh, decode bytes = .ok mesh)
      ∨ ∃ message, decode bytes = .error (.parse name message))
    ∧ (∀ bytes mesh, decode bytes = .ok mesh →
      ∃ text polygons triangles, Utf8.decode bytes = .ok text
        ∧ Describes text mesh.vertices polygons ∧ List.Forall₂ IsFan polygons triangles
        ∧ mesh.faces = triangles.flatten ∧ mesh.normals = none)
    ∧ ∀ total missing lines,
      readFaces? total missing lines = some (readFaces total missing lines) := by
  refine ⟨fun text vertices polygons h => ?_, fun bytes => ?_, fun bytes mesh h => ?_,
    readFaces?_eq_some⟩
  · have hfans : List.Forall₂ IsFan polygons (polygons.map fan) := forall₂_isFan_iff.2 rfl
    refine ⟨polygons.map fan, hfans, ?_, length_flatten_of_isFan hfans⟩
    exact decode_eq_ok_iff.2 ⟨text, Utf8.decode_bytesOf text,
      ofText_eq_ok_iff.2 ⟨polygons, h, List.flatMap_def, rfl⟩⟩
  · cases hbytes : decode bytes with
    | ok mesh => exact .inl ⟨mesh, rfl⟩
    | error error =>
      obtain ⟨message, rfl⟩ := failsByFormat_decode bytes error hbytes
      exact .inr ⟨message, rfl⟩
  · obtain ⟨text, htext, hmesh⟩ := decode_eq_ok_iff.1 h
    obtain ⟨polygons, hdescribes, hfaces, hnormals⟩ := ofText_eq_ok_iff.1 hmesh
    exact ⟨text, polygons, polygons.map fan, htext, hdescribes, forall₂_isFan_iff.2 rfl,
      hfaces.trans List.flatMap_def, hnormals⟩

/-- A square among comments, in a file whose lines end in two ways and that does not end with
it. -/
theorem reads_square : ∃ triangles,
    List.Forall₂ IsFan [[0, 1, 2, 3]] triangles
      ∧ decode (bytesOf "# a square\r\nOFF\r\n1 1 0 # one\n\n0\t0 0 0\r\n +4 0 1 2 3 9\nthe end")
        = .ok ⟨[⟨.zero, .zero, .zero⟩], triangles.flatten, none⟩
      ∧ triangles.flatten.length = 2 := by
  have hzero : Single.ofText? "0".toList = some .zero := by decide +kernel
  have hcounts : List.Forall₂ IsNumeral ["1".toList, "1".toList, "0".toList] [1, 1, 0] := by
    simp only [List.forall₂_cons, List.forall₂_nil_left_iff, ← readIndex_eq_some_iff]
    decide +kernel
  have hcorners : List.Forall₂ IsNumeral
      ["+4".toList, "0".toList, "1".toList, "2".toList, "3".toList, "9".toList]
      [4, 0, 1, 2, 3, 9] := by
    simp only [List.forall₂_cons, List.forall₂_nil_left_iff, ← readIndex_eq_some_iff]
    decide +kernel
  refine reads.1 _ _ [[0, 1, 2, 3]] ⟨_, _, _, rows_iff_isPrefix.2 ?_,
    ⟨_, .inr rfl, 1, 1, [0], hcounts, rfl, rfl⟩,
    .cons ⟨[.zero], .cons hzero (.cons hzero (.cons hzero (.cons hzero .nil)))⟩ .nil,
    .cons ⟨by decide, 4, [9], rfl, hcorners⟩ .nil⟩
  decide +kernel

end Meshwork.Off
