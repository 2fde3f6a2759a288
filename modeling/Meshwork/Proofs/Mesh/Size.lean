import Mathlib.Data.Nat.Basic
import Mathlib.Order.Basic
import Meshwork.Mesh.Format
import Meshwork.Proofs.Failure

/-!
# A mesh is no larger than its file

Every vertex and every face that a reader finds takes at least one byte of the
file (`MeshFormat.size_le`). In an OFF file a vertex has a line of its own, and
a polygon makes fewer triangles than there are words on its line. In an STL
file a facet takes fifty bytes or seven lines and makes one face, with at most
three new vertices.
-/

namespace Meshwork

/-! ## Text

Decoding, cutting into lines and cutting into tokens each lose characters or keep them.
None of them makes more. -/

namespace Utf8

theorem length_decodeFrom {index fuel : Nat} {read chars : List Char} {bytes : Bytes}
    (h : decodeFrom index read fuel bytes = .ok chars) : chars.length ≤ read.length + fuel := by
  fun_induction decodeFrom index read fuel bytes with
  | case1 index read fuel =>
    obtain rfl := Except.ok.inj h
    simp
  | case2 index read bytes hne =>
    obtain rfl := Except.ok.inj h
    simp
  | case3 index read fuel b rest c after hstep ih =>
    have hrest := ih h
    rw [List.length_cons] at hrest
    omega
  | case4 => cases h
  | case5 => cases h

/-- A text has no more characters than bytes. -/
theorem length_decode {bytes : Bytes} {text : String} (h : decode bytes = .ok text) :
    text.toList.length ≤ bytes.length := by
  unfold decode at h
  cases hchars : decodeFrom 0 [] bytes.length bytes with
  | error fault =>
    rw [hchars] at h
    cases h
  | ok chars =>
    rw [hchars] at h
    obtain rfl := Except.ok.inj h
    simpa using length_decodeFrom hchars

end Utf8

theorem length_tokensFrom (token : List Char) (found : List (List Char)) (text : List Char) :
    (tokensFrom token found text).length
      ≤ found.length + (if token.isEmpty then 0 else 1) + text.length := by
  induction text generalizing token found with
  | nil => rw [tokensFrom]; split <;> simp
  | cons c rest ih =>
    rw [tokensFrom, List.length_cons]
    split
    · have hrest := ih [] (if token.isEmpty then found else token.reverse :: found)
      split at hrest <;> simp_all <;> omega
    · have hrest := ih (c :: token) found
      simp only [List.isEmpty_cons, Bool.false_eq_true, if_false] at hrest
      omega

/-- A text has no more tokens than characters. -/
theorem length_tokens (text : List Char) : (tokens text).length ≤ text.length := by
  simpa [tokens] using length_tokensFrom [] [] text

/-- The lines found so far, the one being read and the text still to come have room for every line
there will be. -/
theorem length_flatten_linesFrom (line : List Char) (found : List (List Char)) (text : List Char) :
    (linesFrom line found text).flatten.length
      ≤ found.flatten.length + line.length + text.length := by
  induction text generalizing line found with
  | nil =>
    rw [linesFrom]
    split <;> simp [List.length_flatten, List.sum_reverse]
  | cons c rest ih =>
    rw [linesFrom, List.length_cons]
    split
    -- Ending a line can only drop a carriage return.
    · have hline : (endLine line).length ≤ line.length := by
        unfold endLine
        split <;> simp
      have hrest := ih [] (endLine line :: found)
      rw [List.flatten_cons, List.length_append, List.length_nil] at hrest
      omega
    · have hrest := ih (c :: line) found
      rw [List.length_cons] at hrest
      omega

/-- The lines of a text have no more characters than the text. -/
theorem length_flatten_textLines (text : List Char) :
    (textLines text).flatten.length ≤ text.length := by
  have h := length_flatten_linesFrom [] [] text
  rwa [List.flatten_nil, List.length_nil, Nat.zero_add] at h

/-! ## OFF files

The readers take lines off the front, and the bound is on what was taken. The numbers that
the header declares do not enter: a file that declares more than it has is refused. -/

namespace Off

/-- The number of words on lines. -/
def wordCount (lines : List Line) : Nat := (lines.flatMap Line.words).length

theorem wordCount_cons (line : Line) (lines : List Line) :
    wordCount (line :: lines) = line.words.length + wordCount lines := by
  rw [wordCount, List.flatMap_cons, List.length_append, wordCount]

theorem length_words (line : List Char) : (words line).length ≤ line.length :=
  (length_tokens _).trans (List.takeWhile_prefix _).length_le

/-- The lines of a text have no more words than the text has characters. -/
theorem wordCount_lines (text : String) : wordCount (lines text) ≤ text.toList.length := by
  have hfilter : ∀ all : List Line,
      wordCount (all.filter fun line => !line.words.isEmpty) ≤ wordCount all := by
    intro all
    induction all with
    | nil => exact Nat.le_refl _
    | cons line rest ih =>
      rw [List.filter_cons, wordCount_cons]
      split
      · rw [wordCount_cons]
        omega
      · omega
  -- The line numbers do not count: the bound holds from any of them on.
  have hwords : ∀ (all : List (List Char)) (start : Nat),
      wordCount ((all.zipIdx start).map fun numbered => Line.mk numbered.2 (words numbered.1))
        ≤ all.flatten.length := by
    intro all
    induction all with
    | nil => exact fun _ => Nat.le_refl _
    | cons line rest ih =>
      intro start
      rw [List.zipIdx_cons, List.map_cons, wordCount_cons, List.flatten_cons, List.length_append]
      exact Nat.add_le_add (length_words line) (ih _)
  exact (hfilter _).trans ((hwords _ 1).trans (length_flatten_textLines text.toList))

/-- Every line of a text holds a word. -/
theorem length_le_wordCount (lines : List Line) (h : ∀ line ∈ lines, line.words ≠ []) :
    lines.length ≤ wordCount lines := by
  induction lines with
  | nil => exact Nat.le_refl _
  | cons line rest ih =>
    obtain ⟨hline, hrest⟩ := List.forall_mem_cons.1 h
    have hpos := List.length_pos_iff.2 hline
    have := ih hrest
    rw [wordCount_cons, List.length_cons]
    omega

theorem length_readWords {α : Type} {read : List Char → Option α} {line : Nat}
    {words : List (List Char)} {values : List α} (h : readWords read line words = .ok values) :
    values.length = words.length := by
  induction words generalizing values with
  | nil =>
    rw [readWords] at h
    obtain rfl := Except.ok.inj h
    rfl
  | cons word rest ih =>
    rw [readWords] at h
    split at h
    · cases h
    · obtain ⟨others, hothers, h⟩ := bind_eq_ok_iff.1 h
      obtain rfl := pure_eq_ok_iff.1 h
      rw [List.length_cons, List.length_cons, ih hothers]

/-- A polygon has fewer triangles than corners. -/
theorem length_fan (corners : List UInt64) : (fan corners).length ≤ corners.length - 1 := by
  fun_induction fan corners with
  | case1 first a b rest ih =>
    simp only [List.length_cons] at ih ⊢
    omega
  | case2 => exact Nat.zero_le _

/-- Every vertex has used up a line. -/
theorem length_readVertices {total missing : Nat} {lines rest : List Line} {vertices : List Point}
    (h : readVertices total missing lines = .ok (vertices, rest)) :
    ∃ used, lines = used ++ rest ∧ used.length = vertices.length := by
  induction missing generalizing lines vertices with
  | zero =>
    rw [readVertices] at h
    obtain ⟨rfl, rfl⟩ := Prod.mk.inj (Except.ok.inj h)
    exact ⟨[], rfl, rfl⟩
  | succ missing ih =>
    cases lines with
    | nil => cases h
    | cons line lines =>
      rw [readVertices] at h
      obtain ⟨coordinates, -, h⟩ := bind_eq_ok_iff.1 h
      split at h
      · obtain ⟨⟨others, after⟩, hothers, h⟩ := bind_eq_ok_iff.1 h
        obtain ⟨rfl, rfl⟩ := Prod.mk.inj (pure_eq_ok_iff.1 h)
        obtain ⟨used, rfl, hused⟩ := ih hothers
        exact ⟨line :: used, rfl, by rw [List.length_cons, List.length_cons, hused]⟩
      · cases h

/-- There are no more triangles than words: a row of `n` corners gives `n - 2`. -/
theorem length_readFaces {total missing : Nat} {lines : List Line} {faces : List Face}
    (h : readFaces total missing lines = .ok faces) : faces.length ≤ wordCount lines := by
  induction missing generalizing lines faces with
  | zero =>
    rw [readFaces] at h
    obtain rfl := Except.ok.inj h
    exact Nat.zero_le _
  | succ missing ih =>
    cases lines with
    | nil => cases h
    | cons line lines =>
      rw [readFaces] at h
      obtain ⟨numbers, hnumbers, h⟩ := bind_eq_ok_iff.1 h
      split at h
      · cases h
      · rename_i corners indices
        split at h
        · cases h
        -- A row pays for its own triangles, and the rows behind it for theirs.
        · obtain ⟨others, hothers, h⟩ := bind_eq_ok_iff.1 h
          obtain rfl := pure_eq_ok_iff.1 h
          have hwords := length_readWords hnumbers
          have hfan := length_fan (indices.take corners.toNat)
          have hrest := ih hothers
          rw [List.length_cons] at hwords
          rw [List.length_take] at hfan
          rw [List.length_append, wordCount_cons]
          omega

/-- What is left of the lines after the counts. -/
theorem suffix_of_readCounts {header : List (List Char)} {lines rest : List Line}
    {counts : Nat × Nat} (h : readCounts header lines = .ok (counts, rest)) : rest <:+ lines := by
  unfold readCounts at h
  split at h
  · cases h
  · obtain ⟨numbers, -, h⟩ := bind_eq_ok_iff.1 h
    rw [pure_bind] at h
    dsimp only at h
    split at h
    · obtain ⟨-, rfl⟩ := Prod.mk.inj (pure_eq_ok_iff.1 h)
      exact List.suffix_cons _ _
    · cases h
  · obtain ⟨numbers, -, h⟩ := bind_eq_ok_iff.1 h
    rw [pure_bind] at h
    dsimp only at h
    split at h
    · obtain ⟨-, rfl⟩ := Prod.mk.inj (pure_eq_ok_iff.1 h)
      exact List.suffix_refl _
    · cases h

/-- **The mesh of an OFF file is no larger than the file.** Each row takes at least one byte, and
a polygon as many bytes as it has corners. -/
theorem size_le {bytes : Bytes} {mesh : Mesh} (h : decode bytes = .ok mesh) :
    mesh.vertices.length ≤ bytes.length ∧ mesh.faces.length ≤ bytes.length := by
  unfold decode at h
  split at h
  · rename_i text htext
    have hbytes := (wordCount_lines text).trans (Utf8.length_decode htext)
    have hwords : ∀ line ∈ lines text, line.words ≠ [] := fun line hline => by
      simpa using (List.mem_filter.1 hline).2
    rw [ofText] at h
    split at h
    · cases h
    · rename_i header rest hlines
      rw [hlines, wordCount_cons] at hbytes
      rw [hlines] at hwords
      split at h
      · obtain ⟨⟨⟨vertexCount, faceCount⟩, afterCounts⟩, hcounts, h⟩ := bind_eq_ok_iff.1 h
        obtain ⟨⟨vertices, afterVertices⟩, hvertices, h⟩ := bind_eq_ok_iff.1 h
        obtain ⟨faces, hfaces, h⟩ := bind_eq_ok_iff.1 h
        obtain rfl := pure_eq_ok_iff.1 h
        -- The lines are those before the vertices, those of the vertices and those of the faces.
        obtain ⟨before, rfl⟩ := suffix_of_readCounts hcounts
        obtain ⟨used, rfl, hused⟩ := length_readVertices hvertices
        have hfaces := length_readFaces hfaces
        have hvertices := length_le_wordCount used fun line hline =>
          hwords line (by simp [hline])
        simp only [wordCount, List.flatMap_append, List.length_append] at hbytes hvertices hfaces
        exact ⟨by show vertices.length ≤ _; omega, by show faces.length ≤ _; omega⟩
      · cases h
  · cases h

end Off

/-! ## STL files

The two formats are recognized by their bytes. In either one a facet is paid for before
the next is read. -/

namespace Stl

theorem length_readFacets {fuel missing : Nat} {bytes : Bytes} {facets : List Facet}
    (h : readFacets fuel missing bytes = .ok facets) : facets.length ≤ fuel := by
  fun_induction readFacets fuel missing bytes generalizing facets with
  | case1 =>
    obtain rfl := Except.ok.inj h
    exact Nat.zero_le _
  | case2 => cases h
  | case3 => cases h
  | case4 fuel missing bytes facet rest hfacet ih =>
    obtain ⟨others, hothers, h⟩ := bind_eq_ok_iff.1 h
    obtain rfl := pure_eq_ok_iff.1 h
    exact Nat.succ_le_succ (ih hothers)

theorem length_byteLines (line bytes : Bytes) :
    (byteLines line bytes).length ≤ (if line.isEmpty then 0 else 1) + bytes.length := by
  induction bytes generalizing line with
  | nil => rw [byteLines]; split <;> simp
  | cons b rest ih =>
    unfold byteLines
    rw [List.length_cons]
    split
    · have hrest := ih []
      rw [List.length_cons]
      simp only [List.isEmpty_nil, if_true] at hrest
      omega
    · have hrest := ih (b :: line)
      simp only [List.isEmpty_cons, Bool.false_eq_true, if_false] at hrest
      omega

variable {lines rest : List (Option (List String))}

theorem length_nextLine {expected : String} {words : List String}
    (h : nextLine expected lines = .ok (words, rest)) : lines.length = rest.length + 1 := by
  unfold nextLine at h
  split at h
  · cases h
  · cases h
  · obtain ⟨-, rfl⟩ := Prod.mk.inj (Except.ok.inj h)
    rfl

theorem length_expectWords {expected : List String} (h : expectWords expected lines = .ok rest) :
    lines.length = rest.length + 1 := by
  rw [expectWords] at h
  obtain ⟨⟨words, after⟩, hnext, h⟩ := bind_eq_ok_iff.1 h
  dsimp only at h
  split at h
  · obtain rfl := pure_eq_ok_iff.1 h
    exact length_nextLine hnext
  · cases h

theorem length_readCorner {p : Point} (h : readCorner lines = .ok (p, rest)) :
    lines.length = rest.length + 1 := by
  rw [readCorner] at h
  obtain ⟨⟨words, after⟩, hnext, h⟩ := bind_eq_ok_iff.1 h
  dsimp only at h
  split at h
  · obtain ⟨q, -, h⟩ := bind_eq_ok_iff.1 h
    obtain ⟨-, rfl⟩ := Prod.mk.inj (pure_eq_ok_iff.1 h)
    exact length_nextLine hnext
  · cases h

theorem length_readLoop {normal : Point} {facet : Facet}
    (h : readLoop normal lines = .ok (facet, rest)) : lines.length = rest.length + 6 := by
  rw [readLoop] at h
  obtain ⟨l1, h1, h⟩ := bind_eq_ok_iff.1 h
  obtain ⟨⟨a, l2⟩, h2, h⟩ := bind_eq_ok_iff.1 h
  obtain ⟨⟨b, l3⟩, h3, h⟩ := bind_eq_ok_iff.1 h
  obtain ⟨⟨c, l4⟩, h4, h⟩ := bind_eq_ok_iff.1 h
  obtain ⟨l5, h5, h⟩ := bind_eq_ok_iff.1 h
  obtain ⟨l6, h6, h⟩ := bind_eq_ok_iff.1 h
  obtain ⟨-, rfl⟩ := Prod.mk.inj (pure_eq_ok_iff.1 h)
  rw [length_expectWords h1, length_readCorner h2, length_readCorner h3, length_readCorner h4,
    length_expectWords h5, length_expectWords h6]

/-- Every facet has used up at least three lines, those of its corners. -/
theorem length_readSolid {fuel : Nat} {facets : List Facet} (h : readSolid fuel lines = .ok facets) :
    3 * facets.length ≤ lines.length := by
  induction fuel generalizing lines facets with
  | zero => cases h
  | succ fuel ih =>
    rw [readSolid] at h
    obtain ⟨⟨words, after⟩, hnext, h⟩ := bind_eq_ok_iff.1 h
    have hline := length_nextLine hnext
    dsimp only at h
    split at h
    · obtain rfl := pure_eq_ok_iff.1 h
      exact Nat.zero_le _
    · obtain ⟨normal, -, h⟩ := bind_eq_ok_iff.1 h
      obtain ⟨⟨facet, later⟩, hloop, h⟩ := bind_eq_ok_iff.1 h
      obtain ⟨others, hothers, h⟩ := bind_eq_ok_iff.1 h
      obtain rfl := pure_eq_ok_iff.1 h
      have hfacet := length_readLoop hloop
      have hrest : 3 * others.length ≤ later.length := ih hothers
      rw [List.length_cons]
      omega
    · cases h

theorem size_number (p : Point) (vertices : Array Point) :
    (number p vertices).2.size ≤ vertices.size + 1 := by
  rw [number]
  split <;> simp

/-- Every facet makes one face, with at most three new vertices. -/
theorem size_numberFacets (vertices : Array Point) (facets : List Facet) :
    (numberFacets vertices facets).1.size ≤ vertices.size + 3 * facets.length
      ∧ (numberFacets vertices facets).2.length = facets.length := by
  induction facets generalizing vertices with
  | nil => exact ⟨Nat.le_refl _, rfl⟩
  | cons facet rest ih =>
    rw [numberFacets]
    have ha := size_number facet.a vertices
    have hb := size_number facet.b (number facet.a vertices).2
    have hc := size_number facet.c (number facet.b (number facet.a vertices).2).2
    obtain ⟨hvertices, hfaces⟩ := ih (number facet.c (number facet.b (number facet.a vertices).2).2).2
    simp only [List.length_cons]
    exact ⟨by omega, by omega⟩

/-- **The mesh of an STL file is no larger than the file.** A binary facet takes fifty bytes, and
in a text each facet and each corner has words of its own. -/
theorem size_le {bytes : Bytes} {mesh : Mesh} (h : decode bytes = .ok mesh) :
    mesh.vertices.length ≤ bytes.length ∧ mesh.faces.length ≤ bytes.length := by
  -- Both formats spend at least three bytes on a facet, and a mesh has at most three vertices and
  -- one face of each.
  have hfacets : ∃ facets, mesh = meshOf facets ∧ 3 * facets.length ≤ bytes.length := by
    rw [decode] at h
    split at h
    · cases h
    · split at h
      · obtain ⟨facets, hread, h⟩ := bind_eq_ok_iff.1 h
        refine ⟨facets, (pure_eq_ok_iff.1 h).symm, ?_⟩
        have hlines := length_readSolid hread
        have hbytes := length_byteLines [] bytes
        have hwords := List.length_filter_le (fun words => words != some [])
          (((byteLines [] bytes).drop 1).map lineWords)
        rw [wordLines] at hlines
        rw [List.length_map, List.length_drop] at hwords
        rw [List.isEmpty_nil, if_pos rfl] at hbytes
        omega
      · obtain ⟨facets, hread, h⟩ := bind_eq_ok_iff.1 h
        refine ⟨facets, (pure_eq_ok_iff.1 h).symm, ?_⟩
        rw [binaryFacets] at hread
        split at hread
        · rename_i hbytes
          have hlength := congrArg List.length hbytes
          have hfuel := length_readFacets hread
          simp only [List.length_drop, List.length_cons] at hlength
          omega
        · cases hread
  obtain ⟨facets, rfl, hbytes⟩ := hfacets
  obtain ⟨hvertices, hfaces⟩ := size_numberFacets #[] facets
  simp only [meshOf, Array.length_toList]
  rw [hfaces]
  simp at hvertices
  exact ⟨by omega, by omega⟩

end Stl

/-- **A mesh is no larger than its file.** So the counts of a mesh are words if the length of the
file is one. -/
theorem MeshFormat.size_le {format : MeshFormat} {bytes : Bytes} {mesh : Mesh}
    (h : format.decode bytes = .ok mesh) :
    mesh.vertices.length ≤ bytes.length ∧ mesh.faces.length ≤ bytes.length := by
  cases format with
  | stl => exact Stl.size_le h
  | off => exact Off.size_le h

end Meshwork
