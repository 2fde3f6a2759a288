import Meshwork.FilePath
import Meshwork.Proofs.DataPath

/-!
# Locations with a suffix

A location is extended by text without slashes: the text goes to its last
piece, and the pieces before stay as they are (`FilePath.pieces_append`). So a
file and the one whose location has a suffix more lie in one directory, if the
last piece is a name. A location that has a file name need not end with it,
since it may end with slashes or dots, but it does not end with the directory
above (`FilePath.ne_above_of_fileName?`).
-/

namespace Meshwork

/-- Text without separators belongs to the last piece. -/
theorem exists_splitSegments_append {suffix : List Char} (h : separator ∉ suffix)
    (chars : List Char) :
    ∃ above last, splitSegments chars = above ++ [last]
      ∧ splitSegments (chars ++ suffix) = above ++ [last ++ suffix] := by
  induction chars with
  | nil => exact ⟨[], [], rfl, splitSegments_piece h⟩
  | cons c rest ih =>
    obtain ⟨above, last, hrest, hsuffix⟩ := ih
    rw [List.cons_append, splitSegments, splitSegments, hrest, hsuffix]
    by_cases hc : c = separator
    · rw [if_pos hc, if_pos hc]
      exact ⟨[] :: above, last, rfl, rfl⟩
    · rw [if_neg hc, if_neg hc]
      cases above with
      | nil => exact ⟨[], c :: last, rfl, rfl⟩
      | cons first above => exact ⟨(c :: first) :: above, last, rfl, rfl⟩

namespace FilePath

/-- What the pieces of a text mean: an empty one at the front is the root. -/
def ofPieces : List String → Pieces
  | "" :: next :: rest => ⟨true, next :: rest⟩
  | pieces => ⟨false, pieces⟩

theorem pieces_eq (path : String) :
    pieces path = ofPieces ((splitSegments path.toList).map String.ofList) := rfl

/-- Only pieces before the last matter for where a location starts. -/
theorem exists_ofPieces (above : List String) : ∃ rooted above', ∀ last,
    ofPieces (above ++ [last]) = ⟨rooted, above' ++ [last]⟩ := by
  cases above with
  | nil =>
    refine ⟨false, [], fun last => ?_⟩
    rw [List.nil_append, ofPieces]
    exact nofun
  | cons first above =>
    by_cases hfirst : first = ""
    · subst hfirst
      refine ⟨true, above, fun last => ?_⟩
      cases above <;> rfl
    · refine ⟨false, first :: above, fun last => ?_⟩
      rw [ofPieces]
      exact fun _ _ h => hfirst (List.cons.inj h).1

/-- **A suffix without slashes belongs to the last piece.** -/
theorem pieces_append (path : String) {suffix : String} (h : separator ∉ suffix.toList) :
    ∃ rooted above last, pieces path = ⟨rooted, above ++ [last]⟩
      ∧ pieces (path ++ suffix) = ⟨rooted, above ++ [last ++ suffix]⟩ := by
  obtain ⟨above, last, hpath, hsuffix⟩ := exists_splitSegments_append h path.toList
  obtain ⟨rooted, above', hpieces⟩ := exists_ofPieces (above.map String.ofList)
  refine ⟨rooted, above', String.ofList last, ?_, ?_⟩
  · rw [pieces_eq, hpath, List.map_append, List.map_singleton, hpieces]
  · rw [pieces_eq, String.toList_append, hsuffix, List.map_append, List.map_singleton, hpieces,
      String.ofList_append, String.ofList_toList]

/-- A location that ends with the directory above has no file name. -/
theorem ne_above_of_fileName? {path name : String} (h : fileName? path = some name)
    {rooted : Bool} {above : List String} {last : String}
    (hpieces : pieces path = ⟨rooted, above ++ [last]⟩) : last ≠ ".." := by
  rintro rfl
  rw [fileName?, hpieces] at h
  dsimp only at h
  rw [List.reverse_append, List.reverse_singleton, List.singleton_append] at h
  have htrim : trimVoid rooted (".." :: above.reverse) = ".." :: above.reverse := by
    cases above.reverse <;> cases rooted <;> rfl
  rw [htrim] at h
  cases h

end FilePath

end Meshwork
