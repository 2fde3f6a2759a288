import Meshwork.DataPath

/-!
# Paths as lists of names

A path is determined by its names, and it is made back from them
(`DataPath.ofSegments_segments`) and from its text (`DataPath.parse_text`).
Its names are those of the path above it and one more (`DataPath.segments_eq`);
this is how a path is taken apart wherever a proof goes from an object to the
one above it.
-/

namespace Meshwork

/-! ## Pieces between separators

Splitting reads a text from its beginning. A piece that has no separator in it is passed
over as a whole. -/

/-- A piece without separators is not divided. -/
theorem splitSegments_piece {piece : List Char} (h : separator ∉ piece) :
    splitSegments piece = [piece] := by
  induction piece with
  | nil => rfl
  | cons c piece ih =>
    rw [List.mem_cons, not_or] at h
    rw [splitSegments, if_neg (Ne.symm h.1), ih h.2]

/-- A piece without separators is divided from what follows. -/
theorem splitSegments_append {piece : List Char} (h : separator ∉ piece) (rest : List Char) :
    splitSegments (piece ++ separator :: rest) = piece :: splitSegments rest := by
  induction piece with
  | nil => exact if_pos rfl
  | cons c piece ih =>
    rw [List.mem_cons, not_or] at h
    rw [List.cons_append, splitSegments, if_neg (Ne.symm h.1), ih h.2]

/-- **Splitting inverts joining.** There has to be at least one piece, as no text splits into
none. -/
theorem splitSegments_joinSegments {pieces : List (List Char)} (hne : pieces ≠ [])
    (h : ∀ piece ∈ pieces, separator ∉ piece) : splitSegments (joinSegments pieces) = pieces := by
  induction pieces with
  | nil => exact absurd rfl hne
  | cons piece pieces ih =>
    have hpiece := h piece List.mem_cons_self
    cases pieces with
    | nil => exact splitSegments_piece hpiece
    | cons next pieces =>
      rw [joinSegments, splitSegments_append hpiece,
        ih (List.cons_ne_nil _ _) fun other hother => h other (List.mem_cons_of_mem _ hother)]
      exact fun h => List.cons_ne_nil _ _ h

namespace DataPath

theorem ext {p q : DataPath} (h : p.segments = q.segments) : p = q := by
  obtain ⟨names, nonempty, valid⟩ := p
  obtain rfl : names = q.segments := h
  rfl

theorem mem_map_segments {path : DataPath} {paths : List DataPath} :
    path.segments ∈ paths.map (·.segments) ↔ path ∈ paths := by
  rw [List.mem_map]
  exact ⟨fun ⟨_, hother, he⟩ => ext he ▸ hother, fun h => ⟨path, h, rfl⟩⟩

/-- The names of the path above; none for a top-level path. -/
def above (p : DataPath) : List String := p.segments.dropLast

/-- **The names of a path are those above it and its own.** For a top-level path there are none
above, and the name is all of it. -/
theorem segments_eq (p : DataPath) : p.segments = p.above ++ [p.name] :=
  (List.dropLast_concat_getLast p.nonempty).symm

theorem validName (p : DataPath) : ValidName p.name :=
  p.valid _ (List.getLast_mem p.nonempty)

/-- A top-level path has no names above it, and every other path the names of
the path above. -/
theorem above_eq (p : DataPath) :
    p.above = match p.parent? with
      | none => []
      | some q => q.segments := by
  have hpos : 0 < p.segments.length := List.length_pos_iff.2 p.nonempty
  by_cases h : p.segments.length ≤ 1
  · rw [parent?, if_pos (show p.depth ≤ 1 from h)]
    show p.segments.dropLast = []
    rw [List.dropLast_eq_take, List.take_eq_nil_iff]
    omega
  · rw [parent?, if_neg (show ¬ p.depth ≤ 1 from h)]
    show p.segments.dropLast = p.segments.take (p.segments.length - 2 + 1)
    rw [List.dropLast_eq_take]
    congr 1
    omega

theorem above_of_parent?_eq_none {p : DataPath} (h : p.parent? = none) : p.above = [] := by
  rw [above_eq, h]

/-- A top-level path has one name. -/
theorem segments_of_parent?_eq_none {p : DataPath} (h : p.parent? = none) :
    p.segments = [p.name] := by
  rw [segments_eq, above_of_parent?_eq_none h, List.nil_append]

theorem above_of_parent?_eq_some {p q : DataPath} (h : p.parent? = some q) :
    p.above = q.segments := by
  rw [above_eq, h]

/-- The path above is the one whose names come before the last. -/
theorem parent?_eq_some_iff {p q : DataPath} :
    p.parent? = some q ↔ p.segments = q.segments ++ [p.name] := by
  constructor
  · intro h
    rw [← above_of_parent?_eq_some h, ← segments_eq]
  · intro h
    have habove : p.above = q.segments := by rw [above, h, List.dropLast_concat]
    cases hparent : p.parent? with
    | none => exact absurd (habove ▸ above_of_parent?_eq_none hparent) q.nonempty
    | some r => rw [ext ((above_of_parent?_eq_some hparent).symm.trans habove)]

/-! ## Paths from names

Names are checked one by one. Those of a path have been checked, so they make the same
path again. -/

/-- Valid names make a path. -/
theorem ofSegments_eq_ok {names : List String} (h : names ≠ [])
    (hvalid : ∀ name ∈ names, ValidName name) :
    ofSegments names = .ok ⟨names, h, hvalid⟩ := by
  unfold ofSegments
  rw [dif_neg h]
  split <;> rename_i hfault
  · rw [firstFault?_eq_none_iff.2 hvalid] at hfault
    simp at hfault
  · rfl

/-- **A path is made back from its names.** The checks are passed because a path carries with it
that its names are valid. -/
theorem ofSegments_segments (p : DataPath) : ofSegments p.segments = .ok p :=
  ofSegments_eq_ok p.nonempty p.valid

theorem segments_of_ofSegments {names : List String} {p : DataPath}
    (h : ofSegments names = .ok p) : p.segments = names := by
  unfold ofSegments at h
  split at h
  · simp at h
  · split at h
    · simp at h
    · obtain rfl := Except.ok.inj h
      rfl

theorem segments_of_toOption {names : List String} {p : DataPath}
    (h : (ofSegments names).toOption = some p) : p.segments = names := by
  cases hnames : ofSegments names with
  | error e =>
    rw [hnames] at h
    cases h
  | ok q =>
    rw [hnames] at h
    exact Option.some.inj h ▸ segments_of_ofSegments hnames

theorem join_eq_ok (p : DataPath) {name : String} (h : ValidName name) :
    p.join name = .ok (p.push name h) := by
  unfold join
  split <;> rename_i hfault
  · rw [nameFault?_eq_none_iff.2 h] at hfault
    simp at hfault
  · rfl

/-- Whatever name is valid beneath a path makes a path with it. -/
theorem join_eq_ok_iff {p q : DataPath} {name : String} :
    p.join name = .ok q ↔ q.segments = p.segments ++ [name] := by
  constructor
  · intro h
    unfold join at h
    split at h
    · simp at h
    · obtain rfl := Except.ok.inj h
      rfl
  · intro h
    have hname : ValidName name := q.valid name (by simp [h])
    rw [join_eq_ok p hname]
    exact congrArg _ (ext h.symm)

/-! ## The text of a path

Names are not empty and hold no separator, so the text determines them. -/

/-- The text of a path starts with its topmost name. -/
theorem exists_text_eq (p : DataPath) : ∃ c rest, p.text.toList = c :: rest ∧ c ≠ separator := by
  obtain ⟨name, names, hnames⟩ := List.exists_cons_of_ne_nil p.nonempty
  obtain ⟨hname, hsep⟩ := p.valid name (hnames ▸ List.mem_cons_self)
  obtain ⟨c, chars, hchars⟩ : ∃ c chars, name.toList = c :: chars :=
    List.exists_cons_of_ne_nil fun h => hname (String.toList_eq_nil_iff.1 h)
  rw [text, String.toList_ofList, hnames, List.map_cons, hchars]
  rw [hchars, List.mem_cons, not_or] at hsep
  cases names with
  | nil => exact ⟨c, chars, rfl, Ne.symm hsep.1⟩
  | cons other names => exact ⟨c, _, rfl, Ne.symm hsep.1⟩

/-- The text of a path is split into the names. -/
theorem splitSegments_text (p : DataPath) :
    splitSegments p.text.toList = p.segments.map String.toList := by
  rw [text, String.toList_ofList]
  refine splitSegments_joinSegments (fun h => p.nonempty (List.map_eq_nil_iff.1 h)) ?_
  intro piece hpiece
  obtain ⟨name, hname, rfl⟩ := List.mem_map.1 hpiece
  exact (p.valid name hname).2

/-- **A path is read back** from its text. The text begins with a name and not with a separator,
so none is dropped at its beginning. -/
theorem parse_text (p : DataPath) : parse p.text = .ok p := by
  have hnames : (p.segments.map String.toList).map String.ofList = p.segments := by
    rw [List.map_map]
    exact List.map_id'' (fun name => String.ofList_toList) p.segments
  obtain ⟨c, rest, htext, hc⟩ := p.exists_text_eq
  have hdrop : dropLeading p.text.toList = c :: rest := by
    rw [htext, dropLeading, if_neg hc]
  unfold parse
  rw [hdrop]
  show ofSegments ((splitSegments (c :: rest)).map String.ofList) = _
  rw [← htext, p.splitSegments_text, hnames, ofSegments_segments]

end DataPath

end Meshwork
