import Meshwork.Proofs.DataPath

/-!
# The texts of paths

The text of a path is its names with separators between them, and reading splits it there
again. Which texts are paths is said here without the reading: `DataPath.Grammar` compares the
reading of a text with what is left of it behind one separator at its beginning (`Bare`). A path
is read exactly if that is its text, there is such a path exactly if no piece between separators
is empty, and otherwise the first piece that is empty is told by its position.

Names that are given one by one may hold separators as well; what is told of them is the first
that is invalid (`IsFirstFault`).
-/

namespace Meshwork

/-! ## Splitting and joining

Texts and lists of pieces without separators correspond to one another. This is where
paths are not mentioned yet: pieces may be empty. -/

/-- The pieces of a text come from splitting it at every separator. -/
theorem splitSegments_eq_splitOn (chars : List Char) :
    splitSegments chars = chars.splitOn separator := by
  induction chars with
  | nil => rfl
  | cons c rest ih =>
    rw [splitSegments, List.splitOn_cons_eq_if_modifyHead, ih]
    by_cases hc : c = separator
    · rw [if_pos hc, if_pos (beq_iff_eq.2 hc)]
    · rw [if_neg hc, if_neg (mt beq_iff_eq.1 hc)]
      cases hpieces : rest.splitOn separator with
      | nil => exact absurd hpieces (List.splitOn_ne_nil _ _)
      | cons piece pieces => rfl

/-- There is at least one piece. -/
theorem map_splitSegments_ne_nil {α : Type} (f : List Char → α) (chars : List Char) :
    (splitSegments chars).map f ≠ [] := by
  rw [splitSegments_eq_splitOn]
  exact mt List.map_eq_nil_iff.1 (List.splitOn_ne_nil _ _)

/-- Pieces are joined by separators between them. -/
theorem joinSegments_eq_intercalate (pieces : List (List Char)) :
    joinSegments pieces = [separator].intercalate pieces := by
  induction pieces with
  | nil => rfl
  | cons piece pieces ih =>
    cases pieces with
    | nil => simp [joinSegments, List.intercalate]
    | cons next pieces =>
      rw [joinSegments, ih]
      · simp [List.intercalate]
      · exact fun h => List.cons_ne_nil _ _ h

/-- **Joining inverts splitting.** Here pieces may be empty, and nothing is lost: every text is
the pieces that it splits into. -/
theorem joinSegments_splitSegments (chars : List Char) :
    joinSegments (splitSegments chars) = chars := by
  rw [splitSegments_eq_splitOn, joinSegments_eq_intercalate, List.intercalate_splitOn]

/-- No piece holds a separator. -/
theorem separator_not_mem_of_mem_splitSegments {chars piece : List Char}
    (h : piece ∈ splitSegments chars) : separator ∉ piece := by
  induction chars generalizing piece with
  | nil => simp [List.mem_singleton.1 h]
  | cons c rest ih =>
    rw [splitSegments] at h
    split at h <;> rename_i hc
    · rcases List.mem_cons.1 h with rfl | h
      · exact List.not_mem_nil
      · exact ih h
    · split at h <;> rename_i hpieces
      · simp [List.mem_singleton.1 h, Ne.symm hc]
      · rw [hpieces] at ih
        rcases List.mem_cons.1 h with rfl | h
        · rw [List.mem_cons, not_or]
          exact ⟨Ne.symm hc, ih List.mem_cons_self⟩
        · exact ih (List.mem_cons_of_mem _ h)

/-! ## The first invalid name

Names are invalid for two reasons, and the report depends on which. A name that is empty
has no text to show, so its position is told. -/

/-- **What is told of names of which not all are valid**: the position of the first invalid one
if it is empty, and the name itself if it holds a separator. -/
def IsFirstFault (names : List String) (e : PathError) : Prop :=
  ∃ before name after, names = before ++ name :: after ∧ (∀ other ∈ before, ValidName other)
    ∧ (name = "" ∧ e = .emptySegment before.length
      ∨ '/' ∈ name.toList ∧ e = .invalidSegment name)

theorem nameFault?_eq_some_iff {index : Nat} {name : String} {e : PathError} :
    nameFault? index name = some e ↔ name = "" ∧ e = .emptySegment index
      ∨ '/' ∈ name.toList ∧ e = .invalidSegment name := by
  unfold nameFault?
  split <;> rename_i hname
  · subst hname
    simp [eq_comm]
  · split <;> rename_i hsep
    · have hsep : '/' ∈ name.toList := hsep
      simp [hname, hsep, eq_comm]
    · have hsep : '/' ∉ name.toList := hsep
      simp [hname, hsep]

/-- **The fault that is reported** is that of the first invalid name, with its position. The names
before it are all valid, and the position counts them. -/
theorem firstFault?_eq_some_iff {index : Nat} {names : List String} {e : PathError} :
    firstFault? index names = some e ↔ ∃ before name after, names = before ++ name :: after
      ∧ (∀ other ∈ before, ValidName other)
      ∧ nameFault? (index + before.length) name = some e := by
  induction names generalizing index with
  | nil => simp [firstFault?]
  | cons first rest ih =>
    rw [firstFault?, Option.or_eq_some_iff, nameFault?_eq_none_iff, ih]
    constructor
    · rintro (hfirst | ⟨hvalid, before, name, after, rfl, hbefore, hname⟩)
      -- The fault is that of the first name, or all names before it include the first one.
      · exact ⟨[], first, rest, rfl, List.forall_mem_nil _, hfirst⟩
      · refine ⟨first :: before, name, after, rfl, List.forall_mem_cons.2 ⟨hvalid, hbefore⟩, ?_⟩
        rwa [List.length_cons, Nat.add_comm before.length, ← Nat.add_assoc]
    · rintro ⟨_ | ⟨other, before⟩, name, after, he, hbefore, hname⟩
      · obtain ⟨rfl, -⟩ := List.cons.inj he
        exact Or.inl hname
      · obtain ⟨rfl, rfl⟩ := List.cons.inj he
        obtain ⟨hvalid, hbefore⟩ := List.forall_mem_cons.1 hbefore
        refine Or.inr ⟨hvalid, before, name, after, rfl, hbefore, ?_⟩
        rwa [List.length_cons, Nat.add_comm before.length, ← Nat.add_assoc] at hname

namespace DataPath

variable {p : DataPath} {names : List String} {e : PathError} {text rest : String}

/-- Names make a path exactly if they are those of one. -/
theorem ofSegments_eq_ok_iff : ofSegments names = .ok p ↔ p.segments = names :=
  ⟨segments_of_ofSegments, fun h => h ▸ p.ofSegments_segments⟩

/-- **Names that make no path** are none at all, or there is a first that is invalid. The two
exclude each other, so the error is determined by the names. -/
theorem ofSegments_eq_error_iff :
    ofSegments names = .error e ↔ names = [] ∧ e = .empty ∨ IsFirstFault names e := by
  by_cases hnames : names = []
  · subst hnames
    simp [ofSegments, IsFirstFault, eq_comm]
  · have hfault : ofSegments names = .error e ↔ firstFault? 0 names = some e := by
      unfold ofSegments
      rw [dif_neg hnames]
      split <;> rename_i hfirst <;> simp [hfirst]
    simp only [hfault, firstFault?_eq_some_iff, nameFault?_eq_some_iff, Nat.zero_add, hnames,
      false_and, false_or, IsFirstFault]

/-! ## Reading a text

The reader drops one separator at the beginning and splits the rest. The grammar says the
same without a reader: it quantifies over what is left of the text and compares it with
the texts of paths. -/

/-- **The text is the names with separators between them.** This is the usual way to write such a
text, and says what `text` is without its recursion. -/
theorem text_eq_intercalate (p : DataPath) : p.text = "/".intercalate p.segments := by
  rw [← String.toList_inj, String.toList_intercalate, DataPath.text, String.toList_ofList,
    joinSegments_eq_intercalate]
  rfl

/-- **A path is determined by its text.** It is enough that reading gives the path back. -/
theorem text_injective : Function.Injective DataPath.text := fun p q h =>
  Except.ok.inj (p.parse_text.symm.trans ((congrArg parse h).trans q.parse_text))

/-- **What is left of a text** behind the one separator that it may begin with. A text that begins
with two separators has one left, and then its first piece is empty. -/
def Bare (text rest : String) : Prop :=
  text = "/" ++ rest ∨ text = rest ∧ ∀ tail, text ≠ "/" ++ tail

/-- **The text without its leading separator** is what the reader goes on with: it drops one
separator if the text begins with it, and no second one. -/
theorem bare_iff : Bare text rest ↔ rest.toList = dropLeading text.toList := by
  have hroot : ∀ tail : String, text = "/" ++ tail ↔ text.toList = separator :: tail.toList :=
    fun tail => by
      rw [← String.toList_inj, String.toList_append]
      rfl
  rw [Bare, hroot rest]
  cases htext : text.toList with
  | nil =>
    have hplain : ∀ tail, text ≠ "/" ++ tail := fun tail h => by simp [hroot, htext] at h
    rw [or_iff_right nofun, and_iff_left hplain, ← String.toList_inj, htext, eq_comm]
    rfl
  | cons c chars =>
    rw [dropLeading]
    split <;> rename_i hc
    · have hrooted : text = "/" ++ String.ofList chars := by
        rw [hroot, htext, hc, String.toList_ofList]
      rw [or_iff_left fun h => h.2 _ hrooted, hc, List.cons_inj_right, eq_comm]
    · have hplain : ∀ tail, text ≠ "/" ++ tail := fun tail h => by
        rw [hroot, htext] at h
        exact hc (List.cons.inj h).1
      rw [or_iff_right fun h => hc (List.cons.inj h).1, and_iff_left hplain, ← String.toList_inj,
        htext, eq_comm]

/-- **Something is left of every text.** There is just one such rest, since the two cases exclude
each other. -/
theorem exists_bare (text : String) : ∃ rest, Bare text rest :=
  ⟨String.ofList (dropLeading text.toList), bare_iff.2 String.toList_ofList⟩

/-- **What reading a text comes to**, by what is left of it. -/
structure Grammar (text rest : String) : Prop where
  /-- This is what is left. -/
  bare : Bare text rest
  /-- A path is read exactly if this is its text. -/
  path : ∀ p, parse text = .ok p ↔ p.text = rest
  /-- It is the text of a path exactly if it is not empty and no piece of it is. -/
  accepted : (∃ p, parse text = .ok p)
    ↔ rest ≠ "" ∧ ∀ piece ∈ rest.toList.splitOn '/', piece ≠ []
  /-- The pieces are the names. -/
  names : ∀ p, parse text = .ok p → p.segments.map String.toList = rest.toList.splitOn '/'
  /-- Otherwise it is empty, or has a first piece that is. -/
  refused : ∀ e, parse text = .error e ↔ rest = "" ∧ e = .empty
    ∨ rest ≠ "" ∧ ∃ before after, rest.toList.splitOn '/' = before ++ [] :: after
      ∧ (∀ piece ∈ before, piece ≠ []) ∧ e = .emptySegment before.length

/-- Reading splits what is left, unless that is nothing. -/
theorem parse_eq (h : Bare text rest) : parse text
    = if rest = "" then .error .empty
      else ofSegments ((splitSegments rest.toList).map String.ofList) := by
  rw [parse, ← bare_iff.1 h]
  split <;> rename_i hrest
  · rw [if_pos (String.toList_eq_nil_iff.1 hrest)]
  · rw [if_neg fun he => hrest (String.toList_eq_nil_iff.2 he)]

/-- Every piece is a name, and every name a piece. -/
theorem segments_eq_map_ofList_iff :
    p.segments = (splitSegments rest.toList).map String.ofList
      ↔ p.segments.map String.toList = splitSegments rest.toList := by
  constructor
  · intro h
    rw [h, List.map_map]
    exact List.map_id'' (fun _ => String.toList_ofList) _
  · intro h
    rw [← h, List.map_map]
    exact (List.map_id'' (fun _ => String.ofList_toList) _).symm

/-- **A text splits into the names of a path** exactly if it is the text of the path. This is
where the two ways of saying what a path is, by names and by text, are brought together. -/
theorem map_toList_segments_eq_iff :
    p.segments.map String.toList = splitSegments rest.toList ↔ p.text = rest := by
  constructor
  · intro h
    rw [DataPath.text, h, joinSegments_splitSegments, String.ofList_toList]
  · rintro rfl
    exact p.splitSegments_text.symm

/-- A piece is a valid name unless it is empty. -/
theorem validName_ofList_iff {chars piece : List Char} (h : piece ∈ splitSegments chars) :
    ValidName (String.ofList piece) ↔ piece ≠ [] := by
  rw [ValidName, String.toList_ofList, and_iff_left (separator_not_mem_of_mem_splitSegments h), ne_eq,
    ← String.toList_eq_nil_iff, String.toList_ofList]

/-- **Of the pieces of a text**, only an empty one is an invalid name. A piece between separators
has none in it, which leaves one of the two reasons for a name to be invalid. -/
theorem isFirstFault_pieces_iff {chars : List Char} :
    IsFirstFault ((splitSegments chars).map String.ofList) e
      ↔ ∃ before after, splitSegments chars = before ++ [] :: after
        ∧ (∀ piece ∈ before, piece ≠ []) ∧ e = .emptySegment before.length := by
  constructor
  · rintro ⟨names, name, others, hnames, hvalid, hname⟩
    obtain ⟨before, rest, hpieces, rfl, hrest⟩ := List.map_eq_append_iff.1 hnames
    obtain ⟨piece, after, rfl, rfl, -⟩ := List.map_eq_cons_iff.1 hrest
    -- A piece lies between separators, so the other fault, a separator within a name, cannot occur.
    rcases hname with ⟨hempty, he⟩ | ⟨hsep, -⟩
    · have hpiece : piece = [] := by
        rw [← String.toList_ofList (l := piece), hempty]
        rfl
      refine ⟨before, after, hpiece ▸ hpieces, fun other hother => ?_, by rw [he, List.length_map]⟩
      have hmem : other ∈ splitSegments chars := hpieces ▸ List.mem_append_left _ hother
      exact (validName_ofList_iff hmem).1 (hvalid _ (List.mem_map_of_mem hother))
    · rw [String.toList_ofList] at hsep
      have hmem : piece ∈ splitSegments chars :=
        hpieces ▸ List.mem_append_right _ List.mem_cons_self
      exact absurd hsep (separator_not_mem_of_mem_splitSegments hmem)
  · rintro ⟨before, after, hpieces, hbefore, rfl⟩
    refine ⟨before.map String.ofList, "", after.map String.ofList, ?_, fun name hname => ?_,
      Or.inl ⟨rfl, by rw [List.length_map]⟩⟩
    · rw [hpieces, List.map_append]
      rfl
    · obtain ⟨piece, hpiece, rfl⟩ := List.mem_map.1 hname
      have hmem : piece ∈ splitSegments chars := hpieces ▸ List.mem_append_left _ hpiece
      exact (validName_ofList_iff hmem).2 (hbefore piece hpiece)

/-- **Every text is read as the grammar says.** The clauses are shown together, since accepting,
refusing and the names come out of one case distinction. -/
theorem grammar (h : Bare text rest) : Grammar text rest where
  bare := h
  path p := by
    rw [parse_eq h]
    split <;> rename_i hrest
    -- Nothing is left of the text, and the text of a path is never empty.
    · refine iff_of_false nofun fun htext => ?_
      obtain ⟨c, chars, hchars, -⟩ := p.exists_text_eq
      rw [htext, hrest] at hchars
      cases hchars
    · rw [ofSegments_eq_ok_iff, segments_eq_map_ofList_iff, map_toList_segments_eq_iff]
  accepted := by
    rw [parse_eq h, ← show separator = '/' from rfl, ← splitSegments_eq_splitOn]
    split <;> rename_i hrest
    · exact iff_of_false nofun fun hcases => hcases.1 hrest
    · rw [and_iff_right hrest]
      constructor
      · rintro ⟨p, hp⟩ piece hpiece
        have hsegments := ofSegments_eq_ok_iff.1 hp
        exact (validName_ofList_iff hpiece).1
          (p.valid _ (hsegments ▸ List.mem_map_of_mem hpiece))
      · intro hpieces
        refine ⟨_, ofSegments_eq_ok (map_splitSegments_ne_nil _ _) fun name hname => ?_⟩
        obtain ⟨piece, hpiece, rfl⟩ := List.mem_map.1 hname
        exact (validName_ofList_iff hpiece).2 (hpieces piece hpiece)
  names p hp := by
    rw [← show separator = '/' from rfl, ← splitSegments_eq_splitOn]
    rw [parse_eq h] at hp
    split at hp
    · cases hp
    · exact segments_eq_map_ofList_iff.1 (ofSegments_eq_ok_iff.1 hp)
  refused e := by
    rw [parse_eq h, ← show separator = '/' from rfl, ← splitSegments_eq_splitOn]
    split <;> rename_i hrest
    · simp [hrest, eq_comm]
    · rw [ofSegments_eq_error_iff, isFirstFault_pieces_iff,
        or_iff_right fun hcases => map_splitSegments_ne_nil _ _ hcases.1,
        or_iff_right fun hcases => hrest hcases.1, and_iff_right hrest]

/-- **Reading inverts writing**, with or without a leading separator, and what is read, refused
and told of a refusal is as the grammar of texts says, or that of names given one by one. -/
theorem parse_inverts_text :
    (∀ p : DataPath, p.text = "/".intercalate p.segments ∧ parse p.text = .ok p
        ∧ parse ("/" ++ p.text) = .ok p)
      ∧ Function.Injective DataPath.text
      ∧ (∀ text, ∃ rest, Grammar text rest)
      ∧ ∀ names, (∀ p, ofSegments names = .ok p ↔ p.segments = names)
        ∧ ∀ e, ofSegments names = .error e ↔ names = [] ∧ e = .empty ∨ IsFirstFault names e := by
  refine ⟨fun p => ⟨p.text_eq_intercalate, p.parse_text, ?_⟩, text_injective, fun text => ?_,
    fun names => ⟨fun p => ofSegments_eq_ok_iff, fun e => ofSegments_eq_error_iff⟩⟩
  · exact ((grammar (Or.inl rfl)).path p).2 rfl
  · obtain ⟨rest, hrest⟩ := exists_bare text
    exact ⟨rest, grammar hrest⟩

/-- Positions count from behind the leading separator. -/
example : parse "/a//b" = .error (.emptySegment 1) := rfl

end DataPath

end Meshwork
