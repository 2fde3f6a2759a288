import Meshwork.Mesh.Off
import Meshwork.Proofs.Text.Words

/-!
# Rows of words in an OFF text

How words may stand in a text is said here without reading it. A line lays out words with white
space around them and a comment behind (`Off.Row`), and a text lays out rows of words with lines
between them that hold none (`Off.Rows`). Every line lays out just the words that are read from
it (`Off.row_words`, `Off.Row.words_eq`), and the rows that a text lays out are the first of its
lines that have words (`Off.rows_iff_isPrefix`).
-/

namespace Meshwork.Off

/-! ## Words on a line

The relation is read from the left: white space, a word, and again, until a comment or the
end. A word goes on for as long as it can, so the words of a line are determined. -/

/-- **A line lays out words.** The second index is the line as a list of characters, without its
end. -/
inductive Row : List (List Char) → List Char → Prop
  /-- White space has no words. -/
  | blank (space : List Char) (hspace : ∀ c ∈ space, isBlank c = true) : Row [] space
  /-- Neither has a comment, whatever it says. -/
  | comment (space text : List Char) (hspace : ∀ c ∈ space, isBlank c = true) :
    Row [] (space ++ '#' :: text)
  /-- A word ends at white space, at a comment or at the end of the line. -/
  | word (space word rest : List Char) (words : List (List Char))
    (hspace : ∀ c ∈ space, isBlank c = true) (hne : word ≠ [])
    (hword : ∀ c ∈ word, isBlank c = false ∧ c ≠ '#')
    (hrest : ∀ c ∈ rest.head?, isBlank c = true ∨ c = '#') (hwords : Row words rest) :
    Row (word :: words) (space ++ (word ++ rest))

/-- The words of a line are those that it lays out. -/
theorem Row.words_eq {row : List (List Char)} {line : List Char} (h : Row row line) :
    words line = row := by
  have hsolid : ∀ {c}, isBlank c = true → c ≠ '#' := by
    rintro c hc rfl
    exact absurd hc (by decide)
  induction h with
  | blank space hspace =>
    have htake : space.takeWhile (· ≠ '#') = space :=
      List.takeWhile_eq_self_iff.2 fun c hc => decide_eq_true (hsolid (hspace c hc))
    have htokens := tokens_blanks_append hspace []
    rwa [List.append_nil, tokens_nil, ← htake] at htokens
  | comment space text hspace =>
    have htake : (space ++ '#' :: text).takeWhile (· ≠ '#') = space := by
      rw [List.takeWhile_append_of_pos fun c hc => decide_eq_true (hsolid (hspace c hc))]
      simp
    have htokens := tokens_blanks_append hspace []
    rwa [List.append_nil, tokens_nil, ← htake] at htokens
  | word space word rest others hspace hne hword hrest _ ih =>
    have htake : (space ++ (word ++ rest)).takeWhile (· ≠ '#')
        = space ++ (word ++ rest.takeWhile (· ≠ '#')) := by
      rw [List.takeWhile_append_of_pos fun c hc => decide_eq_true (hsolid (hspace c hc)),
        List.takeWhile_append_of_pos fun c hc => decide_eq_true (hword c hc).2]
    rw [words, htake, tokens_blanks_append hspace,
      tokens_append hne (fun c hc => (hword c hc).1), ← ih]
    · rfl
    · -- What follows the word before a comment is white space.
      intro c hc
      cases rest with
      | nil => cases hc
      | cons d rest =>
        rcases hrest d rfl with hd | rfl
        · simp only [List.takeWhile_cons, hsolid hd, ne_eq, not_false_eq_true, decide_true, if_true,
            List.head?_cons] at hc
          obtain rfl := Option.some.inj hc
          exact hd
        · simp at hc

/-- White space in front of a line adds no word. -/
theorem Row.cons_blank {row : List (List Char)} {line : List Char} {c : Char}
    (hc : isBlank c = true) (h : Row row line) : Row row (c :: line) := by
  cases h with
  | blank _ hspace => exact .blank _ (List.forall_mem_cons.2 ⟨hc, hspace⟩)
  | comment space text hspace => exact .comment (c :: space) text (List.forall_mem_cons.2 ⟨hc, hspace⟩)
  | word space word rest words hspace hne hword hrest hwords =>
    exact .word (c :: space) word rest words (List.forall_mem_cons.2 ⟨hc, hspace⟩) hne hword hrest
      hwords

/-- Any other character in front goes on with the first word, or is a word of its own. -/
theorem Row.exists_cons {row : List (List Char)} {line : List Char} {c : Char}
    (hc : isBlank c = false ∧ c ≠ '#') (h : Row row line) : ∃ row', Row row' (c :: line) := by
  have hsingle : ∀ d ∈ [c], isBlank d = false ∧ d ≠ '#' := List.forall_mem_singleton.2 hc
  -- It is a word of its own where a blank or a comment follows.
  have halone : (∀ d ∈ line.head?, isBlank d = true ∨ d = '#') → ∃ row', Row row' (c :: line) :=
    fun hends => ⟨_, .word [] [c] line row nofun (List.cons_ne_nil _ _) hsingle hends h⟩
  cases h with
  | blank _ hspace => exact halone fun d hd => .inl (hspace d (List.mem_of_mem_head? hd))
  | comment space text hspace =>
    refine halone fun d hd => ?_
    cases space with
    | nil => exact .inr (Option.some.inj hd).symm
    | cons e space => exact .inl (Option.some.inj hd ▸ hspace e List.mem_cons_self)
  | word space word rest words hspace hne hword hrest hwords =>
    cases space with
    | nil =>
      exact ⟨_, .word [] (c :: word) rest words nofun (List.cons_ne_nil _ _)
        (List.forall_mem_cons.2 ⟨hc, hword⟩) hrest hwords⟩
    | cons e space =>
      exact halone fun d hd => .inl (Option.some.inj hd ▸ hspace e List.mem_cons_self)

/-- **Every line lays out its words.** The cases are those of the line: white space, a comment, or
a word with what follows it. -/
theorem row_words (line : List Char) : Row (words line) line := by
  have hexists : ∃ row, Row row line := by
    induction line with
    | nil => exact ⟨[], .blank [] nofun⟩
    | cons c line ih =>
      obtain ⟨row, hrow⟩ := ih
      by_cases hblank : isBlank c = true
      · exact ⟨row, hrow.cons_blank hblank⟩
      by_cases hhash : c = '#'
      · exact ⟨[], hhash ▸ .comment [] line nofun⟩
      · exact hrow.exists_cons ⟨Bool.eq_false_iff.2 hblank, hhash⟩
  obtain ⟨row, hrow⟩ := hexists
  exact hrow.words_eq ▸ hrow

/-- White space at the end of a line adds no word either. -/
theorem Row.append_blank {row : List (List Char)} {line : List Char} {c : Char}
    (hc : isBlank c = true) (h : Row row line) : Row row (line ++ [c]) := by
  induction h with
  | blank space hspace =>
    exact .blank _ (List.forall_mem_append.2 ⟨hspace, List.forall_mem_singleton.2 hc⟩)
  | comment space text hspace =>
    rw [List.append_assoc, List.cons_append]
    exact .comment space _ hspace
  | word space word rest words hspace hne hword hrest _ ih =>
    rw [List.append_assoc, List.append_assoc]
    refine .word space word _ words hspace hne hword (fun d hd => ?_) ih
    cases rest with
    | nil => exact .inl (Option.some.inj hd ▸ hc)
    | cons e rest => exact hrest d hd

/-- A carriage return before the line feed adds no word. -/
theorem words_chomp (line : List Char) : words (chomp line) = words line := by
  rcases chomp_cases line with h | h
  · rw [← h]
  · have hrow := (row_words (chomp line)).append_blank (c := '\r') (by decide)
    rw [← h] at hrow
    exact hrow.words_eq.symm

/-! ## Rows of a text

Lines without words are passed over. So a text lays out its rows with any number of such
lines before, between and behind them. -/

/-- **A text lays out rows of words**, each on a line. A line ends with a line feed; a carriage
return before it is white space, or part of a comment. -/
inductive Rows : List (List (List Char)) → List Char → Prop
  /-- Behind the last row, anything may stand on further lines. -/
  | rest (text : List Char) : Rows [] text
  /-- A line without words is no row. -/
  | skip {rows : List (List (List Char))} {line text : List Char} (hline : '\n' ∉ line)
    (hrow : Row [] line) (hrows : Rows rows text) : Rows rows (line ++ '\n' :: text)
  /-- A line with words is one. -/
  | row {words : List (List Char)} {rows : List (List (List Char))} {line text : List Char}
    (hline : '\n' ∉ line) (hne : words ≠ []) (hrow : Row words line) (hrows : Rows rows text) :
    Rows (words :: rows) (line ++ '\n' :: text)
  /-- The last one needs no line feed. -/
  | last {words : List (List Char)} {line : List Char} (hline : '\n' ∉ line) (hne : words ≠ [])
    (hrow : Row words line) : Rows [words] line

/-- The words of the lines of a text that have any. -/
def rowsOf (text : List Char) : List (List (List Char)) :=
  ((textLines text).map words).filter fun row => !row.isEmpty

theorem map_words_lines (text : String) : (lines text).map Line.words = rowsOf text.toList := by
  have hnumber : ∀ (all : List (List Char)) (start : Nat),
      ((all.zipIdx start).map fun numbered => Line.mk numbered.2 (words numbered.1)).map Line.words
        = all.map words := by
    intro all
    induction all with
    | nil => exact fun _ => rfl
    | cons line rest ih =>
      intro start
      rw [List.zipIdx_cons, List.map_cons, List.map_cons, ih, List.map_cons]
  rw [rowsOf, ← hnumber _ 1, List.filter_map]
  rfl

theorem rowsOf_append_cons {line : List Char} (hline : '\n' ∉ line) (rest : List Char) :
    rowsOf (line ++ '\n' :: rest)
      = if words line = [] then rowsOf rest else words line :: rowsOf rest := by
  rw [rowsOf, textLines_append_cons hline, List.map_cons, words_chomp, List.filter_cons]
  by_cases hwords : words line = [] <;> simp [hwords, rowsOf]

theorem rowsOf_of_not_mem {line : List Char} (hline : '\n' ∉ line) :
    rowsOf line = if words line = [] then [] else [words line] := by
  rw [rowsOf, textLines_of_not_mem hline]
  by_cases hempty : line = []
  · subst hempty
    rfl
  · by_cases hwords : words line = [] <;> simp [hempty, hwords]

/-- **The rows that a text lays out** come first among its lines that have words. Lines without
words lie between them and are dropped when a text is read. -/
theorem Rows.isPrefix {rows : List (List (List Char))} {text : List Char} (h : Rows rows text) :
    rows <+: rowsOf text := by
  induction h with
  | rest text => exact List.nil_prefix
  | skip hline hrow _ ih => rwa [rowsOf_append_cons hline, if_pos hrow.words_eq]
  | row hline hne hrow _ ih =>
    rw [rowsOf_append_cons hline, hrow.words_eq, if_neg hne]
    exact (List.prefix_cons_inj _).2 ih
  | last hline hne hrow =>
    have hrows := rowsOf_of_not_mem hline
    rw [hrow.words_eq, if_neg hne] at hrows
    exact hrows ▸ List.prefix_rfl

/-- **Any first lines with words** are rows that the text lays out. This is the converse, so that
laying out is exactly what reading undoes. -/
theorem rows_of_isPrefix {rows : List (List (List Char))} : {text : List Char} →
    rows <+: rowsOf text → Rows rows text := fun {text} h => by
  by_cases hrows : rows = []
  · exact hrows ▸ .rest text
  obtain ⟨line, hline, rfl | ⟨rest, rfl, hshort⟩⟩ := exists_line text
  · rw [rowsOf_of_not_mem hline] at h
    split at h <;> rename_i hwords
    · exact absurd (List.prefix_nil.1 h) hrows
    · obtain ⟨others, rfl, hothers⟩ := (List.prefix_cons_iff.1 h).resolve_left hrows
      obtain rfl := List.prefix_nil.1 hothers
      exact .last hline hwords (row_words text)
  · rw [rowsOf_append_cons hline] at h
    split at h <;> rename_i hwords
    · exact .skip hline (hwords ▸ row_words line) (rows_of_isPrefix h)
    · obtain ⟨others, rfl, hothers⟩ := (List.prefix_cons_iff.1 h).resolve_left hrows
      exact .row hline hwords (row_words line) (rows_of_isPrefix hothers)
termination_by text => text.length

theorem rows_iff_isPrefix {rows : List (List (List Char))} {text : List Char} :
    Rows rows text ↔ rows <+: rowsOf text := ⟨Rows.isPrefix, rows_of_isPrefix⟩

end Meshwork.Off
