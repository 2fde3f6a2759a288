import Mathlib.Data.List.TakeWhile
import Meshwork.Text.Blank

/-!
# Lines and their words

A text is read line by line, and a line word by word. What is read of a text follows from what
is read of its parts: a line up to its line feed and the lines behind it
(`textLines_append_cons`), a word up to the white space that ends it and the words behind it
(`tokens_append`). A carriage return before a line feed is white space, so the words of a line
are the same with and without it (`tokens_chomp`).
-/

namespace Meshwork

/-! ## Words

The reader collects a word backwards and puts it away at white space. What is shown first
is how the part collected so far enters into the result. -/

/-- Whether a character may stand in a word. -/
abbrev isSolid (c : Char) : Bool := !isBlank c

/-- The word that is being collected goes on up to the next white space. -/
theorem tokensFrom_eq (token : List Char) (found : List (List Char)) (text : List Char) :
    tokensFrom token found text = found.reverse ++ if token = [] then tokens text
      else (token.reverse ++ text.takeWhile isSolid) :: tokens (text.dropWhile isSolid) := by
  induction text generalizing token found with
  | nil => by_cases htoken : token = [] <;> simp [tokensFrom, tokens, htoken]
  | cons c rest ih =>
    have htokens : tokens (c :: rest) = if isBlank c then tokens rest
        else (c :: rest.takeWhile isSolid) :: tokens (rest.dropWhile isSolid) := by
      rw [tokens, tokensFrom]
      split <;> rw [ih] <;> simp
    rw [tokensFrom, htokens]
    by_cases hc : isBlank c = true
    · rw [if_pos hc, if_pos hc, ih]
      by_cases htoken : token = [] <;> simp [htoken, hc]
      rw [htokens, if_pos hc]
    · rw [if_neg hc, if_neg hc, ih]
      by_cases htoken : token = [] <;> simp [htoken, hc]

@[simp] theorem tokens_nil : tokens [] = [] := rfl

/-- White space in front does not count. -/
theorem tokens_cons_of_isBlank {c : Char} (h : isBlank c = true) (rest : List Char) :
    tokens (c :: rest) = tokens rest := by
  rw [tokens, tokensFrom, if_pos h]
  rfl

/-- The first word ends at the first white space behind it. -/
theorem tokens_cons_of_not_isBlank {c : Char} (h : isBlank c = false) (rest : List Char) :
    tokens (c :: rest) = (c :: rest.takeWhile isSolid) :: tokens (rest.dropWhile isSolid) := by
  rw [tokens, tokensFrom, if_neg (Bool.not_eq_true _ ▸ h), tokensFrom_eq]
  simp

/-- **White space in front does not count.** It may be of any length, and also be all that there
is. -/
theorem tokens_blanks_append {space : List Char} (h : ∀ c ∈ space, isBlank c = true)
    (rest : List Char) : tokens (space ++ rest) = tokens rest := by
  induction space with
  | nil => rfl
  | cons c space ih =>
    obtain ⟨hc, hspace⟩ := List.forall_mem_cons.1 h
    rw [List.cons_append, tokens_cons_of_isBlank hc, ih hspace]

/-- **A word is read** up to the white space that ends it. At the end of the text nothing has to
follow it. -/
theorem tokens_append {word rest : List Char} (hne : word ≠ [])
    (hword : ∀ c ∈ word, isBlank c = false) (hrest : ∀ c ∈ rest.head?, isBlank c = true) :
    tokens (word ++ rest) = word :: tokens rest := by
  have htake : rest.takeWhile isSolid = [] := by
    cases rest with
    | nil => rfl
    | cons c rest => rw [List.takeWhile_cons_of_neg (by simp [hrest c rfl])]
  have hdrop : rest.dropWhile isSolid = rest := by
    cases rest with
    | nil => rfl
    | cons c rest => rw [List.dropWhile_cons_of_neg (by simp [hrest c rfl])]
  obtain ⟨c, word, rfl⟩ := List.exists_cons_of_ne_nil hne
  obtain ⟨hc, hword⟩ := List.forall_mem_cons.1 hword
  have hsolid : ∀ c ∈ word, isSolid c = true := fun c hc => by simp [hword c hc]
  rw [List.cons_append, tokens_cons_of_not_isBlank hc, List.takeWhile_append_of_pos hsolid,
    List.dropWhile_append_of_pos hsolid, htake, hdrop, List.append_nil]

/-- **White space at the end does not count.** -/
theorem tokens_append_singleton {c : Char} (h : isBlank c = true) (text : List Char) :
    tokens (text ++ [c]) = tokens text := by
  have hfrom : ∀ token found, tokensFrom token found (text ++ [c]) = tokensFrom token found text := by
    induction text with
    | nil =>
      intro token found
      simp [tokensFrom, h]
    | cons d text ih =>
      intro token found
      rw [List.cons_append, tokensFrom, tokensFrom, ih, ih]
  exact hfrom [] []

/-! ## Lines

Lines are collected in the same way. The last one is a line only if something is in it. -/

/-- A line without the carriage return that it may end with. -/
def chomp (line : List Char) : List Char := endLine line.reverse

/-- The line feed takes away a carriage return before it, or nothing. -/
theorem chomp_cases (line : List Char) : line = chomp line ∨ line = chomp line ++ ['\r'] := by
  unfold chomp
  cases hline : line.reverse with
  | nil => exact Or.inl (by rw [List.reverse_eq_nil_iff.1 hline]; rfl)
  | cons c rest =>
    have heq : line = rest.reverse ++ [c] := by
      rw [← List.reverse_reverse line, hline, List.reverse_cons]
    rw [endLine.eq_def]
    split <;> rename_i hcr
    · obtain ⟨rfl, rfl⟩ := List.cons.inj hcr
      exact Or.inr heq
    · exact Or.inl (by rw [heq, List.reverse_cons])

/-- A carriage return is white space. -/
theorem tokens_chomp (line : List Char) : tokens (chomp line) = tokens line := by
  rcases chomp_cases line with h | h
  · rw [← h]
  · have hblank := tokens_append_singleton (c := '\r') (by decide) (chomp line)
    rw [← h] at hblank
    exact hblank.symm

/-- The line that is being collected goes on up to the next line feed. -/
theorem linesFrom_eq (line : List Char) (found : List (List Char)) (text : List Char) :
    linesFrom line found text = found.reverse ++ linesFrom line [] text := by
  induction text generalizing line found with
  | nil =>
    rw [linesFrom, linesFrom]
    split <;> simp
  | cons c rest ih =>
    rw [linesFrom, linesFrom]
    split
    · rw [ih, ih _ [_]]
      simp
    · rw [ih]

theorem linesFrom_append {front : List Char} (h : '\n' ∉ front) (line rest : List Char) :
    linesFrom line [] (front ++ rest) = linesFrom (front.reverse ++ line) [] rest := by
  induction front generalizing line with
  | nil => rfl
  | cons c front ih =>
    rw [List.mem_cons, not_or] at h
    rw [List.cons_append, linesFrom, if_neg (Ne.symm h.1), ih h.2]
    simp

/-- **A line is read** up to its line feed. A carriage return before it is taken off, and belongs
to the end of the line. -/
theorem textLines_append_cons {line : List Char} (h : '\n' ∉ line) (rest : List Char) :
    textLines (line ++ '\n' :: rest) = chomp line :: textLines rest := by
  rw [textLines, linesFrom_append h, linesFrom, if_pos rfl, linesFrom_eq, List.append_nil]
  rfl

/-- **The last line** needs no line feed. If it is empty, it does not count as a line. -/
theorem textLines_of_not_mem {line : List Char} (h : '\n' ∉ line) :
    textLines line = if line = [] then [] else [line] := by
  have happend := linesFrom_append h [] []
  rw [List.append_nil] at happend
  rw [textLines, happend, linesFrom, List.append_nil]
  split <;> simp_all

/-- Every text has a first line, which is all of it or ends with a line feed. -/
theorem exists_line (text : List Char) : ∃ line, '\n' ∉ line
    ∧ (text = line ∨ ∃ rest, text = line ++ '\n' :: rest ∧ rest.length < text.length) := by
  by_cases h : '\n' ∈ text
  · obtain ⟨line, rest, rfl, hline⟩ := List.eq_append_cons_of_mem h
    refine ⟨line, hline, Or.inr ⟨rest, rfl, ?_⟩⟩
    rw [List.length_append, List.length_cons]
    omega
  · exact ⟨text, h, Or.inl rfl⟩

end Meshwork
