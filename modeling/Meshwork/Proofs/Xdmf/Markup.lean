import Meshwork.Proofs.Text.Words

/-!
# Reading markup

A reader of documents that is independent of what writes them. It cuts a text at its opening
brackets, takes what stands before the next closing bracket as a tag and the rest as lines of
words (`Markup.marks`), and puts the elements together on a stack of those that are open
(`Markup.read`). There is no result if a tag closes another element than the innermost one, or
if an element is left open. Brackets and quotation marks within the values of attributes are
escaped in the documents read here, so they need no care.

What is written piece by piece is read piece by piece: `Markup.Reads` says that a text reads as
certain marks whatever follows it, and `Markup.Shows` that marks add certain elements to the one
that is open. `Markup.Writes` joins the two for the lines of a document.
-/

namespace Meshwork.Markup

/-! ## The reader

The reader is small because the documents are simple: a tag is on a line of its own, and
text between tags is rows of words. It has no part in the program. -/

/-- **An element of a document.** Text and parts are kept apart, as no element of a descriptor has
both in turn. -/
structure Element where
  /-- Its name. -/
  name : String
  /-- The names of its attributes, with their values as they are written. -/
  attributes : List (String × String)
  /-- The lines of words that stand in it. -/
  rows : List (List String)
  /-- The elements that stand in it. -/
  children : List Element

/-- **A mark**: what a document is made of. A line without words is no mark. -/
inductive Mark where
  /-- What stands between two brackets. -/
  | tag (text : List Char)
  /-- The words of a line. -/
  | row (words : List String)

/-- The lines of a text that have words. -/
def rowMarks (text : List Char) : List Mark :=
  (((textLines text).map tokens).filter fun row => !row.isEmpty).map fun row =>
    .row (row.map String.ofList)

/-- The marks of what stands between an opening bracket and the next one. -/
def partMarks (part : List Char) : List Mark :=
  .tag (part.takeWhile (· ≠ '>')) :: rowMarks (part.dropWhile (· ≠ '>')).tail

/-- **The marks of a text.** The text is cut at opening brackets, and each part behind one begins
with a tag. -/
def marks (text : List Char) : List Mark :=
  match text.splitOn '<' with
  | [] => []
  | first :: parts => rowMarks first ++ parts.flatMap partMarks

/-- The name of an attribute, from what stands before its value: the last word there, up to the
equals sign. -/
def keyOf (before : List Char) : String :=
  match before.reverse.takeWhile fun c => !isBlank c with
  | '=' :: key => String.ofList key.reverse
  | _ => ""

/-- The attributes of a tag that is cut at its quotation marks: every second piece is a value. -/
def attributesOf : List (List Char) → List (String × String)
  | before :: value :: rest => (keyOf before, String.ofList value) :: attributesOf rest
  | _ => []

/-- **The element that a tag opens.** Its attributes are found between quotation marks, so that no
value may have one. -/
def opened (tag : List Char) : Element where
  name := String.ofList (tag.takeWhile fun c => !isBlank c)
  attributes := attributesOf (tag.splitOn '"')
  rows := []
  children := []

/-- **What a mark does** to the elements that are open, the innermost one first. It fails at a
closing tag with another name, or with none open. -/
def step : List Element → Mark → Option (List Element)
  | top :: above, .row words => some ({ top with rows := top.rows ++ [words] } :: above)
  | stack, .tag ('?' :: _) => some stack
  | stack, .tag ('!' :: _) => some stack
  | top :: next :: above, .tag ('/' :: name) =>
    if top.name = String.ofList name then
      some ({ next with children := next.children ++ [top] } :: above)
    else none
  | _, .tag ('/' :: _) => none
  | stack, .tag tag => some (opened tag :: stack)
  | [], .row _ => none

/-- What there is before a document is read. -/
def blankPage : Element := ⟨"", [], [], []⟩

/-- **The elements of a text**, if all of them are closed where they should. The page is the
element around all others, which is never closed. -/
def read (text : String) : Option (List Element) :=
  match (marks text.toList).foldlM step [blankPage] with
  | some [page] => some page.children
  | _ => none

/-! ## Texts and their marks

Marks are read from a text from left to right. A line with a tag and a line of words end
where their line feed is. -/

/-- **A text reads as these marks**, whatever follows. It composes for texts that stand one behind
the other. -/
def Reads (text : List Char) (found : List Mark) : Prop :=
  ∀ rest, marks (text ++ rest) = found ++ marks rest

theorem reads_nil : Reads [] [] := fun _ => rfl

theorem Reads.append {text text' : List Char} {found found' : List Mark} (h : Reads text found)
    (h' : Reads text' found') : Reads (text ++ text') (found ++ found') := by
  intro rest
  rw [List.append_assoc, h, h', List.append_assoc]

theorem marks_nil : marks [] = [] := rfl

/-- What has no bracket stands before the first piece of the rest. -/
theorem splitOn_append_of_not_mem {a : Char} {front : List Char} (h : a ∉ front)
    (rest : List Char) :
    (front ++ rest).splitOn a = (rest.splitOn a).modifyHead (front ++ ·) := by
  induction front with
  | nil => cases hrest : rest.splitOn a <;> simp [hrest]
  | cons c front ih =>
    rw [List.mem_cons, not_or] at h
    have hc : (c == a) = false := beq_false_of_ne (Ne.symm h.1)
    rw [List.cons_append, List.splitOn_cons_eq_if_modifyHead, hc, ih h.2]
    cases hrest : rest.splitOn a <;> simp

theorem rowMarks_append_cons {line : List Char} (h : '\n' ∉ line) (rest : List Char) :
    rowMarks (line ++ '\n' :: rest)
      = (if tokens line = [] then [] else [.row ((tokens line).map String.ofList)])
        ++ rowMarks rest := by
  rw [rowMarks, textLines_append_cons h, List.map_cons, tokens_chomp, List.filter_cons]
  by_cases hline : tokens line = [] <;> simp [hline, rowMarks]

theorem rowMarks_of_isBlank {space : List Char} (h : ∀ c ∈ space, isBlank c = true)
    (hline : '\n' ∉ space) : rowMarks space = [] := by
  have htokens : tokens space = [] := by
    have happend := tokens_blanks_append h []
    rwa [List.append_nil] at happend
  rw [rowMarks, textLines_of_not_mem hline]
  split
  · rfl
  · simp [htokens]

/-- **A line of words** is a row. It must have some, as a blank line leaves no mark. -/
theorem reads_row {line : List Char} {words : List String} (hline : '\n' ∉ line)
    (hbracket : '<' ∉ line) (hwords : tokens line = words.map String.toList) (hne : words ≠ []) :
    Reads (line ++ ['\n']) [.row words] := by
  intro rest
  have hfree : '<' ∉ line ++ ['\n'] := by simpa using hbracket
  rw [marks, splitOn_append_of_not_mem hfree, marks]
  cases hrest : rest.splitOn '<' with
  | nil => exact absurd hrest (List.splitOn_ne_nil _ _)
  | cons first parts =>
    have hrow : tokens line ≠ [] := by rwa [hwords, ne_eq, List.map_eq_nil_iff]
    rw [List.modifyHead_cons, List.append_assoc, List.singleton_append]
    dsimp only
    rw [rowMarks_append_cons hline, if_neg hrow, hwords, List.map_map]
    simp [Function.comp_def]

/-- **A line with a tag** is the tag. Only white space may stand before it, and the line ends with
it. -/
theorem reads_tag {space tag : List Char} (hspace : ∀ c ∈ space, isBlank c = true ∧ c ≠ '\n')
    (hopen : '<' ∉ tag) (hclose : '>' ∉ tag) :
    Reads (space ++ '<' :: (tag ++ ['>', '\n'])) [.tag tag] := by
  intro rest
  have hfront : '<' ∉ space := fun h => absurd (hspace _ h).1 (by decide)
  have htag : '<' ∉ tag ++ ['>', '\n'] := by simpa using hopen
  have hblank : rowMarks space = [] :=
    rowMarks_of_isBlank (fun c hc => (hspace c hc).1) fun h => (hspace _ h).2 rfl
  rw [List.append_assoc, List.cons_append, marks, List.splitOn_append_cons_self_of_not_mem hfront,
    splitOn_append_of_not_mem htag, marks]
  -- The text is cut where tags open, so the tag is one part with the line behind it.
  cases hrest : rest.splitOn '<' with
  | nil => exact absurd hrest (List.splitOn_ne_nil _ _)
  | cons first parts =>
    have hstop : ∀ c ∈ tag, decide (c ≠ '>') = true := fun c hc =>
      decide_eq_true fun he => hclose (he ▸ hc)
    have hpart : partMarks (tag ++ ['>', '\n'] ++ first) = .tag tag :: rowMarks first := by
      rw [partMarks, List.append_assoc, List.takeWhile_append_of_pos hstop,
        List.dropWhile_append_of_pos hstop]
      have hline := rowMarks_append_cons (List.not_mem_nil (a := '\n')) first
      simp only [List.nil_append, tokens_nil, if_true] at hline
      simp [hline]
    rw [List.modifyHead_cons]
    dsimp only
    rw [hblank, List.flatMap_cons, hpart]
    simp

/-! ## Tags and their elements

A tag is cut at its quotation marks, so that names and values alternate. Values have no
quotation marks in them. -/

/-- **A tag of an element**: its name, and each attribute behind a space. The text of a tag is
what stands between the two brackets. -/
def tagText (name : String) (attributes : List (String × String)) : List Char :=
  name.toList ++ attributes.flatMap fun (key, value) =>
    ' ' :: (key.toList ++ '=' :: '"' :: (value.toList ++ ['"']))

/-- Whether a character may stand in a name or a number. -/
def isPlainChar (c : Char) : Bool := c.isAlphanum || c == ':' || c == '.' || c == '-'

/-- **A plain word**: the name of an element or of an attribute, or a number. These are letters,
digits and a few signs, of which none has a meaning in the markup. -/
structure IsPlain (word : String) : Prop where
  /-- It is not empty. -/
  ne_nil : word.toList ≠ []
  /-- It has no other characters. -/
  chars : ∀ c ∈ word.toList, isPlainChar c = true

instance (word : String) : Decidable (IsPlain word) :=
  decidable_of_iff (word.toList ≠ [] ∧ word.toList.all isPlainChar = true)
    ⟨fun ⟨hne, hchars⟩ => ⟨hne, List.all_eq_true.1 hchars⟩,
      fun h => ⟨h.ne_nil, List.all_eq_true.2 h.chars⟩⟩

theorem toNat_lt_of_isPlainChar {c : Char} (h : isPlainChar c = true) : c.toNat < 128 := by
  delta isPlainChar Char.isAlphanum Char.isAlpha Char.isUpper Char.isLower Char.isDigit at h
  simp only [Bool.or_eq_true, Bool.and_eq_true, decide_eq_true_eq, beq_iff_eq] at h
  have hbound : ∀ {n : UInt32}, c.val ≤ n → n.toNat < 128 → c.toNat < 128 := fun hle hn =>
    Nat.lt_of_le_of_lt (UInt32.le_iff_toNat_le.1 hle) hn
  rcases h with (((((h | h) | h) | rfl) | rfl) | rfl)
  · exact hbound h.2 (by decide)
  · exact hbound h.2 (by decide)
  · exact hbound h.2 (by decide)
  all_goals decide

/-- Plain characters have no part in the markup. -/
theorem of_isPlainChar {c : Char} (h : isPlainChar c = true) :
    isBlank c = false ∧ c ∉ ['"', '=', '<', '>', '/', '?', '!', '&'] := by
  have hplain : ∀ n < 128, isPlainChar (Char.ofNat n) = true → isBlank (Char.ofNat n) = false
      ∧ Char.ofNat n ∉ ['"', '=', '<', '>', '/', '?', '!', '&'] := by
    decide
  have hc := hplain c.toNat (toNat_lt_of_isPlainChar h)
  rw [Char.ofNat_toNat] at hc
  exact hc h

/-- **A value** has no character of the markup, except where it is written as a reference.
Ampersands are allowed, because references begin with them. -/
def IsValue (value : String) : Prop := ∀ c ∈ value.toList, c ∉ ['"', '<', '>']

instance (value : String) : Decidable (IsValue value) :=
  List.decidableBAll _ value.toList

theorem keyOf_append {key : String} (h : IsPlain key) (before : List Char) :
    keyOf (before ++ ' ' :: (key.toList ++ ['='])) = key := by
  have hreverse : (before ++ ' ' :: (key.toList ++ ['='])).reverse
      = ('=' :: key.toList.reverse) ++ ' ' :: before.reverse := by simp
  have hsolid : ∀ c ∈ '=' :: key.toList.reverse, (!isBlank c) = true := by
    refine List.forall_mem_cons.2 ⟨by decide, fun c hc => ?_⟩
    rw [(of_isPlainChar (h.chars c (List.mem_reverse.1 hc))).1, Bool.not_false]
  have htake : (before ++ ' ' :: (key.toList ++ ['='])).reverse.takeWhile (fun c => !isBlank c)
      = '=' :: key.toList.reverse := by
    rw [hreverse, List.takeWhile_append_of_pos hsolid]
    simp [show isBlank ' ' = true by decide]
  rw [keyOf, htake]
  simp

/-- The attributes are those that the tag is made of. -/
theorem attributesOf_splitOn {attributes : List (String × String)}
    (h : ∀ entry ∈ attributes, IsPlain entry.1 ∧ IsValue entry.2) {before : List Char}
    (hbefore : '"' ∉ before) :
    attributesOf ((before ++ attributes.flatMap fun (key, value) =>
      ' ' :: (key.toList ++ '=' :: '"' :: (value.toList ++ ['"']))).splitOn '"') = attributes := by
  induction attributes generalizing before with
  | nil => simp [List.splitOn_eq_singleton hbefore, attributesOf]
  | cons entry attributes ih =>
    obtain ⟨key, value⟩ := entry
    obtain ⟨⟨hkey, hvalue⟩, hrest⟩ := List.forall_mem_cons.1 h
    have hfront : '"' ∉ before ++ ' ' :: (key.toList ++ ['=']) := by
      have hnot : '"' ∉ key.toList := fun hc => (of_isPlainChar (hkey.chars _ hc)).2 (by decide)
      simp [hbefore, hnot]
    have hfree : '"' ∉ value.toList := fun hc => hvalue _ hc (by decide)
    have hnext := ih hrest (List.not_mem_nil (a := '"'))
    rw [List.nil_append] at hnext
    -- The text goes on with the key, the value and the other attributes.
    have htext : ∀ others : List Char,
        before ++ (' ' :: (key.toList ++ '=' :: '"' :: (value.toList ++ ['"'])) ++ others)
          = (before ++ ' ' :: (key.toList ++ ['='])) ++ '"' :: (value.toList ++ '"' :: others) := by
      simp
    rw [List.flatMap_cons, htext, List.splitOn_append_cons_self_of_not_mem hfront,
      List.splitOn_append_cons_self_of_not_mem hfree, attributesOf, hnext, keyOf_append hkey,
      String.ofList_toList]

/-- **A tag opens the element that it is made of.** The tag is split at spaces and quotation
marks, and neither the names nor the values have any that would be in the way. -/
theorem opened_tagText {name : String} {attributes : List (String × String)} (hname : IsPlain name)
    (h : ∀ entry ∈ attributes, IsPlain entry.1 ∧ IsValue entry.2) :
    opened (tagText name attributes) = ⟨name, attributes, [], []⟩ := by
  have hsolid : ∀ c ∈ name.toList, (!isBlank c) = true := fun c hc => by
    rw [(of_isPlainChar (hname.chars c hc)).1, Bool.not_false]
  have hfree : '"' ∉ name.toList := fun hc => (of_isPlainChar (hname.chars _ hc)).2 (by decide)
  have hend : (attributes.flatMap fun (key, value) =>
      ' ' :: (key.toList ++ '=' :: '"' :: (value.toList ++ ['"']))).takeWhile (fun c => !isBlank c)
        = [] := by
    cases attributes with
    | nil => rfl
    | cons entry attributes => rfl
  rw [opened, tagText, attributesOf_splitOn h hfree, List.takeWhile_append_of_pos hsolid, hend,
    List.append_nil, String.ofList_toList]

/-! ## Marks and their elements

The stack of open elements grows and shrinks; what is shown inside an element is added to
it before it is closed. -/

/-- **Marks show elements**: they are added to those in the innermost element that is open.
Whatever was in it before stays in front of them. -/
def Shows (found : List Mark) (elements : List Element) : Prop :=
  ∀ top above, found.foldlM step (top :: above)
    = some ({ top with children := top.children ++ elements } :: above)

theorem shows_nil : Shows [] [] := by
  rintro ⟨name, attributes, rows, children⟩ above
  rw [List.foldlM_nil, List.append_nil]
  rfl

theorem Shows.append {found found' : List Mark} {elements elements' : List Element}
    (h : Shows found elements) (h' : Shows found' elements') :
    Shows (found ++ found') (elements ++ elements') := by
  intro top above
  rw [List.foldlM_append, h, Option.bind_eq_bind, Option.bind_some, h', List.append_assoc]

theorem foldlM_step_row (rows : List (List String)) (top : Element) (above : List Element) :
    (rows.map Mark.row).foldlM step (top :: above)
      = some ({ top with rows := top.rows ++ rows } :: above) := by
  induction rows generalizing top with
  | nil =>
    cases top
    rw [List.map_nil, List.foldlM_nil, List.append_nil]
    rfl
  | cons words rows ih =>
    rw [List.map_cons, List.foldlM_cons, step, Option.bind_eq_bind, Option.bind_some, ih,
      List.append_assoc, List.singleton_append]

/-- **An element** from its tags, its rows and what stands in it. The opening tag puts it on the
stack, and the closing one adds it to the element below. -/
theorem shows_element {name : String} {attributes : List (String × String)} (hname : IsPlain name)
    (h : ∀ entry ∈ attributes, IsPlain entry.1 ∧ IsValue entry.2)
    (rows : List (List String)) {found : List Mark} {children : List Element}
    (hfound : Shows found children) :
    Shows (.tag (tagText name attributes)
        :: (rows.map .row ++ (found ++ [.tag ('/' :: name.toList)])))
      [⟨name, attributes, rows, children⟩] := by
  intro top above
  -- The name does not begin with a mark that would make the tag an end or a declaration.
  have hopen : step (top :: above) (.tag (tagText name attributes))
      = some (⟨name, attributes, [], []⟩ :: top :: above) := by
    have hopened := opened_tagText hname h
    obtain ⟨c, rest, hchars⟩ := List.exists_cons_of_ne_nil hname.ne_nil
    have hplain := (of_isPlainChar (hname.chars c (hchars ▸ List.mem_cons_self))).2
    simp only [List.mem_cons, not_or] at hplain
    obtain ⟨-, -, -, -, hslash, hquestion, hbang, -⟩ := hplain
    rw [← hopened]
    unfold tagText
    rw [hchars, List.cons_append]
    unfold step
    split
    all_goals simp_all
  rw [List.foldlM_cons, hopen, Option.bind_eq_bind, Option.bind_some, List.foldlM_append,
    foldlM_step_row, Option.bind_eq_bind, Option.bind_some, List.foldlM_append, hfound,
    Option.bind_eq_bind, Option.bind_some, List.foldlM_cons, step]
  simp

/-! ## Lines and their elements

A writer makes lines, and lines make marks. Blocks of lines that write elements can be put
behind one another and into one another. -/

/-- The text of some lines. -/
def linesText (lines : List String) : List Char := lines.flatMap fun line => line.toList ++ ['\n']

theorem linesText_append (lines others : List String) :
    linesText (lines ++ others) = linesText lines ++ linesText others := List.flatMap_append

/-- **Lines write elements.** This is the relation by which the descriptor is taken apart, line by
line. -/
def Writes (lines : List String) (elements : List Element) : Prop :=
  ∃ found, Reads (linesText lines) found ∧ Shows found elements

theorem writes_nil : Writes [] [] := ⟨[], reads_nil, shows_nil⟩

theorem Writes.append {lines others : List String} {elements further : List Element}
    (h : Writes lines elements) (h' : Writes others further) :
    Writes (lines ++ others) (elements ++ further) := by
  obtain ⟨found, hreads, hshows⟩ := h
  obtain ⟨found', hreads', hshows'⟩ := h'
  exact ⟨found ++ found', linesText_append lines others ▸ hreads.append hreads',
    hshows.append hshows'⟩

/-- **One element after the other.** By induction on the items, as the marks come one after the
other. -/
theorem writes_flatMap {α : Type} {write : α → List String} {element : α → Element} {items : List α}
    (h : ∀ item ∈ items, Writes (write item) [element item]) :
    Writes (items.flatMap write) (items.map element) := by
  induction items with
  | nil => exact writes_nil
  | cons item items ih =>
    obtain ⟨hitem, hrest⟩ := List.forall_mem_cons.1 h
    rw [List.flatMap_cons, List.map_cons]
    exact hitem.append (ih hrest)

/-- Words with spaces between them are read one by one. -/
theorem tokens_intercalate {words : List String} (h : ∀ word ∈ words, IsPlain word) :
    tokens (" ".intercalate words).toList = words.map String.toList := by
  rw [String.toList_intercalate]
  induction words with
  | nil => rfl
  | cons word words ih =>
    obtain ⟨hword, hrest⟩ := List.forall_mem_cons.1 h
    have hsolid : ∀ c ∈ word.toList, isBlank c = false := fun c hc =>
      (of_isPlainChar (hword.chars c hc)).1
    -- The last word has no space behind it.
    cases words with
    | nil =>
      have hone : tokens (word.toList ++ []) = word.toList :: tokens [] :=
        tokens_append hword.ne_nil hsolid nofun
      rw [List.append_nil, tokens_nil] at hone
      rw [List.map_singleton, List.intercalate_singleton, hone]
    | cons next words =>
      rw [List.map_cons, List.map_cons, List.intercalate_cons_cons, List.append_assoc,
        tokens_append hword.ne_nil hsolid fun c hc => ?_]
      · exact congrArg _ ((tokens_cons_of_isBlank (by decide) _).trans (ih hrest))
      · obtain rfl := Option.some.inj hc
        decide

/-- The characters of words with spaces between them. -/
theorem forall_mem_intercalate {p : Char → Prop} (hspace : p ' ') {words : List String}
    (h : ∀ word ∈ words, ∀ c ∈ word.toList, p c) : ∀ c ∈ (" ".intercalate words).toList, p c := by
  rw [String.toList_intercalate]
  induction words with
  | nil => exact nofun
  | cons word words ih =>
    obtain ⟨hword, hrest⟩ := List.forall_mem_cons.1 h
    cases words with
    | nil => simpa using hword
    | cons next words =>
      rw [List.map_cons, List.map_cons, List.intercalate_cons_cons, List.forall_mem_append,
        List.forall_mem_append]
      exact ⟨⟨hword, List.forall_mem_singleton.2 hspace⟩, ih hrest⟩

/-- **A line holds a tag**, and nothing else. It may be indented by any number of spaces. -/
def IsTag (line : String) (tag : List Char) : Prop :=
  ∃ indent : Nat, line.toList = List.replicate indent ' ' ++ '<' :: (tag ++ ['>'])

theorem IsTag.reads_line {line : String} {tag : List Char} (h : IsTag line tag) (hopen : '<' ∉ tag)
    (hclose : '>' ∉ tag) : Reads (line.toList ++ ['\n']) [.tag tag] := by
  obtain ⟨indent, hline⟩ := h
  have hspace : ∀ c ∈ List.replicate indent ' ', isBlank c = true ∧ c ≠ '\n' := by
    intro c hc
    obtain rfl := List.eq_of_mem_replicate hc
    decide
  rw [hline, List.append_assoc, List.cons_append, List.append_assoc]
  exact reads_tag hspace hopen hclose

/-- The brackets are not among the characters of a tag. -/
theorem not_mem_tagText {name : String} {attributes : List (String × String)} (hname : IsPlain name)
    (h : ∀ entry ∈ attributes, IsPlain entry.1 ∧ IsValue entry.2) {c : Char}
    (hc : c = '<' ∨ c = '>') : c ∉ tagText name attributes := by
  have hplain : ∀ {word : String}, IsPlain word → c ∉ word.toList := fun hword hmem => by
    have hnot := (of_isPlainChar (hword.chars c hmem)).2
    simp only [List.mem_cons, not_or] at hnot
    rcases hc with rfl | rfl
    · exact hnot.2.2.1 rfl
    · exact hnot.2.2.2.1 rfl
  rw [tagText, List.mem_append, List.mem_flatMap]
  rintro (hmem | ⟨⟨key, value⟩, hentry, hmem⟩)
  · exact hplain hname hmem
  · obtain ⟨hkey, hvalue⟩ := h _ hentry
    have hvalue' : c ∉ value.toList := fun hmem =>
      hvalue c hmem (by rcases hc with rfl | rfl <;> decide)
    have hsigns : c ≠ ' ' ∧ c ≠ '=' ∧ c ≠ '"' := by rcases hc with rfl | rfl <;> decide
    simp [hplain hkey, hvalue', hsigns] at hmem

/-- Rows are read one by one. -/
theorem reads_rows {margin : String} (hmargin : ∀ c ∈ margin.toList, c = ' ')
    {rows : List (List String)} (h : ∀ row ∈ rows, row ≠ [] ∧ ∀ word ∈ row, IsPlain word) :
    Reads (linesText (rows.map fun row => margin ++ " ".intercalate row)) (rows.map .row) := by
  induction rows with
  | nil => exact reads_nil
  | cons row rows ih =>
    obtain ⟨⟨hne, hrow⟩, hrest⟩ := List.forall_mem_cons.1 h
    have hwords : tokens (margin ++ " ".intercalate row).toList = row.map String.toList := by
      rw [String.toList_append, tokens_blanks_append fun c hc => by rw [hmargin c hc]; decide]
      exact tokens_intercalate hrow
    have hplain : ∀ {c}, isPlainChar c = true → c ≠ '\n' ∧ c ≠ '<' := by
      intro c hc
      constructor
      all_goals
        intro he
        rw [he] at hc
        exact absurd hc (by decide)
    -- Neither the margin nor the words can end the line or open a tag.
    have hline : ∀ c ∈ (margin ++ " ".intercalate row).toList, c ≠ '\n' ∧ c ≠ '<' := by
      rw [String.toList_append, List.forall_mem_append]
      refine ⟨fun c hc => by rw [hmargin c hc]; decide, forall_mem_intercalate (by decide) ?_⟩
      exact fun word hword c hc => hplain ((hrow word hword).chars c hc)
    have hrow := reads_row (fun hc => (hline _ hc).1 rfl) (fun hc => (hline _ hc).2 rfl) hwords hne
    exact hrow.append (ih hrest)

/-- **The lines of an element**: a tag, the rows, the lines of what stands in it, and a tag. -/
theorem writes_element {first last : String} {name : String}
    {attributes : List (String × String)} (hname : IsPlain name)
    (h : ∀ entry ∈ attributes, IsPlain entry.1 ∧ IsValue entry.2)
    (hfirst : IsTag first (tagText name attributes)) (hlast : IsTag last ('/' :: name.toList))
    (margin : String) (hmargin : ∀ c ∈ margin.toList, c = ' ') (rows : List (List String))
    (hrows : ∀ row ∈ rows, row ≠ [] ∧ ∀ word ∈ row, IsPlain word)
    {inner : List String} {children : List Element} (hinner : Writes inner children) :
    Writes (first :: (rows.map (fun row => margin ++ " ".intercalate row) ++ (inner ++ [last])))
      [⟨name, attributes, rows, children⟩] := by
  obtain ⟨found, hreads, hshows⟩ := hinner
  have hclosing : ∀ c, c = '<' ∨ c = '>' → c ∉ '/' :: name.toList := by
    intro c hc
    have htag : c ∉ tagText name [] := not_mem_tagText hname (List.forall_mem_nil _) hc
    rw [tagText, List.flatMap_nil, List.append_nil] at htag
    rw [List.mem_cons, not_or]
    exact ⟨by rcases hc with rfl | rfl <;> decide, htag⟩
  have hopening := hfirst.reads_line (not_mem_tagText hname h (.inl rfl))
    (not_mem_tagText hname h (.inr rfl))
  have hending := hlast.reads_line (hclosing _ (.inl rfl)) (hclosing _ (.inr rfl))
  refine ⟨_, ?_, shows_element hname h rows hshows⟩
  have hall := hopening.append ((reads_rows hmargin hrows).append (hreads.append hending))
  rw [linesText, List.flatMap_cons, ← linesText, linesText_append, linesText_append]
  simpa [linesText] using hall

/-- The lines of an element without rows. -/
theorem writes_parent {first last : String} {name : String} {attributes : List (String × String)}
    (hname : IsPlain name) (h : ∀ entry ∈ attributes, IsPlain entry.1 ∧ IsValue entry.2)
    (hfirst : IsTag first (tagText name attributes)) (hlast : IsTag last ('/' :: name.toList))
    {inner : List String} {children : List Element} (hinner : Writes inner children) :
    Writes (first :: (inner ++ [last])) [⟨name, attributes, [], children⟩] :=
  writes_element hname h hfirst hlast "" nofun [] nofun hinner

/-- **A declaration** writes no element. -/
theorem writes_declaration {line : String} {c : Char} {tag : List Char} (hc : c = '?' ∨ c = '!')
    (h : IsTag line (c :: tag)) (hopen : '<' ∉ tag) (hclose : '>' ∉ tag) : Writes [line] [] := by
  have hsign : c ≠ '<' ∧ c ≠ '>' := by rcases hc with rfl | rfl <;> decide
  have hreads := h.reads_line (List.not_mem_cons_of_ne_of_not_mem hsign.1.symm hopen)
    (List.not_mem_cons_of_ne_of_not_mem hsign.2.symm hclose)
  refine ⟨[.tag (c :: tag)], by simpa [linesText] using hreads, ?_⟩
  rintro ⟨name, attributes, rows, children⟩ above
  rw [List.foldlM_cons, List.append_nil]
  rcases hc with rfl | rfl <;> rfl

/-- **A document of these lines is read** as these elements. -/
theorem read_join {lines : List String} {elements : List Element} (h : Writes lines elements) :
    read (String.join (lines.map (· ++ "\n"))) = some elements := by
  obtain ⟨found, hreads, hshows⟩ := h
  have htext : (String.join (lines.map (· ++ "\n"))).toList = linesText lines := by
    rw [String.toList_join, List.flatMap_map]
    simp [linesText, String.toList_append]
  have hmarks := hreads []
  rw [List.append_nil, marks_nil, List.append_nil] at hmarks
  rw [read, htext, hmarks, hshows]
  simp [blankPage]

end Meshwork.Markup
