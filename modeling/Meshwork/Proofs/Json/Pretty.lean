import Mathlib.Data.List.Forall2
import Meshwork.Json.Decode
import Meshwork.Proofs.Failure
import Meshwork.Proofs.Json.Token

/-!
# Documents read back

A value that is written over indented lines is read as its tree
(`Json.Value.Readable.readsBack`), so whoever takes something from a document that
was written meets no fault (`Json.takeDocument_pretty`).

Not every float is read as itself. So what is proved of parts is that one value is read
as another (`Json.Value.ReadsAs`), which differs from it in the numbers that are read.

The reader is run with fuel, so the statement for parts of a document says how
much is enough: the length of the text that is written for the part. The number
of steps from an item to the next is constant, and every item takes at least as
many characters.
-/

namespace Meshwork.Json

namespace Value

/-! ## The tree of a value

The reader produces a tree in which faults are kept where they occur. The tree of a value
is the one without faults. -/

mutual

/-- **The tree of a value** that is read without a fault. A reader makes such a tree, in which
every part may be a fault; here none is. -/
def tree : Value → Tree
  | null => .null
  | bool value => .bool value
  | number value => .number (.ok value)
  | string value => .string (.ok value)
  | array items => .array (treeItems items) .closed
  | object members => .object (treeMembers members) .closed

/-- The trees of items. -/
def treeItems : List Value → List Tree
  | [] => []
  | value :: rest => tree value :: treeItems rest

/-- The trees of members. -/
def treeMembers : List (String × Value) → List (Except Fault String × Tree)
  | [] => []
  | (key, value) :: rest => (.ok key, tree value) :: treeMembers rest

end

end Value

/-! ## White space

Between values the reader skips white space, and every new line of the written text is
some. -/

/-- Whether reading skips a character between values. -/
def isSpace (c : Char) : Bool := c = ' ' || c = '\n' || c = '\t' || c = '\r'

/-- **A value starts here**: neither white space nor the end of an array. A list of items asks for
no more before it reads the next one. -/
def StartsValue (s : Symbols) : Prop := ∃ c rest, s = some c :: rest ∧ isSpace c = false ∧ c ≠ ']'

theorem skipSpace_of_not_isSpace {c : Char} (h : isSpace c = false) (rest : Symbols) :
    skipSpace (some c :: rest) = some c :: rest := by
  simp only [isSpace, Bool.or_eq_false_iff, decide_eq_false_iff_not] at h
  rw [skipSpace, if_neg (by simp [h])]

/-- A new line is skipped. -/
theorem skipSpace_newLine (depth : Nat) (s : Symbols) :
    skipSpace ((Value.newLine depth).map some ++ s) = skipSpace s := by
  have hblanks : ∀ n, skipSpace ((List.replicate n ' ').map some ++ s) = skipSpace s := by
    intro n
    induction n with
    | zero => rfl
    | succ n ih => exact ih
  exact hblanks (2 * depth)

theorem StartsValue.skipSpace_eq {s : Symbols} (h : StartsValue s) : skipSpace s = s := by
  obtain ⟨c, rest, rfl, hc, -⟩ := h
  exact skipSpace_of_not_isSpace hc rest

/-- White space before a value does not matter. -/
theorem readValue_space (fuel : Nat) (s : Symbols) :
    readValue fuel (some ' ' :: s) = readValue fuel s := by
  cases fuel with
  | zero => rw [readValue, readValue]
  | succ fuel => rw [readValue, readValue, skipSpace, if_pos (by simp)]

/-! ## The steps through an array and an object

Each of these lemmas runs the reader from one item to the next. They are stated for a
reader with enough fuel and the remaining text, so they can be chained. -/

section Steps

variable (fuel depth : Nat)

/-- The bracket ends an array. -/
theorem readItems_close (first : Bool) (rest : Symbols) :
    readItems (fuel + 1) first ((Value.newLine depth).map some ++ some ']' :: rest)
      = (([], .closed), some rest) := by
  rw [readItems, skipSpace_newLine, skipSpace_of_not_isSpace (by decide)]
  rfl

/-- The first item follows the bracket. -/
theorem readItems_first {s : Symbols} (hs : StartsValue s) :
    readItems (fuel + 1) true ((Value.newLine depth).map some ++ s) = readItem fuel s := by
  rw [readItems, skipSpace_newLine, hs.skipSpace_eq]
  obtain ⟨c, rest, rfl, -, hc⟩ := hs
  simp [hc]

/-- Every other item follows a comma. -/
theorem readItems_next {s : Symbols} (hs : StartsValue s) :
    readItems (fuel + 1) false (some ',' :: (Value.newLine depth).map some ++ s)
      = readItem fuel s := by
  have hskip := hs.skipSpace_eq
  obtain ⟨c, rest, rfl, -, hc⟩ := hs
  rw [readItems, List.cons_append, skipSpace_of_not_isSpace (by decide)]
  simp [skipSpace_newLine, hskip, hc]

/-- The brace ends an object. -/
theorem readMembers_close (first : Bool) (rest : Symbols) :
    readMembers (fuel + 1) first ((Value.newLine depth).map some ++ some '\x7d' :: rest)
      = (([], .closed), some rest) := by
  rw [readMembers, skipSpace_newLine, skipSpace_of_not_isSpace (by decide)]
  rfl

/-- The first member follows the brace. -/
theorem readMembers_first {s : Symbols} (hs : ∃ rest, s = some '"' :: rest) :
    readMembers (fuel + 1) true ((Value.newLine depth).map some ++ s) = readMember fuel s := by
  obtain ⟨rest, rfl⟩ := hs
  rw [readMembers, skipSpace_newLine, skipSpace_of_not_isSpace (by decide)]
  rfl

/-- Every other member follows a comma. -/
theorem readMembers_next {s : Symbols} (hs : ∃ rest, s = some '"' :: rest) :
    readMembers (fuel + 1) false (some ',' :: (Value.newLine depth).map some ++ s)
      = readMember fuel s := by
  obtain ⟨rest, rfl⟩ := hs
  have hskip := skipSpace_of_not_isSpace (c := '"') (by decide) rest
  rw [readMembers, List.cons_append, skipSpace_of_not_isSpace (by decide)]
  simp [skipSpace_newLine, hskip]

end Steps

/-- An item and what the reading goes on with. -/
theorem readItem_of_readValue {fuel : Nat} {s rest : Symbols} {item : Tree}
    (h : readValue fuel s = (item, some rest)) :
    readItem (fuel + 1) s
      = ((item :: (readItems fuel false rest).1.1, (readItems fuel false rest).1.2),
        (readItems fuel false rest).2) := by
  rw [readItem, h]

/-- A member and what the reading goes on with. -/
theorem readMember_of_readValue {fuel : Nat} {key : String} {s rest : Symbols} {value : Tree}
    (hfuel : key.toList.length < fuel) (h : readValue fuel s = (value, some rest)) :
    readMember (fuel + 1) ((stringChars key).map some ++ some ':' :: some ' ' :: s)
      = (((.ok key, value) :: (readMembers fuel false rest).1.1, (readMembers fuel false rest).1.2),
        (readMembers fuel false rest).2) := by
  have htext := readText_stringChars key (some ':' :: some ' ' :: s) hfuel
  have hchars : (stringChars key).map some ++ some ':' :: some ' ' :: s
      = some '"' :: ((key.toList.flatMap escapeStringChar).map some
        ++ some '"' :: some ':' :: some ' ' :: s) := by
    simp [stringChars]
  rw [hchars, readMember, htext]
  simp only [skipSpace_of_not_isSpace (show isSpace ':' = false by decide), readValue_space, h]

/-- A string is read up to its quotation mark. -/
theorem readValue_string (text : String) {fuel : Nat} (rest : Symbols)
    (hfuel : text.toList.length < fuel) :
    readValue (fuel + 1) ((stringChars text).map some ++ rest) = (.string (.ok text), some rest) := by
  have htext := readText_stringChars text rest hfuel
  have hchars : (stringChars text).map some ++ rest
      = some '"' :: ((text.toList.flatMap escapeStringChar).map some ++ some '"' :: rest) := by
    simp [stringChars]
  rw [hchars, readValue, skipSpace_of_not_isSpace (by decide)]
  simp [htext, isDecimalDigit]

/-- An array consists of the items that are read. -/
theorem readValue_array {fuel : Nat} {s rest : Symbols} {items : List Tree} {finish : ListEnd}
    (h : readItems fuel true s = ((items, finish), some rest)) :
    readValue (fuel + 1) (some '[' :: s) = (.array items finish, some rest) := by
  rw [readValue, skipSpace_of_not_isSpace (by decide)]
  simp [h, isDecimalDigit]

/-- An object consists of the members that are read. -/
theorem readValue_object {fuel : Nat} {s rest : Symbols}
    {members : List (Except Fault String × Tree)} {finish : ObjectEnd}
    (h : readMembers fuel true s = ((members, finish), some rest)) :
    readValue (fuel + 1) (some '\x7b' :: s) = (.object members finish, some rest) := by
  rw [readValue, skipSpace_of_not_isSpace (by decide)]
  simp [h, isDecimalDigit]

/-! ## Values

Numbers are where reading may change a value, so they carry the assumption; all other
values are read back as they were written. -/

/-- **A number is read as another** wherever it ends. They differ for floats, whose digits are
read with a rounding at each step. -/
structure Number.ReadsAs (n m : Number) : Prop where
  /-- It starts a value. -/
  starts : ∀ rest, StartsValue (n.text.toList.map some ++ rest)
  /-- It is read. -/
  reads : ∀ fuel rest, EndsNumber rest →
    readValue (fuel + 1) (n.text.toList.map some ++ rest) = (.number (.ok m), some rest)

/-- **A number is read back** wherever it ends. This holds of all integers and of those floats
whose digits are read without a loss. -/
abbrev Number.ReadsBack (n : Number) : Prop := n.ReadsAs n

theorem endsNumber_nil : EndsNumber [] := by
  intro c hc
  cases hc

theorem endsNumber_cons {c : Char} (h : isNumeric c = false) (rest : Symbols) :
    EndsNumber (some c :: rest) := by
  intro d hd
  obtain rfl := Option.some.inj (Option.some.inj hd)
  exact h

theorem endsNumber_newLine (depth : Nat) (rest : Symbols) :
    EndsNumber ((Value.newLine depth).map some ++ rest) :=
  endsNumber_cons (by decide) _

theorem ne_of_isDecimalDigit {c d : Char} (hc : isDecimalDigit c = true)
    (hd : isDecimalDigit d = false) : c ≠ d := by
  rintro rfl
  rw [hc] at hd
  cases hd

theorem isSpace_of_isDecimalDigit {c : Char} (h : isDecimalDigit c = true) : isSpace c = false := by
  have hother : ∀ d, isDecimalDigit d = false → c ≠ d := fun _ => ne_of_isDecimalDigit h
  simp [isSpace, hother ' ' (by decide), hother '\n' (by decide), hother '\t' (by decide),
    hother '\r' (by decide)]

/-- What begins with a digit is read as a number. -/
theorem readValue_digit {c : Char} (h : isDecimalDigit c = true) (fuel : Nat) (s : Symbols) :
    readValue (fuel + 1) (some c :: s) = afterSign false (some c :: s) := by
  have hother : ∀ d, isDecimalDigit d = false → c ≠ d := fun _ => ne_of_isDecimalDigit h
  rw [readValue, skipSpace_of_not_isSpace (isSpace_of_isDecimalDigit h)]
  simp only [hother 'n' (by decide), hother 't' (by decide), hother 'f' (by decide),
    hother '-' (by decide), h, if_true, if_false]

/-- What begins with a minus is read as a number. -/
theorem readValue_minus (fuel : Nat) (s : Symbols) :
    readValue (fuel + 1) (some '-' :: s) = afterSign true s := by
  rw [readValue, skipSpace_of_not_isSpace (by decide)]
  rfl

/-- A natural number of one word is read back. -/
theorem Number.readsBack_natural {n : Nat} (hn : n < UInt64.size) : (natural n).ReadsBack := by
  have htext : (natural n).text.toList = Nat.toDigits 10 n := Nat.toList_repr
  obtain ⟨c, digits, hdigits⟩ : ∃ c digits, Nat.toDigits 10 n = c :: digits :=
    List.exists_cons_of_ne_nil Nat.toDigits_ne_nil
  -- The first digit decides which branch the reader takes.
  have hc : isDecimalDigit c = true :=
    isDecimalDigit_of_mem_toDigits (hdigits ▸ List.mem_cons_self)
  refine ⟨fun rest => ⟨c, digits.map some ++ rest, ?_, isSpace_of_isDecimalDigit hc, ?_⟩,
    fun fuel rest hrest => ?_⟩
  · rw [htext, hdigits]
    rfl
  · rintro rfl
    exact absurd hc (by decide)
  · have hnumber : readNumber false _ = .ok (.ok (natural n), rest) :=
      readNumber_toDigits hn false hrest
    rw [htext]
    rw [hdigits, List.map_cons, List.cons_append] at hnumber ⊢
    rw [readValue_digit hc]
    simp only [afterSign, hnumber]

namespace Value

/-- **Every number of a value is read back.** Strings need no condition, since every character of
theirs is read back. -/
inductive Readable : Value → Prop where
  /-- There is no number. -/
  | null : Readable null
  /-- There is no number. -/
  | bool (value : Bool) : Readable (bool value)
  /-- There is no number. -/
  | string (value : String) : Readable (string value)
  /-- The number is. -/
  | number {value : Number} (h : value.ReadsBack) : Readable (number value)
  /-- Those of the items are. -/
  | array {items : List Value} (h : ∀ v ∈ items, Readable v) : Readable (array items)
  /-- Those of the members are. -/
  | object {members : List (String × Value)} (h : ∀ m ∈ members, Readable m.2) :
    Readable (object members)

/-- **A value is read as another**, given as many steps as it has characters. The steps bound the
recursion of the reader, and each takes at least one character. -/
structure ReadsAs (v w : Value) : Prop where
  /-- It starts a value. -/
  starts : ∀ depth rest, StartsValue ((v.prettyChars depth).map some ++ rest)
  /-- It is read. -/
  reads : ∀ depth fuel rest, (v.prettyChars depth).length ≤ fuel → EndsNumber rest →
    readValue fuel ((v.prettyChars depth).map some ++ rest) = (w.tree, some rest)

/-- **A value is read back**, given as many steps as it has characters. Written at any depth, and
with anything behind it that may follow a value. -/
abbrev ReadsBack (v : Value) : Prop := v.ReadsAs v

/-- **A member is read as another** if its value is, under the same key. Keys are strings and come
back as they are. -/
def MemberReadsAs (m m' : String × Value) : Prop := m.1 = m'.1 ∧ m.2.ReadsAs m'.2

theorem ReadsAs.length_pos {v w : Value} (h : v.ReadsAs w) (depth : Nat) :
    0 < (v.prettyChars depth).length := by
  obtain ⟨c, rest, hchars, -⟩ := h.starts depth []
  rw [← List.length_map (f := some), ← List.append_nil (List.map _ _), hchars]
  exact Nat.succ_pos _

/-! ### Items

The tail of a list of items is read by induction, each step spending fuel on one item. -/

/-- The items after one, with the comma before them. -/
def itemsTail (depth : Nat) : List Value → List Char
  | [] => []
  | value :: rest => ',' :: prettyItems depth (value :: rest)

theorem prettyItems_cons (depth : Nat) (value : Value) (rest : List Value) :
    prettyItems depth (value :: rest)
      = newLine depth ++ (prettyChars depth value ++ itemsTail depth rest) := by
  cases rest with
  | nil => rw [prettyItems, itemsTail, List.append_nil]
  | cons next rest =>
    rw [prettyItems, itemsTail, List.append_assoc]
    simp

/-- **Items are read** up to the end of the array. The induction is on the items that are left;
each takes its separator, its line and its own text. -/
theorem readItem_prettyItems {items items' : List Value} {value value' : Value}
    (hvalue : value.ReadsAs value') (hitems : List.Forall₂ ReadsAs items items') (inner outer : Nat)
    {fuel : Nat} (rest : Symbols)
    (hfuel : (prettyChars inner value ++ itemsTail inner items).length < fuel) :
    readItem fuel ((prettyChars inner value ++ itemsTail inner items).map some
        ++ ((newLine outer).map some ++ some ']' :: rest))
      = ((treeItems (value' :: items'), .closed), some rest) := by
  have hpos := hvalue.length_pos inner
  induction hitems generalizing value value' fuel with
  | nil =>
    rw [itemsTail, List.append_nil] at hfuel ⊢
    obtain ⟨fuel, rfl⟩ : ∃ n, fuel = n + 2 := ⟨fuel - 2, by omega⟩
    have hread := hvalue.reads inner (fuel + 1) _ (Nat.le_of_lt_succ hfuel)
      (endsNumber_newLine outer (some ']' :: rest))
    rw [readItem_of_readValue hread, readItems_close, treeItems, treeItems]
  | @cons next next' items items' hnext _ ih =>
    rw [itemsTail, prettyItems_cons] at hfuel ⊢
    simp only [List.length_append, List.length_cons, newLine] at hfuel
    obtain ⟨fuel, rfl⟩ : ∃ n, fuel = n + 2 := ⟨fuel - 2, by omega⟩
    have hstarts := hnext.starts inner ((itemsTail inner items).map some
      ++ ((newLine outer).map some ++ some ']' :: rest))
    rw [← List.append_assoc, ← List.map_append] at hstarts
    have hread := hvalue.reads inner (fuel + 1) (some ',' :: (newLine inner).map some
      ++ ((prettyChars inner next ++ itemsTail inner items).map some
        ++ ((newLine outer).map some ++ some ']' :: rest))) (by omega) (endsNumber_cons (by decide) _)
    have hlength : (prettyChars inner next ++ itemsTail inner items).length < fuel := by
      rw [List.length_append]
      omega
    have hrest := ih hnext hlength (hnext.length_pos inner)
    -- The text of the value ends with the comma, and the next item starts behind the line.
    have hchars : (prettyChars inner value ++ ',' :: (newLine inner
          ++ (prettyChars inner next ++ itemsTail inner items))).map some
        ++ ((newLine outer).map some ++ some ']' :: rest)
      = (prettyChars inner value).map some ++ (some ',' :: (newLine inner).map some
        ++ ((prettyChars inner next ++ itemsTail inner items).map some
          ++ ((newLine outer).map some ++ some ']' :: rest))) := by
      simp
    rw [hchars, readItem_of_readValue hread, readItems_next _ _ hstarts, hrest]
    simp only [treeItems]

/-! ### Members

The same for members, with the key before each value. -/

/-- The members after one, with the comma before them. -/
def membersTail (depth : Nat) : List (String × Value) → List Char
  | [] => []
  | member :: rest => ',' :: prettyMembers depth (member :: rest)

/-- A member on its line. -/
def memberChars (depth : Nat) (key : String) (value : Value) : List Char :=
  stringChars key ++ ':' :: ' ' :: prettyChars depth value

theorem length_memberChars (depth : Nat) (key : String) (value : Value) :
    (memberChars depth key value).length
      = (key.toList.flatMap escapeStringChar).length + (prettyChars depth value).length + 4 := by
  simp only [memberChars, stringChars, List.length_append, List.length_cons, List.length_nil]
  omega

theorem prettyMembers_cons (depth : Nat) (key : String) (value : Value)
    (rest : List (String × Value)) :
    prettyMembers depth ((key, value) :: rest)
      = newLine depth ++ (memberChars depth key value ++ membersTail depth rest) := by
  cases rest with
  | nil => simp [prettyMembers, membersTail, memberChars]
  | cons next rest => simp [prettyMembers, membersTail, memberChars]

/-- **Members are read** up to the end of the object. It goes like that for items, with the key
and the colon before each value. -/
theorem readMember_prettyMembers {members members' : List (String × Value)} {key : String}
    {value value' : Value} (hvalue : value.ReadsAs value')
    (hmembers : List.Forall₂ MemberReadsAs members members') (inner outer : Nat) {fuel : Nat}
    (rest : Symbols)
    (hfuel : (memberChars inner key value ++ membersTail inner members).length < fuel) :
    readMember fuel ((memberChars inner key value ++ membersTail inner members).map some
        ++ ((newLine outer).map some ++ some '\x7d' :: rest))
      = ((treeMembers ((key, value') :: members'), .closed), some rest) := by
  have hkey := length_memberChars inner key value
  have hescape := length_le_length_escape key.toList
  induction hmembers generalizing key value value' fuel with
  | nil =>
    rw [membersTail, List.append_nil] at hfuel ⊢
    obtain ⟨fuel, rfl⟩ : ∃ n, fuel = n + 2 := ⟨fuel - 2, by omega⟩
    have hread := hvalue.reads inner (fuel + 1) _ (by omega)
      (endsNumber_newLine outer (some '\x7d' :: rest))
    have hchars : (memberChars inner key value).map some
          ++ ((newLine outer).map some ++ some '\x7d' :: rest)
        = (stringChars key).map some ++ some ':' :: some ' ' :: ((prettyChars inner value).map some
          ++ ((newLine outer).map some ++ some '\x7d' :: rest)) := by
      simp [memberChars]
    rw [hchars, readMember_of_readValue (by omega) hread, readMembers_close]
    simp only [treeMembers]
  | @cons next next' members members' hnext _ ih =>
    obtain ⟨nextKey, next⟩ := next
    obtain ⟨_, next'⟩ := next'
    obtain ⟨rfl, hnext⟩ : nextKey = _ ∧ next.ReadsAs next' := hnext
    rw [membersTail, prettyMembers_cons] at hfuel ⊢
    simp only [List.length_append, List.length_cons, newLine] at hfuel
    obtain ⟨fuel, rfl⟩ : ∃ n, fuel = n + 2 := ⟨fuel - 2, by omega⟩
    have hread := hvalue.reads inner (fuel + 1) (some ',' :: (newLine inner).map some
      ++ ((memberChars inner nextKey next ++ membersTail inner members).map some
        ++ ((newLine outer).map some ++ some '\x7d' :: rest))) (by omega)
      (endsNumber_cons (by decide) _)
    have hchars : (memberChars inner key value ++ ',' :: (newLine inner
          ++ (memberChars inner nextKey next ++ membersTail inner members))).map some
        ++ ((newLine outer).map some ++ some '\x7d' :: rest)
      = (stringChars key).map some ++ some ':' :: some ' ' :: ((prettyChars inner value).map some
        ++ (some ',' :: (newLine inner).map some
        ++ ((memberChars inner nextKey next ++ membersTail inner members).map some
          ++ ((newLine outer).map some ++ some '\x7d' :: rest)))) := by
      simp [memberChars]
    -- A member starts with the quote of its key.
    have hstarts : ∃ s, (memberChars inner nextKey next ++ membersTail inner members).map some
        ++ ((newLine outer).map some ++ some '\x7d' :: rest) = some '"' :: s := ⟨_, rfl⟩
    have hlength : (memberChars inner nextKey next ++ membersTail inner members).length < fuel := by
      rw [List.length_append]
      omega
    have hrest := ih hnext hlength (length_memberChars inner nextKey next) (length_le_length_escape _)
    rw [hchars, readMember_of_readValue (by omega) hread, readMembers_next _ _ hstarts, hrest]
    simp only [treeMembers]

/-! ### Every value

The two inductions meet here: a value is read if its items are, one level of indentation
further in. -/

theorem readsBack_string (text : String) : (string text).ReadsBack := by
  refine ⟨fun depth rest => ⟨'"', _, rfl, by decide, by decide⟩, fun depth fuel rest hfuel _ => ?_⟩
  have hescape := length_le_length_escape text.toList
  simp only [prettyChars, stringChars, List.length_append, List.length_cons, List.length_nil] at hfuel
  obtain ⟨fuel, rfl⟩ : ∃ n, fuel = n + 1 := ⟨fuel - 1, by omega⟩
  rw [prettyChars, tree, readValue_string text rest (by omega)]

/-- **An array is read as** what its items are read as, one by one. An empty array has no lines of
its own and is a case apart. -/
theorem readsAs_array {items items' : List Value} (h : List.Forall₂ ReadsAs items items') :
    (array items).ReadsAs (array items') := by
  refine ⟨fun depth rest => ?_, fun depth fuel rest hfuel _ => ?_⟩
  · cases items <;> exact ⟨'[', _, rfl, by decide, by decide⟩
  -- An empty array has no line of its own; otherwise the reader's fuel is what the items and the
  -- closing line are long.
  cases h with
  | nil =>
    obtain ⟨fuel, rfl⟩ : ∃ n, fuel = n + 2 := ⟨fuel - 2, (Nat.sub_add_cancel hfuel).symm⟩
    exact readValue_array (readItems_close fuel 0 true rest)
  | @cons value value' items items' hvalue hrest =>
    rw [prettyChars, prettyItems_cons] at hfuel ⊢
    simp only [List.length_append, List.length_cons, newLine] at hfuel
    obtain ⟨fuel, rfl⟩ : ∃ n, fuel = n + 2 := ⟨fuel - 2, by omega⟩
    have hlength : (prettyChars (depth + 1) value ++ itemsTail (depth + 1) items).length < fuel := by
      rw [List.length_append]
      omega
    have hitems := readItem_prettyItems hvalue hrest (depth + 1) depth rest hlength
    have hstarts := hvalue.starts (depth + 1) ((itemsTail (depth + 1) items).map some
      ++ ((newLine depth).map some ++ some ']' :: rest))
    rw [← List.append_assoc, ← List.map_append] at hstarts
    rw [← readItems_first fuel (depth + 1) hstarts] at hitems
    rw [tree, ← readValue_array hitems]
    simp

/-- **An object is read as** its keys with what its values are read as. An empty object has no
lines of its own, as for arrays. -/
theorem readsAs_object {members members' : List (String × Value)}
    (h : List.Forall₂ MemberReadsAs members members') :
    (object members).ReadsAs (object members') := by
  refine ⟨fun depth rest => ?_, fun depth fuel rest hfuel _ => ?_⟩
  · cases members <;> exact ⟨'\x7b', _, rfl, by decide, by decide⟩
  cases h with
  | nil =>
    obtain ⟨fuel, rfl⟩ : ∃ n, fuel = n + 2 := ⟨fuel - 2, (Nat.sub_add_cancel hfuel).symm⟩
    exact readValue_object (readMembers_close fuel 0 true rest)
  | @cons member member' members members' hmember hrest =>
    obtain ⟨key, value⟩ := member
    obtain ⟨_, value'⟩ := member'
    obtain ⟨rfl, hvalue⟩ : key = _ ∧ value.ReadsAs value' := hmember
    rw [prettyChars, prettyMembers_cons] at hfuel ⊢
    simp only [List.length_append, List.length_cons, newLine] at hfuel
    obtain ⟨fuel, rfl⟩ : ∃ n, fuel = n + 2 := ⟨fuel - 2, by omega⟩
    have hlength : (memberChars (depth + 1) key value
        ++ membersTail (depth + 1) members).length < fuel := by
      rw [List.length_append]
      omega
    have hmembers := readMember_prettyMembers hvalue hrest (depth + 1) depth rest hlength
    -- The first member comes without a comma in front, so it is read as the first one.
    have hstarts : ∃ s, (memberChars (depth + 1) key value ++ membersTail (depth + 1) members).map some
        ++ ((newLine depth).map some ++ some '\x7d' :: rest) = some '"' :: s := ⟨_, rfl⟩
    rw [← readMembers_first fuel (depth + 1) hstarts] at hmembers
    rw [tree, ← readValue_object hmembers]
    simp

theorem readsAs_number {n m : Number} (h : n.ReadsAs m) : (number n).ReadsAs (number m) := by
  refine ⟨fun depth => h.starts, fun depth fuel rest hfuel hrest => ?_⟩
  obtain ⟨c, chars, hchars, -⟩ := h.starts []
  have hlength := congrArg List.length hchars
  rw [List.append_nil, List.length_map] at hlength
  obtain ⟨fuel, rfl⟩ := Nat.exists_eq_add_one.2 (Nat.lt_of_lt_of_le (hlength ▸ Nat.succ_pos _) hfuel)
  exact h.reads fuel rest hrest

/-- **A readable value is read back.** By induction on the value, from what is known of arrays and
objects of such values. -/
theorem Readable.readsBack {v : Value} (h : v.Readable) : v.ReadsBack := by
  induction h with
  | null =>
    refine ⟨fun depth rest => ⟨'n', _, rfl, by decide, by decide⟩, fun depth fuel rest hfuel _ => ?_⟩
    obtain ⟨fuel, rfl⟩ := Nat.exists_eq_add_one.2 (Nat.zero_lt_of_lt hfuel)
    rfl
  | bool b =>
    refine ⟨fun depth rest => ?_, fun depth fuel rest hfuel _ => ?_⟩
    · cases b <;> exact ⟨_, _, rfl, by decide, by decide⟩
    cases fuel with
    | zero => cases b <;> exact absurd hfuel (Nat.not_succ_le_zero _)
    | succ fuel => cases b <;> rfl
  | string text => exact readsBack_string text
  | number hn => exact readsAs_number hn
  | array _ ih => exact readsAs_array (List.forall₂_same.2 ih)
  | object _ ih => exact readsAs_object (List.forall₂_same.2 fun m hm => ⟨rfl, ih m hm⟩)

/-- **A value is read from its text** over indented lines, also if white space follows. A document
is a value with white space around it, and the fuel of the reader is the length of the text. -/
theorem ReadsAs.readDocument_pretty {v w : Value} (h : v.ReadsAs w) {space : Symbols}
    (hends : EndsNumber space) (hspace : skipSpace space = []) :
    readDocument (v.pretty.toList.map some ++ space) = (w.tree, some []) := by
  have hfuel : (v.prettyChars 0).length
      ≤ 4 * ((v.prettyChars 0).map some ++ space).length + 4 := by
    rw [List.length_append, List.length_map]
    omega
  have hread := h.reads 0 _ space hfuel hends
  unfold readDocument
  rw [pretty, String.toList_ofList, hread]
  show (w.tree, some (skipSpace space)) = _
  rw [hspace]

end Value

/-- **What is taken from a document that was written** is what its tree holds. No fault is met on
the way, so only the faults of `take` are left. -/
theorem Value.ReadsAs.takeDocument_pretty {α : Type} (take : Tree → Except Error α) {v w : Value}
    (h : v.ReadsAs w) {space : Symbols} (hends : EndsNumber space) (hspace : skipSpace space = []) :
    takeDocument take (v.pretty.toList.map some ++ space) = take w.tree := by
  unfold takeDocument
  rw [h.readDocument_pretty hends hspace]
  show (take w.tree).bind (fun value => pure value) = _
  cases take w.tree <;> rfl

/-- **What is taken from a document that was written**, if each of its numbers is read back. Then
the tree is that of the value which was written. -/
theorem takeDocument_pretty {α : Type} (take : Tree → Except Error α) {v : Value} (h : v.Readable) :
    takeDocument take (v.pretty.toList.map some) = take v.tree := by
  have htake := h.readsBack.takeDocument_pretty take endsNumber_nil rfl
  rwa [List.append_nil] at htake

/-! ## Lists and objects that were written

Whoever takes a list or an object from a document goes through its items. That goes well
if it goes well at each, and gives what each gives. -/

section Parts

variable {α β σ τ : Type}

/-- **Items are taken together** if each of them can be taken. The condition `P` says for which
items this is so, and `made` what comes of them. -/
theorem takeItems_treeItems_iff {take : Tree → Except Error β} {write : α → Value} {P : α → Prop}
    {made : α → β} {values : List α}
    (h : ∀ x ∈ values, ∀ y, take (write x).tree = .ok y ↔ P x ∧ y = made x) (all : List β) :
    takeItems take .closed (Value.treeItems (values.map write)) = .ok all
      ↔ (∀ x ∈ values, P x) ∧ all = values.map made := by
  induction values generalizing all with
  | nil => exact ⟨fun h => ⟨nofun, (Except.ok.inj h).symm⟩, fun h => congrArg _ h.2.symm⟩
  | cons x values ih =>
    obtain ⟨hx, hrest⟩ := List.forall_mem_cons.1 h
    rw [List.map_cons, Value.treeItems, takeItems]
    simp only [bind_eq_ok_iff, hx, ih hrest, pure_eq_ok_iff, List.forall_mem_cons, List.map_cons]
    constructor
    · rintro ⟨_, ⟨hP, rfl⟩, _, ⟨hall, rfl⟩, rfl⟩
      exact ⟨⟨hP, hall⟩, rfl⟩
    · rintro ⟨⟨hP, hall⟩, rfl⟩
      exact ⟨_, ⟨hP, rfl⟩, _, ⟨hall, rfl⟩, rfl⟩

/-- **Items that are taken one by one** are taken together. It is the case in which none of them
is refused. -/
theorem takeItems_treeItems_map {take : Tree → Except Error β} {write : α → Value} (made : α → β)
    {values : List α} (h : ∀ x ∈ values, take (write x).tree = .ok (made x)) :
    takeItems take .closed (Value.treeItems (values.map write)) = .ok (values.map made) := by
  refine (takeItems_treeItems_iff (P := fun _ => True) (fun x hx y => ?_) _).2 ⟨fun _ _ => trivial, rfl⟩
  rw [h x hx, Except.ok.injEq, true_and, eq_comm]

theorem takeItems_treeItems {take : Tree → Except Error α} {write : α → Value}
    {values : List α} (h : ∀ x ∈ values, take (write x).tree = .ok x) :
    takeItems take .closed (Value.treeItems (values.map write)) = .ok values := by
  simpa using takeItems_treeItems_map id h

/-- **A visit of all members goes well** if it does at each of them. The state is passed from
member to member, and `next` says what each makes of it. -/
theorem foldMembers_treeMembers_iff {visit : σ → String → Tree → Except Error σ}
    (write : τ → String × Value) {P : τ → Prop} {next : σ → τ → σ} {members : List τ}
    (h : ∀ state, ∀ m ∈ members, ∀ after,
      visit state (write m).1 (write m).2.tree = .ok after ↔ P m ∧ after = next state m)
    (state final : σ) :
    foldMembers visit .closed state (Value.treeMembers (members.map write)) = .ok final
      ↔ (∀ m ∈ members, P m) ∧ final = members.foldl next state := by
  induction members generalizing state with
  | nil => exact ⟨fun h => ⟨nofun, (Except.ok.inj h).symm⟩, fun h => congrArg _ h.2.symm⟩
  | cons m members ih =>
    have hmember := h state m List.mem_cons_self
    rw [List.map_cons, Value.treeMembers, foldMembers]
    simp only [bind_eq_ok_iff, hmember,
      ih fun state m hm => h state m (List.mem_cons_of_mem _ hm), List.forall_mem_cons, List.foldl_cons]
    constructor
    · rintro ⟨_, ⟨hP, rfl⟩, hall, rfl⟩
      exact ⟨⟨hP, hall⟩, rfl⟩
    · rintro ⟨⟨hP, hall⟩, rfl⟩
      exact ⟨_, ⟨hP, rfl⟩, hall, rfl⟩

/-- **A visit that goes well** at every member goes well. The state at the end is that of a fold
over the members. -/
theorem foldMembers_treeMembers_map {visit : σ → String → Tree → Except Error σ}
    (write : τ → String × Value) (next : σ → τ → σ) {members : List τ}
    (h : ∀ state, ∀ m ∈ members, visit state (write m).1 (write m).2.tree = .ok (next state m))
    (state : σ) :
    foldMembers visit .closed state (Value.treeMembers (members.map write))
      = .ok (members.foldl next state) := by
  refine (foldMembers_treeMembers_iff write (P := fun _ => True) (fun state m hm after => ?_) _ _).2
    ⟨fun _ _ => trivial, rfl⟩
  rw [h state m hm, Except.ok.injEq, true_and, eq_comm]

theorem foldMembers_treeMembers {visit : σ → String → Tree → Except Error σ}
    (next : σ → String × Value → σ) {members : List (String × Value)}
    (h : ∀ state, ∀ m ∈ members, visit state m.1 m.2.tree = .ok (next state m)) (state : σ) :
    foldMembers visit .closed state (Value.treeMembers members) = .ok (members.foldl next state) := by
  simpa using foldMembers_treeMembers_map id next h state

end Parts

end Meshwork.Json
