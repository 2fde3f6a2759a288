import Mathlib.Tactic.IntervalCases
import Meshwork.Json.Tree

/-!
# Strings and numbers read back

The two kinds of JSON text whose reading is more than a comparison. Within a
string, every character is read back from the way it is written there
(`Json.readString_escape`), and so the string is (`Json.readText_stringChars`).
An integer of one word is read back from its digits
(`Json.readNumber_toDigits`) if they end there: the reader takes as many
digits as there are, so what follows must not go on with the number.
-/

namespace Meshwork.Json

/-! ## Strings

A character within a string is written as itself, by a short escape or by its code point.
Reading inverts each of the three. -/

/-- The digits in the escape of a control character write its code point. -/
theorem readHex4_control {n : Nat} (h : n < 0x20) (rest : Symbols) :
    readHex4 (((if n < 0x10 then ['0', '0', '0'] else ['0', '0']) ++ hexDigits n).map some ++ rest)
      = .ok (n, rest) := by
  interval_cases n <;> rfl

/-- A control character is read from the digits of its escape. -/
theorem readCodePoint_control {c : Char} (h : c.toNat < 0x20) (rest : Symbols) :
    readCodePoint (((if c.toNat < 0x10 then ['0', '0', '0'] else ['0', '0'])
        ++ hexDigits c.toNat).map some ++ rest) = .ok (c, rest) := by
  have hsurrogate : ¬ (0xDC00 ≤ c.toNat ∧ c.toNat ≤ 0xDFFF) := by omega
  have hplane : c.toNat < 0xD800 ∨ 0xDBFF < c.toNat := by omega
  unfold readCodePoint
  rw [readHex4_control h]
  show (if 0xDC00 ≤ c.toNat ∧ c.toNat ≤ 0xDFFF then _ else _) = _
  rw [if_neg hsurrogate, if_pos hplane, Char.ofNat_toNat]
  rfl

/-- An escape by code point is read as its character. -/
theorem readString_codePoint {s rest : Symbols} {c : Char} (h : readCodePoint s = .ok (c, rest))
    (read : List Char) (gap : Bool) (fuel : Nat) :
    readString read gap (fuel + 1) (some '\\' :: some 'u' :: s)
      = readString (c :: read) gap fuel rest := by
  rw [readString, if_neg (by decide), if_pos rfl]
  simp only [h]

/-- Any other character is read as itself. -/
theorem readString_plain {c : Char} (hquote : c ≠ '"') (hescape : c ≠ '\\') (h : 0x20 ≤ c.toNat)
    (read : List Char) (gap : Bool) (fuel : Nat) (rest : Symbols) :
    readString read gap (fuel + 1) (some c :: rest) = readString (c :: read) gap fuel rest := by
  rw [readString.eq_def]
  show (if c = '"' then _ else if c = '\\' then _ else if c.toNat < 0x20 then _ else _) = _
  rw [if_neg hquote, if_neg hescape, if_neg (Nat.not_lt.2 h)]

/-- **A character is read back** from the way it stands within a string. There are three ways: as
it is, behind a backslash, or by its number in four digits. -/
theorem readString_escape (c : Char) (read : List Char) (gap : Bool) (fuel : Nat) (rest : Symbols) :
    readString read gap (fuel + 1) ((escapeStringChar c).map some ++ rest)
      = readString (c :: read) gap fuel rest := by
  unfold escapeStringChar
  -- The cases follow the writer: the seven short escapes, the two code points of control
  -- characters, and everything else, which stands for itself.
  split
  case isTrue h => rw [h]; rfl
  split
  case isTrue h => rw [h]; rfl
  split
  case isTrue h => rw [h]; rfl
  split
  case isTrue h => rw [h]; rfl
  split
  case isTrue h => rw [h]; rfl
  split
  case isTrue h => rw [h]; rfl
  split
  case isTrue h => rw [h]; rfl
  split
  case isTrue h =>
    have hdigits := readCodePoint_control (c := c) (by omega) rest
    rw [if_pos h] at hdigits
    exact readString_codePoint hdigits read gap fuel
  split
  case isTrue hsmall h =>
    have hdigits := readCodePoint_control (c := c) h rest
    rw [if_neg hsmall] at hdigits
    exact readString_codePoint hdigits read gap fuel
  case isFalse hquote hescape _ _ _ _ _ _ h =>
    exact readString_plain hquote hescape (Nat.not_lt.1 h) read gap fuel rest

/-- The characters of a text are read behind what was read before. -/
theorem readString_flatMap (chars read : List Char) {fuel : Nat} (rest : Symbols)
    (hfuel : chars.length < fuel) :
    readString read false fuel ((chars.flatMap escapeStringChar).map some ++ some '"' :: rest)
      = .ok (String.ofList (read.reverse ++ chars), rest) := by
  induction chars generalizing read fuel with
  | nil =>
    obtain ⟨fuel, rfl⟩ := Nat.exists_eq_add_one.2 hfuel
    rw [List.append_nil]
    rfl
  | cons c chars ih =>
    obtain ⟨fuel, rfl⟩ := Nat.exists_eq_add_one.2 (Nat.zero_lt_of_lt hfuel)
    rw [List.flatMap_cons, List.map_append, List.append_assoc, readString_escape,
      ih _ (Nat.lt_of_succ_lt_succ hfuel), List.reverse_cons, List.append_assoc,
      List.singleton_append]

/-- **A string is read back.** Each character of the text takes one step, and the mark at the end
one more. -/
theorem readText_stringChars (text : String) {fuel : Nat} (rest : Symbols)
    (hfuel : text.toList.length < fuel) :
    readText fuel ((text.toList.flatMap escapeStringChar).map some ++ some '"' :: rest)
      = .ok (.ok text, rest) := by
  unfold readText
  rw [readString_flatMap _ _ _ hfuel]
  show Except.ok (Except.ok (String.ofList text.toList), rest) = _
  rw [String.ofList_toList]

/-- A character takes at least one character of the text. -/
theorem length_le_length_escape (chars : List Char) :
    chars.length ≤ (chars.flatMap escapeStringChar).length := by
  have hone : ∀ c, 1 ≤ (escapeStringChar c).length := fun c => by
    unfold escapeStringChar
    split_ifs <;> simp
  induction chars with
  | nil => exact Nat.le_refl 0
  | cons c chars ih =>
    have hc := hone c
    rw [List.flatMap_cons, List.length_append, List.length_cons]
    omega

/-! ## Numbers

The reader takes digits for as long as there are any, and what is behind them is looked at
for a point or an exponent. -/

/-- Whether a character goes on with a number. -/
def isNumeric (c : Char) : Bool := isDecimalDigit c || c = '.' || c = 'e' || c = 'E'

/-- **A number ends here.** The end of the text is such a place, and so is a byte that is no
character. -/
def EndsNumber (s : Symbols) : Prop := ∀ c, s.head? = some (some c) → isNumeric c = false

/-- The first digit of a number that is not zero is not zero. -/
theorem head?_toDigits {n : Nat} (h : 0 < n) : (Nat.toDigits 10 n).head? ≠ some '0' := by
  induction n using Nat.strongRecOn with
  | ind n ih =>
    by_cases hn : n < 10
    · rw [Nat.toDigits_of_lt_base hn]
      simpa using Nat.ne_of_gt h
    · have hhead := ih (n / 10) (by omega) (by omega)
      rw [Nat.toDigits_of_base_le (by decide) (by omega)]
      cases hdigits : Nat.toDigits 10 (n / 10) with
      | nil => exact absurd hdigits Nat.toDigits_ne_nil
      | cons c digits => rwa [hdigits] at hhead

/-- **Digits end here.** A point or an exponent may follow, which for a whole number is not
allowed. -/
def EndsDigits (s : Symbols) : Prop := ∀ c, s.head? = some (some c) → isDecimalDigit c = false

theorem EndsNumber.endsDigits {s : Symbols} (h : EndsNumber s) : EndsDigits s := fun c hc => by
  have hother := h c hc
  simp only [isNumeric, Bool.or_eq_false_iff] at hother
  exact hother.1.1.1

/-- Digits are taken up to where they end. -/
theorem takeDigits_append {digits : List Char} (h : ∀ c ∈ digits, isDecimalDigit c = true)
    {rest : Symbols} (hrest : EndsDigits rest) :
    takeDigits (digits.map some ++ rest) = (digits, rest) := by
  induction digits with
  | nil =>
    show takeDigits rest = _
    cases rest with
    | nil => rfl
    | cons symbol rest =>
      cases symbol with
      | none => rfl
      | some c => simp [takeDigits, hrest c rfl]
  | cons c digits ih =>
    rw [List.map_cons, List.cons_append, takeDigits, if_pos (h c List.mem_cons_self),
      ih fun d hd => h d (List.mem_cons_of_mem _ hd)]

/-- The digits of a natural number are taken as its digits before the point. -/
theorem readWhole_toDigits (n : Nat) {rest : Symbols} (hrest : EndsNumber rest) :
    readWhole ((Nat.toDigits 10 n).map some ++ rest) = .ok (Nat.toDigits 10 n, rest) := by
  have hdigits := takeDigits_append (fun c => isDecimalDigit_of_mem_toDigits (n := n)) hrest.endsDigits
  unfold readWhole
  rw [hdigits]
  by_cases hn : n < 10
  · rw [Nat.toDigits_of_lt_base hn]
    interval_cases n <;> rfl
  · have hhead := head?_toDigits (n := n) (by omega)
    cases h : Nat.toDigits 10 n with
    | nil => exact absurd h Nat.toDigits_ne_nil
    | cons c digits =>
      have hc : c ≠ '0' := fun hc => hhead (by rw [h, hc]; rfl)
      simp [hc]

theorem readFraction_of_ends {s : Symbols} (h : EndsNumber s) : readFraction s = .ok (none, s) := by
  unfold readFraction
  split
  · exact absurd (h '.' rfl) (by decide)
  · rfl

theorem readExponent_of_ends {s : Symbols} (h : EndsNumber s) : readExponent s = .ok (none, s) := by
  unfold readExponent
  split
  · rename_i c rest
    have hc := h c rfl
    simp only [isNumeric, Bool.or_eq_false_iff, decide_eq_false_iff_not] at hc
    rw [if_neg (not_or.2 ⟨hc.1.2, hc.2⟩)]
  · rfl

/-- Digits are absorbed for as long as the number fits into a word. -/
theorem absorbDigits_eq (digits : List Char) {value : Nat}
    (h : digits.foldl (fun n c => 10 * n + decimalDigit c) value < UInt64.size) :
    absorbDigits value digits
      = (digits.foldl (fun n c => 10 * n + decimalDigit c) value, digits.length) := by
  -- The value only grows, so a number that fits at the end fits after every digit.
  have hmono : ∀ (digits : List Char) (value : Nat),
      value ≤ digits.foldl (fun n c => 10 * n + decimalDigit c) value := by
    intro digits
    induction digits with
    | nil => exact fun _ => Nat.le_refl _
    | cons c digits ih =>
      intro value
      have hvalue : value ≤ 10 * value + decimalDigit c := by omega
      exact Nat.le_trans hvalue (ih _)
  induction digits generalizing value with
  | nil => rfl
  | cons c digits ih =>
    have hnext : ¬ UInt64.size ≤ 10 * value + decimalDigit c :=
      Nat.not_le.2 (Nat.lt_of_le_of_lt (hmono digits _) h)
    rw [absorbDigits]
    simp only [if_neg hnext, ih h]
    rfl

/-- **An integer of one word is read back**, as far as the sign lets it be one. A negative one
that is too large for the signed type becomes a float. -/
theorem readNumber_toDigits {n : Nat} (hn : n < UInt64.size) (negative : Bool) {rest : Symbols}
    (hrest : EndsNumber rest) :
    readNumber negative ((Nat.toDigits 10 n).map some ++ rest)
      = .ok (.ok (integerOf negative n), rest) := by
  have hvalue : (Nat.toDigits 10 n).foldl (fun n c => 10 * n + decimalDigit c) 0 = n :=
    Decimal.ofDigits_toDigits n
  have hdigits := absorbDigits_eq (Nat.toDigits 10 n) (hvalue.symm ▸ hn)
  have hnumber : NumberParts.value ⟨negative, Nat.toDigits 10 n, none, none⟩
      = .ok (integerOf negative n) := by
    unfold NumberParts.value
    rw [hdigits, hvalue]
    simp
  -- Behind the digits there is neither a fraction nor an exponent: what follows ends the number.
  unfold readNumber
  rw [readWhole_toDigits n hrest]
  show Except.bind (readFraction rest) _ = _
  rw [readFraction_of_ends hrest]
  show Except.bind (readExponent rest) _ = _
  rw [readExponent_of_ends hrest]
  show Except.ok (NumberParts.value _, rest) = _
  rw [hnumber]

end Meshwork.Json
