import Mathlib.Tactic.SplitIfs
import Meshwork.Proofs.Calendar

/-!
# Points in time are read back

Every moment of the calendar is read back from its text
(`Timestamp.parse_text`). Its numbers are written with a fixed number of digits
or before a mark, so that each reader stops where the next one goes on: a
`padded` number is read as itself by a reader that takes no more digits than it
has, or finds none behind it (`Timestamp.readDigits_padded`). All readers skip
white space first, of which there is none.

The date and the time of day then give the moment, because the number of a day
is read off its date.
-/

namespace Meshwork

/-- A digit is not white space. -/
theorem isBlank_of_isDecimalDigit {c : Char} (h : isDecimalDigit c = true) : isBlank c = false := by
  simp only [isDecimalDigit, Bool.and_eq_true, decide_eq_true_eq, Char.le_def,
    UInt32.le_iff_toNat_le] at h
  have hbounds : 48 ≤ c.toNat ∧ c.toNat ≤ 57 := h
  simp only [isBlank, Bool.or_eq_false_iff, Bool.and_eq_false_iff, decide_eq_false_iff_not,
    beq_eq_false_iff_ne]
  omega

namespace Timestamp

/-- **A moment of the calendar.** The nanoseconds go on beyond a second at the end of a minute
only. A leap second is shown as the sixtieth of its minute. -/
structure IsMoment (t : Timestamp) : Prop where
  /-- Its year is a supported one. -/
  year : Date.supportsYear (Date.ofDays (t.seconds / 86400)).year = true
  /-- Its nanoseconds are those of a second, or of a leap second. -/
  nanoseconds : t.nanoseconds < 1000000000 ∨ t.nanoseconds < 2000000000 ∧ t.seconds % 60 = 59

/-! ## Padded numbers

A number of a fixed width has leading zeros. The reader takes at most as many digits as
the width, so digits that follow do no harm. -/

theorem isDecimalDigit_of_mem_padded {width n : Nat} {c : Char} (h : c ∈ padded width n) :
    isDecimalDigit c = true := by
  rcases List.mem_append.1 h with h | h
  · rw [List.eq_of_mem_replicate h]
    rfl
  · exact isDecimalDigit_of_mem_toDigits h

theorem ofDigits_padded (width n : Nat) : Decimal.ofDigits (padded width n) = n := by
  unfold padded
  rw [Decimal.ofDigits_replicate_append, Decimal.ofDigits_toDigits]

theorem length_padded {width n : Nat} (hwidth : 0 < width) (h : n < 10 ^ width) :
    (padded width n).length = width := by
  have hdigits := (Nat.length_toDigits_le_iff (b := 10) (by decide) hwidth).2 h
  simp only [padded, List.length_append, List.length_replicate]
  omega

/-- A padded number starts with a digit. -/
theorem exists_padded_eq_cons (width n : Nat) :
    ∃ c digits, padded width n = c :: digits ∧ isDecimalDigit c = true := by
  have hne : padded width n ≠ [] := List.append_ne_nil_of_right_ne_nil _ Nat.toDigits_ne_nil
  obtain ⟨c, digits, h⟩ := List.exists_cons_of_ne_nil hne
  exact ⟨c, digits, h, isDecimalDigit_of_mem_padded (h ▸ List.mem_cons_self)⟩

/-- **No digit follows.** At the end of a text there is no digit either. -/
def EndsDigits (rest : List Char) : Prop := ∀ c, rest.head? = some c → isDecimalDigit c = false

theorem endsDigits_cons {c : Char} (h : isDecimalDigit c = false) (rest : List Char) :
    EndsDigits (c :: rest) := by
  rintro d ⟨⟩
  exact h

/-- Digits are taken up to where they end, or as many as may be taken. -/
theorem leadingDigits_append {most : Nat} {digits rest : List Char}
    (hdigits : ∀ c ∈ digits, isDecimalDigit c = true) (hmost : digits.length ≤ most)
    (hend : digits.length = most ∨ EndsDigits rest) :
    leadingDigits most (digits ++ rest) = (digits, rest) := by
  -- The digits use up the room one by one; at their end there is no room left or no digit.
  induction digits generalizing most with
  | nil =>
    cases most with
    | zero => rw [List.nil_append, leadingDigits]
    | succ most =>
      have hrest : EndsDigits rest := hend.resolve_left (by simp)
      cases rest with
      | nil => rfl
      | cons c rest =>
        rw [List.nil_append, leadingDigits, hrest c rfl]
        rfl
  | cons c digits ih =>
    obtain ⟨most, rfl⟩ := Nat.exists_eq_add_one.2 (Nat.zero_lt_of_lt hmost)
    have hrest := ih (fun d hd => hdigits d (List.mem_cons_of_mem _ hd))
      (Nat.le_of_succ_le_succ hmost) (hend.imp_left Nat.succ.inj)
    rw [List.cons_append, leadingDigits, if_pos (hdigits c List.mem_cons_self), hrest]

/-- **A padded number is read back.** Either as many digits are read as may be, or something else
follows. -/
theorem readDigits_padded {most width n : Nat} {rest : List Char} (hn : n < Nat.pow 2 63)
    (hmost : (padded width n).length ≤ most)
    (hend : (padded width n).length = most ∨ EndsDigits rest) :
    readDigits most (padded width n ++ rest) = .ok (n, rest) := by
  have hdigits := leadingDigits_append (fun c => isDecimalDigit_of_mem_padded) hmost hend
  -- The reader refuses a number without digits, so the first one has to be seen.
  obtain ⟨c, digits, h, -⟩ := exists_padded_eq_cons width n
  have hvalue := ofDigits_padded width n
  rw [h] at hdigits hvalue ⊢
  unfold readDigits
  rw [hdigits]
  show (if Decimal.ofDigits (c :: digits) < Nat.pow 2 63 then _ else _) = _
  rw [hvalue, if_pos hn]

/-! ## Fields

Each field is read by a reader of its own, which is given the field with whatever follows. -/

/-- **A field of two digits is read back.** Since two are all that are read, anything may follow. -/
theorem readField_padded {least greatest n : Nat} (hleast : least ≤ n) (hgreatest : n ≤ greatest)
    (hn : n < 100) (rest : List Char) :
    readField least greatest (padded 2 n ++ rest) = .ok (n, rest) := by
  have hlength : (padded 2 n).length = 2 := length_padded (by decide) hn
  have hread : readDigits 2 (padded 2 n ++ rest) = .ok (n, rest) :=
    readDigits_padded (Nat.lt_trans hn (by decide)) (Nat.le_of_eq hlength) (Or.inl hlength)
  obtain ⟨c, digits, h, hc⟩ := exists_padded_eq_cons 2 n
  unfold readField
  rw [h, List.cons_append] at hread ⊢
  rw [List.dropWhile_cons_of_neg (by simp [isBlank_of_isDecimalDigit hc]), hread]
  show (if least ≤ n ∧ n ≤ greatest then _ else _) = _
  rw [if_pos ⟨hleast, hgreatest⟩]
  rfl

/-- A mark is read. -/
theorem readMark_cons {mark : Char} (h : isBlank mark = false) (rest : List Char) :
    readMark mark (mark :: rest) = .ok rest := by
  unfold readMark
  rw [List.dropWhile_cons_of_neg (by simp [h])]
  exact if_pos rfl

theorem readYear_digit {n : Nat} (hn : n < 2147483648) {c : Char} (hc : isDecimalDigit c = true)
    {text rest : List Char} (h : readDigits 4 (c :: text) = .ok (n, rest)) :
    readYear (c :: text) = .ok ((n : Int), rest) := by
  have hminus : c ≠ '-' := by
    rintro rfl
    cases hc
  have hplus : c ≠ '+' := by
    rintro rfl
    cases hc
  unfold readYear
  rw [List.dropWhile_cons_of_neg (by simp [isBlank_of_isDecimalDigit hc])]
  simp [h, Bind.bind, Except.bind, hminus, hplus, hn]
  rfl

theorem readYear_plus {n : Nat} (hn : n < 2147483648) {text rest : List Char}
    (h : readDigits text.length text = .ok (n, rest)) :
    readYear ('+' :: text) = .ok ((n : Int), rest) := by
  have hrange : -2147483648 ≤ (n : Int) ∧ (n : Int) < 2147483648 := by omega
  unfold readYear
  rw [List.dropWhile_cons_of_neg (by decide)]
  simp only [h, Functor.map, Except.map, Bind.bind, Except.bind, if_pos hrange]
  rfl

theorem readYear_minus {n : Nat} (hn : n ≤ 2147483648) {text rest : List Char}
    (h : readDigits text.length text = .ok (n, rest)) :
    readYear ('-' :: text) = .ok (-(n : Int), rest) := by
  have hrange : -2147483648 ≤ -(n : Int) ∧ -(n : Int) < 2147483648 := by omega
  unfold readYear
  rw [List.dropWhile_cons_of_neg (by decide)]
  simp only [h, Functor.map, Except.map, Bind.bind, Except.bind, if_pos hrange]
  rfl

/-- **A year is read back.** Years before zero and after 9999 are written with a sign, and may
have more digits. -/
theorem readYear_yearText {year : Int} (h : Date.supportsYear year = true) {rest : List Char}
    (hrest : EndsDigits rest) : readYear (yearText year ++ rest) = .ok (year, rest) := by
  simp only [Date.supportsYear, Bool.and_eq_true, decide_eq_true_eq] at h
  obtain ⟨hlow, hhigh⟩ := h
  have hword : ∀ n, n < 2147483648 → n < Nat.pow 2 63 := fun n hn =>
    Nat.lt_trans hn (by decide)
  unfold yearText
  split
  case isTrue hfour =>
    have hlength : (padded 4 year.toNat).length = 4 := length_padded (by decide) (by omega)
    have hread : readDigits 4 (padded 4 year.toNat ++ rest) = .ok (year.toNat, rest) :=
      readDigits_padded (hword _ (by omega)) (Nat.le_of_eq hlength) (Or.inl hlength)
    obtain ⟨c, digits, hdigits, hc⟩ := exists_padded_eq_cons 4 year.toNat
    rw [hdigits, List.cons_append] at hread ⊢
    rw [readYear_digit (by omega) hc hread, Int.toNat_of_nonneg hfour.1]
  case isFalse =>
    -- With a sign, the number may take all that is left, and ends where no digit follows.
    have hlength : (padded 4 year.natAbs).length ≤ (padded 4 year.natAbs ++ rest).length := by
      rw [List.length_append]
      exact Nat.le_add_right _ _
    have hread := readDigits_padded (hword _ (by omega)) hlength (Or.inr hrest)
    split
    case isTrue hneg =>
      rw [List.cons_append, readYear_minus (by omega) hread,
        Int.ofNat_natAbs_of_nonpos (Int.le_of_lt hneg), Int.neg_neg]
    case isFalse hpos =>
      rw [List.cons_append, readYear_plus (by omega) hread,
        Int.natAbs_of_nonneg (Int.not_lt.1 hpos)]

/-- Digits after the point count as if there were nine. -/
theorem readFraction_point {width n : Nat} (hwidth : 0 < width) (hnine : width ≤ 9)
    (h : n < 10 ^ width) {rest : List Char} (hrest : EndsDigits rest) :
    readFraction ('.' :: (padded width n ++ rest)) = .ok (n * 10 ^ (9 - width), rest) := by
  have hlength := length_padded hwidth h
  have hword : n < Nat.pow 2 63 := by
    have hpow : 10 ^ width ≤ 10 ^ 9 := Nat.pow_le_pow_right (by decide) hnine
    exact Nat.lt_of_lt_of_le h (Nat.le_trans hpow (by decide))
  have hread : readDigits 9 (padded width n ++ rest) = .ok (n, rest) :=
    readDigits_padded hword (by omega) (Or.inr hrest)
  -- The width is read off from what the digits have used up.
  have hcount : (padded width n ++ rest).length - rest.length = width := by
    rw [List.length_append, hlength, Nat.add_sub_cancel]
  have hrest' : rest.dropWhile isDecimalDigit = rest := by
    cases rest with
    | nil => rfl
    | cons c rest => exact List.dropWhile_cons_of_neg (by simp [hrest c rfl])
  unfold readFraction
  show Except.bind (readDigits 9 (padded width n ++ rest)) _ = _
  rw [hread]
  show Except.ok (n * Nat.pow 10 (9 - ((padded width n ++ rest).length - rest.length)),
    rest.dropWhile isDecimalDigit) = _
  rw [hcount, hrest']
  rfl

/-- **The digits of a second are read back.** They are written in groups of three, as many as are
needed, and none if there are no nanoseconds. -/
theorem readFraction_fractionText {n : Nat} (h : n < 1000000000) (rest : List Char) :
    readFraction (fractionText n ++ 'Z' :: rest) = .ok (n, 'Z' :: rest) := by
  have hrest : EndsDigits ('Z' :: rest) := endsDigits_cons rfl rest
  -- The text is cut to thousandths or millionths only where nothing is lost.
  unfold fractionText
  split
  case isTrue hzero =>
    rw [hzero]
    rfl
  split
  case isTrue hmilli =>
    rw [List.cons_append, readFraction_point (by decide) (by decide) (by omega) hrest]
    show Except.ok (n / 1000000 * 1000000, 'Z' :: rest) = _
    rw [Nat.div_mul_cancel (Nat.dvd_of_mod_eq_zero hmilli)]
  split
  case isTrue hmicro =>
    rw [List.cons_append, readFraction_point (by decide) (by decide) (by omega) hrest]
    show Except.ok (n / 1000 * 1000, 'Z' :: rest) = _
    rw [Nat.div_mul_cancel (Nat.dvd_of_mod_eq_zero hmicro)]
  case isFalse =>
    rw [List.cons_append, readFraction_point (by decide) (by decide) h hrest]
    show Except.ok (n * 1, 'Z' :: rest) = _
    rw [Nat.mul_one]

/-! ## Moments

A leap second is a nanosecond beyond the last of its minute, and is shown as a sixtieth
second. Reading takes it apart in the same way. -/

/-- **A moment is the one of its date and its time of day.** Division by the length of a day takes
the two apart, and this puts them together again. -/
theorem ofParts_eq {t : Timestamp} (h : t.IsMoment) :
    let second := (t.seconds % 86400).toNat
    ofParts (Date.ofDays (t.seconds / 86400)) (second / 3600) (second / 60 % 60)
      (second % 60 + t.nanoseconds / 1000000000) (t.nanoseconds % 1000000000) 0 = .ok t := by
  intro second
  have hsecond : (second : Int) = t.seconds % 86400 := Int.toNat_of_nonneg (by omega)
  have hminutes : (Date.ofDays (t.seconds / 86400)).toDays * 1440
      + ((60 * (second / 3600) + second / 60 % 60 : Nat) : Int) - 0 = t.seconds / 60 := by
    rw [Date.toDays_ofDays]
    omega
  have hday : t.seconds / 60 / 1440 = t.seconds / 86400 := by omega
  unfold ofParts
  rw [h.year, Date.isValid_ofDays]
  simp only [hminutes, hday, h.year]
  show (if second % 60 + t.nanoseconds / 1000000000 = 60 then _ else _) = _
  -- Within a leap second the text shows sixty, which the reader takes back into the nanoseconds.
  by_cases hleap : t.nanoseconds < 1000000000
  · have hseconds : 60 * (t.seconds / 60) + ((second % 60 + t.nanoseconds / 1000000000 : Nat) : Int)
        = t.seconds := by omega
    have hplain : second % 60 + t.nanoseconds / 1000000000 ≠ 60 := by omega
    rw [if_neg hplain, hseconds, Nat.mod_eq_of_lt hleap]
    rfl
  · obtain ⟨hnanoseconds, hminute⟩ := h.nanoseconds.resolve_left hleap
    have hseconds : 60 * (t.seconds / 60) + 59 = t.seconds := by omega
    have hnext : second % 60 + t.nanoseconds / 1000000000 = 60 := by omega
    have hrest : 1000000000 + t.nanoseconds % 1000000000 = t.nanoseconds := by omega
    rw [if_pos hnext, hseconds, hrest]
    rfl

/-- Months and days have two digits. -/
theorem bounds_of_isValid {d : Date} (h : d.isValid = true) :
    (1 ≤ d.month ∧ d.month ≤ 12) ∧ 1 ≤ d.day ∧ d.day ≤ 31 := by
  have hdays : Date.daysInMonth d.year d.month ≤ 31 := by
    unfold Date.daysInMonth
    split_ifs <;> decide
  simp only [Date.isValid, Bool.and_eq_true, decide_eq_true_eq] at h
  obtain ⟨⟨hmonth, hday⟩, hday'⟩ := h
  exact ⟨hmonth, hday, Nat.le_trans hday' hdays⟩

/-- A computation goes on from what its first step gives. -/
theorem bind_eq_ok {ε α β : Type} {x : Except ε α} {f : α → Except ε β} {a : α} {b : β}
    (hx : x = .ok a) (hf : f a = .ok b) : x >>= f = .ok b := by
  rw [hx]
  exact hf

/-- **A moment is read back** from its text. So a container says when it was made, up to the
nanosecond. -/
theorem parse_text {t : Timestamp} (h : t.IsMoment) : parse (t.text "Z") = .ok t := by
  have hvalid := Date.isValid_ofDays (t.seconds / 86400)
  obtain ⟨⟨hmonth, hmonth'⟩, hday, hday'⟩ := bounds_of_isValid hvalid
  have hparts := ofParts_eq h
  have hyear := h.year
  have hleap := h.nanoseconds
  have hsecond : ((t.seconds % 86400).toNat : Int) = t.seconds % 86400 :=
    Int.toNat_of_nonneg (by omega)
  -- The fields are read in their order; only the bounds of each are left to show.
  unfold parse text
  generalize Date.ofDays (t.seconds / 86400) = date at *
  generalize (t.seconds % 86400).toNat = second at *
  simp only [String.toList_append, String.toList_ofList, List.append_assoc, List.cons_append]
  refine bind_eq_ok (readYear_yearText hyear (endsDigits_cons rfl _)) ?_
  refine bind_eq_ok (readMark_cons rfl _) ?_
  refine bind_eq_ok (readField_padded hmonth hmonth' (by omega) _) ?_
  refine bind_eq_ok (readMark_cons rfl _) ?_
  refine bind_eq_ok (readField_padded hday hday' (by omega) _) ?_
  refine bind_eq_ok (rfl : readSeparator ('T' :: _) = _) ?_
  refine bind_eq_ok (readField_padded (Nat.zero_le _) (by omega) (by omega) _) ?_
  refine bind_eq_ok (readMark_cons rfl _) ?_
  refine bind_eq_ok (readField_padded (Nat.zero_le _) (by omega) (by omega) _) ?_
  refine bind_eq_ok (readMark_cons rfl _) ?_
  refine bind_eq_ok (readField_padded (Nat.zero_le _) (by omega) (by omega) _) ?_
  refine bind_eq_ok (readFraction_fractionText (Nat.mod_lt _ (by decide)) []) ?_
  exact hparts

end Timestamp

end Meshwork
