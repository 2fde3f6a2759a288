import Meshwork.Proofs.Number.Shortest

/-!
# Floats that are told by their text

The text of digits is read as the decimal that they stand for, in every layout
(`FloatLayout.ofText?_positional`, `FloatLayout.ofText?_scientific`). For the digits of
a float, that decimal rounds to the float, so that floats with the same canonical text
are the same, or both are NaNs (`Single.same_of_write_eq`, `Double.same_of_write_eq`).
-/

namespace Meshwork

namespace Decimal

/-! ## Reading decimals

A decimal is read in one go: a sign, digits, perhaps a point and more digits, perhaps an
exponent. The lemmas say what is read of a text that is put together from these parts. -/

theorem ofDigits_append (front back : List Char) :
    ofDigits (front ++ back) = 10 ^ back.length * ofDigits front + ofDigits back := by
  have happend : ofDigits (front ++ back) = Nat.ofDigitChars 10 back (ofDigits front) :=
    Nat.ofDigitChars_append 0
  rw [happend, Nat.ofDigitChars_eq_ofDigitChars_zero]
  rfl

/-- Zeros behind digits multiply by ten. -/
theorem ofDigits_append_replicate (digits : List Char) (count : Nat) :
    ofDigits (digits ++ List.replicate count '0') = 10 ^ count * ofDigits digits := by
  have hzeros : ofDigits (List.replicate count '0') = 0 := by
    simpa [ofDigits] using ofDigits_replicate_append count []
  rw [ofDigits_append, hzeros, List.length_replicate, Nat.add_zero]

/-- Digits are read up to what is no digit. -/
theorem span_digits {digits rest : List Char} (hdigits : ∀ c ∈ digits, isDecimalDigit c = true)
    (hrest : ∀ c ∈ rest.head?, isDecimalDigit c = false) :
    (digits ++ rest).span isDecimalDigit = (digits, rest) := by
  have hdrop : rest.dropWhile isDecimalDigit = rest := by
    cases rest with
    | nil => rfl
    | cons c rest => rw [List.dropWhile_cons, hrest c rfl]; rfl
  have htake : rest.takeWhile isDecimalDigit = [] := by
    cases rest with
    | nil => rfl
    | cons c rest => rw [List.takeWhile_cons, hrest c rfl]; rfl
  rw [List.span_eq_takeWhile_dropWhile, List.takeWhile_append_of_pos hdigits,
    List.dropWhile_append_of_pos hdigits, htake, hdrop, List.append_nil]

variable (whole fraction tail : List Char) {exponent : Int}

/-- **A number with a point** is read. The digits before and behind it are taken as one integer,
and the exponent counts those behind. -/
theorem ofText?_point (hne : whole ≠ []) (hwhole : ∀ c ∈ whole, isDecimalDigit c = true)
    (hfraction : ∀ c ∈ fraction, isDecimalDigit c = true)
    (htail : ∀ c ∈ tail.head?, isDecimalDigit c = false)
    (hexponent : readExponent? tail = some exponent) :
    ofText? (whole ++ '.' :: (fraction ++ tail))
      = some ⟨ofDigits (whole ++ fraction), exponent - fraction.length⟩ := by
  unfold ofText?
  rw [span_digits hwhole (by rintro c ⟨⟩; decide)]
  simp [-List.span_eq_takeWhile_dropWhile, span_digits hfraction htail, hne, hexponent]

/-- **A number without a point** is read. What follows the digits is an exponent or nothing. -/
theorem ofText?_whole (hne : whole ≠ []) (hwhole : ∀ c ∈ whole, isDecimalDigit c = true)
    (htail : ∀ c ∈ tail.head?, isDecimalDigit c = false ∧ c ≠ '.')
    (hexponent : readExponent? tail = some exponent) :
    ofText? (whole ++ tail) = some ⟨ofDigits whole, exponent⟩ := by
  unfold ofText?
  rw [span_digits hwhole fun c hc => (htail c hc).1]
  dsimp only
  split
  · exact absurd rfl (htail '.' rfl).2
  · simp [hne, hexponent]

/-- Where no sign stands, none is read. -/
theorem takeSign_of_head {text : List Char} (h : ∀ c ∈ text.head?, c ≠ '-' ∧ c ≠ '+') :
    takeSign text = (false, text) := by
  unfold takeSign
  split
  · exact absurd rfl (h '-' rfl).1
  · exact absurd rfl (h '+' rfl).2
  · rfl

theorem isDecimalDigit_toDigits (n : Nat) : ∀ c ∈ Nat.toDigits 10 n, isDecimalDigit c = true :=
  fun _ => isDecimalDigit_of_mem_toDigits

theorem takeSign_toDigits (n : Nat) :
    takeSign (Nat.toDigits 10 n) = (false, Nat.toDigits 10 n) := by
  refine takeSign_of_head fun c hc => ?_
  have hdigit := isDecimalDigit_toDigits n c (List.mem_of_mem_head? hc)
  constructor <;> rintro rfl <;> exact absurd hdigit (by decide)

theorem toList_natural (n : Nat) : (toString n).toList = Nat.toDigits 10 n := Nat.toList_repr

/-- A negative integer is written as a sign and digits. -/
theorem toList_negSucc (n : Nat) :
    (toString (Int.negSucc n)).toList = '-' :: Nat.toDigits 10 (n + 1) := by
  show ("-" ++ Nat.repr (n + 1)).toList = _
  rw [String.toList_append, Nat.toList_repr]
  rfl

/-- An exponent is read, also with a sign before a positive one. -/
theorem readExponent?_text (exponent : Int) {sign : List Char}
    (hsign : sign = [] ∨ sign = ['+'] ∧ 0 ≤ exponent) :
    readExponent? ('e' :: (sign ++ (toString exponent).toList)) = some exponent := by
  -- What stands behind the letter matters only as far as its sign is taken off.
  have hread : ∀ (negative : Bool) (n : Nat) (text : List Char),
      takeSign text = (negative, Nat.toDigits 10 n) →
      readExponent? ('e' :: text) = some (if negative then -(n : Int) else n) := by
    intro negative n text htext
    have hall : (Nat.toDigits 10 n).all isDecimalDigit = true :=
      List.all_eq_true.2 (isDecimalDigit_toDigits n)
    have hempty : (Nat.toDigits 10 n).isEmpty = false := by simp [Nat.toDigits_ne_nil]
    rw [readExponent?, if_pos (.inl rfl), htext]
    simp only [hall, hempty, ofDigits_toDigits]
    cases negative <;> rfl
  cases exponent with
  | ofNat n =>
    rw [show (toString (Int.ofNat n)).toList = _ from toList_natural n]
    refine hread false n _ ?_
    rcases hsign with rfl | ⟨rfl, -⟩
    · exact takeSign_toDigits n
    · rfl
  | negSucc n =>
    rcases hsign with rfl | ⟨-, hnonneg⟩
    · rw [toList_negSucc]
      exact hread true (n + 1) _ rfl
    · exact absurd hnonneg (by omega)

end Decimal

namespace FloatLayout

/-! ## Reading digits

A layout puts the point among the digits, before them or behind them, and may fill up with
zeros. Whatever it does, the number stays that of the digits. -/

variable {layout : FloatLayout} {d : Digits}

theorem isDecimalDigit_replicate (count : Nat) :
    ∀ c ∈ List.replicate count '0', isDecimalDigit c = true := fun c hc => by
  rw [List.eq_of_mem_replicate hc]
  decide

/-- **Positional digits are read** as what they stand for. There are three shapes, depending on
whether the point lies before the digits, behind them or among them. -/
theorem ofText?_positional (layout : FloatLayout) (d : Digits) :
    ∃ n : Decimal, Decimal.ofText? (layout.positional d) = some n ∧ n.ratio = d.ratio := by
  have hdigits : ∀ c ∈ d.chars, isDecimalDigit c = true := Decimal.isDecimalDigit_toDigits d.value
  have hne : d.chars ≠ [] := Nat.toDigits_ne_nil
  have hvalue : Decimal.ofDigits d.chars = d.value := Decimal.ofDigits_toDigits d.value
  unfold positional
  dsimp only
  split <;> rename_i hpoint
  · -- Zeros stand between the point and the digits.
    have hfraction :
        ∀ c ∈ List.replicate (-d.point).toNat '0' ++ d.chars, isDecimalDigit c = true :=
      fun c hc => (List.mem_append.1 hc).elim (isDecimalDigit_replicate _ c) (hdigits c)
    have hzero : ∀ c ∈ ['0'], isDecimalDigit c = true := isDecimalDigit_replicate 1
    have hread := Decimal.ofText?_point ['0'] _ [] (List.cons_ne_nil _ _) hzero hfraction nofun rfl
    rw [List.append_nil, List.singleton_append] at hread
    refine ⟨_, hread, ?_⟩
    have hsignificand : Decimal.ofDigits (['0'] ++ (List.replicate (-d.point).toNat '0' ++ d.chars))
        = d.value := by
      rw [← List.append_assoc]
      exact (Decimal.ofDigits_replicate_append ((-d.point).toNat + 1) d.chars).trans hvalue
    rw [Decimal.ratio, hsignificand, Digits.ratio, List.length_append, List.length_replicate]
    congr 2
    show 0 - (((-d.point).toNat + d.count : ℕ) : Int) = d.point - d.count
    omega
  split <;> rename_i hcount
  · -- Zeros stand between the digits and the point.
    have hwhole : ∀ c ∈ d.chars ++ List.replicate (d.point.toNat - d.chars.length) '0',
        isDecimalDigit c = true :=
      fun c hc => (List.mem_append.1 hc).elim (hdigits c) (isDecimalDigit_replicate _ c)
    have hratio : (Decimal.mk (10 ^ (d.point.toNat - d.chars.length) * d.value) 0).ratio
        = d.ratio := by
      have hcount' : d.count = d.chars.length := rfl
      have hexponent : d.point - d.count = (d.point.toNat - d.chars.length : ℕ) := by omega
      rw [Decimal.ratio, Digits.ratio, hexponent, zpow_natCast]
      push_cast
      ring
    have hne' : d.chars ++ List.replicate (d.point.toNat - d.chars.length) '0' ≠ [] := by simp [hne]
    cases layout.keepsPoint with
    | false =>
      have hread := Decimal.ofText?_whole _ [] hne' hwhole nofun rfl
      rw [Decimal.ofDigits_append_replicate, hvalue] at hread
      exact ⟨_, hread, hratio⟩
    | true =>
      have hread :=
        Decimal.ofText?_point _ ['0'] [] hne' hwhole (isDecimalDigit_replicate 1) nofun rfl
      rw [Decimal.ofDigits_append, Decimal.ofDigits_append_replicate, hvalue] at hread
      refine ⟨_, hread, ?_⟩
      rw [← hratio, Decimal.ratio, Decimal.ratio]
      have hzero : Decimal.ofDigits ['0'] = 0 := rfl
      have htenth : (10 : ℚ) ^ ((0 : Int) - (['0'].length : ℕ)) = 1 / 10 := by norm_num
      rw [htenth, hzero]
      push_cast
      simp
      ring
  · -- The point stands among the digits.
    have hwhole : ∀ c ∈ d.chars.take d.point.toNat, isDecimalDigit c = true :=
      fun c hc => hdigits c (List.mem_of_mem_take hc)
    have hfraction : ∀ c ∈ d.chars.drop d.point.toNat, isDecimalDigit c = true :=
      fun c hc => hdigits c (List.mem_of_mem_drop hc)
    have hne' : d.chars.take d.point.toNat ≠ [] := by
      rw [Ne, List.take_eq_nil_iff]
      rintro (hzero | hnil)
      · omega
      · exact hne hnil
    have hread := Decimal.ofText?_point _ _ [] hne' hwhole hfraction nofun rfl
    rw [List.append_nil, List.take_append_drop, hvalue] at hread
    refine ⟨_, hread, ?_⟩
    rw [Decimal.ratio, Digits.ratio, List.length_drop]
    congr 2
    show 0 - ((d.count - d.point.toNat : ℕ) : Int) = d.point - d.count
    have hcount' : d.chars.length = d.count := rfl
    omega

/-- **Digits with an exponent are read** as what they stand for. One digit stands before the
point, and the exponent is lower by one than the place of the point. -/
theorem ofText?_scientific (layout : FloatLayout) (d : Digits) :
    ∃ n : Decimal, Decimal.ofText? (layout.scientific d) = some n ∧ n.ratio = d.ratio := by
  have hdigits : ∀ c ∈ d.chars, isDecimalDigit c = true := Decimal.isDecimalDigit_toDigits d.value
  have hvalue : Decimal.ofDigits d.chars = d.value := Decimal.ofDigits_toDigits d.value
  have hcount : d.chars.length = d.count := rfl
  -- The layouts differ in whether a positive exponent shows its sign; either way it is read.
  obtain ⟨sign, hsign, hexponent⟩ : ∃ sign, (sign = [] ∨ sign = ['+'] ∧ 0 ≤ d.point - 1)
      ∧ (if layout.plusSign && 1 ≤ d.point then '+' :: (toString (d.point - 1)).toList
        else (toString (d.point - 1)).toList) = sign ++ (toString (d.point - 1)).toList := by
    split <;> rename_i h
    · rw [Bool.and_eq_true, decide_eq_true_eq] at h
      exact ⟨['+'], .inr ⟨rfl, by omega⟩, rfl⟩
    · exact ⟨[], .inl rfl, rfl⟩
  have hread := Decimal.readExponent?_text (d.point - 1) hsign
  have hletter : ∀ c ∈ ('e' :: (sign ++ (toString (d.point - 1)).toList)).head?,
      isDecimalDigit c = false ∧ c ≠ '.' := by
    rintro c ⟨⟩
    decide
  unfold scientific
  simp only [hexponent]
  -- One digit has no point behind it; with more of them the point comes after the first, which
  -- moves the exponent by the number of the others.
  rcases hchars : d.chars with _ | ⟨c, _ | ⟨next, rest⟩⟩
  · exact absurd hchars Nat.toDigits_ne_nil
  · rw [hchars] at hdigits hvalue hcount
    refine ⟨_, Decimal.ofText?_whole _ _ (List.cons_ne_nil c []) hdigits hletter hread, ?_⟩
    rw [Decimal.ratio, Digits.ratio, hvalue, ← hcount]
    rfl
  · rw [hchars] at hdigits hvalue hcount
    have hfirst : ∀ a ∈ [c], isDecimalDigit a = true :=
      List.forall_mem_singleton.2 (hdigits c List.mem_cons_self)
    have hpoint := Decimal.ofText?_point _ _ _ (List.cons_ne_nil c []) hfirst
      (fun a ha => hdigits a (List.mem_cons_of_mem _ ha)) (fun a ha => (hletter a ha).1) hread
    refine ⟨_, hpoint, ?_⟩
    rw [Decimal.ratio, Digits.ratio, ← hcount]
    show (Decimal.ofDigits (c :: next :: rest) : ℚ) * _ = _
    rw [hvalue]
    congr 2
    simp only [List.length_cons]
    omega

/-! ## Reading floats

The text of a number is read as a decimal in its rounding interval, and the intervals of
different numbers do not meet. So nothing has to be known about how the digits are found,
but that they are in the interval. -/

/-- The text of a number without its sign. -/
def unsigned (layout : FloatLayout) (f : BinaryFormat) (m : Nat) (e : Int) : List Char :=
  if m = 0 then '0' :: (if layout.keepsPoint then ['.', '0'] else [])
  else
    let d := f.shortest layout.tie m e
    if layout.isPositional d then layout.positional d else layout.scientific d

variable {f : BinaryFormat} {m m' : Nat} {e e' : Int}

theorem toList_write_finite (layout : FloatLayout) (f : BinaryFormat) (negative : Bool) (m : Nat)
    (e : Int) : (layout.write f (.finite negative m e)).toList
      = (if negative then ['-'] else []) ++ layout.unsigned f m e := by
  unfold write unsigned
  dsimp only
  split <;> rw [String.toList_ofList]

theorem ratio_ne_zero (h : d.value ≠ 0) : d.ratio ≠ 0 :=
  mul_ne_zero (Nat.cast_ne_zero.2 h) (zpow_ne_zero _ (by norm_num))

/-- **The text of a number is read** as a decimal that rounds to it. The reader that rounds
correctly therefore gives the number back. -/
theorem ofText?_unsigned (hwide : 2 * 2 ^ f.fractionWidth < 10 ^ 16)
    (h : m = 0 ∧ e = f.leastExponent ∨ f.IsNumber m e) (layout : FloatLayout) :
    ∃ n : Decimal, Decimal.ofText? (layout.unsigned f m e) = some n ∧ (n.ratio = 0 ↔ m = 0)
      ∧ (f.IsNumber m e → (f.roundingInterval m e).Holds n.ratio) := by
  unfold unsigned
  rcases h with ⟨rfl, -⟩ | h
  · have hzero : ∃ n : Decimal,
        Decimal.ofText? ('0' :: (if layout.keepsPoint then ['.', '0'] else [])) = some n
          ∧ n.significand = 0 := by
      cases layout.keepsPoint <;> exact ⟨_, rfl, rfl⟩
    obtain ⟨n, hread, hn⟩ := hzero
    refine ⟨n, hread, ?_, fun h => absurd h.pos (lt_irrefl 0)⟩
    simp [Decimal.ratio, hn]
  · rw [if_neg h.pos.ne']
    obtain ⟨hholds, hne⟩ := f.holds_shortest hwide h layout.tie
    obtain ⟨n, hread, hratio⟩ : ∃ n : Decimal, Decimal.ofText?
        (let d := f.shortest layout.tie m e
          if layout.isPositional d then layout.positional d else layout.scientific d) = some n
        ∧ n.ratio = (f.shortest layout.tie m e).ratio := by
      dsimp only
      split
      · exact ofText?_positional layout _
      · exact ofText?_scientific layout _
    -- The shortest digits are in the rounding interval, and their text is read exactly.
    refine ⟨n, hread, iff_of_false (hratio ▸ ratio_ne_zero hne) h.pos.ne', fun _ => ?_⟩
    rw [hratio]
    exact hholds

/-- **Numbers with the same text** are the same. Both texts are read as one decimal, and a decimal
rounds to one float. -/
theorem eq_of_unsigned_eq (hwide : 2 * 2 ^ f.fractionWidth < 10 ^ 16)
    (h : m = 0 ∧ e = f.leastExponent ∨ f.IsNumber m e)
    (h' : m' = 0 ∧ e' = f.leastExponent ∨ f.IsNumber m' e')
    (heq : layout.unsigned f m e = layout.unsigned f m' e') : m = m' ∧ e = e' := by
  obtain ⟨n, hread, hzero, hholds⟩ := ofText?_unsigned hwide h layout
  obtain ⟨n', hread', hzero', hholds'⟩ := ofText?_unsigned hwide h' layout
  rw [heq, hread'] at hread
  obtain rfl := Option.some.inj hread
  rcases h with ⟨rfl, rfl⟩ | h
  · rcases h' with ⟨rfl, rfl⟩ | h'
    · exact ⟨rfl, rfl⟩
    · exact absurd (hzero'.1 (hzero.2 rfl)) h'.pos.ne'
  · rcases h' with ⟨rfl, rfl⟩ | h'
    · exact absurd (hzero.1 (hzero'.2 rfl)) h.pos.ne'
    · exact BinaryFormat.eq_of_holds h h' (hholds h) (hholds' h')

/-- A number that is read begins with no sign, so that a sign before it is seen. -/
theorem takeSign_of_ofText? {text : List Char} {n : Decimal} (h : Decimal.ofText? text = some n)
    (negative : Bool) :
    Decimal.takeSign ((if negative then ['-'] else []) ++ text) = (negative, text) := by
  cases negative with
  | true => rfl
  | false =>
    have hnone : ∀ c ∈ ['-', '+'], ∀ rest, Decimal.ofText? (c :: rest) = none := by
      intro c hc rest
      simp only [List.mem_cons, List.not_mem_nil, or_false] at hc
      rcases hc with rfl | rfl <;> rfl
    refine Decimal.takeSign_of_head fun c hc => ?_
    obtain ⟨rest, rfl⟩ := List.head?_eq_some_iff.1 hc
    constructor <;> rintro rfl <;> rw [hnone _ (by decide)] at h <;> cases h

/-- Numbers have other texts than what is no number. -/
theorem write_finite_ne (hwide : 2 * 2 ^ f.fractionWidth < 10 ^ 16)
    (h : m = 0 ∧ e = f.leastExponent ∨ f.IsNumber m e) (negative : Bool) {name : String}
    (hname : Decimal.ofText? (Decimal.takeSign name.toList).2 = none) :
    layout.write f (.finite negative m e) ≠ name := by
  rintro rfl
  obtain ⟨n, hread, -⟩ := ofText?_unsigned hwide h layout
  rw [toList_write_finite, takeSign_of_ofText? hread, hread] at hname
  cases hname

/-- The canonical texts of what is no number. -/
def names : List (Decoded × String) :=
  [(.nan, "NaN"), (.infinite false, "inf"), (.infinite true, "-inf")]

theorem mem_names (f : BinaryFormat) (decoded : Decoded) :
    (∃ negative m e, decoded = .finite negative m e)
      ∨ (decoded, canonical.write f decoded) ∈ names := by
  rcases decoded with _ | (_ | _) | ⟨negative, m, e⟩
  · exact .inr (.head _)
  · exact .inr (.tail _ (.head _))
  · exact .inr (.tail _ (.tail _ (.head _)))
  · exact .inl ⟨negative, m, e, rfl⟩

/-- No name is read as a number. -/
theorem ofText?_name : ∀ name ∈ names,
    Decimal.ofText? (Decimal.takeSign name.2.toList).2 = none := by decide

/-- **Words with the same canonical text** stand for the same. The sign and the names of what is
no number are told apart by their first characters. -/
theorem decode_eq_of_write_eq (hwide : 2 * 2 ^ f.fractionWidth < 10 ^ 16) {a b : Nat}
    (h : canonical.write f (f.decode a) = canonical.write f (f.decode b)) :
    f.decode a = f.decode b := by
  -- Each word is a number or has a name. Numbers are told apart by sign and digits, names by being
  -- different, and a number from a name since only the number can be read as one.
  rcases mem_names f (f.decode a) with ⟨negative, m, e, ha⟩ | ha
  · obtain ⟨-, -, hnumber⟩ := BinaryFormat.of_decode_finite ha
    rcases mem_names f (f.decode b) with ⟨negative', m', e', hb⟩ | hb
    · obtain ⟨-, -, hnumber'⟩ := BinaryFormat.of_decode_finite hb
      obtain ⟨n, hread, -⟩ := ofText?_unsigned hwide hnumber canonical
      obtain ⟨n', hread', -⟩ := ofText?_unsigned hwide hnumber' canonical
      rw [ha, hb] at h ⊢
      have hsigned : Decimal.takeSign (canonical.write f (.finite negative m e)).toList
          = Decimal.takeSign (canonical.write f (.finite negative' m' e')).toList := by rw [h]
      rw [toList_write_finite, toList_write_finite, takeSign_of_ofText? hread,
        takeSign_of_ofText? hread'] at hsigned
      obtain ⟨rfl, htext⟩ := Prod.mk.inj hsigned
      obtain ⟨rfl, rfl⟩ := eq_of_unsigned_eq hwide hnumber hnumber' htext
      rfl
    · exact absurd (ha ▸ h) (write_finite_ne hwide hnumber negative (ofText?_name _ hb))
  · rcases mem_names f (f.decode b) with ⟨negative', m', e', hb⟩ | hb
    · obtain ⟨-, -, hnumber'⟩ := BinaryFormat.of_decode_finite hb
      exact absurd (hb ▸ h.symm) (write_finite_ne hwide hnumber' negative' (ofText?_name _ ha))
    · have hnames : ∀ p ∈ names, ∀ q ∈ names, p.2 = q.2 → p.1 = q.1 := by decide
      exact hnames _ ha _ hb h

end FloatLayout

/-! ## Floats

There are many NaNs and one text for all of them. This is the one case in which the text
does not give back the bits. -/

/-- **Two floats of 32 bits are the same**: bit by bit, or both are NaNs. All NaNs count as one,
since a text cannot show which one it is. -/
def Single.Same (x y : Single) : Prop := x = y ∨ x.isNaN = true ∧ y.isNaN = true

/-- **Two floats of 64 bits are the same**: bit by bit, or both are NaNs. It differs from
comparing them as numbers, for which a NaN is not even itself. -/
def Double.Same (x y : Double) : Prop := x = y ∨ x.isNaN = true ∧ y.isNaN = true

/-- **Floats of 32 bits with the same canonical text** are the same. Zeros with different signs
have different texts. -/
theorem Single.same_of_write_eq {x y : Single} (h : x.write .canonical = y.write .canonical) :
    x.Same y := by
  have hdecode := FloatLayout.decode_eq_of_write_eq (f := .single) (by decide) h
  have hword : ∀ z : Single, z.toNat < 2 * BinaryFormat.single.signBit := fun z => z.bits.toNat_lt
  refine (BinaryFormat.eq_of_decode_eq (hword x) (hword y) hdecode).imp_left fun hbits => ?_
  rw [← x.ofNat_toNat, hbits, y.ofNat_toNat]

/-- **Floats of 64 bits with the same canonical text** are the same. Zeros with different signs
have different texts. -/
theorem Double.same_of_write_eq {x y : Double} (h : x.write .canonical = y.write .canonical) :
    x.Same y := by
  have hdecode := FloatLayout.decode_eq_of_write_eq (f := .double) (by decide) h
  have hword : ∀ z : Double, z.toNat < 2 * BinaryFormat.double.signBit := fun z => z.bits.toNat_lt
  refine (BinaryFormat.eq_of_decode_eq (hword x) (hword y) hdecode).imp_left fun hbits => ?_
  rw [← x.ofNat_toNat, hbits, y.ofNat_toNat]

end Meshwork
