import Meshwork.Proofs.Json.Number
import Meshwork.Proofs.Number.Layout
import Meshwork.Proofs.Number.Rounding

/-!
# Floats are read as floats

The text of a float is read as a float (`Json.Number.exists_readsAs_float`), though not
always as the same one, since reading rounds twice. What could go wrong is that the number
is out of range: the digits of the greatest floats are close to the end of the range, and
`17976931348623158` with the exponent `292`, which lies between the greatest float and the
end of its rounding interval, is refused.

It is not among the shortest digits of a float. Those of the greatest float end in `7`
(`shortest_greatest`), and all other floats lie below its rounding interval
(`ratio_shortest_le`). Up to there, rounding twice gives a number
(`isFinite_scaled`): a product with a power of ten grows with the significand, so that one
significand is looked at for every power.
-/

namespace Meshwork

namespace Json

open BinaryFormat

/-! ## The parts of a number in its text

A number is written as a whole part, perhaps a fraction and perhaps an exponent. Here the
parts are given, and their text is read back part by part, whatever the number stands for. -/

namespace NumberParts

/-- The fraction behind its point. -/
def fractionChars : Option (List Char) → List Char
  | none => []
  | some digits => '.' :: digits

/-- The exponent behind its letter and sign. -/
def exponentChars : Option (Bool × List Char) → List Char
  | none => []
  | some (down, digits) => 'e' :: (if down then '-' else '+') :: digits

/-- **The parts as they are written**, without the sign of the number. These are what a reader
sees once it has taken the sign. -/
def chars (p : NumberParts) : List Char :=
  p.whole ++ (fractionChars p.fraction ++ exponentChars p.exponent)

/-- The number of an exponent. -/
def power : Option (Bool × List Char) → Int
  | none => 0
  | some (down, digits) => if down then -(Decimal.ofDigits digits : Int) else Decimal.ofDigits digits

/-- **The decimal of the parts**, without the sign. The digits behind the point count as digits of
one integer, and lower the exponent instead. -/
def decimal (p : NumberParts) : Decimal :=
  ⟨Decimal.ofDigits (p.whole ++ p.fraction.getD []), power p.exponent - (p.fraction.getD []).length⟩

/-- **Digits as a number has them**: at least one, and nothing else. Zeros at the beginning are
not excluded here, since digits behind a point may begin with them. -/
def AreDigits (digits : List Char) : Prop := digits ≠ [] ∧ ∀ c ∈ digits, isDecimalDigit c = true

/-- **The parts are those of a float** in a text. Without a point and an exponent the parts would
be those of an integer, which is read in another way. -/
structure OfFloat (p : NumberParts) : Prop where
  /-- There are digits before the point, -/
  whole : AreDigits p.whole
  /-- with no superfluous zero. -/
  noZero : ∀ d more, p.whole ≠ '0' :: d :: more
  /-- There are digits behind the point, if there is one. -/
  fraction : ∀ digits ∈ p.fraction, AreDigits digits
  /-- The exponent has digits, if there is one. -/
  exponent : ∀ given ∈ p.exponent, AreDigits given.2
  /-- There is a point or an exponent. -/
  isFloat : p.fraction ≠ none ∨ p.exponent ≠ none

variable {p : NumberParts}

theorem AreDigits.readDigits {α : Type} {digits : List Char} (h : AreDigits digits)
    (make : List Char → α) {rest : Symbols} (hrest : EndsDigits rest) :
    readDigits make (digits.map some ++ rest) = .ok (make digits, rest) :=
  readDigits_eq_ok_iff.2 ⟨digits, takeDigits_append h.2 hrest, h.1, rfl⟩

theorem endsDigits_nil : EndsDigits [] := fun _ => nofun

theorem endsDigits_cons {c : Char} (h : isDecimalDigit c = false) (rest : Symbols) :
    EndsDigits (some c :: rest) := by
  intro d hd
  obtain rfl := Option.some.inj (Option.some.inj hd)
  exact h

theorem endsDigits_exponentChars (exponent : Option (Bool × List Char)) :
    EndsDigits ((exponentChars exponent).map some) := by
  rcases exponent with _ | ⟨down, digits⟩
  · exact endsDigits_nil
  · exact endsDigits_cons (by decide) _

theorem endsDigits_fractionChars (fraction : Option (List Char))
    (exponent : Option (Bool × List Char)) :
    EndsDigits ((fractionChars fraction ++ exponentChars exponent).map some) := by
  rcases fraction with _ | digits
  · exact endsDigits_exponentChars exponent
  · exact endsDigits_cons (by decide) _

theorem readExponent_exponentChars {exponent : Option (Bool × List Char)}
    (h : ∀ given ∈ exponent, AreDigits given.2) :
    readExponent ((exponentChars exponent).map some) = .ok (exponent, []) := by
  rcases exponent with _ | ⟨down, digits⟩
  · rfl
  have hdigits := (h _ rfl).readDigits (fun digits => some (down, digits)) endsDigits_nil
  rw [List.append_nil] at hdigits
  cases down <;> rw [exponentChars, List.map_cons, readExponent_cons, if_pos (.inl rfl)] <;>
    exact hdigits

theorem readFraction_fractionChars {fraction : Option (List Char)}
    (h : ∀ digits ∈ fraction, AreDigits digits) (exponent : Option (Bool × List Char)) :
    readFraction ((fractionChars fraction ++ exponentChars exponent).map some)
      = .ok (fraction, (exponentChars exponent).map some) := by
  rcases fraction with _ | digits
  · rcases exponent with _ | ⟨down, digits⟩ <;> rfl
  · rw [fractionChars, List.cons_append, List.map_cons, readFraction_cons, if_pos rfl,
      List.map_append, (h digits rfl).readDigits some (endsDigits_exponentChars exponent)]

/-- **The parts are read** from their text. Nothing may follow them here; that a number ends by
itself is used to put text behind it. -/
theorem readNumber_chars (h : p.OfFloat) :
    readNumber p.negative (p.chars.map some) = .ok (p.value, []) := by
  have hwhole : readWhole (p.chars.map some)
      = .ok (p.whole, (fractionChars p.fraction ++ exponentChars p.exponent).map some) := by
    rw [chars, List.map_append]
    exact readWhole_eq_ok_iff.2 ⟨takeDigits_append h.whole.2 (endsDigits_fractionChars _ _),
      h.whole.1, h.noZero⟩
  unfold readNumber
  rw [hwhole]
  show Except.bind (readFraction _) _ = _
  rw [readFraction_fractionChars h.fraction]
  show Except.bind (readExponent _) _ = _
  rw [readExponent_exponentChars h.exponent]
  rfl

/-! ## The float of the parts

The digits are taken as one integer as long as they fit into a word, and then scaled by a
power of ten. The digits that are written are at most seventeen, so they fit. -/

/-- **The parts stand for a float** if their digits fit into a word, their exponent is not
too large, and the scaled significand is not out of range. -/
theorem exists_value (h : p.OfFloat) (hword : p.decimal.significand < UInt64.size)
    (hpower : power p.exponent ≤ exponentLimit)
    (hscale : (scaleByTen (.ofInt p.decimal.significand) p.decimal.exponent 8).isSome) :
    ∃ y, p.value = .ok (.float y) := by
  -- The fraction is absorbed behind the whole part, as if the point were not there.
  have hfold : (p.fraction.getD []).foldl (fun n c => 10 * n + decimalDigit c)
      (Decimal.ofDigits p.whole) = p.decimal.significand := (List.foldl_append).symm
  have hwhole : Decimal.ofDigits p.whole < UInt64.size := by
    have hsignificand : p.decimal.significand = _ := Decimal.ofDigits_append p.whole _
    have hle := Nat.le_mul_of_pos_left (Decimal.ofDigits p.whole)
      (Nat.pow_pos (n := (p.fraction.getD []).length) (show 0 < 10 by decide))
    omega
  have habsorb : absorbDigits 0 p.whole = (Decimal.ofDigits p.whole, p.whole.length) :=
    absorbDigits_eq p.whole hwhole
  have habsorbRest := absorbDigits_eq (p.fraction.getD []) (hfold.symm ▸ hword)
  rw [hfold] at habsorbRest
  have hfloat : (p.fraction.isNone && p.exponent.isNone) = false :=
    Bool.and_eq_false_iff.2 (h.isFloat.imp
      (fun hsome => Option.isNone_eq_false_iff.2 (Option.ne_none_iff_isSome.1 hsome))
      fun hsome => Option.isNone_eq_false_iff.2 (Option.ne_none_iff_isSome.1 hsome))
  have hparts : ∀ exponent : Int, exponent = p.decimal.exponent →
      ∃ y, floatOfParts p.negative p.decimal.significand exponent = .ok (.float y) := by
    rintro _ rfl
    obtain ⟨x, hx⟩ := Option.isSome_iff_exists.1 hscale
    exact ⟨_, by rw [floatOfParts, hx]⟩
  have hexponent : p.decimal.exponent = power p.exponent - (p.fraction.getD []).length := rfl
  unfold value
  rw [habsorb]
  simp only [habsorbRest, hfloat, Nat.sub_self, Bool.false_and, Bool.false_eq_true, if_false]
  -- What is left is the exponent: none at all, or one within the limit, where a power that is too
  -- far down gives zero and not an error.
  generalize p.exponent = exponent at hpower hexponent
  rcases exponent with _ | ⟨down, digits⟩
  · exact hparts _ (by rw [hexponent]; simp [power])
  dsimp only
  split
  · rename_i hlarge
    cases down with
    | true => exact ⟨_, by simp; rfl⟩
    | false => exact absurd hpower (by simpa [power] using hlarge)
  · refine hparts _ ?_
    rw [hexponent, power]
    split <;> omega

end NumberParts

/-! ## Scaling within the range

Scaling is done in floats, by one multiplication or division, so it rounds a number that
was rounded before. Whether the result is still a number is a question of a few powers of
ten; they are gone through one by one at the greatest significand. -/

/-- Division by a power of ten is never out of range. -/
theorem isSome_scaleByTen_of_neg (x : Double) {exponent : Int} (h : exponent < 0) (fuel : Nat) :
    (scaleByTen x exponent fuel).isSome := by
  induction fuel generalizing x exponent with
  | zero => rfl
  | succ fuel ih =>
    rw [scaleByTen, if_neg (Int.not_le.2 h), if_neg (Int.not_le.2 h)]
    split
    · rfl
    split
    · rfl
    · rename_i hlarge _
      exact ih _ (by omega)

/-- Multiplication by a power of ten is in range if the product is a number. -/
theorem isSome_scaleByTen_of_finite {x : Double} {k : Nat} (hk : k ≤ 308)
    (h : (x * powerOfTen k).isFinite = true) (fuel : Nat) : (scaleByTen x k fuel).isSome := by
  cases fuel with
  | zero => rfl
  | succ fuel =>
    rw [scaleByTen, Int.natAbs_natCast, if_pos hk, if_pos (Int.natCast_nonneg k), Int.toNat_natCast]
    simp [h]

/-- **The lower end of the rounding interval** of the greatest float: what digits of the other
floats stand for is at most this. Digits up to it are converted without overflow, by whatever
roundings on the way. -/
def rangeLimit : Nat := (Nat.pow 2 54 - 3) * Nat.pow 2 970

/-- The greatest significand of up to seventeen digits within the range. -/
def greatestSignificand (k : Nat) : Nat := min (Nat.pow 10 17) (rangeLimit / Nat.pow 10 k)

/-- For the powers of ten that leave less than seventeen digits, and the one before them. -/
theorem isFinite_greatest : ∀ k ∈ List.range' 291 18,
    (Double.ofInt (greatestSignificand k : Nat)).toNat < double.infinity
      ∧ (powerOfTen k).toNat < double.infinity
      ∧ (Double.ofInt (greatestSignificand k : Nat) * powerOfTen k).isFinite = true := by
  decide +kernel

/-- **Within the range a scaled significand is a number.** The product is at most what the same
computation gives for the digits of the limit, and that is a number. -/
theorem isFinite_scaled {s k : Nat} (hs : s < 10 ^ 17) (hpos : 0 < s) (h : s * 10 ^ k ≤ rangeLimit) :
    k ≤ 308 ∧ (Double.ofInt s * powerOfTen k).isFinite = true := by
  have hk : k ≤ 308 := by
    obtain ⟨n, hn, hlimit⟩ : ∃ n, n = 309 ∧ rangeLimit < Nat.pow 10 n :=
      ⟨309, rfl, by decide +kernel⟩
    have hpower : 10 ^ k < 10 ^ n := (Nat.le_mul_of_pos_left _ hpos).trans_lt (h.trans_lt hlimit)
    have hlt : k < n := (Nat.pow_lt_pow_iff_right (by decide)).1 hpower
    omega
  refine ⟨hk, ?_⟩
  -- All smaller powers of ten are compared with one.
  obtain ⟨n, hn, hall⟩ : ∃ n, n = 291 ∧ Nat.pow 10 17 * Nat.pow 10 n ≤ rangeLimit :=
    ⟨291, rfl, by decide +kernel⟩
  have hleast : s ≤ greatestSignificand (max n k) := by
    refine Nat.le_min.2 ⟨hs.le, (Nat.le_div_iff_mul_le (Nat.pow_pos (by decide))).2 ?_⟩
    rcases Nat.le_total k n with hle | hle
    · rw [max_eq_left hle]
      exact (Nat.mul_le_mul_right _ hs.le).trans hall
    · rwa [max_eq_right hle]
  obtain ⟨hsignificand, hpower, hproduct⟩ :=
    isFinite_greatest (max n k) (List.mem_range'_1.2 (by omega))
  exact Double.isFinite_ofInt_mul_of_le hleast
    (Nat.pow_le_pow_right (by decide) (le_max_right n k)) hsignificand hpower hproduct

/-- **The shortest digits of the greatest float.** It is computed, since the bound for all other
floats does not cover it. -/
theorem shortest_greatest :
    double.shortest .even (Nat.pow 2 53 - 1) 971 = ⟨17976931348623157, 309⟩ := by
  decide +kernel

/-- They are in range: the product is the greatest float. -/
theorem isFinite_scaled_greatest :
    (Double.ofInt (17976931348623157 : Nat) * powerOfTen 292).isFinite = true := by
  decide +kernel

/-- **The digits of every other float** stand for no more than the lower end of the rounding
interval of the greatest. The interval of the greatest float begins there, and the digits of a
smaller one lie in its own interval. -/
theorem ratio_shortest_le {m : Nat} {e : Int} (h : double.IsNumber m e)
    (hfinite : double.word m e < double.infinity) (hother : m ≠ Nat.pow 2 53 - 1 ∨ e ≠ 971) :
    (double.shortest .even m e).ratio ≤ rangeLimit := by
  obtain ⟨hholds, -⟩ := double.holds_shortest (by decide) h .even
  refine (of_holds h.pos hholds).2.1.trans ?_
  have hm : m < 2 * 2 ^ 52 := h.lt
  have hleast : double.leastExponent = -1074 := rfl
  -- Next to the greatest float there is room: the exponent is smaller, or the significand is.
  have hbound : e ≤ 970 ∨ e = 971 ∧ m + 2 ≤ 2 ^ 53 := by
    have hfull : double.leastExponent < e → 2 ^ 52 ≤ m := h.full
    have hword : (e - double.leastExponent).toNat * 2 ^ 52 + m < 2047 * 2 ^ 52 := hfinite
    have hpower : Nat.pow 2 53 = 2 ^ 53 := rfl
    omega
  -- The limit is written out as a power of two once, without evaluating it as a numeral.
  have hlimit : (rangeLimit : ℚ) = (2 ^ 54 - 3) * 2 ^ (970 : Int) := by
    obtain ⟨s, n, hlimit, hs, hn⟩ :
        ∃ s n : ℕ, rangeLimit = s * Nat.pow 2 n ∧ s + 3 = 2 ^ 54 ∧ n = 970 := ⟨_, _, rfl, rfl, rfl⟩
    have hsum : (s : ℚ) + 3 = 2 ^ 54 := by exact_mod_cast hs
    rw [hlimit, ← hsum, add_sub_cancel_right, Nat.pow_eq, Nat.cast_mul, Nat.cast_pow,
      ← zpow_natCast, hn]
    rfl
  rw [hlimit]
  rcases hbound with hle | ⟨rfl, hle⟩
  · have hcast : (m : ℚ) + 1 / 2 ≤ 2 ^ 54 - 3 := by
      have hstep : ((m + 1 : ℕ) : ℚ) ≤ (2 * 2 ^ 52 : ℕ) := by exact_mod_cast hm
      push_cast at hstep
      linarith
    exact mul_le_mul hcast (zpow_le_zpow_right₀ (by norm_num) hle) (by positivity) (by norm_num)
  · have hcast : (m : ℚ) + 2 ≤ 2 ^ 53 := by exact_mod_cast hle
    have hdouble : (2 : ℚ) ^ (971 : Int) = 2 * 2 ^ (970 : Int) := by
      rw [← zpow_one_add₀ two_ne_zero]
      norm_num
    rw [hdouble, ← mul_assoc]
    exact mul_le_mul_of_nonneg_right (by linarith) (by positivity)

/-- **The shortest digits are in range.** For the greatest float this is one computation, and for
the others it follows from the limit. -/
theorem isFinite_scaled_shortest {m : Nat} {e : Int} (h : double.IsNumber m e)
    (hfinite : double.word m e < double.infinity) {k : Nat}
    (hk : (double.shortest .even m e).point - (double.shortest .even m e).count = k) :
    k ≤ 308 ∧ (Double.ofInt (double.shortest .even m e).value * powerOfTen k).isFinite = true := by
  by_cases hgreatest : m = Nat.pow 2 53 - 1 ∧ e = 971
  · obtain ⟨rfl, rfl⟩ := hgreatest
    rw [shortest_greatest] at hk ⊢
    obtain rfl : k = 292 := by
      have hcount : Digits.count ⟨17976931348623157, 309⟩ = 17 := by decide +kernel
      have hk : (309 : Int) - (17 : ℕ) = k := hcount ▸ hk
      omega
    exact ⟨by decide, isFinite_scaled_greatest⟩
  · have hratio := ratio_shortest_le h hfinite (not_and_or.1 hgreatest)
    obtain ⟨-, hne⟩ := double.holds_shortest (by decide) h .even
    refine isFinite_scaled (double.value_shortest_lt (by decide) h .even) (Nat.pos_of_ne_zero hne) ?_
    rw [Digits.ratio, hk, zpow_natCast] at hratio
    exact_mod_cast hratio

/-! ## Written digits

Digits are written with a point among them, or with one behind the first and an exponent.
In both cases the parts are those of a float. -/

/-- **The characters are read as a float** behind the sign. Which float it is does not matter
here: it may differ from the one that was written in the last bits. -/
def ReadsFloat (negative : Bool) (chars : List Char) : Prop :=
  ∃ y, readNumber negative (chars.map some) = .ok (.ok (.float y), [])

namespace NumberParts

variable {negative : Bool} {d : Digits}

/-- The digit zero. -/
theorem areDigits_zero : AreDigits ['0'] :=
  ⟨List.cons_ne_nil _ _, FloatLayout.isDecimalDigit_replicate 1⟩

theorem areDigits_chars (d : Digits) : AreDigits d.chars :=
  ⟨Nat.toDigits_ne_nil, Decimal.isDecimalDigit_toDigits d.value⟩

/-- Digits that do not begin with a zero have no superfluous one. -/
theorem ne_of_head? {digits : List Char} (h : digits.head? ≠ some '0') (c : Char) (more : List Char) :
    digits ≠ '0' :: c :: more := by
  rintro rfl
  exact h rfl

theorem head?_chars (hd : d.value ≠ 0) : d.chars.head? ≠ some '0' :=
  head?_toDigits (Nat.pos_of_ne_zero hd)

/-- A number is less than the power of ten that its digits count. -/
theorem ofDigits_lt {digits : List Char} (h : ∀ c ∈ digits, isDecimalDigit c = true) :
    Decimal.ofDigits digits < 10 ^ digits.length := by
  induction digits using List.reverseRecOn with
  | nil => exact Nat.one_pos
  | append_singleton digits c ih =>
    have hlt := ih fun d hd => h d (List.mem_append_left _ hd)
    have hc : decimalDigit c < 10 := by
      have hdigit := h c (List.mem_append_right _ (List.mem_singleton_self c))
      simp only [isDecimalDigit, Bool.and_eq_true, decide_eq_true_eq, Char.le_def,
        UInt32.le_iff_toNat_le] at hdigit
      have hnine : c.val.toNat ≤ 57 := hdigit.2
      show c.val.toNat - 48 < 10
      omega
    rw [Decimal.ofDigits_append, List.length_append, pow_add]
    show 10 ^ 1 * Decimal.ofDigits digits + (10 * 0 + decimalDigit c) < _ * 10 ^ 1
    omega

/-- **A number with a point and no exponent** is read as a float. Digits that are no word are
treated apart by the reader, and do not come up here. -/
theorem readsFloat_point (whole fraction : List Char) (hwhole : AreDigits whole)
    (hzero : ∀ c more, whole ≠ '0' :: c :: more) (hfraction : AreDigits fraction)
    (hword : Decimal.ofDigits (whole ++ fraction) < UInt64.size) :
    ReadsFloat negative (whole ++ '.' :: fraction) := by
  have hfloat : OfFloat ⟨negative, whole, some fraction, none⟩ :=
    ⟨hwhole, hzero, by rintro _ ⟨⟩; exact hfraction, nofun, .inl nofun⟩
  have hlength := List.length_pos_iff.2 hfraction.1
  have hexponent : (decimal ⟨negative, whole, some fraction, none⟩).exponent < 0 :=
    show (0 : Int) - fraction.length < 0 by omega
  obtain ⟨y, hy⟩ := exists_value hfloat hword (Int.natCast_nonneg _)
    (isSome_scaleByTen_of_neg _ hexponent _)
  have hread := readNumber_chars hfloat
  have hchars : chars ⟨negative, whole, some fraction, none⟩ = whole ++ '.' :: fraction := by
    simp [chars, fractionChars, exponentChars]
  rw [hchars, hy] at hread
  exact ⟨y, hread⟩

/-- **Positional digits are read as a float**, since they have a point. A zero is written behind
the point if there is nothing else. -/
theorem readsFloat_positional (hd : d.value ≠ 0) (hsize : d.value < 10 ^ 17) (hpoint : d.point ≤ 16) :
    ReadsFloat negative (FloatLayout.json.positional d) := by
  obtain ⟨hne, hdigits⟩ := areDigits_chars d
  have hvalue : Decimal.ofDigits d.chars = d.value := Decimal.ofDigits_toDigits d.value
  have hword : d.value < UInt64.size := hsize.trans (by decide)
  have hzeros := FloatLayout.isDecimalDigit_replicate
  unfold FloatLayout.positional
  dsimp only
  split
  case isTrue hpoint =>
    -- Zeros stand between the point and the digits.
    have hfraction : AreDigits (List.replicate (-d.point).toNat '0' ++ d.chars) :=
      ⟨by simp [hne], fun c hc => (List.mem_append.1 hc).elim (hzeros _ c) (hdigits c)⟩
    refine readsFloat_point ['0'] _ areDigits_zero nofun hfraction ?_
    have hread := Decimal.ofDigits_replicate_append ((-d.point).toNat + 1) d.chars
    exact (hread.trans hvalue).symm ▸ hword
  case isFalse hpositive =>
    split
    case isTrue hcount =>
      -- Zeros stand between the digits and the point.
      have hwhole : AreDigits (d.chars ++ List.replicate (d.point.toNat - d.chars.length) '0') :=
        ⟨by simp [hne], fun c hc => (List.mem_append.1 hc).elim (hdigits c) (hzeros _ c)⟩
      refine readsFloat_point _ ['0'] hwhole (ne_of_head? ?_) areDigits_zero ?_
      · rw [List.head?_append_of_ne_nil _ hne]
        exact head?_chars hd
      · have hlt := ofDigits_lt (List.forall_mem_append.2 ⟨hwhole.2, hzeros 1⟩)
        have hlength : (d.chars ++ List.replicate (d.point.toNat - d.chars.length) '0'
            ++ ['0']).length ≤ 17 := by
          simp only [List.length_append, List.length_replicate, List.length_singleton]
          omega
        exact (hlt.trans_le (Nat.pow_le_pow_right (by decide) hlength)).trans (by decide)
    case isFalse hcount =>
      -- The point stands among the digits.
      refine readsFloat_point _ _ ⟨?_, fun c hc => hdigits c (List.mem_of_mem_take hc)⟩ (ne_of_head? ?_)
        ⟨by simpa using hcount, fun c hc => hdigits c (List.mem_of_mem_drop hc)⟩ ?_
      · rw [Ne, List.take_eq_nil_iff]
        rintro (hzero | hnil)
        · omega
        · exact hne hnil
      · rw [List.head?_take, if_neg (by omega)]
        exact head?_chars hd
      · rwa [List.take_append_drop, hvalue]

/-- The exponent of digits, with the sign that JSON writes. -/
theorem exists_exponent (point : Int) :
    ∃ exponent, power (some exponent) = point - 1 ∧ AreDigits exponent.2
      ∧ (if FloatLayout.json.plusSign && 1 ≤ point then '+' :: (toString (point - 1)).toList
        else (toString (point - 1)).toList) = (if exponent.1 then '-' else '+') :: exponent.2 := by
  have hdigits := fun n => And.intro (Nat.toDigits_ne_nil (b := 10) (n := n))
    (Decimal.isDecimalDigit_toDigits n)
  by_cases hpoint : 1 ≤ point
  · obtain ⟨n, hn⟩ := Int.eq_ofNat_of_zero_le (show 0 ≤ point - 1 by omega)
    refine ⟨(false, Nat.toDigits 10 n), ?_, hdigits n, ?_⟩
    · rw [power, if_neg Bool.false_ne_true, Decimal.ofDigits_toDigits, hn]
    · rw [if_pos (by simpa [FloatLayout.json] using hpoint), hn]
      exact congrArg _ (Decimal.toList_natural n)
  · obtain ⟨n, hn⟩ := Int.eq_negSucc_of_lt_zero (show point - 1 < 0 by omega)
    refine ⟨(true, Nat.toDigits 10 (n + 1)), ?_, hdigits (n + 1), ?_⟩
    · rw [power, if_pos rfl, Decimal.ofDigits_toDigits, hn]
      rfl
    · rw [if_neg (by simpa [FloatLayout.json] using hpoint), hn, Decimal.toList_negSucc]
      rfl

/-- **Digits with an exponent are read as a float** if they are in range. The exponent that is
read is that of the digits taken as an integer. -/
theorem readsFloat_scientific (hsize : d.value < 10 ^ 17)
    (hscale : (scaleByTen (.ofInt d.value) (d.point - d.count) 8).isSome)
    (hpoint : d.point ≤ exponentLimit) : ReadsFloat negative (FloatLayout.json.scientific d) := by
  obtain ⟨hne, hdigits⟩ := areDigits_chars d
  have hvalue : Decimal.ofDigits d.chars = d.value := Decimal.ofDigits_toDigits d.value
  have hcount : d.chars.length = d.count := rfl
  obtain ⟨exponent, hpower, hexponent, htext⟩ := exists_exponent d.point
  -- All that the parts have to do with the digits.
  have hparts : ∀ p : NumberParts, p.negative = negative → p.OfFloat →
      p.chars = FloatLayout.json.scientific d → p.decimal = ⟨d.value, d.point - d.count⟩ →
      p.exponent = some exponent → ReadsFloat negative (FloatLayout.json.scientific d) := by
    rintro p rfl hfloat hchars hdecimal hp
    obtain ⟨y, hy⟩ := exists_value hfloat (hdecimal ▸ hsize.trans (by decide))
      (hp ▸ hpower ▸ (by omega)) (hdecimal ▸ hscale)
    have hread := readNumber_chars hfloat
    rw [hchars, hy] at hread
    exact ⟨y, hread⟩
  rcases hchars : d.chars with _ | ⟨c, _ | ⟨next, rest⟩⟩
  · exact absurd hchars hne
  all_goals rw [hchars] at hdigits hvalue hcount
  · refine hparts ⟨negative, [c], none, some exponent⟩ rfl ⟨⟨List.cons_ne_nil _ _, hdigits⟩, nofun, nofun,
      by rintro _ ⟨⟩; exact hexponent, .inr nofun⟩ ?_ ?_ rfl
    · rw [FloatLayout.scientific, hchars]
      simp only [htext]
      rfl
    · rw [decimal, hpower, ← hcount]
      exact congrArg₂ Decimal.mk hvalue (by simp)
  · obtain ⟨hc, hrest⟩ := List.forall_mem_cons.1 hdigits
    refine hparts ⟨negative, [c], some (next :: rest), some exponent⟩ rfl
      ⟨⟨List.cons_ne_nil _ _, List.forall_mem_singleton.2 hc⟩, nofun,
        by rintro _ ⟨⟩; exact ⟨List.cons_ne_nil _ _, hrest⟩, by rintro _ ⟨⟩; exact hexponent, .inr nofun⟩
      ?_ ?_ rfl
    · rw [FloatLayout.scientific, hchars]
      simp only [htext]
      rfl
    · rw [decimal, hpower, ← hcount]
      refine congrArg₂ Decimal.mk hvalue ?_
      simp only [Option.getD_some, List.length_cons]
      omega

end NumberParts

/-! ## Floats

Zero has a text of its own. For other floats the digits are the shortest ones, and these
are in range. -/

/-- **The text of every number is read as a float** behind its sign. Zero is the one number that
has no shortest digits, and is written as `0.0`. -/
theorem readsFloat_unsigned {m : Nat} {e : Int} (negative : Bool)
    (h : m = 0 ∧ e = double.leastExponent ∨ double.IsNumber m e)
    (hfinite : double.word m e < double.infinity) :
    ReadsFloat negative (FloatLayout.json.unsigned .double m e) := by
  unfold FloatLayout.unsigned
  rcases h with ⟨rfl, -⟩ | h
  · exact NumberParts.readsFloat_point ['0'] ['0'] NumberParts.areDigits_zero nofun
      NumberParts.areDigits_zero (by decide)
  rw [if_neg h.pos.ne']
  dsimp only
  obtain ⟨-, hne⟩ := double.holds_shortest (by decide) h .even
  have hsize := double.value_shortest_lt (by decide) h .even
  have hrange := @isFinite_scaled_shortest m e h hfinite
  show ReadsFloat negative (if FloatLayout.json.isPositional (double.shortest .even m e)
    then FloatLayout.json.positional (double.shortest .even m e)
    else FloatLayout.json.scientific (double.shortest .even m e))
  generalize double.shortest .even m e = d at hne hsize hrange ⊢
  have hcount : d.count ≤ 17 := (Nat.length_toDigits_le_iff (by decide) (by decide)).2 hsize
  -- The layout depends on the size of the float: with the point among the digits, or with an
  -- exponent.
  split
  case isTrue hpositional =>
    rw [FloatLayout.isPositional, Bool.and_eq_true] at hpositional
    exact NumberParts.readsFloat_positional hne hsize (of_decide_eq_true hpositional.2)
  case isFalse =>
    have hlimit : 325 ≤ exponentLimit := by decide
    rcases lt_or_ge (d.point - d.count) 0 with hneg | hnonneg
    · exact NumberParts.readsFloat_scientific hsize (isSome_scaleByTen_of_neg _ hneg _) (by omega)
    · obtain ⟨k, hk⟩ := Int.eq_ofNat_of_zero_le hnonneg
      obtain ⟨hle, hproduct⟩ := hrange hk
      exact NumberParts.readsFloat_scientific hsize
        (hk ▸ isSome_scaleByTen_of_finite hle hproduct 8) (by omega)

/-- **Every float that is a number is read as a float**, wherever it ends. Infinities and NaNs
have no text of their own in JSON, so they are excluded. -/
theorem Number.exists_readsAs_float {x : Double} (hx : x.isFinite = true) :
    ∃ y, (Number.float x).ReadsAs (.float y) := by
  obtain ⟨negative, m, e, hdecode⟩ := exists_decode_finite (of_decide_eq_true hx)
  obtain ⟨hword, -, hnumber⟩ := of_decode_finite hdecode
  have hfinite : double.word m e < double.infinity := hword.symm.trans_lt (of_decide_eq_true hx)
  obtain ⟨y, hread⟩ := readsFloat_unsigned negative hnumber hfinite
  have htext : (Number.float x).text.toList
      = (if negative then ['-'] else []) ++ FloatLayout.json.unsigned .double m e := by
    rw [← FloatLayout.toList_write_finite, ← hdecode]
    rfl
  refine ⟨y, ?_⟩
  cases negative with
  | true =>
    have hvalue := (readValue_minus 0 _).trans (afterSign_eq_iff.2 hread)
    exact readsAs_of_readValue htext (by decide) hvalue
  | false =>
    rcases hchars : FloatLayout.json.unsigned .double m e with _ | ⟨c, chars⟩ <;> rw [hchars] at hread
    · cases hread
    -- What is read as a number without a sign begins with a digit.
    have hdigit : isDecimalDigit c = true := by
      by_contra hc
      have hnone : takeDigits (some c :: chars.map some) = ([], some c :: chars.map some) := by
        rw [takeDigits, if_neg hc]
      have hwhole : readWhole (some c :: chars.map some) = .error .invalidNumber := by
        rw [readWhole, hnone]
      rw [List.map_cons, readNumber, hwhole] at hread
      cases hread
    have hvalue := (readValue_digit hdigit 0 _).trans (afterSign_eq_iff.2 hread)
    exact readsAs_of_readValue (htext.trans hchars) (isSpace_of_isDecimalDigit hdigit) hvalue

end Json

open Json

/-- **The float that the text of a float is read as.** It is defined by reading, since nothing
shorter says which float that is. -/
def Double.reread (x : Double) : Double :=
  match (readDocument ((Number.float x).text.toList.map some)).1 with
  | .number (.ok (.float y)) => y
  | _ => x

/-- The text of a number is read as what it is read as alone. -/
theorem Double.readsAs_reread {x : Double} (hx : x.isFinite = true) :
    (Number.float x).ReadsAs (.float x.reread) := by
  obtain ⟨y, hy⟩ := Number.exists_readsAs_float hx
  have hread := hy.reads (4 * ((Number.float x).text.toList.map some).length + 3) [] endsNumber_nil
  rw [List.append_nil] at hread
  have hreread : x.reread = y := by
    unfold reread readDocument
    rw [hread]
  rwa [hreread]

end Meshwork
