import Meshwork.Number.Arithmetic
import Meshwork.Proofs.Number.Interval

/-!
# Rounding keeps the order

A ratio is rounded to a word (`BinaryFormat.encodeRatio`), and a greater ratio never to a
smaller word (`BinaryFormat.encodeRatio_mono`). Words count the numbers from zero on, so the
order of the words is that of the numbers (`BinaryFormat.number_le_of_word_le`), and a product
is no less if a factor is no less (`BinaryFormat.mul_mono`). In particular a product of
numbers is a number if that of greater numbers is one (`Double.isFinite_mul_of_le`).

As everywhere, the definitions compute with natural numbers, and the proofs with the
rational number that a quotient of them is.
-/

namespace Meshwork

namespace BinaryFormat

/-! ## The nearest integer

Rounding goes to the nearest integer and to the even one from the middle. It is monotone
since nearest integers of different numbers are at most as far apart as the order allows. -/

/-- **An integer nearest to a number**, an even one if the number lies in the middle. For a given
number there is just one such integer. -/
structure IsNearest (r : Nat) (q : ℚ) : Prop where
  /-- It is not much greater. -/
  sub_le : (r : ℚ) - 1 / 2 ≤ q
  /-- It is not much smaller. -/
  le_add : q ≤ r + 1 / 2
  /-- Of two that are equally near, it is the even one. -/
  even : q = r - 1 / 2 ∨ q = r + 1 / 2 → r % 2 = 0

/-- A quotient of natural numbers is its floor and the rest. -/
theorem div_eq_floor_add (num : Nat) {den : Nat} (hden : 0 < den) :
    (num : ℚ) / den = (num / den : ℕ) + (num % den : ℕ) / den := by
  have hden' : (den : ℚ) ≠ 0 := Nat.cast_ne_zero.2 hden.ne'
  have hparts : ((den * (num / den) + num % den : ℕ) : ℚ) = num := by rw [Nat.div_add_mod]
  rw [div_eq_iff hden', add_mul, div_mul_cancel₀ _ hden', ← hparts]
  push_cast
  ring

/-- Rounding finds the nearest integer. -/
theorem isNearest_divNearest (num : Nat) {den : Nat} (hden : 0 < den) :
    IsNearest (divNearest num den) ((num : ℚ) / den) := by
  have hden' : (0 : ℚ) < den := Nat.cast_pos.2 hden
  have hrest : ((num % den : ℕ) : ℚ) / den < 1 :=
    (div_lt_one hden').2 (Nat.cast_lt.2 (Nat.mod_lt num hden))
  have hnonneg : (0 : ℚ) ≤ ((num % den : ℕ) : ℚ) / den := by positivity
  -- On which side of the middle the rest lies.
  have hbelow : 2 * (num % den) < den ↔ ((num % den : ℕ) : ℚ) / den < 1 / 2 := by
    rw [div_lt_div_iff₀ hden' two_pos, one_mul, mul_comm]
    exact_mod_cast Iff.rfl
  have habove : den < 2 * (num % den) ↔ 1 / 2 < ((num % den : ℕ) : ℚ) / den := by
    rw [div_lt_div_iff₀ two_pos hden', one_mul, mul_comm]
    exact_mod_cast Iff.rfl
  have hquotient := div_eq_floor_add num hden
  unfold divNearest
  dsimp only
  generalize num / den = floor at hquotient ⊢
  generalize ((num % den : ℕ) : ℚ) / den = rest at hquotient hrest hnonneg hbelow habove
  split
  case isTrue h =>
    have hlt := hbelow.1 h
    exact ⟨by linarith, by linarith, by rintro (h | h) <;> linarith⟩
  case isFalse hfloor =>
    split
    case isTrue h =>
      have hlt := habove.1 h
      refine ⟨?_, ?_, ?_⟩ <;> push_cast
      · linarith
      · linarith
      · rintro (h | h) <;> linarith
    case isFalse hceil =>
      have hmiddle : rest = 1 / 2 :=
        le_antisymm (not_lt.1 (mt habove.2 hceil)) (not_lt.1 (mt hbelow.2 hfloor))
      rcases Nat.mod_two_eq_zero_or_one floor with hparity | hparity <;> rw [hparity]
      · exact ⟨by push_cast; linarith, by push_cast; linarith, fun _ => hparity⟩
      · exact ⟨by push_cast; linarith, by push_cast; linarith, fun _ => by omega⟩

/-- **A greater number has no smaller nearest integer.** Two that lie equally near differ by one,
and then only one of them is even. -/
theorem IsNearest.mono {r r' : Nat} {q q' : ℚ} (h : IsNearest r q) (h' : IsNearest r' q')
    (hle : q ≤ q') : r ≤ r' := by
  by_contra hlt
  have hstep : (r' : ℚ) + 1 ≤ r := by exact_mod_cast Nat.not_le.1 hlt
  have hlow := h.sub_le
  have hhigh := h'.le_add
  -- Both numbers lie in the middle of the two integers, of which one is odd.
  have hnext : (r : ℚ) = r' + 1 := by linarith
  have heven := h.even (.inl (by linarith))
  have heven' := h'.even (.inr (by linarith))
  have hsucc : r = r' + 1 := by exact_mod_cast hnext
  omega

/-- The nearest integer of a number below an integer is at most that. -/
theorem IsNearest.le_of_lt {r n : Nat} {q : ℚ} (h : IsNearest r q) (hlt : q < n) : r ≤ n :=
  h.mono ⟨by linarith, by linarith, by rintro (h | h) <;> linarith⟩ hlt.le

/-- The nearest integer of a number above an integer is at least that. -/
theorem IsNearest.le_of_le {r n : Nat} {q : ℚ} (h : IsNearest r q) (hle : n ≤ q) : n ≤ r :=
  IsNearest.mono ⟨by linarith, by linarith, by rintro (h | h) <;> linarith⟩ h hle

/-! ## The leading bit of a ratio

The exponent of a ratio is guessed from the lengths of its parts and corrected by one.
Here it is pinned down as the exponent of the greatest power of two that the ratio
reaches. -/

theorem log2_spec {n : Nat} (h : 0 < n) :
    (2 : ℚ) ^ (Nat.log2 n : Int) ≤ n ∧ (n : ℚ) < 2 ^ ((Nat.log2 n : Int) + 1) := by
  refine ⟨?_, ?_⟩
  · rw [zpow_natCast]
    exact_mod_cast Nat.log2_self_le h.ne'
  · rw [← Nat.cast_succ, zpow_natCast]
    exact_mod_cast Nat.lt_log2_self

/-- Whether a ratio reaches a power of two is told by natural numbers. -/
theorem zpow_le_ratio_iff (num : Nat) {den : Nat} (hden : 0 < den) (guess : Int) :
    (if 0 ≤ guess then den * Nat.pow 2 guess.toNat ≤ num
      else den ≤ num * Nat.pow 2 (-guess).toNat) ↔ (2 : ℚ) ^ guess ≤ (num : ℚ) / den := by
  have hden' : (0 : ℚ) < den := Nat.cast_pos.2 hden
  have hpower := zpow_eq_div 2 (by decide) guess
  rw [Nat.cast_ofNat] at hpower
  rw [hpower, le_div_iff₀ hden']
  -- The power stands on the side where its exponent is not negative; on the other it is one.
  split <;> rename_i hsign
  · have hzero : (-guess).toNat = 0 := by omega
    rw [hzero, mul_comm den]
    simp only [Nat.pow_eq, pow_zero, Nat.cast_one, div_one]
    exact_mod_cast Iff.rfl
  · have hzero : guess.toNat = 0 := by omega
    have hpos : (0 : ℚ) < (Nat.pow 2 (-guess).toNat : ℕ) := by
      rw [Nat.pow_eq]
      positivity
    rw [hzero, div_mul_eq_mul_div, div_le_iff₀ hpos]
    simp only [Nat.pow_eq, pow_zero, Nat.cast_one, one_mul]
    exact_mod_cast Iff.rfl

/-- **The leading bit**: a ratio lies between two powers of two. It is computed from the lengths
of the two numbers, with one comparison to decide between two candidates. -/
theorem ratioLog_spec {num den : Nat} (hnum : 0 < num) (hden : 0 < den) :
    (2 : ℚ) ^ ratioLog num den ≤ (num : ℚ) / den ∧ (num : ℚ) / den < 2 ^ (ratioLog num den + 1) := by
  have hden' : (0 : ℚ) < den := Nat.cast_pos.2 hden
  obtain ⟨hnumLow, hnumHigh⟩ := log2_spec hnum
  obtain ⟨hdenLow, hdenHigh⟩ := log2_spec hden
  -- The difference of the two logarithms is the leading bit or one too many.
  generalize hguess : (Nat.log2 num : Int) - (Nat.log2 den : Int) = guess
  have hfits := zpow_le_ratio_iff num hden guess
  have hlog : ratioLog num den = if (2 : ℚ) ^ guess ≤ (num : ℚ) / den then guess else guess - 1 := by
    unfold ratioLog
    rw [hguess]
    by_cases h : (2 : ℚ) ^ guess ≤ (num : ℚ) / den
    · rw [if_pos h]
      exact if_pos (by simpa using hfits.2 h)
    · rw [if_neg h]
      exact if_neg (by simpa using mt hfits.1 h)
  rw [hlog]
  split <;> rename_i h
  · refine ⟨h, ?_⟩
    rw [div_lt_iff₀ hden']
    calc (num : ℚ) < 2 ^ ((Nat.log2 num : Int) + 1) := hnumHigh
      _ = 2 ^ (guess + 1) * 2 ^ (Nat.log2 den : Int) := by
          rw [← zpow_add₀ two_ne_zero]
          congr 1
          omega
      _ ≤ 2 ^ (guess + 1) * den := mul_le_mul_of_nonneg_left hdenLow (by positivity)
  · rw [sub_add_cancel]
    refine ⟨?_, not_le.1 h⟩
    rw [le_div_iff₀ hden']
    calc (2 : ℚ) ^ (guess - 1) * den
        ≤ 2 ^ (guess - 1) * 2 ^ ((Nat.log2 den : Int) + 1) :=
          mul_le_mul_of_nonneg_left hdenHigh.le (by positivity)
      _ = 2 ^ (Nat.log2 num : Int) := by
          rw [← zpow_add₀ two_ne_zero]
          congr 1
          omega
      _ ≤ num := hnumLow

/-! ## Rounded ratios

A ratio is divided by the unit of its last bit and rounded to an integer. A carry out of
the rounding gives the next power of two, whose word is the next one; this needs no case
of its own. -/

variable {f : BinaryFormat} {q q' : ℚ} {r r' : Nat} {e e' : Int}

/-- **A number is rounded to so many units** of the last bit, which is as small as the format
allows. The nearest number of units may reach the next power of two, and the word is then that of
the next exponent. -/
structure Rounds (f : BinaryFormat) (q : ℚ) (r : Nat) (e : Int) : Prop where
  /-- The unit is one of the format. -/
  least_le : f.leastExponent ≤ e
  /-- The units are those nearest to the number. -/
  nearest : IsNearest r (q / 2 ^ e)
  /-- They are not too many. -/
  lt : q / 2 ^ e < (2 * 2 ^ f.fractionWidth : ℕ)
  /-- Unless the unit is the smallest, they are not too few. -/
  full : f.leastExponent < e → ((2 ^ f.fractionWidth : ℕ) : ℚ) ≤ q / 2 ^ e

/-- The word of so many units: the words of smaller units come first. -/
def word (f : BinaryFormat) (r : Nat) (e : Int) : Nat :=
  (e - f.leastExponent).toNat * 2 ^ f.fractionWidth + r

/-- With a greater unit, the words are greater. -/
theorem word_le_word (hleast : f.leastExponent ≤ e) (hlt : e < e') (hr : r ≤ 2 * 2 ^ f.fractionWidth)
    (hr' : 2 ^ f.fractionWidth ≤ r') : f.word r e ≤ f.word r' e' := by
  have hunits : (e - f.leastExponent).toNat + 1 ≤ (e' - f.leastExponent).toNat := by omega
  calc f.word r e ≤ ((e - f.leastExponent).toNat + 1) * 2 ^ f.fractionWidth + 2 ^ f.fractionWidth := by
        unfold word
        rw [Nat.add_mul]
        omega
    _ ≤ f.word r' e' := Nat.add_le_add (Nat.mul_le_mul_right _ hunits) hr'

/-- **A greater number is rounded to no smaller word.** If the units differ, there is a power of
two between the numbers, and also between the words. -/
theorem Rounds.mono (h : f.Rounds q r e) (h' : f.Rounds q' r' e') (hle : q ≤ q') :
    f.word r e ≤ f.word r' e' := by
  rcases lt_trichotomy e e' with hlt | rfl | hgt
  · exact word_le_word h.least_le hlt (h.nearest.le_of_lt h.lt)
      (h'.nearest.le_of_le (h'.full (h.least_le.trans_lt hlt)))
  · exact Nat.add_le_add_left
      (h.nearest.mono h'.nearest (div_le_div_of_nonneg_right hle (by positivity))) _
  · -- A greater unit belongs to a greater number.
    have hlow := (le_div_iff₀ (by positivity)).1 (h.full (h'.least_le.trans_lt hgt))
    have hhigh := (div_lt_iff₀ (by positivity)).1 h'.lt
    obtain ⟨k, rfl⟩ : ∃ k : ℕ, e = e' + (k + 1 : ℕ) := ⟨(e - e' - 1).toNat, by omega⟩
    have hunit : (2 : ℚ) * 2 ^ e' ≤ 2 ^ (e' + (k + 1 : ℕ)) := by
      rw [zpow_add₀ two_ne_zero, zpow_natCast, mul_comm]
      have htwo : (2 : ℚ) ≤ 2 ^ (k + 1) := by
        rw [pow_succ']
        exact le_mul_of_one_le_right (by norm_num) (one_le_pow₀ (by norm_num))
      exact mul_le_mul_of_nonneg_left htwo (by positivity)
    have hwidth : (0 : ℚ) ≤ (2 ^ f.fractionWidth : ℕ) := by positivity
    have hcontra := mul_le_mul_of_nonneg_left hunit hwidth
    push_cast at hlow hhigh hcontra
    exact absurd (hlow.trans (hle.trans hhigh.le)) (by linarith)

/-- The nearest number of units of a ratio, as a quotient of natural numbers. -/
theorem isNearest_units (num : Nat) {den : Nat} (hden : 0 < den) (e : Int) :
    IsNearest (if 0 ≤ e then divNearest num (den * Nat.pow 2 e.toNat)
      else divNearest (num * Nat.pow 2 (-e).toNat) den) ((num : ℚ) / den / 2 ^ e) := by
  have hpower := zpow_eq_div 2 (by decide) e
  rw [Nat.cast_ofNat] at hpower
  rw [hpower]
  split <;> rename_i hsign
  · have hzero : (-e).toNat = 0 := by omega
    have h := isNearest_divNearest num (Nat.mul_pos hden (Nat.pow_pos (n := e.toNat) two_pos))
    rw [Nat.cast_mul, ← div_div] at h
    rw [hzero, show Nat.pow 2 0 = 1 from rfl, Nat.cast_one, div_one]
    exact h
  · have hzero : e.toNat = 0 := by omega
    have h := isNearest_divNearest (num * Nat.pow 2 (-e).toNat) hden
    rw [Nat.cast_mul, mul_div_right_comm] at h
    rw [hzero, show Nat.pow 2 0 = 1 from rfl, Nat.cast_one, one_div, div_inv_eq_mul]
    exact h

/-- **The word of a ratio** is that of its rounding, unless it is above all numbers. Beyond the
greatest number the word is that of infinity. -/
theorem exists_rounds (f : BinaryFormat) {num den : Nat} (hnum : 0 < num) (hden : 0 < den) :
    ∃ r e, f.Rounds ((num : ℚ) / den) r e ∧ f.encodeRatio num den = min (f.word r e) f.infinity := by
  obtain ⟨hlow, hhigh⟩ := ratioLog_spec hnum hden
  generalize hexponent : max f.leastExponent (ratioLog num den - f.fractionWidth) = e
  have hpos : (0 : ℚ) < 2 ^ e := by positivity
  generalize hunits : (if 0 ≤ e then divNearest num (den * Nat.pow 2 e.toNat)
    else divNearest (num * Nat.pow 2 (-e).toNat) den) = r
  have hnearest : IsNearest r ((num : ℚ) / den / 2 ^ e) := hunits ▸ isNearest_units num hden e
  -- Rounding stays within the significand from above by the leading bit, and from below where the
  -- exponent is not the least one.
  refine ⟨r, e, ⟨hexponent ▸ le_max_left _ _, hnearest, ?_, fun hlt => ?_⟩, ?_⟩
  · rw [div_lt_iff₀ hpos]
    refine hhigh.trans_le ?_
    push_cast
    rw [← pow_succ', ← zpow_natCast, ← zpow_add₀ two_ne_zero]
    exact zpow_le_zpow_right₀ (by norm_num) (by omega)
  · rw [le_div_iff₀ hpos]
    refine le_trans ?_ hlow
    push_cast
    rw [← zpow_natCast, ← zpow_add₀ two_ne_zero]
    exact zpow_le_zpow_right₀ (by norm_num) (by omega)
  · unfold encodeRatio word
    dsimp only
    rw [if_neg hnum.ne', hexponent, hunits]
    rfl

theorem encodeRatio_le_infinity (f : BinaryFormat) (num den : Nat) :
    f.encodeRatio num den ≤ f.infinity := by
  unfold encodeRatio
  split
  · exact Nat.zero_le _
  · exact min_le_right _ _

/-- **A greater ratio has no smaller word.** The ratios need not be in lowest terms. -/
theorem encodeRatio_mono {num num' den den' : Nat} (hden : 0 < den) (hden' : 0 < den')
    (h : (num : ℚ) / den ≤ num' / den') : f.encodeRatio num den ≤ f.encodeRatio num' den' := by
  rcases Nat.eq_zero_or_pos num with rfl | hnum
  · rw [encodeRatio, if_pos rfl]
    exact Nat.zero_le _
  have hcast : (0 : ℚ) < num / den := div_pos (Nat.cast_pos.2 hnum) (Nat.cast_pos.2 hden)
  have hnum' : 0 < num' := by
    have hpos := mul_pos (hcast.trans_le h) (Nat.cast_pos.2 hden' : (0 : ℚ) < den')
    rw [div_mul_cancel₀ _ (Nat.cast_pos.2 hden').ne'] at hpos
    exact Nat.cast_pos.1 hpos
  obtain ⟨r, e, hrounds, hword⟩ := f.exists_rounds hnum hden
  obtain ⟨r', e', hrounds', hword'⟩ := f.exists_rounds hnum' hden'
  rw [hword, hword']
  exact min_le_min_right _ (hrounds.mono hrounds' h)

/-! ## Products

The product of two floats is the rounding of the exact product, and the exact product is
monotone. So is the word. -/

/-- **The numbers of greater words are greater.** The words are ordered like exponents first, and
like significands where these agree. -/
theorem number_le_of_word_le {m m' : Nat} (h : m = 0 ∧ e = f.leastExponent ∨ f.IsNumber m e)
    (h' : m' = 0 ∧ e' = f.leastExponent ∨ f.IsNumber m' e') (hle : f.word m e ≤ f.word m' e') :
    (m : ℚ) * 2 ^ e ≤ m' * 2 ^ e' := by
  rcases h with ⟨rfl, rfl⟩ | h
  · rw [Nat.cast_zero, zero_mul]
    positivity
  rcases h' with ⟨rfl, rfl⟩ | h'
  · have hzero : f.word 0 f.leastExponent = 0 := by simp [word]
    have hpos : 0 < f.word m e := Nat.add_pos_right _ h.pos
    omega
  have hless : ∀ {m m' : Nat} {e e' : Int}, f.IsNumber m e → f.IsNumber m' e' →
      (e < e' ∨ e = e' ∧ m < m') → (m : ℚ) * 2 ^ e ≤ m' * 2 ^ e' := by
    intro m m' e e' h h' hlt
    have hends := (high_le_low h h' hlt).1
    have hgap : (0 : ℚ) ≤ f.gapBelow m' e' := by
      unfold gapBelow
      split <;> norm_num
    calc (m : ℚ) * 2 ^ e ≤ (m + 1 / 2) * 2 ^ e :=
          mul_le_mul_of_nonneg_right (by linarith) (by positivity)
      _ ≤ (m' - f.gapBelow m' e') * 2 ^ e' := hends
      _ ≤ m' * 2 ^ e' := mul_le_mul_of_nonneg_right (by linarith) (by positivity)
  rcases lt_trichotomy e e' with hlt | rfl | hgt
  · exact hless h h' (.inl hlt)
  · exact mul_le_mul_of_nonneg_right (by exact_mod_cast Nat.le_of_add_le_add_left hle) (by positivity)
  · -- The words of the greater unit are greater, and only where they meet they are equal.
    exfalso
    have hleast := h'.least_le
    have hwords := word_le_word hleast hgt h'.lt.le (h.full (hleast.trans_lt hgt))
    have hnext := word_le_word (r := m' + 1) hleast hgt h'.lt (h.full (hleast.trans_lt hgt))
    unfold word at *
    omega

/-- The word nearest to a number that is given by its units. -/
theorem encodeScaled_mono {m m' : Nat} (h : (m : ℚ) * 2 ^ e ≤ m' * 2 ^ e') :
    f.encodeScaled m e ≤ f.encodeScaled m' e' := by
  -- A scaled number is the ratio of two natural ones, and the word of a ratio is monotone.
  have hscaled : ∀ (m : Nat) (e : Int), ∃ num den : Nat, 0 < den
      ∧ f.encodeScaled m e = f.encodeRatio num den ∧ (num : ℚ) / den = m * 2 ^ e := by
    intro m e
    have hpower := zpow_eq_div 2 (by decide) e
    rw [Nat.cast_ofNat] at hpower
    rw [hpower]
    unfold encodeScaled
    split <;> rename_i hsign
    · have hzero : (-e).toNat = 0 := by omega
      refine ⟨_, 1, Nat.one_pos, rfl, ?_⟩
      rw [hzero, show Nat.pow 2 0 = 1 from rfl, Nat.cast_one, div_one, div_one, Nat.cast_mul]
    · have hzero : e.toNat = 0 := by omega
      refine ⟨_, _, Nat.pow_pos two_pos, rfl, ?_⟩
      rw [hzero, show Nat.pow 2 0 = 1 from rfl, Nat.cast_one, mul_one_div]
      rfl
  obtain ⟨num, den, hden, hword, hratio⟩ := hscaled m e
  obtain ⟨num', den', hden', hword', hratio'⟩ := hscaled m' e'
  rw [hword, hword']
  exact encodeRatio_mono hden hden' (by rw [hratio, hratio']; exact h)

theorem infinity_lt_signBit (f : BinaryFormat) : f.infinity < f.signBit := by
  unfold infinity signBit
  simp only [Nat.pow_eq, pow_add]
  have hwidth : 0 < 2 ^ f.exponentWidth := by positivity
  exact Nat.mul_lt_mul_of_pos_right (by omega) (by positivity)

/-- A word below the infinities has no sign, and counts the numbers below its own. -/
theorem exists_decode_of_lt {a : Nat} (h : a < f.infinity) :
    ∃ m e, f.decode a = .finite false m e ∧ a = f.word m e
      ∧ (m = 0 ∧ e = f.leastExponent ∨ f.IsNumber m e) := by
  have hsign := h.trans f.infinity_lt_signBit
  have hmagnitude : f.magnitude a = a := Nat.mod_eq_of_lt hsign
  have hpositive : f.isNegative a = false := by
    rw [isNegative, Nat.div_eq_of_lt hsign]
    rfl
  obtain ⟨negative, m, e, hdecode⟩ := exists_decode_finite (f := f) (a := a) (hmagnitude.symm ▸ h)
  obtain ⟨hword, hnegative, hnumber⟩ := of_decode_finite hdecode
  rw [← hnegative, hpositive] at hdecode
  exact ⟨m, e, hdecode, hmagnitude.symm.trans hword, hnumber⟩

theorem encodeScaled_le_infinity (f : BinaryFormat) (m : Nat) (e : Int) :
    f.encodeScaled m e ≤ f.infinity := by
  unfold encodeScaled
  split <;> exact f.encodeRatio_le_infinity _ _

/-- The product of numbers without a sign. -/
theorem mul_of_decode {a b m t : Nat} {g : Int} (ha : a < f.infinity) (hb : b < f.infinity)
    (hdecode : f.decode a = .finite false m e) (hfactor : f.decode b = .finite false t g) :
    f.mul a b = f.encodeScaled (m * t) (e + g) := by
  have hnan : ∀ a, a < f.infinity → f.isNaN a = false := fun a ha =>
    decide_eq_false (Nat.not_lt.2 ((Nat.mod_le _ _).trans ha.le))
  simp only [mul, unlessNaN, hnan _ ha, hnan _ hb, hdecode, hfactor, withSign]
  rfl

/-- **A product of greater numbers is no less**, and every product is at most infinite. Magnitudes
are multiplied here, the signs having been taken off. -/
theorem mul_mono {a a' b b' : Nat} (ha' : a' < f.infinity) (hb' : b' < f.infinity) (ha : a ≤ a')
    (hb : b ≤ b') : f.mul a b ≤ f.mul a' b' ∧ f.mul a' b' ≤ f.infinity := by
  obtain ⟨m, e, hdecode, hword, hnumber⟩ := exists_decode_of_lt (ha.trans_lt ha')
  obtain ⟨m', e', hdecode', hword', hnumber'⟩ := exists_decode_of_lt ha'
  obtain ⟨t, g, hfactor, hwordFactor, hnumberFactor⟩ := exists_decode_of_lt (hb.trans_lt hb')
  obtain ⟨t', g', hfactor', hwordFactor', hnumberFactor'⟩ := exists_decode_of_lt hb'
  rw [mul_of_decode (ha.trans_lt ha') (hb.trans_lt hb') hdecode hfactor,
    mul_of_decode ha' hb' hdecode' hfactor']
  refine ⟨encodeScaled_mono ?_, f.encodeScaled_le_infinity _ _⟩
  have hless := number_le_of_word_le hnumber hnumber' (hword ▸ hword' ▸ ha)
  have hlessFactor :=
    number_le_of_word_le hnumberFactor hnumberFactor' (hwordFactor ▸ hwordFactor' ▸ hb)
  have hproduct := mul_le_mul hless hlessFactor (by positivity) (by positivity)
  rw [zpow_add₀ two_ne_zero, zpow_add₀ two_ne_zero]
  push_cast
  linarith

end BinaryFormat

namespace Double

open BinaryFormat

/-- The word that a float is made of. -/
theorem toNat_ofNat_of_le {word : Nat} (h : word ≤ double.infinity) : (ofNat word).toNat = word := by
  have hsize : double.infinity < UInt64.size := by decide +kernel
  rw [toNat_ofNat, Nat.mod_eq_of_lt (h.trans_lt hsize)]

/-- The word of a float that is no greater than infinity tells whether it is a number. -/
theorem isFinite_ofNat_iff {word : Nat} (h : word ≤ double.infinity) :
    (ofNat word).isFinite = true ↔ word < double.infinity := by
  have hmagnitude : double.magnitude word = word :=
    Nat.mod_eq_of_lt (h.trans_lt double.infinity_lt_signBit)
  rw [isFinite, toNat_ofNat_of_le h, hmagnitude, decide_eq_true_eq]

/-- **A product of numbers is a number** if that of greater ones is. Only positive floats are
meant, whose words are their magnitudes. -/
theorem isFinite_mul_of_le {x x' y y' : Double} (hx' : x'.toNat < double.infinity)
    (hy' : y'.toNat < double.infinity) (hx : x.toNat ≤ x'.toNat) (hy : y.toNat ≤ y'.toNat)
    (h : (x' * y').isFinite = true) : (x * y).isFinite = true := by
  obtain ⟨hmono, hbound⟩ := mul_mono hx' hy' hx hy
  have hlt := (isFinite_ofNat_iff hbound).1 h
  exact (isFinite_ofNat_iff (hmono.trans hbound)).2 (hmono.trans_lt hlt)

/-- The float of a natural number is the one nearest to it. -/
theorem toNat_ofInt (s : Nat) : (ofInt s).toNat = double.encodeRatio s 1 := by
  have hsign : double.ofInt s = double.encodeRatio s 1 := by
    rw [BinaryFormat.ofInt, decide_eq_false (Int.not_lt.2 (Int.natCast_nonneg s)), withSign,
      if_neg Bool.false_ne_true, Int.natAbs_natCast]
  rw [ofInt, hsign, toNat_ofNat_of_le (double.encodeRatio_le_infinity s 1)]

/-- **The floats of greater natural numbers** have greater words. Different integers may have the
same word, where they are rounded. -/
theorem toNat_ofInt_mono {s s' : Nat} (h : s ≤ s') : (ofInt s).toNat ≤ (ofInt s').toNat := by
  rw [toNat_ofInt, toNat_ofInt]
  refine encodeRatio_mono Nat.one_pos Nat.one_pos ?_
  rw [Nat.cast_one, div_one, div_one]
  exact_mod_cast h

/-- **A product of natural numbers is a number** as a float if that of greater ones is. One
product that is computed thus serves for all smaller ones. -/
theorem isFinite_ofInt_mul_of_le {s s' t t' : Nat} (hs : s ≤ s') (ht : t ≤ t')
    (hs' : (ofInt s').toNat < double.infinity) (ht' : (ofInt t').toNat < double.infinity)
    (h : (ofInt s' * ofInt t').isFinite = true) : (ofInt s * ofInt t).isFinite = true :=
  isFinite_mul_of_le hs' ht' (toNat_ofInt_mono hs) (toNat_ofInt_mono ht) h

end Double

end Meshwork
