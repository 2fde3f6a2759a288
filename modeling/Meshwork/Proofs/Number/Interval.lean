import Meshwork.Proofs.Number.Binary
import Meshwork.Proofs.Number.Digits

/-!
# Rounding intervals do not meet

A number rounds to one float. So no number lies in the rounding intervals of two
floats (`BinaryFormat.eq_of_holds`). Two neighbours share an end of their intervals,
but it belongs to the even one of them only.

The ends of an interval lie half-way to the neighbours. Below a power of two the neighbour
is nearer, so the interval is narrower on that side; `gapBelow` is how far it reaches
there. All ends are compared over a common denominator, a quarter of the last bit.
-/

namespace Meshwork

namespace RoundingInterval

/-- **The numbers that an interval holds.** The ends belong to it for an even significand, as a
tie goes there. -/
def Holds (i : RoundingInterval) (q : ℚ) : Prop :=
  if i.closed then (i.low : ℚ) / i.den ≤ q ∧ q ≤ (i.high : ℚ) / i.den
  else (i.low : ℚ) / i.den < q ∧ q < (i.high : ℚ) / i.den

theorem contains_iff {i : RoundingInterval} (hden : 0 < i.den) {num d : Nat} (hd : 0 < d) :
    i.contains num d = true ↔ i.Holds ((num : ℚ) / d) := by
  have hden' : (0 : ℚ) < i.den := Nat.cast_pos.2 hden
  have hd' : (0 : ℚ) < d := Nat.cast_pos.2 hd
  unfold contains Holds
  dsimp only
  rw [div_le_div_iff₀ hden' hd', div_le_div_iff₀ hd' hden', div_lt_div_iff₀ hden' hd',
    div_lt_div_iff₀ hd' hden']
  split <;> rw [Bool.and_eq_true, decide_eq_true_eq, decide_eq_true_eq] <;> norm_cast

/-- A number strictly between the ends is held. -/
theorem holds_of_lt {i : RoundingInterval} {q : ℚ} (hlow : (i.low : ℚ) / i.den < q)
    (hhigh : q < (i.high : ℚ) / i.den) : i.Holds q := by
  unfold Holds
  split
  · exact ⟨hlow.le, hhigh.le⟩
  · exact ⟨hlow, hhigh⟩

end RoundingInterval

namespace BinaryFormat

variable {f : BinaryFormat} {m m' : Nat} {e e' : Int}

/-- How far the interval reaches down, in units of the last bit. -/
def gapBelow (f : BinaryFormat) (m : Nat) (e : Int) : ℚ :=
  if m = 2 ^ f.fractionWidth ∧ f.leastExponent < e then 1 / 4 else 1 / 2

theorem den_pos (f : BinaryFormat) (m : Nat) (e : Int) : 0 < (f.roundingInterval m e).den :=
  Nat.mul_pos (by decide) (Nat.pow_pos (by decide))

/-- Over the common denominator stand quarters of the last bit. -/
theorem quarters_div_den (quarters : ℕ) (f : BinaryFormat) (m : Nat) (e : Int) :
    ((quarters * Nat.pow 2 e.toNat : ℕ) : ℚ) / (f.roundingInterval m e).den
      = quarters / 4 * 2 ^ e := by
  have hpower := zpow_eq_div 2 (by decide) e
  have hden : (f.roundingInterval m e).den = 4 * Nat.pow 2 (-e).toNat := rfl
  rw [Nat.cast_ofNat] at hpower
  rw [hpower, hden, Nat.cast_mul, Nat.cast_mul, Nat.cast_ofNat, mul_div_mul_comm]

theorem mid_div_den (f : BinaryFormat) (m : Nat) (e : Int) :
    ((f.roundingInterval m e).mid : ℚ) / (f.roundingInterval m e).den = m * 2 ^ e := by
  refine (quarters_div_den (4 * m) f m e).trans ?_
  push_cast
  ring

theorem high_div_den (f : BinaryFormat) (m : Nat) (e : Int) :
    ((f.roundingInterval m e).high : ℚ) / (f.roundingInterval m e).den = (m + 1 / 2) * 2 ^ e := by
  refine (quarters_div_den (4 * m + 2) f m e).trans ?_
  push_cast
  ring

theorem low_div_den (f : BinaryFormat) (hm : 0 < m) (e : Int) :
    ((f.roundingInterval m e).low : ℚ) / (f.roundingInterval m e).den
      = (m - f.gapBelow m e) * 2 ^ e := by
  refine (quarters_div_den _ f m e).trans ?_
  rw [Nat.cast_sub (by split <;> omega), gapBelow]
  simp only [Nat.pow_eq]
  split <;> push_cast <;> ring

/-- What the interval of a number holds lies between its ends, and strictly if the
significand is odd. -/
theorem of_holds (hm : 0 < m) {q : ℚ} (h : (f.roundingInterval m e).Holds q) :
    (m - f.gapBelow m e) * 2 ^ e ≤ q ∧ q ≤ (m + 1 / 2) * 2 ^ e
      ∧ (m % 2 = 1 → (m - f.gapBelow m e) * 2 ^ e < q ∧ q < (m + 1 / 2) * 2 ^ e) := by
  rw [← low_div_den f hm e, ← high_div_den]
  unfold RoundingInterval.Holds at h
  split at h <;> rename_i hclosed
  · refine ⟨h.1, h.2, fun hodd => ?_⟩
    have heven : m % 2 = 0 := by simpa [roundingInterval] using hclosed
    omega
  · exact ⟨h.1.le, h.2.le, fun _ => h⟩

/-- **The interval of the smaller of two numbers ends** before that of the greater one
begins, or where it begins if one of the two is odd. -/
theorem high_le_low (h : f.IsNumber m e) (h' : f.IsNumber m' e') (hlt : e < e' ∨ e = e' ∧ m < m') :
    (m + 1 / 2 : ℚ) * 2 ^ e ≤ (m' - f.gapBelow m' e') * 2 ^ e'
      ∧ (m % 2 = 0 → m' % 2 = 0 →
        (m + 1 / 2 : ℚ) * 2 ^ e < (m' - f.gapBelow m' e') * 2 ^ e') := by
  rcases hlt with hlt | ⟨rfl, hlt⟩
  · -- The exponents differ, so that the greater number has its leading bit.
    obtain ⟨k, rfl⟩ : ∃ k : ℕ, e' = e + (k + 1 : ℕ) := ⟨(e' - e - 1).toNat, by omega⟩
    have hleast := h.least_le
    have hfull := h'.full (by omega)
    have hscale : (2 : ℚ) ^ (e + (k + 1 : ℕ)) = 2 ^ (k + 1) * 2 ^ e := by
      rw [zpow_add₀ two_ne_zero, zpow_natCast, mul_comm]
    have htwo : (2 : ℚ) ≤ 2 ^ (k + 1) := by
      rw [pow_succ]
      have hone : (1 : ℚ) ≤ 2 ^ k := one_le_pow₀ (by norm_num)
      linarith
    have hpos : (0 : ℚ) < 2 ^ e := by positivity
    -- In units of the last bit of the smaller number, the greater one is at least `2 * low`.
    have hbound : ∀ low : ℚ, 0 ≤ low → low ≤ m' - f.gapBelow m' (e + (k + 1 : ℕ)) →
        2 * low * 2 ^ e ≤ (m' - f.gapBelow m' (e + (k + 1 : ℕ))) * 2 ^ (e + (k + 1 : ℕ)) := by
      intro low hnonneg hlow
      rw [hscale, ← mul_assoc]
      refine mul_le_mul_of_nonneg_right ?_ hpos.le
      calc 2 * low ≤ 2 ^ (k + 1) * low := mul_le_mul_of_nonneg_right htwo hnonneg
        _ = low * 2 ^ (k + 1) := mul_comm _ _
        _ ≤ _ := mul_le_mul_of_nonneg_right hlow (by positivity)
    have hsize := h.lt
    have hunit : (1 : ℚ) ≤ (2 ^ f.fractionWidth : ℕ) := by
      exact_mod_cast Nat.one_le_two_pow
    by_cases hnarrow : m' = 2 ^ f.fractionWidth
    · have hgap : f.gapBelow m' (e + (k + 1 : ℕ)) = 1 / 4 := if_pos ⟨hnarrow, by omega⟩
      have hle := hbound ((2 ^ f.fractionWidth : ℕ) - 1 / 4) (by linarith) (by rw [hgap, hnarrow])
      refine ⟨le_trans (mul_le_mul_of_nonneg_right ?_ hpos.le) hle, fun heven heven' =>
        lt_of_lt_of_le (mul_lt_mul_of_pos_right ?_ hpos) hle⟩
      · have hcast : (m : ℚ) + 1 ≤ 2 * (2 ^ f.fractionWidth : ℕ) := by exact_mod_cast hsize
        linarith
      · have hcast : (m : ℚ) + 2 ≤ 2 * (2 ^ f.fractionWidth : ℕ) := by
          have htwice : m + 2 ≤ 2 * 2 ^ f.fractionWidth := by omega
          exact_mod_cast htwice
        linarith
    · have hgap : f.gapBelow m' (e + (k + 1 : ℕ)) = 1 / 2 := if_neg fun hboth => hnarrow hboth.1
      have hlow : ((2 ^ f.fractionWidth : ℕ) : ℚ) + 1 ≤ m' := by
        have hstep : 2 ^ f.fractionWidth + 1 ≤ m' := by omega
        exact_mod_cast hstep
      have hle := hbound ((2 ^ f.fractionWidth : ℕ) + 1 / 2) (by linarith) (by rw [hgap]; linarith)
      have hcast : (m : ℚ) < 2 * (2 ^ f.fractionWidth : ℕ) := by exact_mod_cast hsize
      have hstrict : (m + 1 / 2 : ℚ) * 2 ^ e
          < (m' - f.gapBelow m' (e + (k + 1 : ℕ))) * 2 ^ (e + (k + 1 : ℕ)) :=
        lt_of_lt_of_le (mul_lt_mul_of_pos_right (by linarith) hpos) hle
      exact ⟨hstrict.le, fun _ _ => hstrict⟩
  · -- The exponents agree, so that the greater number is no power of two above the least exponent.
    have hpos : (0 : ℚ) < 2 ^ e := by positivity
    have hgap : f.gapBelow m' e = 1 / 2 := by
      refine if_neg fun ⟨hpower, hleast⟩ => ?_
      have hfull := h.full hleast
      omega
    rw [hgap]
    refine ⟨mul_le_mul_of_nonneg_right ?_ hpos.le, fun heven heven' =>
      mul_lt_mul_of_pos_right ?_ hpos⟩
    · have hcast : (m : ℚ) + 1 ≤ m' := by exact_mod_cast hlt
      linarith
    · have hcast : (m : ℚ) + 2 ≤ m' := by
        have hstep : m + 2 ≤ m' := by omega
        exact_mod_cast hstep
      linarith

/-- No number lies in the interval of a number and in that of a greater one. -/
theorem not_holds_of_lt (h : f.IsNumber m e) (h' : f.IsNumber m' e')
    (hlt : e < e' ∨ e = e' ∧ m < m') {q : ℚ} (hq : (f.roundingInterval m e).Holds q) :
    ¬ (f.roundingInterval m' e').Holds q := by
  intro hq'
  obtain ⟨hle, heven⟩ := high_le_low h h' hlt
  obtain ⟨-, hhigh, hodd⟩ := of_holds h.pos hq
  obtain ⟨hlow, -, hodd'⟩ := of_holds h'.pos hq'
  rcases Nat.mod_two_eq_zero_or_one m with hm | hm
  · rcases Nat.mod_two_eq_zero_or_one m' with hm' | hm'
    · exact absurd (hhigh.trans_lt ((heven hm hm').trans_le hlow)) (lt_irrefl q)
    · exact absurd (hhigh.trans_lt (hle.trans_lt (hodd' hm').1)) (lt_irrefl q)
  · exact absurd ((hodd hm).2.trans_le (hle.trans hlow)) (lt_irrefl q)

/-- **A number rounds to one float.** Intervals of neighbours have an end in common, which belongs
to at most one of them. -/
theorem eq_of_holds (h : f.IsNumber m e) (h' : f.IsNumber m' e') {q : ℚ}
    (hq : (f.roundingInterval m e).Holds q) (hq' : (f.roundingInterval m' e').Holds q) :
    m = m' ∧ e = e' := by
  rcases lt_trichotomy e e' with hlt | heq | hgt
  · exact absurd hq' (not_holds_of_lt h h' (.inl hlt) hq)
  · rcases lt_trichotomy m m' with hlt | hm | hgt
    · exact absurd hq' (not_holds_of_lt h h' (.inr ⟨heq, hlt⟩) hq)
    · exact ⟨hm, heq⟩
    · exact absurd hq (not_holds_of_lt h' h (.inr ⟨heq.symm, hgt⟩) hq')
  · exact absurd hq (not_holds_of_lt h' h (.inl hgt) hq')

end BinaryFormat

end Meshwork
