import Mathlib.Algebra.Order.Field.Power
import Mathlib.Algebra.Order.Field.Rat
import Mathlib.Tactic.FieldSimp
import Mathlib.Tactic.Linarith
import Mathlib.Tactic.Positivity
import Mathlib.Tactic.Ring
import Meshwork.Number.Layout

/-!
# Decimal digits as rational numbers

Digits with a point stand for a rational number, `Digits.ratio`. Trimming zeros at
their end does not change it (`Digits.ratio_trim`), and `decimalPoint` finds where
the digits of a number begin (`decimalPoint_spec`).

The definitions compute with natural numbers only, and write a power with an integer
exponent as the quotient of two natural ones (`zpow_eq_div`).
-/

namespace Meshwork

/-! ## Powers with integer exponents

In the rationals a power may have a negative exponent. Where a definition chooses between
multiplying one side and multiplying the other, the proof has one power and no choice. -/

/-- A power as a quotient of natural numbers. One of the two is one. -/
theorem zpow_eq_div (base : Nat) (hbase : base ≠ 0) (n : Int) :
    (base : ℚ) ^ n = (Nat.pow base n.toNat : ℕ) / (Nat.pow base (-n).toNat : ℕ) := by
  have hcast : (base : ℚ) ≠ 0 := Nat.cast_ne_zero.2 hbase
  have hexponent : n = n.toNat - (-n).toNat := by omega
  rw [Nat.pow_eq, Nat.pow_eq, Nat.cast_pow, Nat.cast_pow, ← zpow_natCast, ← zpow_natCast,
    ← zpow_sub₀ hcast, ← hexponent]

/-- The number that a decimal is. -/
def Decimal.ratio (d : Decimal) : ℚ := d.significand * 10 ^ d.exponent

/-- A number of `count + 1` digits. -/
theorem length_toDigits {n count : Nat} (hlow : 10 ^ count ≤ n) (hhigh : n < 10 ^ (count + 1)) :
    (Nat.toDigits 10 n).length = count + 1 := by
  refine Nat.le_antisymm ((Nat.length_toDigits_le_iff (by decide) (Nat.succ_pos _)).2 hhigh) ?_
  by_contra hlt
  cases count with
  | zero => exact hlt Nat.length_toDigits_pos
  | succ count =>
    have hle : (Nat.toDigits 10 n).length ≤ count + 1 := by omega
    exact absurd ((Nat.length_toDigits_le_iff (by decide) (Nat.succ_pos _)).1 hle)
      (Nat.not_lt.2 hlow)

/-- A positive number lies between the powers of ten that its digits count. -/
theorem zpow_digitCount {n : Nat} (h : 0 < n) :
    (10 : ℚ) ^ ((Decimal.digitCount n : Int) - 1) ≤ n
      ∧ (n : ℚ) < 10 ^ (Decimal.digitCount n : Int) := by
  have hcount : Decimal.digitCount n = (Nat.toDigits 10 n).length := if_neg (Nat.ne_of_gt h)
  -- The count is at least one, so the lower power is one of a natural number.
  obtain ⟨k, hk⟩ : ∃ k, (Nat.toDigits 10 n).length = k + 1 :=
    ⟨_, (Nat.sub_add_cancel Nat.length_toDigits_pos).symm⟩
  have hhigh : n < 10 ^ (k + 1) :=
    (Nat.length_toDigits_le_iff (by decide) (Nat.succ_pos _)).1 (Nat.le_of_eq hk)
  have hlow : 10 ^ k ≤ n := by
    by_contra hlt
    cases k with
    | zero => exact hlt h
    | succ k =>
      have hle := (Nat.length_toDigits_le_iff (b := 10) (by decide) (Nat.succ_pos k)).2
        (Nat.not_le.1 hlt)
      omega
  rw [hcount, hk, Nat.cast_add, Nat.cast_one, add_sub_cancel_right, zpow_natCast,
    ← Nat.cast_succ, zpow_natCast]
  exact ⟨by exact_mod_cast hlow, by exact_mod_cast hhigh⟩

/-- **Where the digits begin**: the number lies between two powers of ten. The bounds determine
the point, though it is found by an estimate that is corrected. -/
theorem decimalPoint_spec {num den : Nat} (hnum : 0 < num) (hden : 0 < den) :
    (10 : ℚ) ^ (decimalPoint num den - 1) ≤ (num : ℚ) / den
      ∧ (num : ℚ) / den < 10 ^ decimalPoint num den := by
  have hden' : (0 : ℚ) < den := Nat.cast_pos.2 hden
  obtain ⟨hnumLow, hnumHigh⟩ := zpow_digitCount hnum
  obtain ⟨hdenLow, hdenHigh⟩ := zpow_digitCount hden
  generalize hguess : (Decimal.digitCount num : Int) - Decimal.digitCount den = guess
  -- The comparison of natural numbers is one with a power of ten.
  have hbelow : (if 0 ≤ guess then num < den * Nat.pow 10 guess.toNat
      else num * Nat.pow 10 (-guess).toNat < den) ↔ (num : ℚ) / den < 10 ^ guess := by
    have hpower := zpow_eq_div 10 (by decide) guess
    rw [Nat.cast_ofNat] at hpower
    rw [hpower]
    split <;> rename_i hsign
    · have hzero : (-guess).toNat = 0 := by omega
      rw [hzero, div_lt_iff₀ hden']
      simp only [Nat.pow_eq, pow_zero, Nat.cast_one, div_one]
      rw [mul_comm]
      exact_mod_cast Iff.rfl
    · have hzero : guess.toNat = 0 := by omega
      have hpos : (0 : ℚ) < (Nat.pow 10 (-guess).toNat : ℕ) := by
        rw [Nat.pow_eq]
        positivity
      rw [hzero, div_lt_div_iff₀ hden' hpos]
      simp only [Nat.pow_eq, pow_zero, Nat.cast_one, one_mul]
      exact_mod_cast Iff.rfl
  have hpoint : decimalPoint num den
      = if (num : ℚ) / den < 10 ^ guess then guess else guess + 1 := by
    unfold decimalPoint
    rw [hguess]
    by_cases h : (num : ℚ) / den < 10 ^ guess
    · rw [if_pos h]
      exact if_pos (by simpa using hbelow.2 h)
    · rw [if_neg h]
      exact if_neg (by simpa using mt hbelow.1 h)
  rw [hpoint]
  split <;> rename_i h
  · refine ⟨?_, h⟩
    rw [le_div_iff₀ hden']
    calc (10 : ℚ) ^ (guess - 1) * den
        ≤ 10 ^ (guess - 1) * 10 ^ (Decimal.digitCount den : Int) :=
          mul_le_mul_of_nonneg_left hdenHigh.le (by positivity)
      _ = 10 ^ ((Decimal.digitCount num : Int) - 1) := by
          rw [← zpow_add₀ (by norm_num)]
          congr 1
          omega
      _ ≤ num := hnumLow
  · rw [add_sub_cancel_right]
    refine ⟨not_lt.1 h, ?_⟩
    rw [div_lt_iff₀ hden']
    calc (num : ℚ) < 10 ^ (Decimal.digitCount num : Int) := hnumHigh
      _ = 10 ^ (guess + 1) * 10 ^ ((Decimal.digitCount den : Int) - 1) := by
          rw [← zpow_add₀ (by norm_num)]
          congr 1
          omega
      _ ≤ 10 ^ (guess + 1) * den := mul_le_mul_of_nonneg_left hdenLow (by positivity)

namespace Digits

/-- **The number that digits stand for.** The point counts from their left. Digits with zeros
behind them stand for the same, if the point stays. -/
def ratio (d : Digits) : ℚ := d.value * 10 ^ (d.point - d.count)

theorem count_div (value : Nat) (h : 10 ≤ value) (point : Int) :
    count ⟨value, point⟩ = count ⟨value / 10, point⟩ + 1 := by
  unfold count chars
  rw [Nat.toDigits_of_base_le (by decide) h, List.length_append, List.length_singleton]

/-- **Zeros at the end do not count.** Every zero that goes makes the count smaller by one, and
the value ten times smaller. -/
theorem ratio_trim (d : Digits) (fuel : Nat) : (d.trim fuel).ratio = d.ratio := by
  induction fuel generalizing d with
  | zero => rfl
  | succ fuel ih =>
    rw [trim]
    split <;> rename_i h
    · obtain ⟨hne, hzero⟩ := h
      have hvalue : d.value = 10 * (d.value / 10) := by omega
      have hcount := count_div d.value (by omega) d.point
      rw [ih, ratio, ratio, show count d = _ from hcount]
      have hcast : (d.value : ℚ) = 10 * (d.value / 10 : ℕ) := by exact_mod_cast hvalue
      rw [hcast, Nat.cast_add, Nat.cast_one, ← sub_sub, zpow_sub_one₀ (by norm_num)]
      ring
    · rfl

theorem trim_ne_zero {d : Digits} (h : d.value ≠ 0) (fuel : Nat) : (d.trim fuel).value ≠ 0 := by
  induction fuel generalizing d with
  | zero => exact h
  | succ fuel ih =>
    rw [trim]
    split
    · exact ih (show d.value / 10 ≠ 0 by omega)
    · exact h

theorem trim_value_le (d : Digits) (fuel : Nat) : (d.trim fuel).value ≤ d.value := by
  induction fuel generalizing d with
  | zero => exact Nat.le_refl _
  | succ fuel ih =>
    rw [trim]
    split
    · exact (ih _).trans (Nat.div_le_self _ _)
    · exact Nat.le_refl _

end Digits

end Meshwork
