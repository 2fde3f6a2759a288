import Mathlib.Tactic.Ring
import Meshwork.Number.Binary

/-!
# What words stand for

A word that stands for a number stands for it in normal form
(`BinaryFormat.IsNumber`): the leading bit is set unless the exponent is the least
one. So each number has one significand and one exponent, and no two words stand for
the same, the NaNs apart (`BinaryFormat.eq_of_decode_eq`).

Everything is stated of a format with any widths, and of words as natural numbers, so that
floats of 32 and of 64 bits are two instances. A word falls into its sign and its
magnitude; the magnitude into a field that shifts the number and a fraction that fills it
up.
-/

namespace Meshwork.BinaryFormat

variable {f : BinaryFormat} {a b significand : Nat} {exponent : Int} {negative : Bool}

/-- **A positive number in normal form.** Each positive number of the format has one such form,
and the numbers below the normal ones have the least exponent. -/
structure IsNumber (f : BinaryFormat) (significand : Nat) (exponent : Int) : Prop where
  /-- It is positive. -/
  pos : 0 < significand
  /-- The significand is not too long. -/
  lt : significand < 2 * 2 ^ f.fractionWidth
  /-- The exponent is not too small. -/
  least_le : f.leastExponent ≤ exponent
  /-- Above the least exponent, the leading bit is set. -/
  full : f.leastExponent < exponent → 2 ^ f.fractionWidth ≤ significand

theorem signBit_pos (f : BinaryFormat) : 0 < f.signBit := Nat.pow_pos (by decide)

/-- A word is made up of its sign and its magnitude. -/
theorem eq_of_isNegative_eq (ha : a < 2 * f.signBit) (hb : b < 2 * f.signBit)
    (hsign : f.isNegative a = f.isNegative b) (hmagnitude : f.magnitude a = f.magnitude b) :
    a = b := by
  have ha' : a / f.signBit < 2 := (Nat.div_lt_iff_lt_mul f.signBit_pos).2 ha
  have hb' : b / f.signBit < 2 := (Nat.div_lt_iff_lt_mul f.signBit_pos).2 hb
  have hquotient : a / f.signBit = b / f.signBit := by
    rw [isNegative, isNegative, Bool.eq_iff_iff, beq_iff_eq, beq_iff_eq] at hsign
    generalize a / f.signBit = x at *
    generalize b / f.signBit = y at *
    omega
  rw [← Nat.div_add_mod a f.signBit, ← Nat.div_add_mod b f.signBit, hquotient]
  exact congrArg _ hmagnitude

/-- The word of an infinity. -/
theorem of_decode_infinite (h : f.decode a = .infinite negative) :
    f.magnitude a = f.infinity ∧ f.isNegative a = negative := by
  unfold decode at h
  dsimp only at h
  split at h <;> rename_i hinfinity
  · exact ⟨hinfinity, Decoded.infinite.inj h⟩
  split at h
  · cases h
  split at h <;> cases h

/-- The word of a NaN. -/
theorem of_decode_nan (h : f.decode a = .nan) : f.isNaN a = true := by
  unfold decode at h
  dsimp only at h
  split at h
  · cases h
  split at h <;> rename_i hnan
  · exact decide_eq_true hnan
  split at h <;> cases h

/-- A word below the infinities stands for a number. -/
theorem exists_decode_finite (h : f.magnitude a < f.infinity) :
    ∃ negative significand exponent, f.decode a = .finite negative significand exponent := by
  unfold decode
  dsimp only
  rw [if_neg (Nat.ne_of_lt h), if_neg (Nat.lt_asymm h)]
  split <;> exact ⟨_, _, _, rfl⟩

/-- **The word of a number**: its magnitude counts the numbers below, a power of two many for each
exponent. This is why words of positive numbers are ordered like the numbers. -/
theorem of_decode_finite (h : f.decode a = .finite negative significand exponent) :
    f.magnitude a = (exponent - f.leastExponent).toNat * 2 ^ f.fractionWidth + significand
      ∧ f.isNegative a = negative
      ∧ (significand = 0 ∧ exponent = f.leastExponent ∨ f.IsNumber significand exponent) := by
  have hparts := Nat.div_add_mod (f.magnitude a) (2 ^ f.fractionWidth)
  have hfraction := Nat.mod_lt (f.magnitude a) (Nat.pow_pos (n := f.fractionWidth) Nat.two_pos)
  unfold decode at h
  dsimp only at h
  split at h
  · cases h
  split at h
  · cases h
  rw [Nat.pow_eq] at h
  generalize f.magnitude a / 2 ^ f.fractionWidth = field at h hparts
  generalize f.magnitude a % 2 ^ f.fractionWidth = fraction at h hparts hfraction
  -- A zero field is a subnormal number, which has no hidden bit and the least exponent; any other
  -- field counts exponents from there.
  split at h <;> rename_i hfield <;> obtain ⟨rfl, rfl, rfl⟩ := Decoded.finite.inj h
  · refine ⟨?_, rfl, ?_⟩
    · rw [← hparts, hfield]
      simp
    · rcases Nat.eq_zero_or_pos fraction with hzero | hpos
      · exact .inl ⟨hzero, rfl⟩
      · exact .inr ⟨hpos, by omega, le_refl _, fun hlt => absurd hlt (lt_irrefl _)⟩
  · refine ⟨?_, rfl, .inr ⟨by omega, by omega, by omega, fun _ => Nat.le_add_right _ _⟩⟩
    obtain ⟨field, rfl⟩ := Nat.exists_eq_succ_of_ne_zero hfield
    rw [← hparts, add_sub_cancel_left, Int.toNat_natCast, Nat.succ_eq_add_one, Nat.add_sub_cancel]
    ring

/-- **Words that stand for the same** are the same, or both are NaNs. NaNs are the only words that
are decoded to one and the same thing. -/
theorem eq_of_decode_eq (ha : a < 2 * f.signBit) (hb : b < 2 * f.signBit)
    (h : f.decode a = f.decode b) : a = b ∨ f.isNaN a = true ∧ f.isNaN b = true := by
  cases hdecoded : f.decode b with
  | nan => exact .inr ⟨of_decode_nan (h.trans hdecoded), of_decode_nan hdecoded⟩
  | infinite negative =>
    obtain ⟨hainfinity, hasign⟩ := of_decode_infinite (h.trans hdecoded)
    obtain ⟨hbinfinity, hbsign⟩ := of_decode_infinite hdecoded
    exact .inl (eq_of_isNegative_eq ha hb (hasign.trans hbsign.symm)
      (hainfinity.trans hbinfinity.symm))
  | finite negative significand exponent =>
    obtain ⟨hamagnitude, hasign, -⟩ := of_decode_finite (h.trans hdecoded)
    obtain ⟨hbmagnitude, hbsign, -⟩ := of_decode_finite hdecoded
    exact .inl (eq_of_isNegative_eq ha hb (hasign.trans hbsign.symm)
      (hamagnitude.trans hbmagnitude.symm))

/-- **A number between numbers** is below the infinities. A NaN lies above or below all of them in
this order, so it is excluded as well. -/
theorem magnitude_lt_of_orderKey_le {low high : Nat} (hlow : f.magnitude low < f.infinity)
    (hhigh : f.magnitude high < f.infinity) (h : f.orderKey low ≤ f.orderKey a)
    (h' : f.orderKey a ≤ f.orderKey high) : f.magnitude a < f.infinity := by
  unfold orderKey at h h'
  split at h <;> split at h' <;> split at h <;> omega

end Meshwork.BinaryFormat
