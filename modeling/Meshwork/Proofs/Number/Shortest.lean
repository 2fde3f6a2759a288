import Meshwork.Proofs.Number.Interval

/-!
# The shortest digits round to the float

The digits that are printed for a float stand for a number of its rounding interval
(`BinaryFormat.holds_shortest`). Every candidate does, since it is a point of the
grid that was found to lie there, and with seventeen digits there is one: a step of
the grid is then shorter than the interval on the wider side of the float.
-/

namespace Meshwork

namespace RoundingInterval

variable {i : RoundingInterval} {tie : TieRule} {point : Int} {count : Nat} {d : Digits}

/-! ## Points of the decimal grid

With so many digits behind so many places, decimals form a grid. The float lies between
two neighbours of it, and a candidate is one of these two. -/

/-- The number of the grid point below the float. -/
def gridFloor (i : RoundingInterval) (point : Int) (count : Nat) : Nat :=
  i.mid * 10 ^ (-(point - count)).toNat / (i.den * 10 ^ (point - count).toNat)

/-- Whether a grid point lies in the interval. -/
def gridFits (i : RoundingInterval) (point : Int) (count value : Nat) : Bool :=
  i.contains (value * 10 ^ (point - count).toNat) (10 ^ (-(point - count)).toNat)

theorem zpow_step (point : Int) (count : Nat) : (10 : ℚ) ^ (point - count)
    = (10 ^ (point - count).toNat : ℕ) / (10 ^ (-(point - count)).toNat : ℕ) :=
  zpow_eq_div 10 (by decide) (point - count)

theorem gridFits_iff (hden : 0 < i.den) {value : Nat} :
    i.gridFits point count value = true ↔ i.Holds (value * 10 ^ (point - count)) := by
  rw [gridFits, contains_iff hden (Nat.pow_pos (by decide)), zpow_step, Nat.cast_mul, mul_div_assoc]

/-- The float lies between two neighbours of the grid. -/
theorem gridFloor_spec (hden : 0 < i.den) (point : Int) (count : Nat) :
    (i.gridFloor point count : ℚ) * 10 ^ (point - count) ≤ (i.mid : ℚ) / i.den
      ∧ (i.mid : ℚ) / i.den < (i.gridFloor point count + 1 : ℚ) * 10 ^ (point - count) := by
  have hup : 0 < 10 ^ (point - count).toNat := Nat.pow_pos (by decide)
  have hden' : (0 : ℚ) < i.den := Nat.cast_pos.2 hden
  have hdown : (0 : ℚ) < (10 ^ (-(point - count)).toNat : ℕ) :=
    Nat.cast_pos.2 (Nat.pow_pos (by decide))
  have hlow := Nat.div_mul_le_self (i.mid * 10 ^ (-(point - count)).toNat)
    (i.den * 10 ^ (point - count).toNat)
  have hhigh := Nat.lt_mul_div_succ (i.mid * 10 ^ (-(point - count)).toNat) (Nat.mul_pos hden hup)
  rw [← gridFloor] at hlow hhigh
  -- The denominators are cleared, so the two bounds become those of a natural division.
  rw [zpow_step, ← mul_div_assoc, ← mul_div_assoc, div_le_div_iff₀ hdown hden',
    div_lt_div_iff₀ hden' hdown]
  constructor
  · have hcast : i.gridFloor point count * 10 ^ (point - count).toNat * i.den
        ≤ i.mid * 10 ^ (-(point - count)).toNat := by
      rw [mul_assoc, mul_comm _ i.den]
      exact hlow
    exact_mod_cast hcast
  · have hcast : i.mid * 10 ^ (-(point - count)).toNat
        < (i.gridFloor point count + 1) * 10 ^ (point - count).toNat * i.den := by
      rw [mul_assoc, mul_comm (i.gridFloor point count + 1), mul_comm _ i.den]
      exact hhigh
    exact_mod_cast hcast

/-- The grid point has as many digits as were asked for. -/
theorem gridFloor_bounds (hden : 0 < i.den) (hlow : (10 : ℚ) ^ (point - 1) ≤ (i.mid : ℚ) / i.den)
    (hhigh : (i.mid : ℚ) / i.den < 10 ^ point) (count : Nat) :
    10 ^ count ≤ i.gridFloor point (count + 1)
      ∧ i.gridFloor point (count + 1) < 10 ^ (count + 1) := by
  obtain ⟨hfloor, hnext⟩ := gridFloor_spec hden point (count + 1)
  have hstep : (0 : ℚ) < 10 ^ (point - (count + 1 : ℕ)) := by positivity
  have hbelow : (10 : ℚ) ^ (point - 1) = (10 ^ count : ℕ) * 10 ^ (point - (count + 1 : ℕ)) := by
    rw [Nat.cast_pow, Nat.cast_ofNat, ← zpow_natCast, ← zpow_add₀ (by norm_num)]
    congr 1
    omega
  have habove : (10 : ℚ) ^ point = (10 ^ (count + 1) : ℕ) * 10 ^ (point - (count + 1 : ℕ)) := by
    rw [Nat.cast_pow, Nat.cast_ofNat, ← zpow_natCast, ← zpow_add₀ (by norm_num)]
    congr 1
    omega
  constructor
  · have hlt := lt_of_mul_lt_mul_right ((hbelow ▸ hlow).trans_lt hnext) hstep.le
    exact Nat.lt_succ_iff.1 (by exact_mod_cast hlt)
  · have hlt := lt_of_mul_lt_mul_right (hfloor.trans_lt (habove ▸ hhigh)) hstep.le
    exact_mod_cast hlt

/-- The digits of a grid point stand for it, also if there is one digit more. -/
theorem ratio_gridPoint (point : Int) {value : Nat} (hlow : 10 ^ count ≤ value)
    (hhigh : value ≤ 10 ^ (count + 1)) :
    let d := if value = 10 ^ (count + 1) then ⟨1, point + 1⟩
      else Digits.trim ⟨value, point⟩ (count + 1)
    d.ratio = value * 10 ^ (point - (count + 1 : ℕ)) ∧ d.value ≠ 0 := by
  dsimp only
  split <;> rename_i hvalue
  · refine ⟨?_, Nat.one_ne_zero⟩
    have hcount : Digits.count ⟨1, point + 1⟩ = 1 :=
      show (Nat.toDigits 10 1).length = 0 + 1 from length_toDigits (by decide) (by decide)
    have hexponent : point + 1 - (1 : ℕ) = (count + 1 : ℕ) + (point - (count + 1 : ℕ)) := by omega
    rw [Digits.ratio, hcount, hvalue, hexponent, zpow_add₀ (by norm_num), zpow_natCast,
      Nat.cast_one, one_mul, Nat.cast_pow, Nat.cast_ofNat]
  · have hpos : 0 < 10 ^ count := Nat.pow_pos (by decide)
    refine ⟨?_, Digits.trim_ne_zero (show value ≠ 0 by omega) _⟩
    have hcount : Digits.count ⟨value, point⟩ = count + 1 :=
      length_toDigits hlow (lt_of_le_of_ne hhigh hvalue)
    rw [Digits.ratio_trim, Digits.ratio, hcount]

/-- The candidate is one of the two grid points, and it fits. -/
theorem candidate?_eq (i : RoundingInterval) (tie : TieRule) (point : Int) (count : Nat) :
    ∃ chosen : Option Nat, i.candidate? tie point count
        = chosen.map (fun value => if value = 10 ^ count then ⟨1, point + 1⟩
          else Digits.trim ⟨value, point⟩ count)
      ∧ (∀ value ∈ chosen, (value = i.gridFloor point count ∨ value = i.gridFloor point count + 1)
        ∧ i.gridFits point count value = true)
      ∧ (0 < i.gridFloor point count → i.gridFits point count (i.gridFloor point count) = true →
        chosen.isSome)
      ∧ (i.gridFits point count (i.gridFloor point count + 1) = true → chosen.isSome) := by
  unfold candidate? gridFits gridFloor
  simp only [Nat.pow_eq]
  refine ⟨_, rfl, ?_, ?_, ?_⟩
  -- Where both neighbours fit the tie rule chooses; where one does it is taken.
  · intro value hvalue
    split at hvalue <;> rename_i hboth
    · rw [Bool.and_eq_true, Bool.and_eq_true] at hboth
      obtain rfl := Option.mem_some.1 hvalue
      split
      · exact ⟨.inr rfl, hboth.2⟩
      · exact ⟨.inl rfl, hboth.1.2⟩
    split at hvalue <;> rename_i hlow
    · rw [Bool.and_eq_true] at hlow
      obtain rfl := Option.mem_some.1 hvalue
      exact ⟨.inl rfl, hlow.2⟩
    split at hvalue <;> rename_i hhigh
    · obtain rfl := Option.mem_some.1 hvalue
      exact ⟨.inr rfl, hhigh⟩
    · cases hvalue
  · intro hpos hfits
    simp only [hpos, hfits, decide_true, Bool.true_and]
    split <;> rfl
  · intro hfits
    simp only [hfits, Bool.and_true]
    split
    · rfl
    · rfl

/-- **A candidate stands for a number of the interval.** It is one of the two grid points around
the number, and it is taken only if it lies within. -/
theorem of_candidate? (hden : 0 < i.den) (hlow : (10 : ℚ) ^ (point - 1) ≤ (i.mid : ℚ) / i.den)
    (hhigh : (i.mid : ℚ) / i.den < 10 ^ point) (h : i.candidate? tie point (count + 1) = some d) :
    i.Holds d.ratio ∧ d.value ≠ 0 := by
  obtain ⟨chosen, heq, hchosen, -, -⟩ := candidate?_eq i tie point (count + 1)
  rw [heq] at h
  obtain ⟨value, hvalue, rfl⟩ := Option.map_eq_some_iff.1 h
  obtain ⟨hpoint, hfits⟩ := hchosen value hvalue
  obtain ⟨hfloor, hfloor'⟩ := gridFloor_bounds hden hlow hhigh count
  have hdigits : 10 ^ count ≤ value ∧ value ≤ 10 ^ (count + 1) := by omega
  obtain ⟨hratio, hne⟩ := ratio_gridPoint point hdigits.1 hdigits.2
  exact ⟨hratio ▸ (gridFits_iff hden).1 hfits, hne⟩

/-- **A candidate has no more digits** than were asked for. If the upper grid point is a power of
ten, its zeros have been taken off. -/
theorem value_lt_of_candidate? (hden : 0 < i.den) (hlow : (10 : ℚ) ^ (point - 1) ≤ (i.mid : ℚ) / i.den)
    (hhigh : (i.mid : ℚ) / i.den < 10 ^ point) (h : i.candidate? tie point (count + 1) = some d) :
    d.value < 10 ^ (count + 1) := by
  obtain ⟨chosen, heq, hchosen, -, -⟩ := candidate?_eq i tie point (count + 1)
  rw [heq] at h
  obtain ⟨value, hvalue, rfl⟩ := Option.map_eq_some_iff.1 h
  obtain ⟨hpoint, -⟩ := hchosen value hvalue
  obtain ⟨-, hfloor⟩ := gridFloor_bounds hden hlow hhigh count
  split
  · exact Nat.one_lt_pow (Nat.succ_ne_zero count) (by decide)
  · have hle := Digits.trim_value_le ⟨value, point⟩ (count + 1)
    dsimp only at hle
    omega

/-- **There is a candidate** if one of the two grid points lies in the interval. The rule for ties
matters only if both do. -/
theorem isSome_candidate? (hden : 0 < i.den) (tie : TieRule) (hpos : 0 < i.gridFloor point count)
    (h : i.Holds (i.gridFloor point count * 10 ^ (point - count))
      ∨ i.Holds ((i.gridFloor point count + 1) * 10 ^ (point - count))) :
    (i.candidate? tie point count).isSome := by
  obtain ⟨chosen, heq, -, hlow, hhigh⟩ := candidate?_eq i tie point count
  rw [heq, Option.isSome_map]
  rcases h with h | h
  · exact hlow hpos ((gridFits_iff hden).2 h)
  · exact hhigh ((gridFits_iff hden).2 (by exact_mod_cast h))

end RoundingInterval

namespace BinaryFormat

variable {f : BinaryFormat} {m : Nat} {e : Int}

/-! ## Enough digits

With seventeen digits the grid is fine enough that one of the two neighbours lies in the
interval, whichever float it is. So the search ends, and its result is in the interval
because every candidate is. -/

theorem gapBelow_pos (f : BinaryFormat) (m : Nat) (e : Int) : 0 < f.gapBelow m e := by
  unfold gapBelow
  split <;> norm_num

theorem gapBelow_le (f : BinaryFormat) (m : Nat) (e : Int) : f.gapBelow m e ≤ 1 / 2 := by
  unfold gapBelow
  split <;> norm_num

theorem IsNumber.mid_pos (h : f.IsNumber m e) : 0 < (f.roundingInterval m e).mid :=
  Nat.mul_pos (Nat.mul_pos (by decide) h.pos) (Nat.pow_pos (by decide))

/-- **A step of the grid with seventeen digits** is shorter than twice the lower part of the
interval. Then one of the two grid points around the number must lie in the interval. -/
theorem step_lt (hwide : 2 * 2 ^ f.fractionWidth < 10 ^ 16) (h : f.IsNumber m e) {point : Int}
    (hlow : (10 : ℚ) ^ (point - 1) ≤ m * 2 ^ e) :
    (10 : ℚ) ^ (point - (17 : ℕ)) < 2 * f.gapBelow m e * 2 ^ e := by
  have hstep : (10 : ℚ) ^ (point - 1) = 10 ^ (point - (17 : ℕ)) * 10 ^ 16 := by
    rw [← zpow_natCast, ← zpow_add₀ (by norm_num)]
    congr 1
    omega
  -- Below a power of two the gap is half as wide, but there the significand is the least one.
  have hsize : (m : ℚ) < 2 * f.gapBelow m e * 10 ^ 16 := by
    have hlt := h.lt
    unfold gapBelow
    split <;> rename_i hnarrow
    · have hcast : 2 * (m : ℚ) < 10 ^ 16 := by
        rw [hnarrow.1]
        exact_mod_cast hwide
      linarith
    · have hcast : (m : ℚ) < 10 ^ 16 := by exact_mod_cast hlt.trans hwide
      linarith
  have hpos : (0 : ℚ) < 2 ^ e := by positivity
  refine lt_of_mul_lt_mul_right ?_ (show (0 : ℚ) ≤ 10 ^ 16 by norm_num)
  calc (10 : ℚ) ^ (point - (17 : ℕ)) * 10 ^ 16 = 10 ^ (point - 1) := hstep.symm
    _ ≤ m * 2 ^ e := hlow
    _ < 2 * f.gapBelow m e * 10 ^ 16 * 2 ^ e := mul_lt_mul_of_pos_right hsize hpos
    _ = 2 * f.gapBelow m e * 2 ^ e * 10 ^ 16 := by ring

/-- One of two neighbours of the grid lies in the interval if they are close. -/
theorem holds_or_holds (hm : 0 < m) {floor step : ℚ} (hfloor : floor * step ≤ m * 2 ^ e)
    (hnext : m * 2 ^ e < (floor + 1) * step) (hstep : step < 2 * f.gapBelow m e * 2 ^ e) :
    (f.roundingInterval m e).Holds (floor * step)
      ∨ (f.roundingInterval m e).Holds ((floor + 1) * step) := by
  have hpos : (0 : ℚ) < 2 ^ e := by positivity
  have hgap : (0 : ℚ) < f.gapBelow m e * 2 ^ e := mul_pos (f.gapBelow_pos m e) hpos
  have hhalf : f.gapBelow m e * 2 ^ e ≤ 1 / 2 * 2 ^ e :=
    mul_le_mul_of_nonneg_right (f.gapBelow_le m e) hpos.le
  by_cases hnear : m * 2 ^ e - floor * step < f.gapBelow m e * 2 ^ e
  · refine .inl (RoundingInterval.holds_of_lt ?_ ?_)
    · rw [low_div_den f hm]
      linarith
    · rw [high_div_den]
      linarith
  · refine .inr (RoundingInterval.holds_of_lt ?_ ?_)
    · rw [low_div_den f hm]
      linarith
    · rw [high_div_den]
      linarith

/-- The shortest digits are a candidate of at most seventeen digits. The format must be
narrow enough for seventeen digits. -/
theorem exists_candidate (hwide : 2 * 2 ^ f.fractionWidth < 10 ^ 16) (h : f.IsNumber m e)
    (tie : TieRule) :
    ∃ count < 17, (f.roundingInterval m e).candidate? tie
      (decimalPoint (f.roundingInterval m e).mid (f.roundingInterval m e).den) (count + 1)
        = some (f.shortest tie m e) := by
  have hden := f.den_pos m e
  obtain ⟨hlow, hhigh⟩ := decimalPoint_spec h.mid_pos hden
  have hsome : ((List.range' 1 17).findSome? ((f.roundingInterval m e).candidate? tie
      (decimalPoint (f.roundingInterval m e).mid (f.roundingInterval m e).den))).isSome := by
    rw [List.isSome_findSome?, List.any_eq_true]
    -- Seventeen digits are always enough: the step of the grid is shorter than the interval.
    refine ⟨17, by decide, ?_⟩
    obtain ⟨hfloor, hnext⟩ := RoundingInterval.gridFloor_spec hden
      (decimalPoint (f.roundingInterval m e).mid (f.roundingInterval m e).den) 17
    obtain ⟨hdigits, -⟩ := RoundingInterval.gridFloor_bounds hden hlow hhigh 16
    rw [mid_div_den] at hfloor hnext
    exact RoundingInterval.isSome_candidate? hden tie
      (Nat.lt_of_lt_of_le (Nat.pow_pos (by decide)) hdigits)
      (holds_or_holds h.pos hfloor hnext (step_lt hwide h (mid_div_den f m e ▸ hlow)))
  obtain ⟨d, hd⟩ := Option.isSome_iff_exists.1 hsome
  have hshortest : f.shortest tie m e = d := by
    unfold shortest
    dsimp only
    rw [hd]
    rfl
  obtain ⟨count, hmem, hcandidate⟩ := List.exists_of_findSome?_eq_some hd
  obtain ⟨k, hk, rfl⟩ := List.mem_range'.1 hmem
  refine ⟨k, hk, ?_⟩
  rw [hshortest, ← hcandidate]
  congr 1
  omega

/-- **The shortest digits round to the float.** The format must be narrow enough for seventeen
digits. Both formats in use are. -/
theorem holds_shortest (hwide : 2 * 2 ^ f.fractionWidth < 10 ^ 16) (h : f.IsNumber m e)
    (tie : TieRule) :
    (f.roundingInterval m e).Holds (f.shortest tie m e).ratio
      ∧ (f.shortest tie m e).value ≠ 0 := by
  obtain ⟨hlow, hhigh⟩ := decimalPoint_spec h.mid_pos (f.den_pos m e)
  obtain ⟨count, -, hcandidate⟩ := exists_candidate hwide h tie
  exact RoundingInterval.of_candidate? (f.den_pos m e) hlow hhigh hcandidate

/-- **There are at most seventeen** shortest digits. The search goes up to this count, and there
is always a candidate with that many. -/
theorem value_shortest_lt (hwide : 2 * 2 ^ f.fractionWidth < 10 ^ 16) (h : f.IsNumber m e)
    (tie : TieRule) : (f.shortest tie m e).value < 10 ^ 17 := by
  obtain ⟨hlow, hhigh⟩ := decimalPoint_spec h.mid_pos (f.den_pos m e)
  obtain ⟨count, hcount, hcandidate⟩ := exists_candidate hwide h tie
  have hlt := RoundingInterval.value_lt_of_candidate? (f.den_pos m e) hlow hhigh hcandidate
  exact hlt.trans_le (Nat.pow_le_pow_right (by decide) hcount)

end BinaryFormat

end Meshwork
