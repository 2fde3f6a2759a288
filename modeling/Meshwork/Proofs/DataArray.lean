import Meshwork.Proofs.Container.Restore

/-!
# The shape of arrays

A tuple has at least one component, and an array has as many elements as its
tuples have components together. In words of the machine this is a law about
products: the number of tuples is found by a division, and multiplying it again
must give the number of elements, which a product in words does only if it does
not wrap around (`DataArray.IsShaped`, `DataArray.IsShaped.toNat_mul`).

Where an array comes from does not matter for its shape, but it matters whether it
comes to be. Elements that are given, by a caller or by a container, are counted
already, so that it is enough to ask whether they divide; if not, an error says so.
For zeros, two numbers are given and nothing is counted yet. Their product may be no
word, and even if it is, the memory for it may be more than there can be. No error
says so: the program breaks off. An array of zeros that does come to be has the
tuples that were asked for. `DataArray.shapes` puts these facts together.
-/

namespace Meshwork.DataArray

/-- **The elements of an array are those of its tuples**, and a tuple has a component. The clauses
are about numbers without bounds; what they mean for words of the machine is
`IsShaped.toNat_mul`. -/
structure IsShaped (a : DataArray) : Prop where
  /-- A tuple has a component, so that dividing by their number makes sense. -/
  components_pos : 1 ≤ a.components.toNat
  /-- The tuples have the elements, and no element is left over. -/
  size_eq : a.size = a.tupleCount * a.components.toNat

theorem isShaped (a : DataArray) : a.IsShaped := ⟨a.components_toNat_pos, a.size_eq⟩

/-- **Words are wide enough** for the law, if they are for the number of elements: the tuples are
not more than the elements, and their product with the components does not wrap around. -/
theorem IsShaped.toNat_mul {a : DataArray} (h : a.IsShaped) (hsize : a.size < UInt64.size) :
    a.tupleCount.toUInt64.toNat = a.tupleCount
      ∧ (a.tupleCount.toUInt64 * a.components).toNat = a.size := by
  have hle : a.tupleCount ≤ a.size := Nat.div_le_self _ _
  have htuples : a.tupleCount.toUInt64.toNat = a.tupleCount :=
    Nat.mod_eq_of_lt (Nat.lt_of_le_of_lt hle hsize)
  refine ⟨htuples, ?_⟩
  rw [UInt64.toNat_mul, htuples, ← h.size_eq]
  exact Nat.mod_eq_of_lt hsize

/-! ## Given elements

The number of elements is known, so the only thing to ask is whether it is a multiple of
the components. -/

/-- **Elements are accepted** if a tuple has a component and they divide into tuples. Elements of
any type are accepted, and as many of them as the caller has. -/
theorem exists_ofElements_iff {elements : Elements} {components : UInt64} :
    (∃ a, ofElements elements components = .ok a)
      ↔ components ≠ 0 ∧ components.toNat ∣ elements.size := by
  constructor
  · rintro ⟨a, h⟩
    obtain ⟨rfl, rfl⟩ := ofElements_eq_ok_iff.1 h
    exact ⟨a.components_ne_zero, a.isWhole⟩
  · rintro ⟨hcomponents, hwhole⟩
    let a : DataArray := ⟨elements, components, hcomponents, hwhole⟩
    exact ⟨a, a.ofElements_elements⟩

/-! ## Zeros

The program multiplies two words and takes memory for that many elements. Either step may
break it off, the product first. An error value is answered only for a tuple without
components, which is looked at before both. -/

section Zeros

variable {type : ElementType} {tuples components : UInt64}

/-- **What becomes of zeros.** One of the four cases of their making holds, and the last one is the
only one in which there is an array. -/
theorem zeros_cases (type : ElementType) (tuples components : UInt64) :
    components = 0 ∧ zeros type tuples components = .refused .zeroComponents
      ∨ components ≠ 0 ∧ UInt64.size ≤ tuples.toNat * components.toNat
        ∧ zeros type tuples components = .broken .overflow
      ∨ components ≠ 0 ∧ tuples.toNat * components.toNat < UInt64.size
        ∧ maxBytes < tuples.toNat * components.toNat * type.size
        ∧ zeros type tuples components = .broken .capacity
      ∨ tuples.toNat * components.toNat * type.size ≤ maxBytes
        ∧ ∃ a, zeros type tuples components = .done a ∧ a.components = components
          ∧ a.elements = .allZero type (tuples.toNat * components.toNat) := by
  rw [zeros]
  by_cases hcomponents : components = 0
  · exact .inl ⟨hcomponents, dif_pos hcomponents⟩
  rw [dif_neg hcomponents]
  refine .inr ?_
  -- The number of elements is reckoned first, and then their bytes.
  split <;> rename_i hsize
  · obtain ⟨rfl, hword⟩ := multiply_eq_error_iff.1 hsize
    exact .inl ⟨hcomponents, hword, rfl⟩
  rename_i size
  have hproduct := multiply_eq_ok_iff.1 hsize
  refine .inr ?_
  split <;> rename_i helements
  · obtain ⟨rfl, hbytes⟩ := Elements.zeros_eq_error_iff.1 helements
    exact .inl ⟨hcomponents, hproduct ▸ size.toNat_lt, hproduct ▸ hbytes, rfl⟩
  · obtain ⟨hbytes, rfl⟩ := Elements.zeros_eq_ok_iff.1 helements
    exact .inr ⟨hproduct ▸ hbytes, _, rfl, rfl, congrArg (Elements.allZero type) hproduct⟩

/-- A word of elements is not more than its bytes. -/
theorem lt_size_of_le_maxBytes
    (h : tuples.toNat * components.toNat * type.size ≤ maxBytes) :
    tuples.toNat * components.toNat < UInt64.size := by
  have hle := Nat.le_mul_of_pos_right (tuples.toNat * components.toNat) type.size_pos
  exact Nat.lt_of_le_of_lt (hle.trans h) (by decide)

/-- **An array of zeros has the tuples that were asked for**, and their product with the components
is the number of its elements, also as a product of words. -/
theorem of_zeros_eq_done {a : DataArray} (h : zeros type tuples components = .done a) :
    a.type = type ∧ a.components = components ∧ a.tupleCount = tuples.toNat
      ∧ a.size = (tuples * components).toNat
      ∧ a.elements = .allZero type (tuples * components).toNat := by
  -- Of the four ways it can end, only the last makes an array. There the bytes of the elements fit
  -- into the memory, and so the product of words is the product of numbers.
  rcases zeros_cases type tuples components with
    ⟨-, hcase⟩ | ⟨-, -, hcase⟩ | ⟨-, -, -, hcase⟩ | ⟨hbytes, b, hcase, hcomponents, helements⟩
  · cases h.symm.trans hcase
  · cases h.symm.trans hcase
  · cases h.symm.trans hcase
  obtain rfl := Ending.done.inj (h.symm.trans hcase)
  have hproduct : (tuples * components).toNat = tuples.toNat * components.toNat := by
    rw [UInt64.toNat_mul]
    exact Nat.mod_eq_of_lt (lt_size_of_le_maxBytes hbytes)
  have hsize : a.size = tuples.toNat * components.toNat := by
    rw [size, helements, Elements.size_allZero]
  rw [hproduct]
  refine ⟨?_, hcomponents, ?_, hsize, helements⟩
  · rw [DataArray.type, helements, Elements.type_allZero]
  · rw [tupleCount, hsize, hcomponents]
    exact Nat.mul_div_cancel _ (hcomponents ▸ a.components_toNat_pos)

/-- **There is an array of zeros** exactly if its bytes fit into one piece of memory. That the
product is a word need not be asked for: elements whose bytes fit are not too many for that. -/
theorem exists_zeros_iff (h : components ≠ 0) :
    (∃ a, zeros type tuples components = .done a)
      ↔ tuples.toNat * components.toNat * type.size ≤ maxBytes := by
  rcases zeros_cases type tuples components with
    ⟨hzero, -⟩ | ⟨-, hword, hcase⟩ | ⟨-, -, hbytes, hcase⟩ | ⟨hbytes, a, hcase, -⟩
  · exact absurd hzero h
  · rw [hcase]
    exact iff_of_false nofun fun hbytes =>
      absurd (lt_size_of_le_maxBytes hbytes) (Nat.not_lt.2 hword)
  · rw [hcase]
    exact iff_of_false nofun (Nat.not_le.2 hbytes)
  · exact iff_of_true ⟨a, hcase⟩ hbytes

/-- **Zeros are refused** for the lack of components, and for nothing else. So a caller that gives
a component learns of no error; it gets an array, or the program is gone. -/
theorem zeros_eq_refused_iff {e : ArrayError} :
    zeros type tuples components = .refused e ↔ components = 0 ∧ e = .zeroComponents := by
  rcases zeros_cases type tuples components with
    ⟨hzero, hcase⟩ | ⟨hne, -, hcase⟩ | ⟨hne, -, -, hcase⟩ | ⟨-, a, hcase, rfl, -⟩ <;> rw [hcase]
  · rw [Ending.refused.injEq, eq_comm, and_iff_right hzero]
  · exact iff_of_false nofun fun h => hne h.1
  · exact iff_of_false nofun fun h => hne h.1
  · exact iff_of_false nofun fun h => a.components_ne_zero h.1

/-- **The program breaks off** at the product, if that is no word, and else at the memory. The two
cases exclude each other, since memory is taken only once there is a product. -/
theorem zeros_eq_broken_iff {breakdown : Breakdown} :
    zeros type tuples components = .broken breakdown
      ↔ components ≠ 0
        ∧ (breakdown = .overflow ∧ UInt64.size ≤ tuples.toNat * components.toNat
          ∨ breakdown = .capacity ∧ tuples.toNat * components.toNat < UInt64.size
            ∧ maxBytes < tuples.toNat * components.toNat * type.size) := by
  rcases zeros_cases type tuples components with
    ⟨hzero, hcase⟩ | ⟨hne, hword, hcase⟩ | ⟨hne, hword, hbytes, hcase⟩ | ⟨hbytes, a, hcase, -⟩ <;>
    rw [hcase]
  · exact iff_of_false nofun fun h => h.1 hzero
  · simp [hne, hword, Nat.not_lt.2 hword, eq_comm]
  · simp [hne, hword, hbytes, Nat.not_le.2 hword, eq_comm]
  · refine iff_of_false nofun ?_
    rintro ⟨-, ⟨-, hword⟩ | ⟨-, -, hmany⟩⟩
    · exact absurd (lt_size_of_le_maxBytes hbytes) (Nat.not_lt.2 hword)
    · exact absurd hbytes (Nat.not_le.2 hmany)

end Zeros

/-! ## All arrays

All ways to an array end in one that keeps the evidence of its shape with it, so the law
holds of arrays and not only of results. -/

/-- **The shapes of arrays.** Elements make an array exactly if they divide into tuples. Every
array, be it made of elements, of zeros or read from a container, has its shape, which can be
reckoned in words. An array of zeros has the tuples that were asked for. That there is one, or else
an error, is so exactly if the bytes of the zeros fit into one piece of memory; otherwise the
program breaks off, at the product of the numbers or when it takes the memory. -/
theorem shapes (type : ElementType) (tuples components : UInt64) :
    (∀ elements, (∃ a, ofElements elements components = .ok a)
        ↔ components ≠ 0 ∧ components.toNat ∣ elements.size)
      ∧ (∀ elements a, ofElements elements components = .ok a →
          a.elements = elements ∧ a.components = components ∧ a.IsShaped)
      ∧ (∀ bytes s, Container.decode bytes = .ok s →
          ∀ path a, s.get? path = some (.array a) → a.IsShaped)
      ∧ (∀ a : DataArray, a.IsShaped → a.size < UInt64.size →
          a.tupleCount.toUInt64.toNat = a.tupleCount
            ∧ (a.tupleCount.toUInt64 * a.components).toNat = a.size)
      ∧ (∀ a, zeros type tuples components = .done a →
          a.IsShaped ∧ a.type = type ∧ a.components = components ∧ a.tupleCount = tuples.toNat
            ∧ a.size = (tuples * components).toNat)
      ∧ (∀ e, zeros type tuples components = .refused e
          ↔ components = 0 ∧ e = .zeroComponents)
      ∧ (∀ breakdown, zeros type tuples components = .broken breakdown
          ↔ components ≠ 0
            ∧ (breakdown = .overflow ∧ UInt64.size ≤ tuples.toNat * components.toNat
              ∨ breakdown = .capacity ∧ tuples.toNat * components.toNat < UInt64.size
                ∧ maxBytes < tuples.toNat * components.toNat * type.size))
      ∧ (components ≠ 0 →
          (((∃ a, zeros type tuples components = .done a)
              ∨ ∃ e, zeros type tuples components = .refused e)
            ↔ tuples.toNat * components.toNat * type.size ≤ maxBytes)) := by
  refine ⟨fun _ => exists_ofElements_iff, fun elements a h => ?_,
    fun _ _ _ _ a _ => a.isShaped, fun _ => IsShaped.toNat_mul, fun a h => ?_,
    fun _ => zeros_eq_refused_iff, fun _ => zeros_eq_broken_iff, fun hne => ?_⟩
  · obtain ⟨helements, hcomponents⟩ := ofElements_eq_ok_iff.1 h
    exact ⟨helements, hcomponents, a.isShaped⟩
  · obtain ⟨htype, hcomponents, htuples, hsize, -⟩ := of_zeros_eq_done h
    exact ⟨a.isShaped, htype, hcomponents, htuples, hsize⟩
  · rw [← exists_zeros_iff hne]
    exact or_iff_left fun ⟨e, he⟩ => hne (zeros_eq_refused_iff.1 he).1

/-- Three times this number of tuples is two more than the greatest word, and eight bytes for each
of that number of tuples are more than memory can hold. Neither makes an array, and no error says
so. -/
theorem shapes_broken :
    let overflowing := zeros .uint8 6148914691236517206 3
    let exhausting := zeros .float64 1152921504606846976 1
    overflowing = .broken .overflow ∧ exhausting = .broken .capacity
      ∧ ¬ ((∃ a, overflowing = .done a) ∨ ∃ e, overflowing = .refused e)
      ∧ ¬ ((∃ a, exhausting = .done a) ∨ ∃ e, exhausting = .refused e) := by
  intro overflowing exhausting
  obtain ⟨-, -, -, -, -, -, hbroken, hiff⟩ := shapes .uint8 6148914691236517206 3
  obtain ⟨-, -, -, -, -, -, hbroken', hiff'⟩ := shapes .float64 1152921504606846976 1
  exact ⟨(hbroken _).2 ⟨by decide, .inl ⟨rfl, by decide⟩⟩,
    (hbroken' _).2 ⟨by decide, .inr ⟨rfl, by decide, by decide⟩⟩,
    mt (hiff (by decide)).1 (by decide), mt (hiff' (by decide)).1 (by decide)⟩

end Meshwork.DataArray
