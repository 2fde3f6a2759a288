import Meshwork.Element

/-!
# Data arrays

A data array is a list of elements read in tuples of a fixed number of
components: three for normals, one for a scalar. A tuple has a component, and
the elements divide into tuples; both are kept with the array, so that whoever
has one can count its tuples (`DataArray.tupleCount`) and cut it into rows.

There are two ways to an array. Given elements are checked, and refused if they
do not divide (`DataArray.ofElements`). For zeros, the numbers of tuples and of
components are given, and the number of elements is their product
(`DataArray.zeros`). It divides by its making, but it need not be the size of
anything that memory can hold.
-/

namespace Meshwork

/-- **Why there is no such array.** The first is looked for before the second, since nothing
divides into tuples without components. -/
inductive ArrayError where
  /-- A tuple without components. -/
  | zeroComponents
  /-- The elements do not divide into tuples. -/
  | shapeMismatch (size : Nat) (components : UInt64)
deriving DecidableEq, Repr

/-- The text of an error. -/
def ArrayError.message : ArrayError → String
  | .zeroComponents => "component count must be at least 1"
  | .shapeMismatch size components =>
    s!"array length {size} is not a multiple of component count {components.toNat}"

/-- **A data array**: elements and the number of components of a tuple, into which the elements
divide. What is asked of the two is kept as proofs in the array, so there is none of another
shape. -/
structure DataArray where
  /-- The elements, tuple after tuple. -/
  elements : Elements
  /-- The components of one tuple. -/
  components : UInt64
  /-- A tuple has a component. -/
  components_ne_zero : components ≠ 0
  /-- The last tuple is as long as the others. -/
  isWhole : components.toNat ∣ elements.size
deriving DecidableEq

namespace DataArray

/-- **An array of given elements.** They must divide into tuples. -/
def ofElements (elements : Elements) (components : UInt64) : Except ArrayError DataArray :=
  if h : components = 0 then .error .zeroComponents
  else if hsize : elements.size % components.toNat = 0 then
    .ok ⟨elements, components, h, Nat.dvd_of_mod_eq_zero hsize⟩
  else .error (.shapeMismatch elements.size components)

/-- **An array is made again** of its elements. What an array carries with it is just what is
checked here. -/
theorem ofElements_elements (a : DataArray) :
    ofElements a.elements a.components = .ok a := by
  rw [ofElements, dif_neg a.components_ne_zero, dif_pos (Nat.mod_eq_zero_of_dvd a.isWhole)]

/-- What is made of elements is the array that has them. -/
theorem ofElements_eq_ok_iff {elements : Elements} {components : UInt64} {a : DataArray} :
    ofElements elements components = .ok a
      ↔ a.elements = elements ∧ a.components = components := by
  refine ⟨fun h => ?_, ?_⟩
  · rw [ofElements] at h
    split at h
    · cases h
    split at h
    · obtain rfl := Except.ok.inj h
      exact ⟨rfl, rfl⟩
    · cases h
  · rintro ⟨rfl, rfl⟩
    exact a.ofElements_elements

/-- A product of tuples and components divides into tuples. -/
theorem dvd_size_of_zeros {type : ElementType} {tuples components size : UInt64}
    {elements : Elements} (hsize : multiply tuples components = .ok size)
    (helements : Elements.zeros type size = .ok elements) :
    components.toNat ∣ elements.size := by
  rw [(Elements.zeros_eq_ok_iff.1 helements).2, Elements.size_allZero,
    multiply_eq_ok_iff.1 hsize]
  exact Nat.dvd_mul_left _ _

/-- **An array of zeros.** Tuples without components are refused; where there are more elements
than memory can hold, the program breaks off. -/
def zeros (type : ElementType) (tuples components : UInt64) : Ending ArrayError DataArray :=
  if h : components = 0 then .refused .zeroComponents
  else
    match hsize : multiply tuples components with
    | .error breakdown => .broken breakdown
    | .ok size =>
      match helements : Elements.zeros type size with
      | .error breakdown => .broken breakdown
      | .ok elements => .done ⟨elements, components, h, dvd_size_of_zeros hsize helements⟩

/-- The type of the elements. -/
def type (a : DataArray) : ElementType := a.elements.type

/-- The number of elements. -/
def size (a : DataArray) : Nat := a.elements.size

/-- The number of tuples. -/
def tupleCount (a : DataArray) : Nat := a.size / a.components.toNat

theorem components_toNat_pos (a : DataArray) : 0 < a.components.toNat :=
  Nat.pos_of_ne_zero fun h => a.components_ne_zero (UInt64.toNat_inj.1 h)

/-- **The elements are those of the tuples**: none is left over. The product is one of natural
numbers, so it does not wrap around. -/
theorem size_eq (a : DataArray) : a.size = a.tupleCount * a.components.toNat :=
  (Nat.div_mul_cancel a.isWhole).symm

/-- Equality of shape and values, floats compared as numbers. -/
def eqv (a b : DataArray) : Bool :=
  a.elements.eqv b.elements && a.components == b.components

/-- The canonical rendering. -/
def canonical (a : DataArray) : String :=
  "DataArray \x7b data: " ++ a.elements.canonical
    ++ ", components: " ++ toString a.components.toNat ++ " \x7d"

end DataArray

end Meshwork
