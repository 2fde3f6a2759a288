import Meshwork.Allocation
import Meshwork.Number.Layout
import Meshwork.Text.Bytes
import Meshwork.Text.Quoted

/-!
# Elements of data arrays

The values of an array all have one of eleven types. `Elements` holds them
with their type, so a list of one type cannot be taken for another, and
words of the right width stand for the integers. Floats are kept by their
bits.
-/

namespace Meshwork

/-- **The type of an element.** -/
inductive ElementType where
  /-- Signed, 8 bits. -/
  | int8
  /-- Unsigned, 8 bits. -/
  | uint8
  /-- Signed, 16 bits. -/
  | int16
  /-- Unsigned, 16 bits. -/
  | uint16
  /-- Signed, 32 bits. -/
  | int32
  /-- Unsigned, 32 bits. -/
  | uint32
  /-- Signed, 64 bits. -/
  | int64
  /-- Unsigned, 64 bits. -/
  | uint64
  /-- A 32-bit float. -/
  | float32
  /-- A 64-bit float. -/
  | float64
  /-- A truth value. -/
  | bool
deriving DecidableEq, Repr

namespace ElementType

/-- Every type, in the order of declaration. -/
def all : List ElementType :=
  [int8, uint8, int16, uint16, int32, uint32, int64, uint64, float32, float64, bool]

/-- The bytes that one element takes. -/
def size : ElementType → Nat
  | int8 | uint8 | bool => 1
  | int16 | uint16 => 2
  | int32 | uint32 | float32 => 4
  | int64 | uint64 | float64 => 8

theorem size_pos (t : ElementType) : 0 < t.size := by cases t <;> decide

/-- The name of the type in messages and descriptions. -/
def name : ElementType → String
  | int8 => "int8"
  | uint8 => "uint8"
  | int16 => "int16"
  | uint16 => "uint16"
  | int32 => "int32"
  | uint32 => "uint32"
  | int64 => "int64"
  | uint64 => "uint64"
  | float32 => "float32"
  | float64 => "float64"
  | bool => "bool"

/-- The name of the type in containers. -/
def tag : ElementType → String
  | int8 => "int8"
  | uint8 => "u_int8"
  | int16 => "int16"
  | uint16 => "u_int16"
  | int32 => "int32"
  | uint32 => "u_int32"
  | int64 => "int64"
  | uint64 => "u_int64"
  | float32 => "float32"
  | float64 => "float64"
  | bool => "bool"

/-- The type that containers call `tag`. -/
def ofTag? (tag : String) : Option ElementType := all.find? (·.tag == tag)

/-- A tag belongs to the type that it is the tag of. -/
@[simp] theorem ofTag?_tag (t : ElementType) : ofTag? t.tag = some t := by
  cases t <;> rfl

end ElementType

/-! ## Values with their type

The type of a list of values is not a parameter but a constructor, so that arrays of
different types are in one type and a value of one is no value of another. -/

/-- **Values of one element type.** All of them have the same type, which is that of the list. -/
inductive Elements where
  /-- Signed, 8 bits. -/
  | int8 (values : List Int8)
  /-- Unsigned, 8 bits. -/
  | uint8 (values : List UInt8)
  /-- Signed, 16 bits. -/
  | int16 (values : List Int16)
  /-- Unsigned, 16 bits. -/
  | uint16 (values : List UInt16)
  /-- Signed, 32 bits. -/
  | int32 (values : List Int32)
  /-- Unsigned, 32 bits. -/
  | uint32 (values : List UInt32)
  /-- Signed, 64 bits. -/
  | int64 (values : List Int64)
  /-- Unsigned, 64 bits. -/
  | uint64 (values : List UInt64)
  /-- 32-bit floats. -/
  | float32 (values : List Single)
  /-- 64-bit floats. -/
  | float64 (values : List Double)
  /-- Truth values. -/
  | bool (values : List Bool)
deriving DecidableEq

namespace Elements

/-- The type of the values. -/
def type : Elements → ElementType
  | int8 _ => .int8
  | uint8 _ => .uint8
  | int16 _ => .int16
  | uint16 _ => .uint16
  | int32 _ => .int32
  | uint32 _ => .uint32
  | int64 _ => .int64
  | uint64 _ => .uint64
  | float32 _ => .float32
  | float64 _ => .float64
  | bool _ => .bool

/-- The number of values. -/
def size : Elements → Nat
  | int8 v => v.length
  | uint8 v => v.length
  | int16 v => v.length
  | uint16 v => v.length
  | int32 v => v.length
  | uint32 v => v.length
  | int64 v => v.length
  | uint64 v => v.length
  | float32 v => v.length
  | float64 v => v.length
  | bool v => v.length

/-- As many zeros of a type as asked for; `false` is the zero of truth values. -/
def allZero (type : ElementType) (size : Nat) : Elements :=
  match type with
  | .int8 => int8 (List.replicate size 0)
  | .uint8 => uint8 (List.replicate size 0)
  | .int16 => int16 (List.replicate size 0)
  | .uint16 => uint16 (List.replicate size 0)
  | .int32 => int32 (List.replicate size 0)
  | .uint32 => uint32 (List.replicate size 0)
  | .int64 => int64 (List.replicate size 0)
  | .uint64 => uint64 (List.replicate size 0)
  | .float32 => float32 (List.replicate size .zero)
  | .float64 => float64 (List.replicate size .zero)
  | .bool => bool (List.replicate size false)

@[simp] theorem type_allZero (t : ElementType) (n : Nat) : (allZero t n).type = t := by
  cases t <;> rfl

@[simp] theorem size_allZero (t : ElementType) (n : Nat) : (allZero t n).size = n := by
  cases t <;> simp [allZero, size]

/-- **Takes memory for zeros of a type.** Their bytes must fit into one piece of it, or the program
breaks off. -/
def zeros (type : ElementType) (size : UInt64) : Except Breakdown Elements :=
  if size.toNat * type.size ≤ maxBytes then .ok (allZero type size.toNat) else .error .capacity

theorem zeros_eq_ok_iff {t : ElementType} {n : UInt64} {e : Elements} :
    zeros t n = .ok e ↔ n.toNat * t.size ≤ maxBytes ∧ e = allZero t n.toNat := by
  rw [zeros]
  split <;> rename_i hbytes
  · rw [Except.ok.injEq, eq_comm, and_iff_right hbytes]
  · exact iff_of_false nofun fun h => hbytes h.1

theorem zeros_eq_error_iff {t : ElementType} {n : UInt64} {breakdown : Breakdown} :
    zeros t n = .error breakdown ↔ breakdown = .capacity ∧ maxBytes < n.toNat * t.size := by
  rw [zeros]
  split <;> rename_i hbytes
  · exact iff_of_false nofun fun h => absurd hbytes (Nat.not_le.2 h.2)
  · rw [Except.error.injEq, eq_comm, and_iff_left (Nat.not_le.1 hbytes)]

/-- **Equality of values.** Integers and truth values are compared as such,
floats as numbers: a NaN differs from itself, and the two zeros are
equal. -/
def eqv : Elements → Elements → Bool
  | float32 v, float32 w => pairwiseEqv Single.eqv v w
  | float64 v, float64 w => pairwiseEqv Double.eqv v w
  | v, w => v = w

/-- The values as texts, in the given layout of floats; `truth` shows truth
values. -/
def texts (layout : FloatLayout) (truth : Bool → String) : Elements → List String
  | int8 v => v.map fun x => toString x.toInt
  | uint8 v => v.map fun x => toString x.toNat
  | int16 v => v.map fun x => toString x.toInt
  | uint16 v => v.map fun x => toString x.toNat
  | int32 v => v.map fun x => toString x.toInt
  | uint32 v => v.map fun x => toString x.toNat
  | int64 v => v.map fun x => toString x.toInt
  | uint64 v => v.map fun x => toString x.toNat
  | float32 v => v.map (Single.write layout)
  | float64 v => v.map (Double.write layout)
  | bool v => v.map truth

/-- Every value has a text. -/
@[simp] theorem length_texts (layout : FloatLayout) (truth : Bool → String) (e : Elements) :
    (e.texts layout truth).length = e.size := by
  cases e <;> simp [texts, size]

/-- The name of the type in canonical renderings. -/
def canonicalName : ElementType → String
  | .int8 => "Int8"
  | .uint8 => "UInt8"
  | .int16 => "Int16"
  | .uint16 => "UInt16"
  | .int32 => "Int32"
  | .uint32 => "UInt32"
  | .int64 => "Int64"
  | .uint64 => "UInt64"
  | .float32 => "Float32"
  | .float64 => "Float64"
  | .bool => "Bool"

/-- The canonical rendering: the type, then the values. -/
def canonical (e : Elements) : String :=
  canonicalName e.type ++ "("
    ++ bracketed (e.texts .canonical fun b => if b then "true" else "false") ++ ")"

end Elements

end Meshwork
