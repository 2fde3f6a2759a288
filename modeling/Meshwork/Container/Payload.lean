import Meshwork.Element
import Meshwork.Geometry.Basic
import Meshwork.Text.Bytes

/-!
# Numbers as bytes

A container stores the numbers of an array or a geometry as bytes, each
number over as many bytes as its type has, the least significant byte
first. Floats are stored by their bits, so that every one of them comes
back as it was.

`Payload.elements` reads what `Payload.ofElements` writes, and nothing else:
the number of bytes must divide into elements, and a truth value is 0
or 1.

Both directions go through lists of natural numbers below a power of two, one for each
element. What a number stands for is a matter of its type alone.
-/

namespace Meshwork.Payload

/-- The bytes of a number, the least significant first. What does not fit into
so many bytes is dropped. -/
def bytes : (width : Nat) → Nat → Bytes
  | 0, _ => []
  | width + 1, n => (n % 256).toUInt8 :: bytes width (n / 256)

/-- **The number that bytes make up.** The first byte counts least, as on most machines. -/
def number : Bytes → Nat
  | [] => 0
  | b :: rest => b.toNat + 256 * number rest

@[simp] theorem length_bytes (width n : Nat) : (bytes width n).length = width := by
  induction width generalizing n with
  | zero => rfl
  | succ width ih => simp [bytes, ih]

theorem number_lt (data : Bytes) : number data < Nat.pow 256 data.length := by
  induction data with
  | nil => decide
  | cons b rest ih =>
    have hb := b.toNat_lt
    have hpow : Nat.pow 256 (b :: rest).length = Nat.pow 256 rest.length * 256 := rfl
    rw [hpow, number]
    omega

theorem number_bytes {width n : Nat} (h : n < Nat.pow 256 width) : number (bytes width n) = n := by
  induction width generalizing n with
  | zero => exact (Nat.lt_one_iff.mp h).symm
  | succ width ih =>
    have hdiv : n / 256 < Nat.pow 256 width := (Nat.div_lt_iff_lt_mul (by decide)).mpr h
    have hmod : (n % 256).toUInt8.toNat = n % 256 := by
      simp [Nat.toUInt8, UInt8.toNat_ofNat']
    simp only [bytes, number, ih hdiv, hmod]
    omega

theorem bytes_number (data : Bytes) : bytes data.length (number data) = data := by
  induction data with
  | nil => rfl
  | cons b rest ih =>
    have hb : b.toNat < 256 := b.toNat_lt
    have hmod : (b.toNat + 256 * number rest) % 256 = b.toNat := by omega
    have hdiv : (b.toNat + 256 * number rest) / 256 = number rest := by omega
    simp [number, bytes, hmod, hdiv, ih]

/-- **Why bytes are not the values of a type.** Every other list of bytes has a meaning, whatever
the bits are. -/
inductive Fault where
  /-- They do not divide into elements. -/
  | ragged (length size : Nat)
  /-- A byte that is no truth value. -/
  | notBool (byte : UInt8)
deriving DecidableEq, Repr

/-- The text of a fault. -/
def Fault.message : Fault → String
  | .ragged length size => s!"{length} bytes is not a multiple of element size {size}"
  | .notBool byte => s!"invalid bool byte {byte.toNat}"

/-- Bytes in pieces of a width. `fuel` bounds the number of pieces. -/
def pieces (width : Nat) : (fuel : Nat) → Bytes → List Bytes
  | 0, _ => []
  | fuel + 1, data =>
    if data.isEmpty then [] else data.take width :: pieces width fuel (data.drop width)

/-- The numbers that bytes hold, each over `width` of them. -/
def words (width : Nat) (data : Bytes) : Except Fault (List Nat) :=
  if data.length % width ≠ 0 then .error (.ragged data.length width)
  else .ok ((pieces width data.length data).map number)

/-- The bytes of numbers over `width` of them each. -/
def ofWords (width : Nat) (values : List Nat) : Bytes := values.flatMap (bytes width)

/-- The truth values that bytes stand for. -/
def readBools : Bytes → Except Fault (List Bool)
  | [] => .ok []
  | b :: rest =>
    if b = 0 then (readBools rest).map (false :: ·)
    else if b = 1 then (readBools rest).map (true :: ·)
    else .error (.notBool b)

/-- **The bytes of elements.** Floats are written by their bits, so that no two of them have the
same bytes. -/
def ofElements : Elements → Bytes
  | .int8 v => ofWords 1 (v.map fun x => x.toUInt8.toNat)
  | .uint8 v => ofWords 1 (v.map UInt8.toNat)
  | .int16 v => ofWords 2 (v.map fun x => x.toUInt16.toNat)
  | .uint16 v => ofWords 2 (v.map UInt16.toNat)
  | .int32 v => ofWords 4 (v.map fun x => x.toUInt32.toNat)
  | .uint32 v => ofWords 4 (v.map UInt32.toNat)
  | .int64 v => ofWords 8 (v.map fun x => x.toUInt64.toNat)
  | .uint64 v => ofWords 8 (v.map UInt64.toNat)
  | .float32 v => ofWords 4 (v.map Single.toNat)
  | .float64 v => ofWords 8 (v.map Double.toNat)
  | .bool v => v.map fun b => if b then 1 else 0

/-- **The elements of a type that bytes hold.** The bytes must divide into elements, and those of
truth values must be zero or one. -/
def elements (type : ElementType) (data : Bytes) : Except Fault Elements :=
  match type with
  | .int8 => (words 1 data).map fun v => .int8 (v.map fun n => n.toUInt8.toInt8)
  | .uint8 => (words 1 data).map fun v => .uint8 (v.map Nat.toUInt8)
  | .int16 => (words 2 data).map fun v => .int16 (v.map fun n => n.toUInt16.toInt16)
  | .uint16 => (words 2 data).map fun v => .uint16 (v.map Nat.toUInt16)
  | .int32 => (words 4 data).map fun v => .int32 (v.map fun n => n.toUInt32.toInt32)
  | .uint32 => (words 4 data).map fun v => .uint32 (v.map Nat.toUInt32)
  | .int64 => (words 8 data).map fun v => .int64 (v.map fun n => n.toUInt64.toInt64)
  | .uint64 => (words 8 data).map fun v => .uint64 (v.map Nat.toUInt64)
  | .float32 => (words 4 data).map fun v => .float32 (v.map Single.ofNat)
  | .float64 => (words 8 data).map fun v => .float64 (v.map Double.ofNat)
  | .bool => (readBools data).map .bool

/-- The bytes of the coordinates of points. -/
def ofPoints (points : List Point) : Bytes :=
  ofWords 4 ((points.flatMap Point.coordinates).map Single.toNat)

/-- The bytes of the corners of faces. -/
def ofFaces (faces : List Face) : Bytes :=
  ofWords 8 ((faces.flatMap Face.corners).map UInt64.toNat)

/-- Points from their coordinates; coordinates that make up no point are
dropped. -/
def points : List Single → List Point
  | x :: y :: z :: rest => ⟨x, y, z⟩ :: points rest
  | _ => []

/-- Faces from their corners; corners that make up no face are dropped. -/
def faces : List UInt64 → List Face
  | a :: b :: c :: rest => ⟨a, b, c⟩ :: faces rest
  | _ => []

end Meshwork.Payload
