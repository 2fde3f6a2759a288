import Meshwork.Container.Payload
import Meshwork.Proofs.Failure

/-!
# Payloads read back

The bytes of numbers fall into pieces of one width again, and each piece makes
up its number, so `Payload.words` inverts `Payload.ofWords` on numbers that fit
(`Payload.words_ofWords`). Each of the eleven types writes its values as such
numbers and reads them from there without loss. Therefore `Payload.elements`
gives back the elements that were written (`Payload.elements_ofElements`), bit
by bit: a float is the number of its bits, whatever they stand for.

Conversely, bytes that divide into elements, and stand for truth values where
these are asked for, are the bytes of what is read from them, so elements and
bytes of one type correspond one to one (`Payload.elements_correspond`).
-/

namespace Meshwork.Payload

/-! ## Words

A number of `width` bytes is written with its least significant byte first. Cutting the
bytes of many numbers into pieces of that width gives the bytes of each, provided that no
number is wider than that. -/

theorem length_ofWords (width : Nat) (values : List Nat) :
    (ofWords width values).length = width * values.length := by
  induction values with
  | nil => rfl
  | cons n rest ih =>
    show (bytes width n ++ ofWords width rest).length = _
    rw [List.length_append, length_bytes, ih, List.length_cons, Nat.mul_succ, Nat.add_comm]

/-- The pieces of the bytes are those that were joined. -/
theorem pieces_ofWords {width fuel : Nat} {values : List Nat} (hwidth : 0 < width)
    (hfuel : values.length ≤ fuel) :
    pieces width fuel (ofWords width values) = values.map (bytes width) := by
  induction values generalizing fuel with
  | nil => cases fuel <;> rfl
  | cons n rest ih =>
    obtain ⟨fuel, rfl⟩ : ∃ k, fuel = k + 1 := Nat.exists_eq_add_one.2 (Nat.zero_lt_of_lt hfuel)
    have hdata : ofWords width (n :: rest) = bytes width n ++ ofWords width rest := rfl
    have hlength := length_bytes width n
    have hempty : ¬ (bytes width n ++ ofWords width rest).isEmpty = true := by
      rw [List.isEmpty_iff_length_eq_zero, List.length_append, hlength]
      omega
    rw [hdata, pieces, if_neg hempty, List.take_left' hlength, List.drop_left' hlength,
      ih (Nat.le_of_succ_le_succ hfuel), List.map_cons]

/-- **Numbers that fit are read back** from their bytes. The width must not be zero, since then
there would be no telling how many numbers the bytes hold. -/
theorem words_ofWords {width : Nat} {values : List Nat} (hwidth : 0 < width)
    (h : ∀ n ∈ values, n < Nat.pow 256 width) : words width (ofWords width values) = .ok values := by
  have hlength := length_ofWords width values
  have hwhole : ¬ (ofWords width values).length % width ≠ 0 := by
    rw [hlength, Nat.mul_mod_right]
    exact fun h => h rfl
  -- Every number takes a byte at least, so there is a step for each.
  have hfuel : values.length ≤ (ofWords width values).length := by
    rw [hlength]
    exact Nat.le_mul_of_pos_left _ hwidth
  have hnumbers : values.map (number ∘ bytes width) = values.map id :=
    List.map_congr_left fun n hn => number_bytes (h n hn)
  rw [words, if_neg hwhole, pieces_ofWords hwidth hfuel, List.map_map, hnumbers, List.map_id]

/-! ## Elements

Each type reads its values from words by a map that has a left inverse, so lists of values
are read back by one lemma, whatever the type. Truth values are the exception: only two of
their 256 words are values. -/

/-- Values that are written as numbers that fit are read back, if a value is
determined by its number. -/
theorem map_words_ofWords {α β : Type} (make : List α → β) (width : Nat) (write : α → Nat)
    (read : Nat → α) (hwidth : 0 < width) (hfits : ∀ x, write x < Nat.pow 256 width)
    (hread : ∀ x, read (write x) = x) (values : List α) :
    (words width (ofWords width (values.map write))).map (fun v => make (v.map read))
      = .ok (make values) := by
  have hwords : words width (ofWords width (values.map write)) = .ok (values.map write) := by
    refine words_ofWords hwidth fun n hn => ?_
    obtain ⟨x, -, rfl⟩ := List.mem_map.1 hn
    exact hfits x
  have hvalues : (values.map write).map read = values := by
    rw [List.map_map]
    exact List.map_id'' hread values
  rw [hwords]
  exact congrArg (fun v => Except.ok (make v)) hvalues

theorem readBools_map (values : List Bool) :
    readBools (values.map fun b => if b then 1 else 0) = .ok values := by
  induction values with
  | nil => rfl
  | cons b rest ih => cases b <;> simp [readBools, ih, Except.map]

/-- **Elements are read back** from their bytes. There is no condition on the elements, so floats
come back with all their bits, the payloads of NaNs among them. -/
theorem elements_ofElements (e : Elements) : elements e.type (ofElements e) = .ok e := by
  -- Every type but the last is written in words of a fixed length; truth values have one byte each
  -- and are read by a reader of their own.
  cases e with
  | int8 v =>
    exact map_words_ofWords Elements.int8 1 (·.toUInt8.toNat) (·.toUInt8.toInt8) (by decide)
      (fun x => x.toUInt8.toNat_lt) (fun x => by simp) v
  | uint8 v =>
    exact map_words_ofWords Elements.uint8 1 UInt8.toNat Nat.toUInt8 (by decide)
      UInt8.toNat_lt (fun x => by simp) v
  | int16 v =>
    exact map_words_ofWords Elements.int16 2 (·.toUInt16.toNat) (·.toUInt16.toInt16) (by decide)
      (fun x => x.toUInt16.toNat_lt) (fun x => by simp) v
  | uint16 v =>
    exact map_words_ofWords Elements.uint16 2 UInt16.toNat Nat.toUInt16 (by decide)
      UInt16.toNat_lt (fun x => by simp) v
  | int32 v =>
    exact map_words_ofWords Elements.int32 4 (·.toUInt32.toNat) (·.toUInt32.toInt32) (by decide)
      (fun x => x.toUInt32.toNat_lt) (fun x => by simp) v
  | uint32 v =>
    exact map_words_ofWords Elements.uint32 4 UInt32.toNat Nat.toUInt32 (by decide)
      UInt32.toNat_lt (fun x => by simp) v
  | int64 v =>
    exact map_words_ofWords Elements.int64 8 (·.toUInt64.toNat) (·.toUInt64.toInt64) (by decide)
      (fun x => x.toUInt64.toNat_lt) (fun x => by simp) v
  | uint64 v =>
    exact map_words_ofWords Elements.uint64 8 UInt64.toNat Nat.toUInt64 (by decide)
      UInt64.toNat_lt (fun x => by simp) v
  | float32 v =>
    exact map_words_ofWords Elements.float32 4 Single.toNat Single.ofNat (by decide)
      (fun x => x.bits.toNat_lt) Single.ofNat_toNat v
  | float64 v =>
    exact map_words_ofWords Elements.float64 8 Double.toNat Double.ofNat (by decide)
      (fun x => x.bits.toNat_lt) Double.ofNat_toNat v
  | bool v =>
    show (readBools (v.map fun b => if b then 1 else 0)).map Elements.bool = _
    rw [readBools_map]
    rfl

/-! ## What is read was written

The other direction starts from bytes. They are the concatenation of their pieces, and
every piece is the number that is read from it, so nothing about the bytes is lost by
reading them. -/

/-- The numbers of the pieces have the bytes that were cut. -/
theorem flatMap_pieces {width fuel : Nat} {data : Bytes} (hwidth : 0 < width)
    (hfuel : data.length ≤ fuel) (hwhole : width ∣ data.length) :
    (pieces width fuel data).flatMap (fun piece => bytes width (number piece)) = data := by
  induction fuel generalizing data with
  | zero =>
    rw [List.length_eq_zero_iff.1 (Nat.le_zero.1 hfuel)]
    rfl
  | succ fuel ih =>
    rcases data with _ | ⟨b, rest⟩
    · rfl
    have hle : width ≤ (b :: rest).length := Nat.le_of_dvd (Nat.succ_pos _) hwhole
    have hpiece : ((b :: rest).take width).length = width := List.length_take_of_le hle
    have hbytes := bytes_number ((b :: rest).take width)
    have hrest : ((b :: rest).drop width).length = (b :: rest).length - width := List.length_drop
    rw [hpiece] at hbytes
    rw [pieces, if_neg (by simp), List.flatMap_cons, hbytes, ih (by omega)
      (hrest ▸ Nat.dvd_sub hwhole (Nat.dvd_refl _)), List.take_append_drop]

theorem length_le_of_mem_pieces {width fuel : Nat} {data piece : Bytes}
    (h : piece ∈ pieces width fuel data) : piece.length ≤ width := by
  induction fuel generalizing data with
  | zero => cases h
  | succ fuel ih =>
    rw [pieces] at h
    split at h
    · cases h
    · rcases List.mem_cons.1 h with rfl | h
      · exact List.length_take_le _ _
      · exact ih h

/-- **Numbers that were read** fit, and have the bytes that they were read from. So reading loses
nothing: the bytes can be written again from what was read of them. -/
theorem of_words_eq_ok {width : Nat} {data : Bytes} {values : List Nat} (hwidth : 0 < width)
    (h : words width data = .ok values) :
    (∀ n ∈ values, n < Nat.pow 256 width) ∧ ofWords width values = data := by
  rw [words] at h
  split at h <;> rename_i hwhole
  · cases h
  obtain rfl := Except.ok.inj h
  refine ⟨fun n hn => ?_, ?_⟩
  · obtain ⟨piece, hpiece, rfl⟩ := List.mem_map.1 hn
    exact Nat.lt_of_lt_of_le (number_lt piece)
      (Nat.pow_le_pow_right (by decide) (length_le_of_mem_pieces hpiece))
  · rw [ofWords, List.flatMap_map]
    exact flatMap_pieces hwidth (Nat.le_refl _) (Nat.dvd_of_mod_eq_zero (Decidable.not_not.1 hwhole))

/-- Numbers that fit are written again, if they are determined by their values. -/
theorem map_write_read {α : Type} {width : Nat} {write : α → Nat} {read : Nat → α}
    (hwrite : ∀ n, n < Nat.pow 256 width → write (read n) = n) {values : List Nat}
    (h : ∀ n ∈ values, n < Nat.pow 256 width) : (values.map read).map write = values := by
  have hsame : ∀ n ∈ values, (write ∘ read) n = id n := fun n hn => hwrite n (h n hn)
  rw [List.map_map, List.map_congr_left hsame, List.map_id]

/-- Values that were read from numbers are written as these. -/
theorem exists_of_map_words {α β : Type} {make : List α → β} {width : Nat} {read : Nat → α} {data : Bytes}
    {result : β} (h : (words width data).map (fun v => make (v.map read)) = .ok result)
    (write : α → Nat) (hwidth : 0 < width)
    (hwrite : ∀ n, n < Nat.pow 256 width → write (read n) = n) :
    ∃ values, make values = result ∧ ofWords width (values.map write) = data := by
  obtain ⟨numbers, hwords, hresult⟩ := map_eq_ok_iff.1 h
  obtain ⟨hfits, hdata⟩ := of_words_eq_ok hwidth hwords
  exact ⟨numbers.map read, hresult, by rw [map_write_read hwrite hfits, hdata]⟩

theorem map_of_readBools {data : Bytes} {values : List Bool} (h : readBools data = .ok values) :
    (values.map fun b => if b then 1 else 0) = data := by
  induction data generalizing values with
  | nil =>
    obtain rfl := Except.ok.inj h
    rfl
  | cons b rest ih =>
    rw [readBools] at h
    split at h
    · obtain ⟨values, hrest, rfl⟩ := map_eq_ok_iff.1 h
      simp_all
    · split at h
      · obtain ⟨values, hrest, rfl⟩ := map_eq_ok_iff.1 h
        simp_all
      · cases h

/-- **Elements that were read** are of the type asked for, and have the bytes that they were read
from. Together with its converse this makes reading and writing inverse to each other. -/
theorem of_elements_eq_ok {type : ElementType} {data : Bytes} {e : Elements}
    (h : elements type data = .ok e) : e.type = type ∧ ofElements e = data := by
  -- What has to be shown for each type is that a number below the bound is the number of the
  -- element that is made of it.
  cases type with
  | int8 =>
    obtain ⟨v, rfl, hv⟩ := exists_of_map_words h (fun x : Int8 => x.toUInt8.toNat) (by decide)
      (fun n hn => by simpa using Nat.mod_eq_of_lt hn)
    exact ⟨rfl, hv⟩
  | uint8 =>
    obtain ⟨v, rfl, hv⟩ := exists_of_map_words h UInt8.toNat (by decide)
      (fun n hn => Nat.mod_eq_of_lt hn)
    exact ⟨rfl, hv⟩
  | int16 =>
    obtain ⟨v, rfl, hv⟩ := exists_of_map_words h (fun x : Int16 => x.toUInt16.toNat) (by decide)
      (fun n hn => by simpa using Nat.mod_eq_of_lt hn)
    exact ⟨rfl, hv⟩
  | uint16 =>
    obtain ⟨v, rfl, hv⟩ := exists_of_map_words h UInt16.toNat (by decide)
      (fun n hn => Nat.mod_eq_of_lt hn)
    exact ⟨rfl, hv⟩
  | int32 =>
    obtain ⟨v, rfl, hv⟩ := exists_of_map_words h (fun x : Int32 => x.toUInt32.toNat) (by decide)
      (fun n hn => by simpa using Nat.mod_eq_of_lt hn)
    exact ⟨rfl, hv⟩
  | uint32 =>
    obtain ⟨v, rfl, hv⟩ := exists_of_map_words h UInt32.toNat (by decide)
      (fun n hn => Nat.mod_eq_of_lt hn)
    exact ⟨rfl, hv⟩
  | int64 =>
    obtain ⟨v, rfl, hv⟩ := exists_of_map_words h (fun x : Int64 => x.toUInt64.toNat) (by decide)
      (fun n hn => by simpa using Nat.mod_eq_of_lt hn)
    exact ⟨rfl, hv⟩
  | uint64 =>
    obtain ⟨v, rfl, hv⟩ := exists_of_map_words h UInt64.toNat (by decide)
      (fun n hn => Nat.mod_eq_of_lt hn)
    exact ⟨rfl, hv⟩
  | float32 =>
    obtain ⟨v, rfl, hv⟩ := exists_of_map_words h Single.toNat (by decide)
      (fun n hn => Nat.mod_eq_of_lt hn)
    exact ⟨rfl, hv⟩
  | float64 =>
    obtain ⟨v, rfl, hv⟩ := exists_of_map_words h Double.toNat (by decide)
      (fun n hn => Nat.mod_eq_of_lt hn)
    exact ⟨rfl, hv⟩
  | bool =>
    obtain ⟨values, hvalues, rfl⟩ := map_eq_ok_iff.1 h
    exact ⟨rfl, map_of_readBools hvalues⟩

/-! ## Which bytes are elements

Two things can be wrong with bytes: their number, and, for truth values, a byte other than
0 and 1. The reader finds the first of these and reports it; what it accepts is exactly
the rest. -/

/-- A byte that stands for a truth value. -/
def IsTruth (b : UInt8) : Prop := b = 0 ∨ b = 1

/-- **Bytes that are values of a type** divide into elements, and those of truth values are 0 or
1. This says nothing of how bytes are read, so it can be compared with what the reader accepts. -/
def Fits (type : ElementType) (data : Bytes) : Prop :=
  type.size ∣ data.length ∧ (type = .bool → ∀ b ∈ data, IsTruth b)

/-- **What is wrong with bytes**: they do not divide into elements of the type, or a byte is the
first that is no truth value. -/
def IsFault (type : ElementType) (data : Bytes) : Fault → Prop
  | .ragged length size => length = data.length ∧ size = type.size ∧ ¬ size ∣ length
  | .notBool byte => type = .bool ∧ ∃ before after, data = before ++ byte :: after
      ∧ (∀ b ∈ before, IsTruth b) ∧ ¬ IsTruth byte

variable {type : ElementType} {data : Bytes} {fault : Fault}

theorem not_fits_of_isFault (h : IsFault type data fault) : ¬ Fits type data := by
  intro hfits
  cases fault with
  | ragged length size =>
    obtain ⟨rfl, rfl, hragged⟩ := h
    exact hragged hfits.1
  | notBool byte =>
    obtain ⟨rfl, before, after, rfl, -, hbyte⟩ := h
    exact hbyte (hfits.2 rfl byte (List.mem_append_right _ List.mem_cons_self))

theorem map_words_cases {α : Type} (width : Nat) (data : Bytes) (make : List Nat → α) :
    (width ∣ data.length ∧ ∃ e, (words width data).map make = .ok e)
      ∨ (¬ width ∣ data.length
        ∧ (words width data).map make = .error (.ragged data.length width)) := by
  rw [words, Nat.dvd_iff_mod_eq_zero]
  split <;> rename_i hwhole
  · exact .inr ⟨hwhole, rfl⟩
  · exact .inl ⟨Decidable.not_not.1 hwhole, _, rfl⟩

/-- **Truth values are read** if every byte is one, and otherwise the first byte that is none is
reported. The byte that is reported is the first in the order of the bytes, since reading goes
through them from the left and stops there. -/
theorem readBools_cases (data : Bytes) :
    ((∀ b ∈ data, IsTruth b) ∧ ∃ values, readBools data = .ok values)
      ∨ ∃ byte, IsFault .bool data (.notBool byte) ∧ readBools data = .error (.notBool byte) := by
  induction data with
  | nil => exact .inl ⟨nofun, [], rfl⟩
  | cons b rest ih =>
    rw [readBools]
    by_cases hb : IsTruth b
    -- Which of the two values it is does not matter: both branches go on with the rest.
    · obtain ⟨value, hread⟩ : ∃ value, (if b = 0 then (readBools rest).map (false :: ·)
          else if b = 1 then (readBools rest).map (true :: ·) else .error (.notBool b))
            = (readBools rest).map (value :: ·) := by
        rcases hb with rfl | rfl
        · exact ⟨false, rfl⟩
        · exact ⟨true, rfl⟩
      rw [hread]
      rcases ih with ⟨htruth, values, hvalues⟩ | ⟨byte, hfault, herror⟩
      · exact .inl ⟨List.forall_mem_cons.2 ⟨hb, htruth⟩, _, by rw [hvalues]; rfl⟩
      · obtain ⟨-, before, after, rfl, hbefore, hbyte⟩ := hfault
        have hall : ∀ c ∈ b :: before, IsTruth c := List.forall_mem_cons.2 ⟨hb, hbefore⟩
        exact .inr ⟨byte, ⟨rfl, b :: before, after, rfl, hall, hbyte⟩, by rw [herror]; rfl⟩
    · obtain ⟨hzero, hone⟩ := not_or.1 hb
      rw [if_neg hzero, if_neg hone]
      exact .inr ⟨b, ⟨rfl, [], rest, rfl, nofun, hb⟩, rfl⟩

/-- **Bytes that fit are elements**, and of others it is said what is wrong with them. One of the
two always holds and never both, as bytes that fit have no fault. -/
theorem elements_cases (type : ElementType) (data : Bytes) :
    (Fits type data ∧ ∃ e, elements type data = .ok e)
      ∨ ∃ fault, IsFault type data fault ∧ elements type data = .error fault := by
  cases type with
  | bool =>
    have hread : elements .bool data = (readBools data).map .bool := rfl
    rw [hread]
    rcases readBools_cases data with ⟨htruth, values, hvalues⟩ | ⟨byte, hbyte, herror⟩
    · exact .inl ⟨⟨Nat.one_dvd _, fun _ => htruth⟩, .bool values, by rw [hvalues]; rfl⟩
    · exact .inr ⟨.notBool byte, hbyte, by rw [herror]; rfl⟩
  | int8 | uint8 | int16 | uint16 | int32 | uint32 | int64 | uint64 | float32 | float64 =>
    exact (map_words_cases _ data _).imp (fun ⟨hwhole, h⟩ => ⟨⟨hwhole, nofun⟩, h⟩)
      fun ⟨hragged, h⟩ => ⟨.ragged _ _, ⟨rfl, rfl, hragged⟩, h⟩

theorem exists_elements_iff : (∃ e, elements type data = .ok e) ↔ Fits type data := by
  rcases elements_cases type data with ⟨hfits, h⟩ | ⟨fault, hfault, h⟩
  · exact iff_of_true h hfits
  · rw [h]
    exact iff_of_false nofun (not_fits_of_isFault hfault)

/-- **Elements and bytes** of a type determine each other. From left to right it says that nothing
but what was written is read, and from right to left that all of it is. -/
theorem elements_eq_ok_iff {e : Elements} :
    elements type data = .ok e ↔ e.type = type ∧ ofElements e = data :=
  ⟨of_elements_eq_ok, fun ⟨htype, hdata⟩ => htype ▸ hdata ▸ elements_ofElements e⟩

/-! ## The order of bytes

The place of every byte is fixed by the position of its element, the width of the type and
the significance of the byte. The statements so far would hold of any order that is used
for writing and reading alike. -/

/-- The numbers of elements: their bits, and 0 or 1 for truth values. -/
def wordsOf : Elements → List Nat
  | .int8 v => v.map fun x => x.toUInt8.toNat
  | .uint8 v => v.map UInt8.toNat
  | .int16 v => v.map fun x => x.toUInt16.toNat
  | .uint16 v => v.map UInt16.toNat
  | .int32 v => v.map fun x => x.toUInt32.toNat
  | .uint32 v => v.map UInt32.toNat
  | .int64 v => v.map fun x => x.toUInt64.toNat
  | .uint64 v => v.map UInt64.toNat
  | .float32 v => v.map Single.toNat
  | .float64 v => v.map Double.toNat
  | .bool v => v.map Bool.toNat

theorem length_wordsOf (e : Elements) : (wordsOf e).length = e.size := by
  cases e <;> exact List.length_map _

/-- **Every element takes as many bytes** as its type says. The bytes are those of one number for
each element, at the width of the type; this is what fixes the place of each byte. -/
theorem ofElements_eq (e : Elements) : ofElements e = ofWords e.type.size (wordsOf e) := by
  cases e with
  | bool v =>
    show (v.map fun b => if b then 1 else 0) = (v.map Bool.toNat).flatMap (bytes 1)
    induction v with
    | nil => rfl
    | cons b rest ih =>
      rw [List.map_cons, List.map_cons, List.flatMap_cons, ← ih]
      cases b <;> rfl
  | int8 | uint8 | int16 | uint16 | int32 | uint32 | int64 | uint64 | float32 | float64 => rfl

theorem length_ofElements (e : Elements) : (ofElements e).length = e.size * e.type.size := by
  rw [ofElements_eq, length_ofWords, length_wordsOf, Nat.mul_comm]

theorem getElem?_bytes {width j : Nat} (h : j < width) (n : Nat) :
    (bytes width n)[j]? = some (n / Nat.pow 256 j % 256).toUInt8 := by
  induction width generalizing j n with
  | zero => exact absurd h (Nat.not_lt_zero j)
  | succ width ih =>
    cases j with
    | zero =>
      rw [bytes, List.getElem?_cons_zero]
      exact congrArg (fun m => some (m % 256).toUInt8) (Nat.div_one n).symm
    | succ j =>
      rw [bytes, List.getElem?_cons_succ, ih (Nat.lt_of_succ_lt_succ h), Nat.div_div_eq_div_mul]
      exact congrArg (fun m => some (n / m % 256).toUInt8) (Nat.mul_comm _ _)

/-- The bytes of numbers follow one another, the least significant of each first. -/
theorem getElem?_ofWords {width j : Nat} (h : j < width) (values : List Nat) (i : Nat) :
    (ofWords width values)[i * width + j]?
      = values[i]?.map fun n => (n / Nat.pow 256 j % 256).toUInt8 := by
  induction values generalizing i with
  | nil => rfl
  | cons n rest ih =>
    have hlength := length_bytes width n
    show (bytes width n ++ ofWords width rest)[i * width + j]? = _
    cases i with
    | zero =>
      rw [Nat.zero_mul, Nat.zero_add, List.getElem?_append_left (hlength.symm ▸ h),
        getElem?_bytes h]
      rfl
    | succ i =>
      have hindex : (i + 1) * width + j = width + (i * width + j) := by
        rw [Nat.succ_mul, Nat.add_comm _ width, Nat.add_assoc]
      rw [hindex, List.getElem?_append_right (by omega), hlength, Nat.add_sub_cancel_left, ih]
      rfl

/-- **Elements and bytes correspond.** The bytes that are elements of a type are those that fit,
and of others it is said what is wrong with them. Elements have the bytes that they are read from,
and are read from the bytes that they have. Each takes as many bytes as its type says, the least
significant first. -/
theorem elements_correspond :
    (∀ type data, (∃ e, elements type data = .ok e) ↔ Fits type data)
      ∧ (∀ type data fault, elements type data = .error fault → IsFault type data fault)
      ∧ (∀ type data e, elements type data = .ok e ↔ e.type = type ∧ ofElements e = data)
      ∧ ∀ e, elements e.type (ofElements e) = .ok e
        ∧ (ofElements e).length = e.size * e.type.size
        ∧ ∀ i j, j < e.type.size → (ofElements e)[i * e.type.size + j]?
            = (wordsOf e)[i]?.map fun n => (n / Nat.pow 256 j % 256).toUInt8 := by
  refine ⟨fun _ _ => exists_elements_iff, fun type data fault h => ?_,
    fun _ _ _ => elements_eq_ok_iff,
    fun e => ⟨elements_ofElements e, length_ofElements e, fun i j hj => ?_⟩⟩
  · rcases elements_cases type data with ⟨-, e, he⟩ | ⟨other, hfault, hother⟩
    · cases h.symm.trans he
    · exact Except.error.inj (h.symm.trans hother) ▸ hfault
  · rw [ofElements_eq]
    exact getElem?_ofWords hj _ i

/-- A byte of truth values is 0 or 1. -/
example : elements .bool [0, 1, 2] = .error (.notBool 2) := rfl

/-! ## Geometries

Points and faces are three numbers each, so their bytes are those of three times as many
numbers. -/

theorem words_ofPoints (l : List Point) :
    words 4 (ofPoints l) = .ok ((l.flatMap Point.coordinates).map Single.toNat) := by
  refine words_ofWords (by decide) fun n hn => ?_
  obtain ⟨x, -, rfl⟩ := List.mem_map.1 hn
  exact x.bits.toNat_lt

theorem words_ofFaces (l : List Face) :
    words 8 (ofFaces l) = .ok ((l.flatMap Face.corners).map UInt64.toNat) := by
  refine words_ofWords (by decide) fun n hn => ?_
  obtain ⟨x, -, rfl⟩ := List.mem_map.1 hn
  exact x.toNat_lt

theorem length_coordinates (l : List Point) : (l.flatMap Point.coordinates).length = 3 * l.length := by
  induction l with
  | nil => rfl
  | cons p rest ih =>
    rw [List.flatMap_cons, List.length_append, ih, List.length_cons, Nat.mul_succ, Nat.add_comm]
    rfl

theorem length_corners (l : List Face) : (l.flatMap Face.corners).length = 3 * l.length := by
  induction l with
  | nil => rfl
  | cons f rest ih =>
    rw [List.flatMap_cons, List.length_append, ih, List.length_cons, Nat.mul_succ, Nat.add_comm]
    rfl

/-- Points are made up again from their coordinates. -/
theorem points_coordinates (l : List Point) : points (l.flatMap Point.coordinates) = l := by
  induction l with
  | nil => rfl
  | cons p rest ih => exact congrArg (p :: ·) ih

/-- Faces are made up again from their corners. -/
theorem faces_corners (l : List Face) : faces (l.flatMap Face.corners) = l := by
  induction l with
  | nil => rfl
  | cons f rest ih => exact congrArg (f :: ·) ih

/-- Points have the coordinates that they were made of. -/
theorem coordinates_points {l : List Single} (h : 3 ∣ l.length) :
    (points l).flatMap Point.coordinates = l := by
  induction l using points.induct with
  | case1 x y z rest ih =>
    rw [points, List.flatMap_cons, ih ((Nat.dvd_add_left (Nat.dvd_refl 3)).1 h)]
    rfl
  | case2 l hl =>
    rcases l with _ | ⟨x, _ | ⟨y, _ | ⟨z, rest⟩⟩⟩
    · rfl
    · exact absurd h (show ¬ 3 ∣ 1 by decide)
    · exact absurd h (show ¬ 3 ∣ 2 by decide)
    · exact absurd rfl (hl x y z rest)

/-- Faces have the corners that they were made of. -/
theorem corners_faces {l : List UInt64} (h : 3 ∣ l.length) :
    (faces l).flatMap Face.corners = l := by
  induction l using faces.induct with
  | case1 a b c rest ih =>
    rw [faces, List.flatMap_cons, ih ((Nat.dvd_add_left (Nat.dvd_refl 3)).1 h)]
    rfl
  | case2 l hl =>
    rcases l with _ | ⟨a, _ | ⟨b, _ | ⟨c, rest⟩⟩⟩
    · rfl
    · exact absurd h (show ¬ 3 ∣ 1 by decide)
    · exact absurd h (show ¬ 3 ∣ 2 by decide)
    · exact absurd rfl (hl a b c rest)

/-- **Points that were read** have the bytes that they were read from. The numbers have to come in
threes, which is checked before points are made of them. -/
theorem ofPoints_of_words {data : Bytes} {values : List Nat} (h : words 4 data = .ok values)
    (hwhole : 3 ∣ values.length) : ofPoints (points (values.map Single.ofNat)) = data := by
  obtain ⟨hfits, hdata⟩ := of_words_eq_ok (by decide) h
  rw [ofPoints, coordinates_points (by rwa [List.length_map]),
    map_write_read (fun n hn => Nat.mod_eq_of_lt hn) hfits, hdata]

/-- **Faces that were read** have the bytes that they were read from. Whether the corners are
vertices is not asked here: a face that names a vertex which does not exist has its bytes as
well. -/
theorem ofFaces_of_words {data : Bytes} {values : List Nat} (h : words 8 data = .ok values)
    (hwhole : 3 ∣ values.length) : ofFaces (faces (values.map Nat.toUInt64)) = data := by
  obtain ⟨hfits, hdata⟩ := of_words_eq_ok (by decide) h
  rw [ofFaces, corners_faces (by rwa [List.length_map]),
    map_write_read (fun n hn => Nat.mod_eq_of_lt hn) hfits, hdata]

end Meshwork.Payload
