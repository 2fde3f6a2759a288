import Meshwork.Text.Hex

/-!
# Hexadecimal text reads back

`Hex.decode` inverts `Hex.encode` (`Hex.decode_encode`). The digits are ASCII, so
that each is one byte of the text, and the reader, which goes through the bytes
of the text by twos, meets the two digits of one byte at a time.

The reader goes on from what it has read so far, so the statement is proved for any bytes
read before.
-/

namespace Meshwork.Hex

/-- Every digit is one byte, which has the value of the digit. -/
theorem digit_spec {n : UInt8} (h : n < 16) :
    String.utf8EncodeChar (digit n) = [UInt8.ofNat (digit n).toNat]
      ∧ digitValue? (UInt8.ofNat (digit n).toNat) = some n := by
  have hall : ∀ i : Fin 16, String.utf8EncodeChar (digit (UInt8.ofNat i))
        = [UInt8.ofNat (digit (UInt8.ofNat i)).toNat]
      ∧ digitValue? (UInt8.ofNat (digit (UInt8.ofNat i)).toNat) = some (UInt8.ofNat i) := by
    decide
  have hn := hall ⟨n.toNat, UInt8.lt_iff_toNat_lt.1 h⟩
  rwa [UInt8.ofNat_toNat] at hn

/-- The high digit of a byte is a digit. -/
theorem div_lt (b : UInt8) : b / 16 < 16 := by
  rw [UInt8.lt_iff_toNat_lt, UInt8.toNat_div]
  exact Nat.div_lt_of_lt_mul b.toNat_lt

/-- The low digit of a byte is a digit. -/
theorem mod_lt (b : UInt8) : b % 16 < 16 := by
  rw [UInt8.lt_iff_toNat_lt, UInt8.toNat_mod]
  exact Nat.mod_lt _ (by decide)

/-- A byte is made up of its two digits. -/
theorem div_add_mod (b : UInt8) : 16 * (b / 16) + b % 16 = b := by
  rw [← UInt8.toNat_inj, UInt8.toNat_add, UInt8.toNat_mul, UInt8.toNat_div, UInt8.toNat_mod]
  have hb := b.toNat_lt
  show (16 * (b.toNat / 16) % 2 ^ 8 + b.toNat % 16) % 2 ^ 8 = b.toNat
  omega

/-- The digits of further bytes are read after whatever was read before. -/
theorem decodeFrom_encodeChars (position : Nat) (read bytes : Bytes) :
    decodeFrom position read ((encodeChars bytes).flatMap String.utf8EncodeChar)
      = .ok (read.reverse ++ bytes) := by
  induction bytes generalizing position read with
  | nil =>
    rw [List.append_nil]
    rfl
  | cons b rest ih =>
    obtain ⟨hhigh, hhigh'⟩ := digit_spec (div_lt b)
    obtain ⟨hlow, hlow'⟩ := digit_spec (mod_lt b)
    have hchars : encodeChars (b :: rest) = digit (b / 16) :: digit (b % 16) :: encodeChars rest := rfl
    rw [hchars, List.flatMap_cons, List.flatMap_cons, hhigh, hlow, List.singleton_append,
      List.singleton_append, decodeFrom, hhigh', hlow']
    show decodeFrom (position + 2) ((16 * (b / 16) + b % 16) :: read) _ = _
    rw [ih, div_add_mod, List.reverse_cons, List.append_assoc, List.singleton_append]

/-- The text takes two bytes for each byte. -/
theorem length_encodeChars (bytes : Bytes) :
    ((encodeChars bytes).flatMap String.utf8EncodeChar).length = 2 * bytes.length := by
  induction bytes with
  | nil => rfl
  | cons b rest ih =>
    have hchars : encodeChars (b :: rest) = digit (b / 16) :: digit (b % 16) :: encodeChars rest := rfl
    rw [hchars, List.flatMap_cons, List.flatMap_cons, (digit_spec (div_lt b)).1,
      (digit_spec (mod_lt b)).1]
    simp only [List.length_append, ih, List.length_cons, List.length_nil]
    omega

/-- **Bytes are read back** from their hexadecimal text. There are two digits to each, so bytes
and pairs of digits correspond. -/
theorem decode_encode (bytes : Bytes) : decode (encode bytes) = .ok bytes := by
  unfold decode encode bytesOf
  rw [String.toList_ofList]
  simp only [length_encodeChars]
  rw [if_neg (by omega), decodeFrom_encodeChars]
  rfl

end Meshwork.Hex
