import Meshwork.Text.Bytes

/-!
# Text and its bytes

`Utf8.symbols` reads the bytes of a text as the characters of the text,
without a gap (`Utf8.symbols_bytesOf`). What has to be seen is that the reader
of one character takes exactly the bytes that were written for it
(`Utf8.step_utf8EncodeChar`): a first byte that narrows the range of the second
one does so only where a shorter form, a surrogate, or what lies beyond the
last code point would begin.
-/

namespace Meshwork

namespace Utf8

/-! ## One character

The bytes of a character are computed from its number by division. Reading puts the parts
together again; the arithmetic is the same for two, three and four bytes. -/

theorem toNat_ofNat_of_lt {n : Nat} (h : n < 256) : (UInt8.ofNat n).toNat = n := by
  rw [UInt8.toNat_ofNat']
  exact Nat.mod_eq_of_lt h

/-- A byte that goes on with a character adds its six bits. -/
theorem follow_cons {read value following bits : Nat} {low high : UInt8} {rest : Bytes}
    (hbits : bits < 64) (hlow : low.toNat ≤ bits + 0x80) (hhigh : bits + 0x80 ≤ high.toNat) :
    follow read value (following + 1) low high (UInt8.ofNat (bits + 0x80) :: rest)
      = follow (read + 1) (64 * value + bits) following 0x80 0xBF rest := by
  have hbyte : (UInt8.ofNat (bits + 0x80)).toNat = bits + 0x80 := toNat_ofNat_of_lt (by omega)
  have hin : (decide (low ≤ UInt8.ofNat (bits + 0x80))
      && decide (UInt8.ofNat (bits + 0x80) ≤ high)) = true := by
    rw [Bool.and_eq_true, decide_eq_true_eq, decide_eq_true_eq, UInt8.le_iff_toNat_le,
      UInt8.le_iff_toNat_le, hbyte]
    exact ⟨hlow, hhigh⟩
  rw [follow, if_pos hin, hbyte, Nat.add_sub_cancel]

/-- Any six bits may stand in a byte whose range is not narrowed. -/
theorem follow_cons_any {read value following bits : Nat} {rest : Bytes} (hbits : bits < 64) :
    follow read value (following + 1) 0x80 0xBF (UInt8.ofNat (bits + 0x80) :: rest)
      = follow (read + 1) (64 * value + bits) following 0x80 0xBF rest :=
  follow_cons hbits (Nat.le_add_left _ _) (Nat.le_of_lt_succ (Nat.add_lt_add_right hbits 0x80))

/-- The reading of a first byte by its number. -/
theorem lead?_ofNat {n : Nat} (h : n < 256) :
    lead? (UInt8.ofNat n) =
      if n < 0xC2 then none
      else if n ≤ 0xDF then some ⟨1, 0x80, 0xBF, n - 0xC0⟩
      else if n = 0xE0 then some ⟨2, 0xA0, 0xBF, 0⟩
      else if n = 0xED then some ⟨2, 0x80, 0x9F, 0xD⟩
      else if n ≤ 0xEF then some ⟨2, 0x80, 0xBF, n - 0xE0⟩
      else if n = 0xF0 then some ⟨3, 0x90, 0xBF, 0⟩
      else if n ≤ 0xF3 then some ⟨3, 0x80, 0xBF, n - 0xF0⟩
      else if n = 0xF4 then some ⟨3, 0x80, 0x8F, 4⟩
      else none := by
  unfold lead?
  simp only [UInt8.lt_iff_toNat_lt, UInt8.le_iff_toNat_le, ← UInt8.toNat_inj, toNat_ofNat_of_lt h]
  rfl

/-- A first byte above 127 leads to the bytes that follow it. -/
theorem step_ofNat {n : Nat} {lead : Lead} (rest : Bytes) (hlow : 0x80 ≤ n) (h : n < 256)
    (hlead : lead? (UInt8.ofNat n) = some lead) :
    step (UInt8.ofNat n) rest = follow 1 lead.payload lead.following lead.low lead.high rest := by
  have hn : ¬ UInt8.ofNat n < 0x80 := by
    rw [UInt8.lt_iff_toNat_lt, toNat_ofNat_of_lt h]
    exact Nat.not_lt.2 hlow
  rw [step, if_neg hn, hlead]

/-- A character of two bytes. -/
theorem step_two {v : Nat} (rest : Bytes) (hlow : 0x7f < v) (hhigh : v ≤ 0x7ff) :
    step (UInt8.ofNat (v / 64 % 0x20 + 0xc0)) (UInt8.ofNat (v % 0x40 + 0x80) :: rest)
      = .char (Char.ofNat v) rest := by
  have hlead : lead? (UInt8.ofNat (v / 64 % 0x20 + 0xc0)) = some ⟨1, 0x80, 0xBF, v / 64⟩ := by
    rw [lead?_ofNat (by omega), if_neg (by omega), if_pos (by omega),
      show v / 64 % 0x20 + 0xc0 - 0xc0 = v / 64 by omega]
  rw [step_ofNat _ (by omega) (by omega) hlead]
  show follow 1 (v / 64) 1 0x80 0xBF _ = _
  rw [follow_cons_any (Nat.mod_lt _ (by decide)), follow, show 64 * (v / 64) + v % 64 = v by omega]

/-- A character of three bytes. The first byte narrows the range of the second
one where shorter forms and surrogates would begin alike. -/
theorem step_three {v : Nat} (rest : Bytes) (hlow : 0x7ff < v) (hhigh : v ≤ 0xffff)
    (hvalid : v < 0xD800 ∨ 0xDFFF < v) :
    step (UInt8.ofNat (v / 4096 % 0x10 + 0xe0)) (UInt8.ofNat (v / 64 % 0x40 + 0x80)
        :: UInt8.ofNat (v % 0x40 + 0x80) :: rest)
      = .char (Char.ofNat v) rest := by
  have hfollow : ∀ low high,
      lead? (UInt8.ofNat (v / 4096 % 0x10 + 0xe0)) = some ⟨2, low, high, v / 4096⟩ →
      low.toNat ≤ v / 64 % 0x40 + 0x80 → v / 64 % 0x40 + 0x80 ≤ high.toNat →
      step (UInt8.ofNat (v / 4096 % 0x10 + 0xe0)) (UInt8.ofNat (v / 64 % 0x40 + 0x80)
          :: UInt8.ofNat (v % 0x40 + 0x80) :: rest) = .char (Char.ofNat v) rest := by
    intro low high hlead hl hh
    rw [step_ofNat _ (by omega) (by omega) hlead]
    show follow 1 (v / 4096) 2 low high _ = _
    rw [follow_cons (Nat.mod_lt _ (by decide)) hl hh, follow_cons_any (Nat.mod_lt _ (by decide)),
      follow, show 64 * (64 * (v / 4096) + v / 64 % 0x40) + v % 0x40 = v by omega]
  -- The range of the second byte is what keeps the value within its bounds.
  by_cases hE0 : v / 4096 = 0
  · refine hfollow 0xA0 0xBF ?_ (show 0xA0 ≤ _ by omega) (show _ ≤ 0xBF by omega)
    rw [hE0]
    rfl
  by_cases hED : v / 4096 = 0xD
  · refine hfollow 0x80 0x9F ?_ (Nat.le_add_left _ _) (show _ ≤ 0x9F by omega)
    rw [hED]
    rfl
  · refine hfollow 0x80 0xBF ?_ (Nat.le_add_left _ _) (show _ ≤ 0xBF by omega)
    rw [lead?_ofNat (by omega), if_neg (by omega), if_neg (by omega), if_neg (by omega),
      if_neg (by omega), if_pos (by omega),
      show v / 4096 % 0x10 + 0xe0 - 0xe0 = v / 4096 by omega]

/-- A character of four bytes. -/
theorem step_four {v : Nat} (rest : Bytes) (hlow : 0xffff < v) (hhigh : v < 0x110000) :
    step (UInt8.ofNat (v / 262144 % 0x08 + 0xf0)) (UInt8.ofNat (v / 4096 % 0x40 + 0x80)
        :: UInt8.ofNat (v / 64 % 0x40 + 0x80) :: UInt8.ofNat (v % 0x40 + 0x80) :: rest)
      = .char (Char.ofNat v) rest := by
  -- The lead byte bounds the byte behind it: from below for the first lead, from above for the
  -- last.
  have hfollow : ∀ low high,
      lead? (UInt8.ofNat (v / 262144 % 0x08 + 0xf0)) = some ⟨3, low, high, v / 262144⟩ →
      low.toNat ≤ v / 4096 % 0x40 + 0x80 → v / 4096 % 0x40 + 0x80 ≤ high.toNat →
      step (UInt8.ofNat (v / 262144 % 0x08 + 0xf0)) (UInt8.ofNat (v / 4096 % 0x40 + 0x80)
          :: UInt8.ofNat (v / 64 % 0x40 + 0x80) :: UInt8.ofNat (v % 0x40 + 0x80) :: rest)
        = .char (Char.ofNat v) rest := by
    intro low high hlead hl hh
    rw [step_ofNat _ (by omega) (by omega) hlead]
    show follow 1 (v / 262144) 3 low high _ = _
    rw [follow_cons (Nat.mod_lt _ (by decide)) hl hh, follow_cons_any (Nat.mod_lt _ (by decide)),
      follow_cons_any (Nat.mod_lt _ (by decide)), follow,
      show 64 * (64 * (64 * (v / 262144) + v / 4096 % 0x40) + v / 64 % 0x40) + v % 0x40 = v by omega]
  by_cases hF0 : v / 262144 = 0
  · refine hfollow 0x90 0xBF ?_ (show 0x90 ≤ _ by omega) (show _ ≤ 0xBF by omega)
    rw [hF0]
    rfl
  by_cases hF4 : v / 262144 = 4
  · refine hfollow 0x80 0x8F ?_ (Nat.le_add_left _ _) (show _ ≤ 0x8F by omega)
    rw [hF4]
    rfl
  · refine hfollow 0x80 0xBF ?_ (Nat.le_add_left _ _) (show _ ≤ 0xBF by omega)
    rw [lead?_ofNat (by omega), if_neg (by omega), if_neg (by omega), if_neg (by omega),
      if_neg (by omega), if_neg (by omega), if_neg (by omega), if_pos (by omega),
      show v / 262144 % 0x08 + 0xf0 - 0xf0 = v / 262144 by omega]

/-- **A character is read back** from its bytes, whatever follows them. The first byte says how
many there are, and the others are marked as such. -/
theorem step_utf8EncodeChar (c : Char) (rest : Bytes) :
    ∃ b tail, String.utf8EncodeChar c = b :: tail ∧ step b (tail ++ rest) = .char c rest := by
  have hvalid : c.val.toNat < 0xD800 ∨ 0xDFFF < c.val.toNat ∧ c.val.toNat < 0x110000 := c.valid
  have hc : Char.ofNat c.val.toNat = c := Char.ofNat_toNat c
  generalize hv : c.val.toNat = v at hvalid hc
  rw [String.utf8EncodeChar, hv, ← hc]
  -- One case for each length; that no surrogate is a character is used for three bytes.
  by_cases h1 : v ≤ 0x7f
  · refine ⟨UInt8.ofNat v, [], if_pos h1, ?_⟩
    have hb : (UInt8.ofNat v).toNat = v := toNat_ofNat_of_lt (by omega)
    have hlt : UInt8.ofNat v < 0x80 := by
      rw [UInt8.lt_iff_toNat_lt, hb]
      exact Nat.lt_succ_of_le h1
    rw [step, if_pos hlt, hb]
    rfl
  by_cases h2 : v ≤ 0x7ff
  · exact ⟨_, _, (if_neg h1).trans (if_pos h2), step_two rest (by omega) h2⟩
  by_cases h3 : v ≤ 0xffff
  · exact ⟨_, _, (if_neg h1).trans ((if_neg h2).trans (if_pos h3)),
      step_three rest (by omega) h3 (by omega)⟩
  · exact ⟨_, _, (if_neg h1).trans ((if_neg h2).trans (if_neg h3)),
      step_four rest (by omega) (by omega)⟩

/-! ## Whole texts

Two readers go through bytes, one that marks what is no text and one that fails there. On
the bytes of a text both take the same steps. -/

/-- Reading goes on behind the characters of a text. -/
theorem symbolsFrom_append (read : List (Option Char)) (chars : List Char) (rest : Bytes)
    {fuel : Nat} (hfuel : chars.length ≤ fuel) :
    symbolsFrom read fuel (chars.flatMap String.utf8EncodeChar ++ rest)
      = symbolsFrom ((chars.map some).reverse ++ read) (fuel - chars.length) rest := by
  induction chars generalizing read fuel with
  | nil => rfl
  | cons c chars ih =>
    obtain ⟨b, tail, hbytes, hstep⟩ :=
      step_utf8EncodeChar c (chars.flatMap String.utf8EncodeChar ++ rest)
    obtain ⟨fuel, rfl⟩ : ∃ n, fuel = n + 1 := ⟨fuel - 1, by simp at hfuel; omega⟩
    rw [List.flatMap_cons, hbytes, List.append_assoc, List.cons_append, symbolsFrom, hstep]
    show symbolsFrom (some c :: read) fuel _ = _
    rw [ih _ (Nat.le_of_succ_le_succ hfuel)]
    simp

/-- A character takes at least one byte. -/
theorem length_le_length_flatMap (chars : List Char) :
    chars.length ≤ (chars.flatMap String.utf8EncodeChar).length := by
  induction chars with
  | nil => exact Nat.le_refl 0
  | cons c chars ih =>
    obtain ⟨b, tail, hbytes, -⟩ := step_utf8EncodeChar c []
    rw [List.flatMap_cons, hbytes, List.length_append, List.length_cons, List.length_cons]
    omega

/-- **A text is read back from its bytes**, without gaps. A gap would be a byte that belongs to no
character. -/
theorem symbols_bytesOf (text : String) : symbols (bytesOf text) = text.toList.map some := by
  have h := symbolsFrom_append [] text.toList [] (length_le_length_flatMap text.toList)
  rw [List.append_nil] at h
  unfold symbols bytesOf
  rw [h, symbolsFrom, List.append_nil, List.reverse_reverse]

/-- The strict reader takes the same steps, and finds no fault. -/
theorem decodeFrom_flatMap (index : Nat) (read chars : List Char) {fuel : Nat}
    (hfuel : chars.length ≤ fuel) :
    decodeFrom index read fuel (chars.flatMap String.utf8EncodeChar)
      = .ok (read.reverse ++ chars) := by
  induction chars generalizing index read fuel with
  | nil => simp [decodeFrom]
  | cons c chars ih =>
    obtain ⟨b, tail, hbytes, hstep⟩ :=
      step_utf8EncodeChar c (chars.flatMap String.utf8EncodeChar)
    obtain ⟨fuel, rfl⟩ : ∃ n, fuel = n + 1 := ⟨fuel - 1, by simp at hfuel; omega⟩
    rw [List.flatMap_cons, hbytes, List.cons_append, decodeFrom, hstep]
    show decodeFrom _ (c :: read) fuel _ = _
    rw [ih _ _ (Nat.le_of_succ_le_succ hfuel), List.reverse_cons, List.append_assoc]
    rfl

/-- **A text is decoded from its bytes.** Not every list of bytes is one that comes from a text,
so there is no converse. -/
theorem decode_bytesOf (text : String) : decode (bytesOf text) = .ok text := by
  rw [decode, bytesOf, decodeFrom_flatMap 0 [] _ (length_le_length_flatMap text.toList)]
  exact congrArg Except.ok String.ofList_toList

/-- **Texts with the same bytes** are the same. Digests are taken of bytes, and this is what
brings them back to texts. -/
theorem bytesOf_inj {a b : String} : bytesOf a = bytesOf b ↔ a = b := by
  refine ⟨fun h => ?_, congrArg bytesOf⟩
  have hsymbols := congrArg symbols h
  rw [symbols_bytesOf, symbols_bytesOf, List.map_inj_right fun _ _ => Option.some.inj] at hsymbols
  exact String.toList_inj.1 hsymbols

end Utf8

end Meshwork
