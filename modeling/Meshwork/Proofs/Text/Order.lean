import Mathlib.Data.List.Basic
import Mathlib.Tactic.SplitIfs
import Meshwork.Proofs.Text.Utf8

/-!
# Texts in the order of their bytes

Texts are compared by their characters, and UTF-8 keeps this order: texts compare like their
bytes (`Utf8.bytesOf_lt_iff`). A character that takes more bytes has a greater first one, and of
two that take as many, the one with the greater number has the greater byte where the two first
differ.
-/

namespace Meshwork

namespace Utf8

/-- Of two lists of bytes that do not differ in the first one, the rest decides. -/
theorem cons_ofNat_lt {m n : Nat} (hn : n < 256) {s t : Bytes} (hle : m ≤ n)
    (hrest : m = n → s < t) : UInt8.ofNat m :: s < UInt8.ofNat n :: t := by
  rw [List.cons_lt_cons_iff]
  rcases Nat.lt_or_eq_of_le hle with hlt | rfl
  · left
    rwa [UInt8.lt_iff_toNat_lt, toNat_ofNat_of_lt (Nat.lt_trans hlt hn), toNat_ofNat_of_lt hn]
  · exact .inr ⟨rfl, hrest rfl⟩

/-- **A lesser character has lesser bytes**, whatever follows the two. The longer encodings have
greater first bytes, and among those of one length the bits are in the order of their weight. -/
theorem utf8EncodeChar_append_lt {c d : Char} (h : c < d) (s t : Bytes) :
    String.utf8EncodeChar c ++ s < String.utf8EncodeChar d ++ t := by
  have hlt : c.val.toNat < d.val.toNat := UInt32.lt_iff_toNat_lt.1 h
  have hd : d.val.toNat < 0x110000 := by
    have hvalid : d.val.toNat < 0xD800 ∨ 0xDFFF < d.val.toNat ∧ d.val.toNat < 0x110000 := d.valid
    omega
  unfold String.utf8EncodeChar
  generalize c.val.toNat = v at hlt
  generalize d.val.toNat = w at hlt hd
  show (if _ then _ else _) ++ s < (if _ then _ else _) ++ t
  have htwo : ∀ n, n ≤ 0x7ff → n / 64 % 0x20 = n / 64 := by omega
  have hthree : ∀ n, n ≤ 0xffff → n / 4096 % 0x10 = n / 4096 := by omega
  have hfour : ∀ n, n < 0x110000 → n / 262144 % 0x08 = n / 262144 := by omega
  -- More bytes begin with a greater one, and of as many the six bits from the first on decide.
  split_ifs
  any_goals omega
  any_goals simp (disch := omega) only [htwo, hthree, hfour]
  all_goals refine cons_ofNat_lt (by omega) (by omega) fun hfirst => ?_
  any_goals omega
  all_goals refine cons_ofNat_lt (by omega) (by omega) fun hsecond => ?_
  any_goals omega
  all_goals refine cons_ofNat_lt (by omega) (by omega) fun hthird => ?_
  any_goals omega
  · exact cons_ofNat_lt (by omega) (by omega) fun hfourth => by omega

/-- Lesser characters have lesser bytes. -/
theorem flatMap_lt {s t : List Char} (h : s < t) :
    s.flatMap String.utf8EncodeChar < t.flatMap String.utf8EncodeChar := by
  induction List.lex_lt.2 h with
  | @nil d t =>
    obtain ⟨b, tail, hbytes, -⟩ := step_utf8EncodeChar d []
    rw [List.flatMap_cons, hbytes]
    exact List.nil_lt_cons _ _
  | rel hcd => exact utf8EncodeChar_append_lt hcd _ _
  | cons hst ih =>
    exact List.append_left_lt (ih (List.lex_lt.1 hst))

/-- **Texts are in the order of their bytes.** So it does not matter whether names are compared as
texts or as bytes. -/
theorem bytesOf_lt_iff {a b : String} : bytesOf a < bytesOf b ↔ a < b := by
  refine ⟨fun h => ?_, flatMap_lt⟩
  by_contra hnot
  rcases Std.le_iff_lt_or_eq.1 (Std.not_lt.1 hnot) with hba | rfl
  · exact List.lt_irrefl _ (List.lt_trans h (flatMap_lt hba))
  · exact List.lt_irrefl _ h

end Utf8

end Meshwork
