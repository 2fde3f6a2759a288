import Meshwork.Proofs.Number.Layout
import Meshwork.Proofs.Text.Delimited

/-!
# Numbers as words

Numbers and names are written with letters, digits, points and minus signs only, so
each ends where any other character follows (`told_of_isWord`). Integers have texts of
their own; for floats see `Single.same_of_write_eq`.
-/

namespace Meshwork

/-- Whether the character may stand in a number or a name. -/
def isWordChar (c : Char) : Bool := c.isAlphanum || c == '.' || c == '-'

/-- **A word**: the text of a number, or a name. No white space, no comma and no bracket is among
these characters, by which lists are laid out. -/
structure IsWord (text : String) : Prop where
  /-- It is not empty. -/
  ne_nil : text.toList ≠ []
  /-- It has no other characters. -/
  chars : ∀ c ∈ text.toList, isWordChar c = true

theorem isWord_of_all {text : String} (hne : text.toList ≠ [])
    (hall : text.toList.all isWordChar = true) : IsWord text := ⟨hne, List.all_eq_true.1 hall⟩

theorem IsWord.cons {text : String} (h : IsWord text) :
    ∃ c rest, text.toList = c :: rest ∧ isWordChar c = true := by
  obtain ⟨c, rest, htext⟩ := List.exists_cons_of_ne_nil h.ne_nil
  exact ⟨c, rest, htext, h.chars c (htext ▸ List.mem_cons_self)⟩

/-- **Words are told apart** by what is no word. Each of them ends where the first such character
comes, so the two are taken off the texts as wholes. -/
theorem told_of_isWord {stops : Char → Prop} (hstops : ∀ c, stops c → isWordChar c = false)
    {a b : String} (ha : IsWord a) (hb : IsWord b) : Told stops (a = b) a.toList b.toList := by
  have hchars : ∀ {text : String}, IsWord text → ∀ c ∈ text.toList, ¬ stops c := by
    intro text htext c hc hstop
    exact absurd (hstops c hstop) (ne_false_of_eq_true (htext.chars c hc))
  exact (told_of_chars (hchars ha) (hchars hb)).mono (fun _ => id) String.toList_inj.1

theorem isWordChar_of_isDecimalDigit {c : Char} (h : isDecimalDigit c = true) :
    isWordChar c = true := by
  have hdigit : c.isDigit = true := h
  simp [isWordChar, Char.isAlphanum, hdigit]

/-! ## Integers

Natural numbers are digits; integers may have a minus sign before them. -/

theorem isWordChar_toDigits (n : Nat) : ∀ c ∈ Nat.toDigits 10 n, isWordChar c = true :=
  fun c hc => isWordChar_of_isDecimalDigit (Decimal.isDecimalDigit_toDigits n c hc)

/-- A natural number is a word. -/
theorem isWord_nat (n : Nat) : IsWord (toString n) :=
  ⟨Decimal.toList_natural n ▸ Nat.toDigits_ne_nil, Decimal.toList_natural n ▸ isWordChar_toDigits n⟩

theorem toString_nat_inj {m n : Nat} (h : toString m = toString n) : m = n := by
  have hdigits := congrArg String.toList h
  rw [Decimal.toList_natural, Decimal.toList_natural] at hdigits
  rw [← Decimal.ofDigits_toDigits m, hdigits, Decimal.ofDigits_toDigits]

/-- An integer is a word. -/
theorem isWord_int (n : Int) : IsWord (toString n) := by
  cases n with
  | ofNat n => exact isWord_nat n
  | negSucc n =>
    refine ⟨?_, ?_⟩ <;> rw [Decimal.toList_negSucc]
    · exact List.cons_ne_nil _ _
    · exact List.forall_mem_cons.2 ⟨by decide, isWordChar_toDigits _⟩

theorem toString_int_inj {m n : Int} (h : toString m = toString n) : m = n := by
  have hread := Decimal.readExponent?_text m (.inl rfl)
  rw [h, Decimal.readExponent?_text n (.inl rfl)] at hread
  exact (Option.some.inj hread).symm

/-! ## Floats

Which characters a float is written with depends on the layout: a sign before the exponent
is shown by one of them only. -/

namespace FloatLayout

/-- Whether the character may stand in the text of a number: only some layouts show the
sign of a positive exponent. -/
def isNumberChar (layout : FloatLayout) (c : Char) : Bool :=
  isDecimalDigit c || c == '.' || c == 'e' || c == '-' || c == '+' && layout.plusSign

section Characters

variable (layout : FloatLayout)

theorem isNumberChar_of_isDecimalDigit {c : Char} (h : isDecimalDigit c = true) :
    layout.isNumberChar c = true := by
  simp [isNumberChar, h]

theorem isNumberChar_toDigits (n : Nat) : ∀ c ∈ Nat.toDigits 10 n, layout.isNumberChar c = true :=
  fun c hc => layout.isNumberChar_of_isDecimalDigit (Decimal.isDecimalDigit_toDigits n c hc)

theorem isNumberChar_replicate (count : Nat) :
    ∀ c ∈ List.replicate count '0', layout.isNumberChar c = true :=
  fun c hc => layout.isNumberChar_of_isDecimalDigit (isDecimalDigit_replicate count c hc)

theorem isNumberChar_int (n : Int) : ∀ c ∈ (toString n).toList, layout.isNumberChar c = true := by
  cases n with
  | ofNat n =>
    rw [show (toString (Int.ofNat n)).toList = _ from Decimal.toList_natural n]
    exact layout.isNumberChar_toDigits n
  | negSucc n =>
    rw [Decimal.toList_negSucc]
    exact List.forall_mem_cons.2 ⟨by simp [isNumberChar], layout.isNumberChar_toDigits _⟩

/-- With the point among the digits there are digits, zeros and the point. -/
theorem isNumberChar_positional (d : Digits) :
    ∀ c ∈ layout.positional d, layout.isNumberChar c = true := by
  have hdigits : ∀ c ∈ d.chars, layout.isNumberChar c = true := layout.isNumberChar_toDigits d.value
  have hpoint : layout.isNumberChar '.' = true := by simp [isNumberChar]
  have hzero : layout.isNumberChar '0' = true := layout.isNumberChar_of_isDecimalDigit (by decide)
  unfold positional
  dsimp only
  split
  · rw [List.cons_append, List.cons_append, List.forall_mem_cons, List.forall_mem_cons,
      List.forall_mem_append]
    exact ⟨hzero, hpoint, layout.isNumberChar_replicate _, hdigits⟩
  split
  · rw [List.forall_mem_append, List.forall_mem_append]
    refine ⟨⟨hdigits, layout.isNumberChar_replicate _⟩, ?_⟩
    split
    · exact List.forall_mem_cons.2 ⟨hpoint, List.forall_mem_singleton.2 hzero⟩
    · exact nofun
  · rw [List.forall_mem_append, List.forall_mem_cons]
    exact ⟨fun c hc => hdigits c (List.mem_of_mem_take hc), hpoint,
      fun c hc => hdigits c (List.mem_of_mem_drop hc)⟩

/-- With an exponent there are the letter and a sign as well. -/
theorem isNumberChar_scientific (d : Digits) :
    ∀ c ∈ layout.scientific d, layout.isNumberChar c = true := by
  have hdigits : ∀ c ∈ d.chars, layout.isNumberChar c = true := layout.isNumberChar_toDigits d.value
  have hpoint : layout.isNumberChar '.' = true := by simp [isNumberChar]
  -- The plus sign is only there in the layouts that count it among their characters.
  have hexponent : ∀ c ∈ 'e' :: (if layout.plusSign && 1 ≤ d.point
      then '+' :: (toString (d.point - 1)).toList else (toString (d.point - 1)).toList),
      layout.isNumberChar c = true := by
    refine List.forall_mem_cons.2 ⟨by simp [isNumberChar], ?_⟩
    split <;> rename_i hsign
    · rw [Bool.and_eq_true] at hsign
      exact List.forall_mem_cons.2 ⟨by simp [isNumberChar, hsign.1], layout.isNumberChar_int _⟩
    · exact layout.isNumberChar_int _
  unfold scientific
  rcases hchars : d.chars with _ | ⟨c, _ | ⟨next, rest⟩⟩ <;> rw [hchars] at hdigits
  · exact nofun
  · exact List.forall_mem_cons.2 ⟨hdigits c List.mem_cons_self, hexponent⟩
  · refine List.forall_mem_cons.2 ⟨hdigits c List.mem_cons_self,
      List.forall_mem_cons.2 ⟨hpoint, List.forall_mem_append.2 ⟨fun a ha => ?_, hexponent⟩⟩⟩
    exact hdigits a (List.mem_cons_of_mem _ ha)

/-- **The text of a number** has no other characters. They are digits, the point, the sign and the
mark of the exponent. -/
theorem isNumberChar_write (f : BinaryFormat) (negative : Bool) (m : Nat) (e : Int) :
    ∀ c ∈ (layout.write f (.finite negative m e)).toList, layout.isNumberChar c = true := by
  rw [toList_write_finite, List.forall_mem_append]
  have hpoint : layout.isNumberChar '.' = true := by simp [isNumberChar]
  have hzero : layout.isNumberChar '0' = true := layout.isNumberChar_of_isDecimalDigit (by decide)
  refine ⟨?_, ?_⟩
  · split
    · exact List.forall_mem_singleton.2 (by simp [isNumberChar])
    · exact nofun
  -- Behind the sign: zero, or the digits in one of the two ways.
  unfold unsigned
  split
  · refine List.forall_mem_cons.2 ⟨hzero, ?_⟩
    split
    · exact List.forall_mem_cons.2 ⟨hpoint, List.forall_mem_singleton.2 hzero⟩
    · exact nofun
  dsimp only
  split
  · exact layout.isNumberChar_positional _
  · exact layout.isNumberChar_scientific _

end Characters

theorem isWordChar_of_isNumberChar {layout : FloatLayout} (hsign : layout.plusSign = false)
    {c : Char} (h : layout.isNumberChar c = true) : isWordChar c = true := by
  simp only [isNumberChar, hsign, Bool.and_false, Bool.or_false, Bool.or_eq_true, beq_iff_eq] at h
  rcases h with ((h | rfl) | rfl) | rfl
  · exact isWordChar_of_isDecimalDigit h
  all_goals decide

/-- **A float is a word**, in a layout without plus signs whose names are words. The names are
asked about because every layout chooses its own. -/
theorem isWord_write {layout : FloatLayout} (hsign : layout.plusSign = false)
    (hnames : ∀ name ∈ [layout.nan, layout.infinity, layout.negativeInfinity],
      name.toList ≠ [] ∧ name.toList.all isWordChar = true)
    {f : BinaryFormat} (hwide : 2 * 2 ^ f.fractionWidth < 10 ^ 16) (a : Nat) :
    IsWord (layout.write f (f.decode a)) := by
  have hname : ∀ name ∈ [layout.nan, layout.infinity, layout.negativeInfinity], IsWord name :=
    fun name hmem => isWord_of_all (hnames name hmem).1 (hnames name hmem).2
  cases ha : f.decode a with
  | nan => exact hname layout.nan (by simp)
  | infinite negative =>
    cases negative with
    | false => exact hname layout.infinity (by simp)
    | true => exact hname layout.negativeInfinity (by simp)
  | finite negative m e =>
    obtain ⟨-, -, hnumber⟩ := BinaryFormat.of_decode_finite ha
    -- The text of a number is not empty since it can be read.
    obtain ⟨n, hread, -⟩ := ofText?_unsigned hwide hnumber layout
    refine ⟨fun hempty => ?_, fun c hc =>
      isWordChar_of_isNumberChar hsign (layout.isNumberChar_write f negative m e c hc)⟩
    rw [toList_write_finite] at hempty
    rw [(List.append_eq_nil_iff.1 hempty).2] at hread
    cases hread

end FloatLayout

theorem Single.isWord_write (x : Single) : IsWord (x.write .canonical) :=
  FloatLayout.isWord_write rfl (by decide) (by decide) x.toNat

end Meshwork
