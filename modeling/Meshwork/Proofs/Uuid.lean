import Mathlib.Algebra.Group.Nat.Defs
import Mathlib.Data.List.Induction
import Meshwork.Uuid

/-!
# The spellings of identifiers

An identifier may be spelled in many ways: with digits of either case, with or
without hyphens, and with hyphens also within braces or after a scheme
(`Uuid.Spells`). Reading accepts these and nothing else
(`Uuid.ofText?_eq_some_iff`), so no text spells two identifiers.

Digits are compared with those of the usual text, which has as many as there can
be: 32 digits write every number below `16 ^ 32`, and each in one way.
-/

namespace Meshwork.Uuid

/-! ## Digits

The digits of an identifier are the last 32 of its number, with zeros in front. In either
case they are read to the same number. -/

/-- A character is a digit if it is one in lower case. -/
theorem digit?_eq_some_iff {c : Char} {d : Nat} :
    digit? c = some d ↔ d < 16 ∧ c.toLower = d.digitChar := by
  by_cases hc : c.toNat < 128
  · have hsmall : ∀ i : Fin 128, ∀ d ∈ digit? (Char.ofNat i), d < 16 := by decide
    -- There are few enough of these characters to compare them all.
    have hdigit : ∀ (i : Fin 128) (d : Fin 16),
        digit? (Char.ofNat i) = some d.val ↔ (Char.ofNat i).toLower = d.val.digitChar := by
      decide +kernel
    have hchar : Char.ofNat (⟨c.toNat, hc⟩ : Fin 128) = c := Char.ofNat_toNat c
    constructor
    · intro h
      have hd := hsmall ⟨c.toNat, hc⟩ d (hchar.symm ▸ h)
      exact ⟨hd, hchar ▸ (hdigit ⟨c.toNat, hc⟩ ⟨d, hd⟩).1 (hchar.symm ▸ h)⟩
    · rintro ⟨hd, h⟩
      exact hchar ▸ (hdigit ⟨c.toNat, hc⟩ ⟨d, hd⟩).2 (hchar.symm ▸ h)
  · have hlower : c.toLower = c := by
      refine dif_neg fun h => hc ?_
      have hle : c.toNat ≤ 'Z'.toNat := UInt32.le_iff_toNat_le.1 h.2
      exact Nat.lt_of_le_of_lt hle (by decide)
    rw [digit?, if_neg hc, hlower]
    refine iff_of_false nofun ?_
    rintro ⟨hd, rfl⟩
    have hsmall : ∀ d : Fin 16, d.val.digitChar.toNat < 128 := by decide
    exact hc (hsmall ⟨d, hd⟩)

/-- The last digits of a number, `count` of them. -/
def lastDigits : (count : Nat) → Nat → List Char
  | 0, _ => []
  | count + 1, n => lastDigits count (n / 16) ++ [(n % 16).digitChar]

@[simp] theorem length_lastDigits (count n : Nat) : (lastDigits count n).length = count := by
  induction count generalizing n with
  | zero => rfl
  | succ count ih => rw [lastDigits, List.length_append, ih, List.length_singleton]

theorem lastDigits_zero (count : Nat) : lastDigits count 0 = List.replicate count '0' := by
  induction count with
  | zero => rfl
  | succ count ih =>
    rw [lastDigits, Nat.zero_div, ih, List.replicate_succ']
    rfl

/-- The digits of a number, filled up with zeros, are its last ones. -/
theorem replicate_append_hexDigits {count n : Nat} (hn : n < 16 ^ (count + 1)) :
    List.replicate (count + 1 - (hexDigits n).length) '0' ++ hexDigits n
      = lastDigits (count + 1) n := by
  induction count generalizing n with
  | zero =>
    rw [Nat.zero_add, Nat.pow_one] at hn
    rw [hexDigits, Nat.toDigits_of_lt_base hn, lastDigits, Nat.mod_eq_of_lt hn]
    rfl
  | succ count ih =>
    rw [lastDigits]
    by_cases hlt : n < 16
    · rw [hexDigits, Nat.toDigits_of_lt_base hlt, Nat.div_eq_of_lt hlt, lastDigits_zero,
        Nat.mod_eq_of_lt hlt]
      rfl
    · have hdiv : n / 16 < 16 ^ (count + 1) := Nat.div_lt_of_lt_mul (by rwa [Nat.mul_comm])
      rw [← ih hdiv, hexDigits, Nat.toDigits_of_base_le (by decide) (Nat.not_lt.1 hlt),
        ← hexDigits, List.length_append, List.length_singleton, Nat.add_sub_add_right,
        List.append_assoc]

theorem digits_eq (u : Uuid) : u.digits = lastDigits 32 u.bits.toNat :=
  replicate_append_hexDigits (Nat.lt_of_lt_of_le u.bits.isLt (by decide))

theorem readDigits_append (value : Nat) (digits : List Char) (c : Char) :
    readDigits value (digits ++ [c])
      = (readDigits value digits).bind fun n => (digit? c).map fun d => 16 * n + d := by
  induction digits generalizing value with
  | nil => cases h : digit? c <;> simp [readDigits, h]
  | cons first rest ih =>
    rw [List.cons_append, readDigits, readDigits, Option.bind_assoc]
    exact congrArg _ (funext fun d => ih _)

/-- **Digits are read as the number** whose last digits they are, whatever their case. The number
of digits bounds the number, and zeros in front are kept. -/
theorem readDigits_eq_some_iff {digits : List Char} {n : Nat} :
    readDigits 0 digits = some n
      ↔ n < 16 ^ digits.length ∧ digits.map Char.toLower = lastDigits digits.length n := by
  induction digits using List.reverseRecOn generalizing n with
  | nil => simp [readDigits, lastDigits, eq_comm]
  | append_singleton digits c ih =>
    rw [readDigits_append, Option.bind_eq_some_iff]
    simp only [Option.map_eq_some_iff, ih, digit?_eq_some_iff, List.length_append,
      List.length_singleton, lastDigits, List.map_append, List.map_singleton, Nat.pow_succ]
    constructor
    · rintro ⟨m, ⟨hm, hdigits⟩, d, ⟨hd, hc⟩, rfl⟩
      have hdiv : (16 * m + d) / 16 = m := by omega
      have hmod : (16 * m + d) % 16 = d := by omega
      exact ⟨by omega, by rw [hdiv, hmod, hdigits, hc]⟩
    · rintro ⟨hn, hdigits⟩
      obtain ⟨hrest, hlast⟩ := List.append_inj' hdigits rfl
      exact ⟨n / 16, ⟨Nat.div_lt_of_lt_mul (by rwa [Nat.mul_comm]), hrest⟩, n % 16,
        ⟨Nat.mod_lt _ (by decide), List.singleton_inj.1 hlast⟩, Nat.div_add_mod n 16⟩

theorem length_of_map_toLower {digits : List Char} {u : Uuid}
    (h : digits.map Char.toLower = u.digits) : digits.length = 32 := by
  rw [← List.length_map Char.toLower, h, digits_eq, length_lastDigits]

/-- **Digits are read** as the identifier that has them in lower case. There are thirty-two of
them for every identifier. -/
theorem ofDigits?_eq_some_iff {digits : List Char} {u : Uuid} :
    ofDigits? digits = some u ↔ digits.map Char.toLower = u.digits := by
  rw [ofDigits?]
  split <;> rename_i hlength
  · rw [Option.map_eq_some_iff]
    simp only [readDigits_eq_some_iff, hlength]
    constructor
    · rintro ⟨n, ⟨hn, hdigits⟩, rfl⟩
      have hbits : (ofNat n).bits.toNat = n := Nat.mod_eq_of_lt (Nat.lt_of_lt_of_le hn (by decide))
      rw [hdigits, digits_eq, hbits]
    · intro h
      refine ⟨u.bits.toNat, ⟨Nat.lt_of_lt_of_le u.bits.isLt (by decide), h.trans (digits_eq u)⟩, ?_⟩
      rw [ofNat, BitVec.ofNat_toNat, BitVec.setWidth_eq]
  · exact iff_of_false nofun fun h => hlength (length_of_map_toLower h)

theorem exists_of_mem_lastDigits {count n : Nat} {c : Char} (h : c ∈ lastDigits count n) :
    ∃ d < 16, c = d.digitChar := by
  induction count generalizing n with
  | zero => cases h
  | succ count ih =>
    rcases List.mem_append.1 h with h | h
    · exact ih h
    · exact ⟨n % 16, Nat.mod_lt _ (by decide), List.mem_singleton.1 h⟩

/-- The digits of an identifier in either case are digits. -/
theorem exists_digit? {digits : List Char} {u : Uuid} (h : digits.map Char.toLower = u.digits)
    {c : Char} (hc : c ∈ digits) : ∃ d, digit? c = some d := by
  have hlower : c.toLower ∈ lastDigits 32 u.bits.toNat :=
    digits_eq u ▸ h ▸ List.mem_map_of_mem hc
  obtain ⟨d, hd, hchar⟩ := exists_of_mem_lastDigits hlower
  exact ⟨d, digit?_eq_some_iff.2 ⟨hd, hchar⟩⟩

/-! ## Hyphens

Hyphens stand at four fixed places. Removing them and looking at the lengths of the groups
is the same as asking for these places. -/

theorem length_hyphenated {digits : List Char} (h : digits.length = 32) :
    (hyphenated digits).length = 36 := by
  simp [hyphenated, h]

/-- **Groups between hyphens** are those of digits. The hyphens are then at the four places where
they belong. -/
theorem eq_hyphenated_of_groups? {text digits : List Char} (h : groups? text = some digits) :
    text = hyphenated digits := by
  have hjoin : ['-'].intercalate (text.splitOnP (· = '-')) = text := by
    have hsplit : ['-'].intercalate (text.splitOn '-') = text := List.intercalate_splitOn ..
    rwa [List.splitOn_eq_splitOnP] at hsplit
  rw [groups?] at h
  generalize text.splitOnP (· = '-') = groups at h hjoin
  split at h <;> rename_i hlengths
  · obtain rfl := Option.some.inj h
    rcases groups with _ | ⟨a, _ | ⟨b, _ | ⟨c, _ | ⟨d, _ | ⟨e, _ | ⟨f, rest⟩⟩⟩⟩⟩⟩ <;>
      simp only [List.map_cons, List.map_nil, List.cons.injEq, reduceCtorEq, and_true, and_false,
        List.cons_ne_nil] at hlengths
    obtain ⟨ha, hb, hc, hd, he⟩ := hlengths
    rw [← hjoin]
    simp [hyphenated, List.intercalate, List.drop_append, List.drop_eq_nil_of_le, ha, hb, hc, hd]
  · cases h

/-- Digits between which hyphens are put are found again. -/
theorem groups?_hyphenated {digits : List Char} (hlength : digits.length = 32)
    (h : '-' ∉ digits) : groups? (hyphenated digits) = some digits := by
  -- Without a hyphen in it, a piece is one group.
  have hpiece : ∀ piece : List Char, piece ⊆ digits → piece.splitOnP (· = '-') = [piece] :=
    fun piece hsub => List.splitOnP_eq_singleton fun c hc => by
      simpa using fun heq : c = '-' => h (heq ▸ hsub hc)
  have hinner : ∀ i j, (digits.drop i).take j ⊆ digits := fun i j =>
    List.Subset.trans (List.take_subset ..) (List.drop_subset ..)
  have hcut : ∀ xs ys : List Char, (xs ++ '-' :: ys).splitOnP (· = '-')
      = xs.splitOnP (· = '-') ++ ys.splitOnP (· = '-') :=
    fun xs ys => List.splitOnP_append_cons xs ys (decide_eq_true rfl)
  have hsplit : (hyphenated digits).splitOnP (· = '-') = [digits.take 8, (digits.drop 8).take 4,
      (digits.drop 12).take 4, (digits.drop 16).take 4, digits.drop 20] := by
    rw [hyphenated, hcut, hcut, hcut, hcut, hpiece _ (List.take_subset ..), hpiece _ (hinner 8 4),
      hpiece _ (hinner 12 4), hpiece _ (hinner 16 4), hpiece _ (List.drop_subset ..)]
    rfl
  have hnext : ∀ i j, (digits.drop i).take j ++ digits.drop (i + j) = digits.drop i := fun i j => by
    rw [← List.drop_drop, List.take_append_drop]
  rw [groups?, hsplit, if_pos (by simp [hlength])]
  simp only [List.flatten_cons, List.flatten_nil, List.append_nil]
  rw [hnext 16 4, hnext 12 4, hnext 8 4, List.take_append_drop]

/-! ## What may stand around

Braces and the scheme are recognized by the first characters, none of which is a digit. -/

/-- **What is unwrapped** stood alone, within braces, or after the scheme. In the third case the
letters of the scheme may be of either case. -/
theorem unwrap_cases (text : List Char) :
    unwrap text = text ∨ text = '\x7b' :: unwrap text ++ ['\x7d']
      ∨ ∃ scheme, scheme.map Char.toLower = "urn:uuid:".toList ∧ text = scheme ++ unwrap text := by
  unfold unwrap
  split
  · split <;> rename_i hlast
    · obtain ⟨inner, rfl⟩ := List.getLast?_eq_some_iff.1 hlast
      rw [List.dropLast_concat]
      exact .inr (.inl rfl)
    · exact .inl rfl
  · rw [List.splitAt_eq]
    dsimp only
    split <;> rename_i hscheme
    · exact .inr (.inr ⟨_, hscheme, (List.take_append_drop 9 _).symm⟩)
    · exact .inl rfl

theorem unwrap_braced (inner : List Char) : unwrap ('\x7b' :: inner ++ ['\x7d']) = inner := by
  rw [List.cons_append, unwrap, if_pos List.getLast?_concat, List.dropLast_concat]

/-- What does not begin with a brace may begin with the scheme. -/
theorem unwrap_cons {c : Char} (hc : c ≠ '\x7b') (rest : List Char) :
    unwrap (c :: rest) = if ((c :: rest).take 9).map Char.toLower = "urn:uuid:".toList then
      (c :: rest).drop 9 else c :: rest := by
  unfold unwrap
  split <;> rename_i heq
  · exact absurd (List.cons.inj heq).1 hc
  · rw [List.splitAt_eq]

theorem unwrap_urn {scheme : List Char} (h : scheme.map Char.toLower = "urn:uuid:".toList)
    (inner : List Char) : unwrap (scheme ++ inner) = inner := by
  have hlength : scheme.length = 9 := by
    rw [← List.length_map Char.toLower, h]
    rfl
  obtain _ | ⟨c, rest⟩ := scheme
  · cases hlength
  have hc : c ≠ '\x7b' := by
    rintro rfl
    exact absurd (List.cons.inj h).1 (by decide)
  rw [List.cons_append, unwrap_cons hc, ← List.cons_append, List.take_left' hlength,
    List.drop_left' hlength, if_pos h]

/-- What begins with a digit stands alone. -/
theorem unwrap_digit {c : Char} {d : Nat} (h : digit? c = some d) (rest : List Char) :
    unwrap (c :: rest) = c :: rest := by
  have hbrace : digit? '\x7b' = none := by decide
  have hc : c ≠ '\x7b' := by
    rintro rfl
    cases hbrace.symm.trans h
  obtain ⟨hd, hlower⟩ := digit?_eq_some_iff.1 h
  rw [unwrap_cons hc]
  refine if_neg fun hscheme => ?_
  have hfirst : c.toLower = 'u' := (List.cons.inj hscheme).1
  have hnone : ∀ d : Fin 16, d.val.digitChar ≠ 'u' := by decide
  exact hnone ⟨d, hd⟩ (hlower.symm.trans hfirst)

/-! ## Spellings

The spellings are listed one by one. What is read is exactly what one of them gives. -/

/-- **The spellings of digits.** Braces and scheme are used with hyphens only, and not together. -/
inductive Spelling (digits : List Char) : List Char → Prop where
  /-- The digits without hyphens. -/
  | plain : Spelling digits digits
  /-- The digits in groups. -/
  | grouped : Spelling digits (hyphenated digits)
  /-- The groups within braces. -/
  | braced : Spelling digits ('\x7b' :: hyphenated digits ++ ['\x7d'])
  /-- The groups after the scheme, in either case. -/
  | urn {scheme : List Char} (h : scheme.map Char.toLower = "urn:uuid:".toList) :
    Spelling digits (scheme ++ hyphenated digits)

/-- **A text spells an identifier** with digits of either case. Each digit may be of the one case
or of the other. -/
def Spells (text : String) (u : Uuid) : Prop :=
  ∃ digits : List Char, digits.map Char.toLower = u.digits ∧ Spelling digits text.toList

/-- **The digits of a spelling are found** once what surrounds them is taken off, in every
spelling but the plain one. The plain one is told by its length, before anything is taken off. -/
theorem groups?_unwrap {u : Uuid} {digits text : List Char}
    (h : digits.map Char.toLower = u.digits) (htext : Spelling digits text)
    (hlength : text.length ≠ 32) : groups? (unwrap text) = some digits := by
  have hdigits := length_of_map_toLower h
  -- A hyphen is no digit, so the groups are cut where they were joined.
  have hgroups : groups? (hyphenated digits) = some digits := by
    refine groups?_hyphenated hdigits fun hmem => ?_
    have hhyphen : digit? '-' = none := by decide
    obtain ⟨d, hd⟩ := exists_digit? h hmem
    cases hhyphen.symm.trans hd
  cases htext with
  | plain => exact absurd hdigits hlength
  | grouped =>
    obtain _ | ⟨c, rest⟩ := digits
    · cases hdigits
    obtain ⟨d, hd⟩ := exists_digit? h List.mem_cons_self
    have hfirst : hyphenated (c :: rest) = c :: (hyphenated (c :: rest)).tail := rfl
    rwa [hfirst, unwrap_digit hd, ← hfirst]
  | braced => rwa [unwrap_braced]
  | urn hscheme => rwa [unwrap_urn hscheme]

/-- **An identifier is read from its spellings**, and from no other text. In particular a text
spells one identifier at most. -/
theorem ofText?_eq_some_iff {text : String} {u : Uuid} : ofText? text = some u ↔ Spells text u := by
  rw [ofText?, Spells]
  generalize text.toList = chars
  -- Only the plain spelling is as long as its digits.
  split <;> rename_i hlength
  · rw [ofDigits?_eq_some_iff]
    refine ⟨fun h => ⟨chars, h, .plain⟩, ?_⟩
    rintro ⟨digits, hdigits, hspelling⟩
    have hcount := length_hyphenated (length_of_map_toLower hdigits)
    cases hspelling with
    | plain => exact hdigits
    | grouped | braced | urn _ => simp [hcount] at hlength
  · rw [Option.bind_eq_some_iff]
    constructor
    · rintro ⟨digits, hgroups, hdigits⟩
      have htext := eq_hyphenated_of_groups? hgroups
      refine ⟨digits, ofDigits?_eq_some_iff.1 hdigits, ?_⟩
      rcases unwrap_cases chars with h | h | ⟨scheme, hscheme, h⟩
      · rw [← h, htext]
        exact .grouped
      · rw [h, htext]
        exact .braced
      · rw [h, htext]
        exact .urn hscheme
    · rintro ⟨digits, hdigits, hspelling⟩
      exact ⟨digits, groups?_unwrap hdigits hspelling hlength, ofDigits?_eq_some_iff.2 hdigits⟩

/-- **The usual text** is read back. It is the one with hyphens and in lower case. -/
theorem ofText?_text (u : Uuid) : ofText? u.text = some u := by
  have hlower : ∀ c ∈ u.digits, c.toLower = id c := by
    intro c hc
    obtain ⟨d, hd, rfl⟩ := exists_of_mem_lastDigits (digits_eq u ▸ hc)
    exact (by decide : ∀ d : Fin 16, d.val.digitChar.toLower = d.val.digitChar) ⟨d, hd⟩
  refine ofText?_eq_some_iff.2 ⟨u.digits, by rw [List.map_congr_left hlower, List.map_id], ?_⟩
  rw [text, String.toList_ofList]
  exact .grouped

end Meshwork.Uuid
