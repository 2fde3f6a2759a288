import Meshwork.Proofs.Failure
import Meshwork.Proofs.Json.Pretty
import Meshwork.Proofs.Number.Word

/-!
# Numbers read back wherever they end

A number that is read back from its own text is read back from every document that
holds it (`Json.Number.ReadsAlone.readsBack`): each part of it is read up to where
it ends, and what may follow a number goes on with none of them.

Negative integers of 64 bits are read back (`Json.Number.readsBack_negative`). A float
need not be, since reading rounds twice, so for floats it stays a question to the text of
the one float.
-/

namespace Meshwork.Json

/-! ## The parts of a number

A reader stops by itself if it takes the same from a text whatever follows it, as long as
what follows may follow a number. This is closed under doing one thing after another, so
it is shown for the parts. -/

/-- **A reader that stops by itself**: it leaves an end of the text, and what may follow a number
changes nothing. For a number that is read alone it follows that it is read wherever it ends. -/
structure StopsItself {α : Type} (read : Symbols → Except Fault (α × Symbols)) : Prop where
  /-- An end of the text is left. -/
  leaves : ∀ {s part left}, read s = .ok (part, left) → left <:+ s
  /-- More text is left as well. -/
  reads : ∀ {s part left rest}, read s = .ok (part, left) → EndsNumber rest →
    read (s ++ rest) = .ok (part, left ++ rest)

/-- What takes nothing stops by itself. -/
theorem stopsItself_pure {α : Type} (part : α) : StopsItself fun s => .ok (part, s) where
  leaves h := by
    obtain ⟨-, rfl⟩ := Prod.mk.inj (Except.ok.inj h)
    exact List.suffix_refl _
  reads h _ := by
    obtain ⟨rfl, rfl⟩ := Prod.mk.inj (Except.ok.inj h)
    rfl

/-- One part after the other stops by itself. -/
theorem StopsItself.bind {α β : Type} {first : Symbols → Except Fault (α × Symbols)}
    {next : α → Symbols → Except Fault (β × Symbols)} (hfirst : StopsItself first)
    (hnext : ∀ part, StopsItself (next part)) :
    StopsItself fun s => first s >>= fun (part, left) => next part left where
  leaves h := by
    obtain ⟨⟨part, left⟩, hpart, h⟩ := bind_eq_ok_iff.1 h
    exact ((hnext part).leaves h).trans (hfirst.leaves hpart)
  reads h hrest := by
    obtain ⟨⟨part, left⟩, hpart, h⟩ := bind_eq_ok_iff.1 h
    exact bind_eq_ok_iff.2 ⟨_, hfirst.reads hpart hrest, (hnext part).reads h hrest⟩

theorem suffix_takeDigits (s : Symbols) : (takeDigits s).2 <:+ s := by
  induction s with
  | nil => exact List.suffix_refl _
  | cons symbol s ih =>
    cases symbol with
    | none => exact List.suffix_refl _
    | some c =>
      rw [takeDigits]
      split
      · exact ih.trans (List.suffix_cons _ _)
      · exact List.suffix_refl _

theorem takeDigits_append_ends (s : Symbols) {rest : Symbols} (hrest : EndsNumber rest) :
    takeDigits (s ++ rest) = ((takeDigits s).1, (takeDigits s).2 ++ rest) := by
  induction s with
  | nil => exact @takeDigits_append [] (fun _ => nofun) rest hrest.endsDigits
  | cons symbol s ih =>
    cases symbol with
    | none => rfl
    | some c =>
      rw [List.cons_append, takeDigits, takeDigits, ih]
      split <;> rfl

/-- Digits that are taken where they end are taken before what may follow a number. -/
theorem takeDigits_append_of_eq {s left rest : Symbols} {digits : List Char}
    (h : takeDigits s = (digits, left)) (hrest : EndsNumber rest) :
    takeDigits (s ++ rest) = (digits, left ++ rest) := by
  rw [takeDigits_append_ends s hrest, h]

theorem suffix_of_takeDigits {s left : Symbols} {digits : List Char}
    (h : takeDigits s = (digits, left)) : left <:+ s := by
  simpa [h] using suffix_takeDigits s

theorem readWhole_eq_ok_iff {s left : Symbols} {digits : List Char} :
    readWhole s = .ok (digits, left)
      ↔ takeDigits s = (digits, left) ∧ digits ≠ [] ∧ ∀ d more, digits ≠ '0' :: d :: more := by
  unfold readWhole
  split <;> rename_i htake <;> rw [htake]
  · exact iff_of_false nofun fun h => h.2.1 (Prod.mk.inj h.1).1.symm
  · exact iff_of_false nofun fun h => h.2.1 (Prod.mk.inj h.1).1.symm
  · exact iff_of_false nofun fun h => h.2.2 _ _ (Prod.mk.inj h.1).1.symm
  · rename_i _ hnil hzero
    refine ⟨fun h => ⟨Except.ok.inj h, ?_⟩, fun h => congrArg _ h.1⟩
    obtain ⟨rfl, rfl⟩ := Prod.mk.inj (Except.ok.inj h)
    exact ⟨hnil, hzero⟩

theorem stopsItself_readWhole : StopsItself readWhole where
  leaves h := suffix_of_takeDigits (readWhole_eq_ok_iff.1 h).1
  reads h hrest := by
    obtain ⟨htake, hdigits⟩ := readWhole_eq_ok_iff.1 h
    exact readWhole_eq_ok_iff.2 ⟨takeDigits_append_of_eq htake hrest, hdigits⟩

/-- Reads digits that must be there and makes something of them. -/
def readDigits {α : Type} (make : List Char → α) (s : Symbols) : Except Fault (α × Symbols) :=
  if !(takeDigits s).1.isEmpty then .ok (make (takeDigits s).1, (takeDigits s).2)
  else if (takeDigits s).2.isEmpty then .error .eofValue
  else .error .invalidNumber

theorem readDigits_eq_ok_iff {α : Type} {make : List Char → α} {s left : Symbols} {part : α} :
    readDigits make s = .ok (part, left)
      ↔ ∃ digits, takeDigits s = (digits, left) ∧ digits ≠ [] ∧ make digits = part := by
  unfold readDigits
  rcases takeDigits s with ⟨digits, after⟩
  cases digits with
  | nil => cases after <;> simp
  | cons c digits => simp [and_comm]

theorem stopsItself_readDigits {α : Type} (make : List Char → α) : StopsItself (readDigits make) where
  leaves h := by
    obtain ⟨digits, htake, -⟩ := readDigits_eq_ok_iff.1 h
    exact suffix_of_takeDigits htake
  reads h hrest := by
    obtain ⟨digits, htake, hdigits⟩ := readDigits_eq_ok_iff.1 h
    exact readDigits_eq_ok_iff.2 ⟨digits, takeDigits_append_of_eq htake hrest, hdigits⟩

/-- A fraction is read after a point. -/
theorem readFraction_cons (symbol : Option Char) (s : Symbols) :
    readFraction (symbol :: s)
      = if symbol = some '.' then readDigits some s else .ok (none, symbol :: s) := by
  split
  case isTrue h =>
    subst h
    rfl
  case isFalse h => rw [readFraction]; simpa using h

/-- **The fraction ends by itself**: where it is there, at the first symbol that is no digit, and
where it is not, at once. -/
theorem stopsItself_readFraction : StopsItself readFraction := by
  refine ⟨fun {s part left} h => ?_, fun {s part left rest} h hrest => ?_⟩ <;>
    -- Both halves look at the first symbol: a point starts a fraction, anything else leaves it out.
    rcases s with _ | ⟨symbol, s⟩
  · exact (stopsItself_pure none).leaves h
  · rw [readFraction_cons] at h
    split at h
    · exact ((stopsItself_readDigits some).leaves h).trans (List.suffix_cons _ _)
    · exact (stopsItself_pure none).leaves h
  · obtain ⟨rfl, rfl⟩ := Prod.mk.inj (Except.ok.inj h)
    exact readFraction_of_ends hrest
  · rw [List.cons_append, readFraction_cons]
    rw [readFraction_cons] at h
    split at h
    · rw [if_pos (by assumption)]
      exact (stopsItself_readDigits some).reads h hrest
    · rw [if_neg (by assumption)]
      exact (stopsItself_pure none).reads h hrest

/-- The sign that may stand before the digits of an exponent. -/
def takeExponentSign : Symbols → Bool × Symbols
  | some '-' :: rest => (true, rest)
  | some '+' :: rest => (false, rest)
  | rest => (false, rest)

/-- An exponent is read after its letter. -/
theorem readExponent_cons (c : Char) (s : Symbols) :
    readExponent (some c :: s)
      = if c = 'e' ∨ c = 'E' then
          readDigits (fun digits => some ((takeExponentSign s).1, digits)) (takeExponentSign s).2
        else .ok (none, some c :: s) := rfl

theorem suffix_takeExponentSign (s : Symbols) : (takeExponentSign s).2 <:+ s := by
  unfold takeExponentSign
  split
  · exact List.suffix_cons _ _
  · exact List.suffix_cons _ _
  · exact List.suffix_refl _

theorem takeExponentSign_append {s : Symbols} (hs : s ≠ []) (rest : Symbols) :
    takeExponentSign (s ++ rest) = ((takeExponentSign s).1, (takeExponentSign s).2 ++ rest) := by
  obtain ⟨symbol, s, rfl⟩ := List.exists_cons_of_ne_nil hs
  by_cases hminus : symbol = some '-'
  · subst hminus
    rfl
  by_cases hplus : symbol = some '+'
  · subst hplus
    rfl
  simp [takeExponentSign, hminus, hplus]

/-- **The exponent ends by itself**, with or without a sign of its own. The digits of the exponent
are the last part of a number, and whatever may follow a number is no digit. -/
theorem stopsItself_readExponent : StopsItself readExponent := by
  refine ⟨fun {s part left} h => ?_, fun {s part left rest} h hrest => ?_⟩ <;>
    rcases s with _ | ⟨_ | c, s⟩
  · exact (stopsItself_pure none).leaves h
  · exact (stopsItself_pure none).leaves h
  · rw [readExponent_cons] at h
    split at h
    · exact (((stopsItself_readDigits _).leaves h).trans (suffix_takeExponentSign s)).trans
        (List.suffix_cons _ _)
    · exact (stopsItself_pure none).leaves h
  · obtain ⟨rfl, rfl⟩ := Prod.mk.inj (Except.ok.inj h)
    exact readExponent_of_ends hrest
  · exact (stopsItself_pure none).reads h hrest
  · rw [List.cons_append, readExponent_cons]
    rw [readExponent_cons] at h
    split at h
    · rw [if_pos (by assumption)]
      -- Behind the letter there is a digit, so the sign is looked for in what was read before.
      have hs : s ≠ [] := by
        rintro rfl
        cases h
      rw [takeExponentSign_append hs]
      exact (stopsItself_readDigits _).reads h hrest
    · rw [if_neg (by assumption)]
      exact (stopsItself_pure none).reads h hrest

/-- **A number stops by itself.** Its parts come one after another, and each of them stops by
itself. -/
theorem stopsItself_readNumber (negative : Bool) : StopsItself (readNumber negative) :=
  stopsItself_readWhole.bind fun whole => stopsItself_readFraction.bind fun fraction =>
    stopsItself_readExponent.bind fun exponent =>
      stopsItself_pure (NumberParts.value ⟨negative, whole, fraction, exponent⟩)

/-! ## Numbers as values

What a document that consists of one number says is turned into what any document says
that holds it. -/

theorem afterSign_eq_iff {negative : Bool} {s left : Symbols} {value : Except Fault Number} :
    afterSign negative s = (.number value, some left) ↔ readNumber negative s = .ok (value, left) := by
  unfold afterSign
  split <;> rename_i hread <;> rw [hread]
  · simp
  · exact iff_of_false nofun nofun

/-- **What is read as a number** begins with a sign or a digit. No other value begins with one of
these characters. -/
theorem of_readValue_eq_number {c : Char} (hc : isSpace c = false) {fuel : Nat} {s left : Symbols}
    {value : Except Fault Number}
    (h : readValue (fuel + 1) (some c :: s) = (.number value, some left)) :
    c = '-' ∧ readNumber true s = .ok (value, left)
      ∨ isDecimalDigit c = true ∧ readNumber false (some c :: s) = .ok (value, left) := by
  -- Only the branches of a sign and of a digit build a number; the idents come first and give other
  -- trees.
  have hident : ∀ (tree : Tree) (opening : Opening) (name : List Char),
      (∀ value, tree ≠ .number value) →
      afterIdent tree opening name s ≠ (.number value, some left) := by
    intro tree opening name htree
    unfold afterIdent
    split <;> intro heq
    · exact htree value (Prod.mk.inj heq).1
    · cases heq
  rw [readValue, skipSpace_of_not_isSpace hc] at h
  dsimp only at h
  split at h
  · exact absurd h (hident _ _ _ (by rintro _ ⟨⟩))
  split at h
  · exact absurd h (hident _ _ _ (by rintro _ ⟨⟩))
  split at h
  · exact absurd h (hident _ _ _ (by rintro _ ⟨⟩))
  split at h
  · exact .inl ⟨by assumption, afterSign_eq_iff.1 h⟩
  split at h
  · exact .inr ⟨by assumption, afterSign_eq_iff.1 h⟩
  split at h
  · split at h <;> cases h
  split at h
  · cases h
  split at h <;> cases h

/-- What a document begins with, if nothing but white space may come between it and what
is left. -/
theorem of_readDocument_eq {s after : Symbols} {tree : Tree}
    (h : readDocument s = (tree, some after)) :
    ∃ left, readValue (4 * s.length + 4) s = (tree, some left) ∧ skipSpace left = after := by
  unfold readDocument at h
  generalize readValue (4 * s.length + 4) s = reading at h ⊢
  obtain ⟨found, rest⟩ := reading
  obtain ⟨rfl, hrest⟩ := Prod.mk.inj h
  obtain ⟨left, rfl, hskip⟩ := Option.map_eq_some_iff.1 hrest
  exact ⟨left, rfl, hskip⟩

namespace Number

/-- **A number is read back alone**, from its own text. It is decided by one computation for a
given number. -/
def ReadsAlone (n : Number) : Prop :=
  readDocument (n.text.toList.map some) = (.number (.ok n), some [])

/-- A number that is read where it ends is read wherever it ends. -/
theorem readsAs_of_readValue {n m : Number} {c : Char} {chars : List Char}
    (htext : n.text.toList = c :: chars) (hc : isSpace c = false) {fuel : Nat}
    (h : readValue (fuel + 1) (some c :: chars.map some) = (.number (.ok m), some [])) :
    n.ReadsAs m := by
  rcases of_readValue_eq_number hc h with ⟨rfl, hread⟩ | ⟨hdigit, hread⟩
  · refine ⟨fun rest => ⟨'-', _, by rw [htext]; rfl, by decide, by decide⟩, fun fuel rest hrest => ?_⟩
    rw [htext, List.map_cons, List.cons_append, readValue_minus]
    exact afterSign_eq_iff.2 ((stopsItself_readNumber true).reads hread hrest)
  · refine ⟨fun rest => ⟨c, _, by rw [htext]; rfl, hc, ?_⟩, fun fuel rest hrest => ?_⟩
    · rintro rfl
      exact absurd hdigit (by decide)
    · rw [htext, List.map_cons, List.cons_append, readValue_digit hdigit]
      exact afterSign_eq_iff.2 ((stopsItself_readNumber false).reads hread hrest)

/-- **A number that is read back alone** is read back wherever it ends if there is no white space
in its text. White space at the beginning would be skipped, so the text would not start a value. -/
theorem ReadsAlone.readsBack {n : Number} (h : n.ReadsAlone)
    (hspace : ∀ c ∈ n.text.toList, isSpace c = false) : n.ReadsBack := by
  obtain ⟨left, hread, hskip⟩ := of_readDocument_eq h
  rcases htext : n.text.toList with _ | ⟨c, chars⟩ <;> rw [htext] at hread hspace
  · cases hread
  have hc : isSpace c = false := hspace c List.mem_cons_self
  -- Nothing is left, since what is left is no white space.
  have hsuffix : left <:+ (c :: chars).map some := by
    rcases of_readValue_eq_number hc hread with ⟨-, hnumber⟩ | ⟨-, hnumber⟩
    · exact ((stopsItself_readNumber true).leaves hnumber).trans (List.suffix_cons _ _)
    · exact (stopsItself_readNumber false).leaves hnumber
  have hnil : left = [] := by
    rcases left with _ | ⟨symbol, left⟩
    · rfl
    obtain ⟨d, hd, rfl⟩ := List.mem_map.1 (hsuffix.subset List.mem_cons_self)
    rw [skipSpace_of_not_isSpace (hspace d hd)] at hskip
    cases hskip
  exact readsAs_of_readValue htext hc (hnil ▸ hread)

/-- A negative integer of 64 bits is read back. -/
theorem readsBack_negative {n : Nat} (hpos : 0 < n) (hn : n ≤ Nat.pow 2 63) :
    (negative n).ReadsBack := by
  have htext : (negative n).text.toList = '-' :: Nat.toDigits 10 n := by
    show ("-" ++ toString n).toList = _
    rw [String.toList_append, Decimal.toList_natural]
    rfl
  have hinteger : integerOf true n = negative n := by
    simp [integerOf, hpos.ne', Nat.not_lt.2 hn]
  have hword : n < UInt64.size := Nat.lt_of_le_of_lt hn (by decide)
  have hread := readNumber_toDigits hword true endsNumber_nil
  rw [List.append_nil, hinteger] at hread
  have hvalue : readValue (0 + 1) (some '-' :: (Nat.toDigits 10 n).map some)
      = (.number (.ok (negative n)), some []) := by
    rw [readValue_minus]
    exact afterSign_eq_iff.2 hread
  exact readsAs_of_readValue htext (by decide) hvalue

/-- **A float that is read back alone** is read back wherever it ends. The text of a float has no
white space. -/
theorem ReadsAlone.readsBack_float {x : Double} (hx : x.isFinite = true) (h : (float x).ReadsAlone) :
    (float x).ReadsBack := by
  refine h.readsBack fun c hc => ?_
  obtain ⟨negative, m, e, hdecode⟩ := BinaryFormat.exists_decode_finite (of_decide_eq_true hx)
  have hc : c ∈ (FloatLayout.json.write .double (.finite negative m e)).toList := hdecode ▸ hc
  have hchar := FloatLayout.json.isNumberChar_write .double negative m e c hc
  simp only [FloatLayout.isNumberChar, Bool.or_eq_true, Bool.and_eq_true, beq_iff_eq] at hchar
  rcases hchar with (((hdigit | rfl) | rfl) | rfl) | ⟨rfl, -⟩
  · exact isSpace_of_isDecimalDigit hdigit
  all_goals decide

end Number

end Meshwork.Json
