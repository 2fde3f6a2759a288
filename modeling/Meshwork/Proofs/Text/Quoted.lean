import Mathlib.Data.List.Basic
import Meshwork.Proofs.Text.Delimited
import Meshwork.Text.Quoted

/-!
# Quoted texts and lists show what they hold

A text between quotation marks ends with the closing mark and shows every character
of the text (`told_quoted`), since no character is written like the beginning of
another one (`told_escapeChar`). A list between brackets shows its items if each can
be told from what follows it (`told_bracketed`).
-/

namespace Meshwork

/-! ## Digits

Hexadecimal digits are read back as the number, so different numbers have different
digits. -/

theorem digitChar_inj {m n : Nat} (hm : m < 16) (hn : n < 16)
    (h : Nat.digitChar m = Nat.digitChar n) : m = n := by
  have hall : ∀ i j : Fin 16, Nat.digitChar i = Nat.digitChar j → i = j := by decide
  exact Fin.mk.inj (hall ⟨m, hm⟩ ⟨n, hn⟩ h)

/-- **A number has digits of its own.** They have no zeros in front, so that also their count is
determined. -/
theorem hexDigits_inj {m n : Nat} (h : hexDigits m = hexDigits n) : m = n := by
  induction m using Nat.strongRecOn generalizing n with
  | ind m ih =>
    have hlength := congrArg List.length h
    unfold hexDigits at h hlength
    rw [Nat.toDigits_eq_if (by decide), Nat.toDigits_eq_if (n := n) (by decide)] at h hlength
    split at h <;> rename_i hm <;> split at h <;> rename_i hn
    · exact digitChar_inj hm hn (List.cons.inj h).1
    · simp [hm, hn] at hlength
    · simp [hm, hn] at hlength
    · obtain ⟨hquotient, hlast⟩ := List.append_inj' h rfl
      have hdiv := ih (m / 16) (Nat.div_lt_self (by omega) (by decide)) hquotient
      have hmod := digitChar_inj (Nat.mod_lt m (by decide)) (Nat.mod_lt n (by decide))
        (List.cons.inj hlast).1
      omega

/-- The digits are what they should be. -/
theorem mem_of_mem_hexDigits {n : Nat} {c : Char} (h : c ∈ hexDigits n) :
    c ∈ "0123456789abcdef".toList := by
  induction n using Nat.strongRecOn with
  | ind n ih =>
    have hdigit : ∀ i : Fin 16, Nat.digitChar i ∈ "0123456789abcdef".toList := by decide
    unfold hexDigits at h ih
    rw [Nat.toDigits_eq_if (by decide)] at h
    split at h <;> rename_i hn
    · exact List.mem_singleton.1 h ▸ hdigit ⟨n, hn⟩
    · rcases List.mem_append.1 h with h | h
      · exact ih (n / 16) (Nat.div_lt_self (by omega) (by decide)) h
      · exact List.mem_singleton.1 h ▸ hdigit ⟨n % 16, Nat.mod_lt n (by decide)⟩

/-! ## Characters

A character stands for itself, or a backslash begins its escape. Behind the backslash the
letter tells which escape it is, and only one of them goes on. -/

/-- The characters with a short escape, and the letter of the escape. -/
def shortEscapes : List (Char × Char) :=
  [('\x00', '0'), ('\t', 't'), ('\r', 'r'), ('\n', 'n'), ('"', '"'), ('\\', '\\')]

/-- **The three ways to write a character** between double quotation marks: as it is, by a letter,
or by its number. In the first case the character is none that could be mistaken, as for the mark
itself. -/
theorem escapeChar_cases (c : Char) :
    escapeChar '"' c = [c] ∧ c ≠ '"' ∧ c ≠ '\\' ∧ c ≠ '\x00' ∧ c ≠ '\n'
      ∨ (∃ letter, (c, letter) ∈ shortEscapes ∧ escapeChar '"' c = ['\\', letter])
      ∨ escapeChar '"' c = '\\' :: 'u' :: '\x7b' :: (hexDigits c.toNat ++ ['\x7d']) := by
  unfold escapeChar
  split <;> rename_i hzero
  · exact .inr (.inl ⟨'0', by simp [hzero, shortEscapes], rfl⟩)
  split <;> rename_i htab
  · exact .inr (.inl ⟨'t', by simp [htab, shortEscapes], rfl⟩)
  split <;> rename_i hreturn
  · exact .inr (.inl ⟨'r', by simp [hreturn, shortEscapes], rfl⟩)
  split <;> rename_i hline
  · exact .inr (.inl ⟨'n', by simp [hline, shortEscapes], rfl⟩)
  split <;> rename_i hmark
  · rcases hmark with rfl | rfl
    · exact .inr (.inl ⟨'"', by simp [shortEscapes], rfl⟩)
    · exact .inr (.inl ⟨'\\', by simp [shortEscapes], rfl⟩)
  -- All that have a letter are gone, so what is left is plain or has its number written.
  have hplain : c ≠ '"' ∧ c ≠ '\\' ∧ c ≠ '\x00' ∧ c ≠ '\n' :=
    ⟨fun h => hmark (.inl h), fun h => hmark (.inr h), hzero, hline⟩
  split
  · exact .inl ⟨rfl, hplain⟩
  split
  · exact .inr (.inr (by simp))
  · exact .inl ⟨rfl, hplain⟩

/-- **No character is written like the beginning of another one.** So a quoted text can be split
into the characters that it was made from. -/
theorem told_escapeChar (c d : Char) :
    Told (fun _ => True) (c = d) (escapeChar '"' c) (escapeChar '"' d) := by
  have hletters : ∀ p ∈ shortEscapes, ∀ q ∈ shortEscapes, p.2 = q.2 → p.1 = q.1 := by decide
  have hnumber : ∀ p ∈ shortEscapes, p.2 ≠ 'u' := by decide
  -- Two characters written in different ways differ at the first place or at the second; those
  -- written in the same way differ in what stands there.
  rcases escapeChar_cases c with ⟨hc, -, hc', -⟩ | ⟨a, ha, hc⟩ | hc <;>
    rcases escapeChar_cases d with ⟨hd, -, hd', -⟩ | ⟨b, hb, hd⟩ | hd <;> rw [hc, hd]
  · exact fun u v _ _ heq => List.cons.inj heq
  · exact told_of_head hc' _ _
  · exact told_of_head hc' _ _
  · exact told_of_head (Ne.symm hd') _ _
  · intro u v _ _ heq
    obtain ⟨hletter, hrest⟩ := List.cons.inj (List.cons.inj heq).2
    exact ⟨hletters _ ha _ hb hletter, hrest⟩
  · exact fun u v _ _ heq => absurd (List.cons.inj (List.cons.inj heq).2).1 (hnumber _ ha)
  · exact told_of_head (Ne.symm hd') _ _
  · exact fun u v _ _ heq => absurd (List.cons.inj (List.cons.inj heq).2).1.symm (hnumber _ hb)
  · have hbrace : ∀ n, ∀ x ∈ hexDigits n, ¬ x = '\x7d' := by
      rintro n x hx rfl
      exact absurd (mem_of_mem_hexDigits hx) (by decide)
    have hdigits : Told (· = '\x7d') (hexDigits c.toNat = hexDigits d.toNat) (hexDigits c.toNat)
        (hexDigits d.toNat) := told_of_chars (hbrace _) (hbrace _)
    exact ((hdigits.before rfl []).behind ['\\', 'u', '\x7b']).mono (fun _ => id) fun h =>
      Char.toNat_inj.1 (hexDigits_inj h)

/-- What begins the text of a character is not the closing mark. -/
theorem escapeChar_cons (c : Char) :
    ∃ a rest, escapeChar '"' c = a :: rest ∧ a ≠ '"' := by
  rcases escapeChar_cases c with ⟨hc, hmark, -⟩ | ⟨letter, -, hc⟩ | hc
  · exact ⟨c, [], hc, hmark⟩
  · exact ⟨'\\', [letter], hc, by decide⟩
  · exact ⟨'\\', _, hc, by decide⟩

/-! ## Texts and lists

What ends a text is the mark that no escape begins with; what ends a list is its bracket. -/

variable {stops : Char → Prop}

/-- **A quoted text shows the text.** This needs no condition on the text, since everything that
could end it is escaped. -/
theorem told_quoted (a b : String) :
    Told stops (a = b) (quoted a).toList (quoted b).toList := by
  have hquoted : ∀ text : String, (quoted text).toList
      = ['"'] ++ (text.toList.flatMap (escapeChar '"') ++ ['"']) := fun text =>
    String.toList_ofList
  have hstart : ∀ c, ∃ x rest, escapeChar '"' c = x :: rest ∧ x ≠ '"' ∧ True := fun c =>
    (escapeChar_cons c).imp fun _ => Exists.imp fun _ h => ⟨h.1, h.2, trivial⟩
  have hchars : Told stops (List.Forall₂ Eq a.toList b.toList)
      (a.toList.flatMap (escapeChar '"') ++ ['"']) (b.toList.flatMap (escapeChar '"') ++ ['"']) :=
    told_flatMap trivial (fun c _ => hstart c) (fun c _ => hstart c)
      fun c _ d _ => told_escapeChar c d
  rw [List.forall₂_eq_eq_eq] at hchars
  rw [hquoted, hquoted]
  exact (hchars.behind ['"']).mono (fun _ => id) String.toList_inj.1

/-- An optional text shows whether there is one, and which. -/
theorem told_quotedOption (a b : Option String) :
    Told stops (a = b) (quotedOption a).toList (quotedOption b).toList := by
  -- The text stands between a mark for its being there and a bracket.
  have hsome : ∀ text : String, (quotedOption (some text)).toList
      = "Some(".toList ++ ((quoted text).toList ++ [')']) := by
    intro text
    rw [quotedOption, String.toList_append, String.toList_append, List.append_assoc]
    rfl
  cases a with
  | none =>
    cases b with
    | none => exact (told_self _).mono (fun _ => id) fun _ => rfl
    | some b =>
      rw [hsome]
      exact told_of_head (by decide) _ _
  | some a =>
    cases b with
    | none =>
      rw [hsome]
      exact told_of_head (by decide) _ _
    | some b =>
      rw [hsome, hsome]
      have hab : Told (fun _ => True) (a = b) (quoted a).toList (quoted b).toList := told_quoted a b
      exact ((hab.before trivial []).behind "Some(".toList).mono (fun _ => id) (congrArg some)

/-- An item ends before a comma and before the closing bracket. -/
def EndsItem (c : Char) : Prop := c = ',' ∨ c = ']'

/-- **A list between brackets shows its items.** That no item begins with the closing bracket
tells an empty list from others. -/
theorem told_bracketed {α : Type} {alike : α → α → Prop} {write : α → String} {xs ys : List α}
    (hx : ∀ a ∈ xs, ∃ c rest, (write a).toList = c :: rest ∧ c ≠ ']')
    (hy : ∀ b ∈ ys, ∃ c rest, (write b).toList = c :: rest ∧ c ≠ ']')
    (h : ∀ a ∈ xs, ∀ b ∈ ys, Told EndsItem (alike a b) (write a).toList (write b).toList) :
    Told stops (List.Forall₂ alike xs ys) (bracketed (xs.map write)).toList
      (bracketed (ys.map write)).toList := by
  have hchars : ∀ zs : List α, (bracketed (zs.map write)).toList
      = ['['] ++ ([',', ' '].intercalate (zs.map fun a => (write a).toList) ++ [']']) := by
    intro zs
    rw [bracketed, String.toList_append, String.toList_append, String.toList_intercalate,
      List.map_map, List.append_assoc]
    rfl
  rw [hchars, hchars]
  exact (told_items (.inr rfl) (.inl rfl) (by decide) hx hy h).behind ['[']

end Meshwork
