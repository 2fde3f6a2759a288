import Meshwork.Proofs.Json.Pretty
import Meshwork.Proofs.Text.Delimited

/-!
# The text without white space determines the value

Of two values that are written without white space, each ends where the other does
if what follows them may follow a value, and then they are the same
(`Json.Value.Readable.told`). Hence no two values have the same text
(`Json.Value.Readable.eq_of_compact_eq`).

The text of a value that is neither array nor object is the same over indented lines,
and is read back from there. Arrays and objects are compared item by item.
-/

namespace Meshwork.Json

/-- A value ends before a comma and before the bracket of what holds it. -/
def EndsValue (c : Char) : Prop := c = ',' ∨ c = ']' ∨ c = '\x7d'

theorem endsNumber_of_stopped {rest : List Char} (h : Stopped EndsValue rest) :
    EndsNumber (rest.map some) := by
  cases rest with
  | nil => exact endsNumber_nil
  | cons c rest => exact endsNumber_cons (by rcases h c rfl with rfl | rfl | rfl <;> decide) _

/-- **A string** ends with its mark, whatever follows. A mark within the string stands behind a
backslash, so the first bare one is the last character. -/
theorem told_stringChars {stops : Char → Prop} (a b : String) :
    Told stops (a = b) (stringChars a) (stringChars b) := by
  intro u v _ _ heq
  have hread : ∀ (text : String) (rest : List Char), text.toList.length < max a.toList.length
      b.toList.length + 1 → readText (max a.toList.length b.toList.length + 1)
        (((stringChars text ++ rest).tail).map some) = .ok (.ok text, rest.map some) := by
    intro text rest hfuel
    rw [← readText_stringChars text (rest.map some) hfuel]
    simp [stringChars]
  have ha := hread a u (Nat.lt_succ_of_le (Nat.le_max_left _ _))
  rw [heq, hread b v (Nat.lt_succ_of_le (Nat.le_max_right _ _))] at ha
  obtain ⟨hab, huv⟩ := Prod.mk.inj (Except.ok.inj ha)
  exact ⟨(Except.ok.inj hab).symm, List.map_injective_iff.2 (Option.some_injective _) huv.symm⟩

namespace Value

/-! ## Items and members

Without white space, items are separated by single commas and closed by a bracket, which
no item begins with. -/

/-- A member of an object without white space. -/
def compactMember (m : String × Value) : List Char := stringChars m.1 ++ ':' :: compactChars m.2

/-- A member begins with the mark of its key. -/
theorem compactMember_cons (m : String × Value) :
    ∃ c rest, compactMember m = c :: rest ∧ c ≠ '\x7d' :=
  ⟨'"', m.1.toList.flatMap escapeStringChar ++ ['"'] ++ ':' :: compactChars m.2, rfl, by decide⟩

theorem compactItems_eq (items : List Value) :
    compactItems items = [','].intercalate (items.map compactChars) := by
  induction items with
  | nil => rfl
  | cons value rest ih =>
    cases rest with
    | nil => simp [compactItems]
    | cons next rest => simp [compactItems, ih]

theorem compactMembers_eq (members : List (String × Value)) :
    compactMembers members = [','].intercalate (members.map compactMember) := by
  induction members with
  | nil => rfl
  | cons m rest ih =>
    cases rest with
    | nil => simp [compactMembers, compactMember]
    | cons next rest => simp [compactMembers, compactMember, ih]

/-! ## Values without items

For these the text over indented lines is the same as that without white space, so reading
it back tells them apart. -/

/-- Whether the value is neither an array nor an object. -/
def isLeaf : Value → Bool
  | array _ | object _ => false
  | _ => true

theorem compactChars_of_isLeaf {v : Value} (h : v.isLeaf = true) :
    v.compactChars = v.prettyChars 0 := by
  cases v with
  | null | number _ | string _ => rfl
  | bool b => cases b <;> rfl
  | array _ | object _ => cases h

/-- A value without items is read back from its text. -/
theorem Readable.readValue_leaf {v : Value} (hv : v.Readable) (hleaf : v.isLeaf = true) {fuel : Nat}
    {rest : List Char} (hfuel : v.compactChars.length ≤ fuel) (hrest : Stopped EndsValue rest) :
    readValue fuel ((v.compactChars ++ rest).map some) = (v.tree, some (rest.map some)) := by
  rw [compactChars_of_isLeaf hleaf] at hfuel ⊢
  rw [List.map_append]
  exact hv.readsBack.reads 0 fuel _ hfuel (endsNumber_of_stopped hrest)

/-- Where an array or an object begins, nothing else is read. -/
theorem readValue_ne_leaf {v w : Value} (hv : v.isLeaf = true) (hw : w.isLeaf = false) (fuel : Nat)
    (rest : List Char) : (readValue (fuel + 1) ((w.compactChars ++ rest).map some)).1 ≠ v.tree := by
  cases w with
  | null | bool _ | number _ | string _ => cases hw
  | array items =>
    rw [compactChars, List.cons_append, List.cons_append, List.map_cons, readValue,
      skipSpace_of_not_isSpace (by decide)]
    cases v <;> simp [isDecimalDigit, tree, isLeaf] at hv ⊢
  | object members =>
    rw [compactChars, List.cons_append, List.cons_append, List.map_cons, readValue,
      skipSpace_of_not_isSpace (by decide)]
    cases v <;> simp [isDecimalDigit, tree, isLeaf] at hv ⊢

/-- **A value without items** is told from every value. Their first characters tell kinds apart,
and within a kind the text determines the value. -/
theorem Readable.told_leaf {v w : Value} (hv : v.Readable) (hw : w.Readable)
    (hleaf : v.isLeaf = true) : Told EndsValue (v = w) v.compactChars w.compactChars := by
  intro rest rest' hrest hrest' heq
  have hfuel : v.compactChars.length ≤ v.compactChars.length + w.compactChars.length + 1 := by omega
  have hread := hv.readValue_leaf hleaf hfuel hrest
  rw [heq] at hread
  cases hother : w.isLeaf with
  | false => exact absurd (congrArg Prod.fst hread) (readValue_ne_leaf hleaf hother _ rest')
  | true =>
    rw [hw.readValue_leaf hother (by omega) hrest'] at hread
    obtain ⟨htree, hsymbols⟩ := Prod.mk.inj hread
    have hrests := List.map_injective_iff.2 (Option.some_injective _) (Option.some.inj hsymbols)
    refine ⟨?_, hrests.symm⟩
    cases v <;> cases w <;> simp_all [tree, isLeaf]

/-! ## Every value

The induction is on the first of the two values. The second one is of the same kind, since
otherwise their texts begin differently. -/

/-- A value begins with no bracket that ends an array. -/
theorem Readable.compactChars_cons {v : Value} (h : v.Readable) :
    ∃ c rest, v.compactChars = c :: rest ∧ c ≠ ']' := by
  cases hleaf : v.isLeaf with
  | true =>
    obtain ⟨c, rest, hchars, -, hc⟩ := h.readsBack.starts 0 []
    rw [List.append_nil, ← compactChars_of_isLeaf hleaf] at hchars
    obtain ⟨d, tail, htail, hd, -⟩ := List.map_eq_cons_iff.1 hchars
    exact ⟨d, tail, htail, Option.some.inj hd ▸ hc⟩
  | false =>
    cases v with
    | null | bool _ | number _ | string _ => cases hleaf
    | array items => exact ⟨'[', _, rfl, by decide⟩
    | object members => exact ⟨'\x7b', _, rfl, by decide⟩

/-- Arrays are told apart by their items. -/
theorem told_array {items items' : List Value} (h : ∀ v ∈ items, v.Readable)
    (h' : ∀ v ∈ items', v.Readable)
    (htold : ∀ v ∈ items, ∀ w ∈ items', Told EndsValue (v = w) v.compactChars w.compactChars) :
    Told EndsValue (array items = array items') (array items).compactChars
      (array items').compactChars := by
  rw [compactChars, compactChars, compactItems_eq, compactItems_eq]
  refine ((told_items (.inr (.inl rfl)) (.inl rfl) (by decide)
    (fun v hv => (h v hv).compactChars_cons) (fun v hv => (h' v hv).compactChars_cons)
    htold).behind ['[']).mono (fun _ => id) fun hall => ?_
  rw [List.forall₂_eq_eq_eq] at hall
  rw [hall]

/-- Members are told apart by key and value. -/
theorem told_member {m m' : String × Value}
    (h : Told EndsValue (m.2 = m'.2) m.2.compactChars m'.2.compactChars) :
    Told EndsValue (m = m') (compactMember m) (compactMember m') := by
  have hkey : Told (fun _ => True) (m.1 = m'.1) (stringChars m.1) (stringChars m'.1) :=
    told_stringChars _ _
  exact (hkey.append (h.behind [':']) (fun _ _ _ _ => trivial) (fun _ _ _ _ => trivial)).mono
    (fun _ => id) fun ⟨hkeys, hvalues⟩ => Prod.ext hkeys hvalues

/-- Objects are told apart by their members. -/
theorem told_object {members members' : List (String × Value)}
    (htold : ∀ m ∈ members, ∀ m' ∈ members',
      Told EndsValue (m.2 = m'.2) m.2.compactChars m'.2.compactChars) :
    Told EndsValue (object members = object members') (object members).compactChars
      (object members').compactChars := by
  rw [compactChars, compactChars, compactMembers_eq, compactMembers_eq]
  refine ((told_items (.inr (.inr rfl)) (.inl rfl) (by decide)
    (fun m _ => compactMember_cons m) (fun m _ => compactMember_cons m)
    fun m hm m' hm' => told_member (htold m hm m' hm')).behind ['\x7b']).mono (fun _ => id)
    fun hall => ?_
  rw [List.forall₂_eq_eq_eq] at hall
  rw [hall]

/-- **Values are told apart** where something follows that may follow a value. Arrays and objects
are taken item by item, and what follows an item may always follow a value. -/
theorem Readable.told {v w : Value} (hv : v.Readable) (hw : w.Readable) :
    Told EndsValue (v = w) v.compactChars w.compactChars := by
  -- Values of different kinds begin with different characters; those of one kind are told apart by
  -- their parts, which is where the induction is used.
  induction hv generalizing w with
  | null => exact Readable.null.told_leaf hw rfl
  | bool b => exact (Readable.bool b).told_leaf hw rfl
  | string text => exact (Readable.string text).told_leaf hw rfl
  | number hn => exact (Readable.number hn).told_leaf hw rfl
  | array h ih =>
    cases hw with
    | array h' => exact told_array h h' fun v hv w hw => ih v hv (h' w hw)
    | object h' =>
      rw [compactChars, compactChars]
      exact told_of_head (by decide) _ _
    | null => exact ((Readable.null).told_leaf (.array h) rfl).symm
    | bool b => exact ((Readable.bool b).told_leaf (.array h) rfl).symm
    | string text => exact ((Readable.string text).told_leaf (.array h) rfl).symm
    | number hn => exact ((Readable.number hn).told_leaf (.array h) rfl).symm
  | object h ih =>
    cases hw with
    | object h' => exact told_object fun m hm m' hm' => ih m hm (h' m' hm')
    | array h' =>
      rw [compactChars, compactChars]
      exact told_of_head (by decide) _ _
    | null => exact ((Readable.null).told_leaf (.object h) rfl).symm
    | bool b => exact ((Readable.bool b).told_leaf (.object h) rfl).symm
    | string text => exact ((Readable.string text).told_leaf (.object h) rfl).symm
    | number hn => exact ((Readable.number hn).told_leaf (.object h) rfl).symm

/-- **The text without white space determines the value.** This is what allows a checksum to be
taken of the text instead of the value. -/
theorem Readable.eq_of_compact_eq {v w : Value} (hv : v.Readable) (hw : w.Readable)
    (h : v.compact = w.compact) : v = w := by
  have hchars := congrArg String.toList h
  rw [compact, compact, String.toList_ofList, String.toList_ofList] at hchars
  exact (hv.told hw).same_of_eq hchars

end Value

end Meshwork.Json
