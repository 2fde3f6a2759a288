import Mathlib.Data.List.Forall2

/-!
# Parts that tell where they end

A text that is put together from the texts of parts shows all of them only if each
can be told from what follows it. `Told` says this of two texts: wherever they stand,
followed by something at which such a part stops, the whole texts are equal only if
the two parts show the same and go on alike.

Digits and names stop at a character that they do not have (`told_of_chars`). Lists
end with a bracket that none of their items begins with (`told_items`), and between
quotation marks stand codes of characters of which none begins like the closing mark
(`told_flatMap`).
-/

namespace Meshwork

/-- **A part stops** where nothing follows, or one of the characters that stop it. The end of a
text stops every part. -/
def Stopped (stops : Char → Prop) (rest : List Char) : Prop := ∀ c ∈ rest.head?, stops c

/-- **Two parts are told apart**, unless they show the same. It is a property of two parts at
once, so that it composes with lists of parts of which one may be longer. -/
def Told (stops : Char → Prop) (same : Prop) (x y : List Char) : Prop :=
  ∀ u v, Stopped stops u → Stopped stops v → x ++ u = y ++ v → same ∧ u = v

variable {stops stops' : Char → Prop} {same same' : Prop} {x x' y y' : List Char}

theorem stopped_cons {c : Char} (h : stops c) (rest : List Char) : Stopped stops (c :: rest) := by
  intro d hd
  obtain rfl := Option.some.inj hd
  exact h

theorem Told.mono (h : Told stops same x y) (hstops : ∀ c, stops' c → stops c)
    (hsame : same → same') : Told stops' same' x y := fun u v hu hv heq =>
  (h u v (fun c hc => hstops c (hu c hc)) (fun c hc => hstops c (hv c hc)) heq).imp_left hsame

theorem Told.symm {α : Type} {a b : α} (h : Told stops (a = b) x y) : Told stops (b = a) y x :=
  fun u v hu hv heq => (h v u hv hu heq.symm).imp Eq.symm Eq.symm

/-- Whole texts are told apart as well. -/
theorem Told.same_of_eq (h : Told stops same x y) (heq : x = y) : same :=
  (h [] [] nofun nofun (congrArg (· ++ []) heq)).1

/-- What is always written tells nothing. -/
theorem told_self (x : List Char) : Told stops True x x := fun _ _ _ _ heq =>
  ⟨trivial, List.append_cancel_left heq⟩

/-- Parts that begin differently. -/
theorem told_of_head {c d : Char} (h : c ≠ d) (x y : List Char) :
    Told stops same (c :: x) (d :: y) := fun _ _ _ _ heq =>
  absurd (List.cons.inj heq).1 h

/-- **One part after the other.** The second one has to stop the first. Here whatever follows the
whole must stop the second part, and nothing more is asked of it. -/
theorem Told.append (h : Told stops same x y) (h' : Told stops' same' x' y')
    (hx : ∀ u, Stopped stops' u → Stopped stops (x' ++ u))
    (hy : ∀ v, Stopped stops' v → Stopped stops (y' ++ v)) :
    Told stops' (same ∧ same') (x ++ x') (y ++ y') := by
  intro u v hu hv heq
  rw [List.append_assoc, List.append_assoc] at heq
  obtain ⟨hsame, heq⟩ := h _ _ (hx u hu) (hy v hv) heq
  obtain ⟨hsame', heq⟩ := h' u v hu hv heq
  exact ⟨⟨hsame, hsame'⟩, heq⟩

/-- A part behind a fixed text. -/
theorem Told.behind (h : Told stops same x y) (before : List Char) :
    Told stops same (before ++ x) (before ++ y) := by
  intro u v hu hv heq
  rw [List.append_assoc, List.append_assoc] at heq
  exact h u v hu hv (List.append_cancel_left heq)

/-- A part before a fixed text that stops it. -/
theorem Told.before {c : Char} (h : Told stops same x y) (hc : stops c) (after : List Char) :
    Told stops' same (x ++ c :: after) (y ++ c :: after) := by
  have hfixed : Told stops' True (c :: after) (c :: after) := told_self _
  exact (h.append hfixed (fun _ _ => stopped_cons hc _) (fun _ _ => stopped_cons hc _)).mono
    (fun _ => id) And.left

/-- **Characters that do not stop.** Such a part goes on for as long as its characters do, so it
is found whole. -/
theorem told_of_chars (hx : ∀ c ∈ x, ¬ stops c) (hy : ∀ c ∈ y, ¬ stops c) :
    Told stops (x = y) x y := by
  intro u v hu hv heq
  -- Where one text ends first, what follows it would have to go on with a character of the other,
  -- which does not stop.
  induction x generalizing y with
  | nil =>
    cases y with
    | nil => exact ⟨rfl, heq⟩
    | cons d y =>
      obtain rfl : u = d :: (y ++ v) := heq
      exact absurd (hu d rfl) (hy d List.mem_cons_self)
  | cons c x ih =>
    cases y with
    | nil =>
      obtain rfl : c :: (x ++ u) = v := heq
      exact absurd (hv c rfl) (hx c List.mem_cons_self)
    | cons d y =>
      obtain ⟨rfl, htail⟩ := List.cons.inj heq
      obtain ⟨rfl, hrest⟩ := ih (fun c hc => hx c (List.mem_cons_of_mem _ hc))
        (fun c hc => hy c (List.mem_cons_of_mem _ hc)) htail
      exact ⟨rfl, hrest⟩

/-! ## Texts of several parts

Parts are put behind one another. Being told apart is a relation on two texts at once, and
these lemmas are its congruences. -/

section Texts

variable {a b a' b' : String}

theorem Told.opened (h : Told stops same a.toList b.toList) (before : String) :
    Told stops same (before ++ a).toList (before ++ b).toList := by
  rw [String.toList_append, String.toList_append]
  exact h.behind before.toList

theorem Told.closed {c : Char} {rest : List Char} (h : Told stops same a.toList b.toList)
    {after : String} (hafter : after.toList = c :: rest) (hc : stops c) :
    Told stops' same (a ++ after).toList (b ++ after).toList := by
  rw [String.toList_append, String.toList_append, hafter]
  exact h.before hc rest

/-- A part that ends by itself, and the next one. -/
theorem Told.next (h : Told (fun _ => True) same a.toList b.toList)
    (h' : Told stops same' a'.toList b'.toList) :
    Told stops (same ∧ same') (a ++ a').toList (b ++ b').toList := by
  rw [String.toList_append, String.toList_append]
  exact h.append h' (fun _ _ _ _ => trivial) (fun _ _ _ _ => trivial)

end Texts

/-! ## Lists

A list is written with separators between its items, or with every item ending by itself.
At the end there is a bracket, and no item begins with it. -/

section Lists

variable {α : Type} {alike : α → α → Prop} {write : α → List Char} {close : Char} {xs ys : List α}

/-- **One part for each element**, up to a closing character that none begins with. The closing
character tells the end of the list from one more element. -/
theorem told_flatMap (hclose : stops close)
    (hx : ∀ a ∈ xs, ∃ c rest, write a = c :: rest ∧ c ≠ close ∧ stops c)
    (hy : ∀ b ∈ ys, ∃ c rest, write b = c :: rest ∧ c ≠ close ∧ stops c)
    (h : ∀ a ∈ xs, ∀ b ∈ ys, Told stops (alike a b) (write a) (write b)) :
    Told stops' (List.Forall₂ alike xs ys) (xs.flatMap write ++ [close])
      (ys.flatMap write ++ [close]) := by
  intro u v _ _ heq
  -- Whatever follows an element, it stops the text of the element.
  have hstopped : ∀ (zs : List α) (w : List Char),
      (∀ a ∈ zs, ∃ c rest, write a = c :: rest ∧ c ≠ close ∧ stops c) →
      Stopped stops (zs.flatMap write ++ [close] ++ w) := by
    intro zs w hzs
    cases zs with
    | nil => exact stopped_cons hclose _
    | cons a zs =>
      obtain ⟨c, rest, hwrite, -, hc⟩ := hzs a List.mem_cons_self
      rw [List.flatMap_cons, hwrite]
      exact stopped_cons hc _
  induction xs generalizing ys with
  | nil =>
    cases ys with
    | nil => exact ⟨.nil, (List.cons.inj heq).2⟩
    | cons b ys =>
      obtain ⟨c, rest, hwrite, hc, -⟩ := hy b List.mem_cons_self
      rw [List.flatMap_cons, hwrite] at heq
      exact absurd (List.cons.inj heq).1.symm hc
  | cons a xs ih =>
    cases ys with
    | nil =>
      obtain ⟨c, rest, hwrite, hc, -⟩ := hx a List.mem_cons_self
      rw [List.flatMap_cons, hwrite] at heq
      exact absurd (List.cons.inj heq).1 hc
    | cons b ys =>
      have hxs := fun a ha => hx a (List.mem_cons_of_mem _ ha)
      have hys := fun b hb => hy b (List.mem_cons_of_mem _ hb)
      rw [List.flatMap_cons, List.flatMap_cons] at heq
      obtain ⟨hab, heq⟩ := h a List.mem_cons_self b List.mem_cons_self
        (xs.flatMap write ++ [close] ++ u) (ys.flatMap write ++ [close] ++ v)
        (hstopped xs u hxs) (hstopped ys v hys) (by simpa using heq)
      obtain ⟨hall, hrest⟩ := ih hxs hys
        (fun a ha b hb => h a (List.mem_cons_of_mem _ ha) b (List.mem_cons_of_mem _ hb)) heq
      exact ⟨.cons hab hall, hrest⟩

/-- Behind the first of several texts, a separator stands before each. -/
theorem intercalate_map_cons (sep : List Char) (a : α) (xs : List α) :
    sep.intercalate ((a :: xs).map write)
      = write a ++ xs.flatMap fun b => sep ++ write b := by
  induction xs generalizing a with
  | nil => simp
  | cons b xs ih => simpa using ih b

/-- **The items of a list**, with separators between them and a bracket at the end. An item ends
at a separator or at the bracket, and both stop it. -/
theorem told_items {s : Char} {sep : List Char} (hclose : stops close) (hs : stops s)
    (hne : s ≠ close) (hx : ∀ a ∈ xs, ∃ c rest, write a = c :: rest ∧ c ≠ close)
    (hy : ∀ b ∈ ys, ∃ c rest, write b = c :: rest ∧ c ≠ close)
    (h : ∀ a ∈ xs, ∀ b ∈ ys, Told stops (alike a b) (write a) (write b)) :
    Told stops' (List.Forall₂ alike xs ys)
      ((s :: sep).intercalate (xs.map write) ++ [close])
      ((s :: sep).intercalate (ys.map write) ++ [close]) := by
  cases xs with
  | nil =>
    cases ys with
    | nil => exact (told_self _).mono (fun _ => id) fun _ => .nil
    | cons b ys =>
      obtain ⟨c, rest, hwrite, hc⟩ := hy b List.mem_cons_self
      rw [intercalate_map_cons, hwrite]
      exact told_of_head (Ne.symm hc) _ _
  | cons a xs =>
    cases ys with
    | nil =>
      obtain ⟨c, rest, hwrite, hc⟩ := hx a List.mem_cons_self
      rw [intercalate_map_cons, hwrite]
      exact told_of_head hc _ _
    | cons b ys =>
      have hrest : Told stops' (List.Forall₂ alike xs ys)
          (xs.flatMap (fun a => s :: sep ++ write a) ++ [close])
          (ys.flatMap (fun b => s :: sep ++ write b) ++ [close]) :=
        told_flatMap hclose (fun _ _ => ⟨s, _, rfl, hne, hs⟩) (fun _ _ => ⟨s, _, rfl, hne, hs⟩)
          fun a ha b hb => (h a (List.mem_cons_of_mem _ ha) b (List.mem_cons_of_mem _ hb)).behind _
      -- Behind an item there is a separator or the bracket, and an item stops at both.
      have hstopped : ∀ (zs : List α) (w : List Char),
          Stopped stops ((zs.flatMap fun a => s :: sep ++ write a) ++ [close] ++ w) := by
        intro zs w
        cases zs with
        | nil => exact stopped_cons hclose _
        | cons a zs => exact stopped_cons hs _
      rw [intercalate_map_cons, intercalate_map_cons, List.append_assoc, List.append_assoc]
      refine ((h a List.mem_cons_self b List.mem_cons_self).append hrest
        (fun u _ => hstopped xs u) (fun v _ => hstopped ys v)).mono (fun _ => id) ?_
      exact fun ⟨hab, hall⟩ => .cons hab hall

end Lists

end Meshwork
