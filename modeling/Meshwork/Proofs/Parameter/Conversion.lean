import Meshwork.Parameter.Binding

/-!
# Values read as other kinds

A value may be asked for as one of another kind: an integer as a float, and a text as either
kind of location. `ParameterValue.Converts` says this once, while the library has it twice: in
the conversion of arguments that are bound to a parameter (`Parameter.coerce_eq_ok_iff`), and in
the look-ups of the single kinds, which also take arguments that were never bound
(`Arguments.lookUp_eq_ok_iff`). So the two agree.

What a constraint asks of a value is `Constraint.Holds`, and it says nothing of values that the
constraint is not about.
-/

namespace Meshwork

/-! ## Conversion

The relation has four cases, the first for a value that is of the kind already. As a
relation it can be inverted, where the functions of the library would have to be run. -/

/-- **A value read as one of a kind.** No other conversion is made; in particular a float is never
read as an integer. -/
inductive ParameterValue.Converts : ParameterKind → ParameterValue → ParameterValue → Prop where
  /-- A value of the kind stands for itself. -/
  | self {kind : ParameterKind} {value : ParameterValue} (h : value.kind = kind) :
    Converts kind value value
  /-- An integer stands for the float nearest to it. -/
  | widened (i : Int64) : Converts .float (.integer i) (.float (.ofInt i.toInt))
  /-- Any text is the location of a file. -/
  | located (s : String) : Converts .filePath (.text s) (.filePath s)
  /-- The text of a path stands for the path. -/
  | parsed {s : String} {path : DataPath} (h : DataPath.parse s = .ok path) :
    Converts .dataPath (.text s) (.dataPath path)

namespace ParameterValue.Converts

variable {kind : ParameterKind} {given value other : ParameterValue}

/-- What a value is read as is of the kind. -/
theorem kind_eq (h : Converts kind given value) : value.kind = kind := by
  cases h with
  | self h => exact h
  | widened | located | parsed => rfl

/-- What is of the kind is read as itself only. -/
theorem eq_of_kind_eq (h : Converts kind given value) (hkind : given.kind = kind) :
    given = value := by
  cases h with
  | self => rfl
  | widened | located | parsed => cases hkind

/-- **A value is read in one way.** The cases do not overlap, because the values of each are of
different kinds. -/
theorem unique (h : Converts kind given value) (h' : Converts kind given other) :
    value = other := by
  cases h with
  | self h => exact h'.eq_of_kind_eq h
  | widened i => cases h' with
    | self h => cases h
    | widened => rfl
  | located s => cases h' with
    | self h => cases h
    | located => rfl
  | parsed h => cases h' with
    | self h => cases h
    | parsed h' => rw [Except.ok.inj (h.symm.trans h')]

end ParameterValue.Converts

open ParameterValue (Converts)

namespace Parameter

variable {p : Parameter} {given value : ParameterValue} {e : BindingError}

/-- **The conversion of an argument** gives the value as which it is read. If there is none,
it tells of a text that is no path, or of the kind. -/
theorem coerce_cases (p : Parameter) (given : ParameterValue) :
    (∃ value, Converts p.kind given value ∧ p.coerce given = .ok value)
      ∨ (∀ value, ¬Converts p.kind given value)
        ∧ ((∃ s cause, p.kind = .dataPath ∧ given = .text s ∧ DataPath.parse s = .error cause
            ∧ p.coerce given = .error (.invalidPath p.key s cause))
          ∨ ¬(p.kind = .dataPath ∧ given.kind = .text)
            ∧ p.coerce given = .error (.wrongKind p.key p.kind given)) := by
  obtain ⟨key, title, help, kind, default?, constraint⟩ := p
  unfold coerce
  -- The cases are the conversions in their order: none, an integer as a float, a text as a file, a
  -- text as a path.
  split <;> rename_i hkind
  · exact Or.inl ⟨given, .self hkind, rfl⟩
  dsimp only
  split
  · exact Or.inl ⟨_, .widened _, rfl⟩
  · exact Or.inl ⟨_, .located _, rfl⟩
  · rename_i s
    cases hparse : DataPath.parse s with
    | ok path => exact Or.inl ⟨_, .parsed hparse, rfl⟩
    | error cause =>
      refine Or.inr ⟨fun value hvalue => ?_, Or.inl ⟨s, cause, rfl, rfl, hparse, rfl⟩⟩
      cases hvalue with
      | self h => exact hkind h
      | parsed h => cases h.symm.trans hparse
  · rename_i hfloat hfile hpath
    refine Or.inr ⟨fun value hvalue => ?_, Or.inr ⟨fun ⟨hexpected, htext⟩ => ?_, rfl⟩⟩
    · cases hvalue with
      | self h => exact hkind h
      | widened i => exact hfloat i rfl rfl
      | located s => exact hfile s rfl rfl
      | parsed h => exact hpath _ rfl rfl
    · cases given with
      | text s => exact hpath s hexpected rfl
      | bool | integer | float | filePath | dataPath => cases htext

/-- **The value for a parameter** is the argument read as its kind. A constraint of the parameter
plays no part in this. -/
theorem coerce_eq_ok_iff : p.coerce given = .ok value ↔ Converts p.kind given value := by
  rcases p.coerce_cases given with
    ⟨found, hfound, he⟩ | ⟨hnone, ⟨s, cause, -, -, -, he⟩ | ⟨-, he⟩⟩
  · rw [he]
    exact ⟨fun h => Except.ok.inj h ▸ hfound, fun h => congrArg _ (hfound.unique h)⟩
  · rw [he]
    exact iff_of_false nofun (hnone value)
  · rw [he]
    exact iff_of_false nofun (hnone value)

end Parameter

/-! ## Constraints

A range is about numbers, and asks an integer the same as its float. Being non-empty is
about texts and locations. -/

/-- **What a constraint asks of a value.** A number has to lie within a range, and neither a
text nor the location of a file may be empty. -/
def Constraint.Holds : Constraint → ParameterValue → Prop
  | .range least greatest, value =>
    ∀ x, value.float? = some x → least.isBelow x = true ∧ greatest.isAbove x = true
  | .nonEmpty, value => value ≠ .text "" ∧ value ≠ .filePath ""

namespace Parameter

variable {p : Parameter} {value : ParameterValue}

/-- **The check of a constraint** tells of the number that lies outside a range, or of the text
that is empty. The first case is also that of values to which the constraint does not apply. -/
theorem checkConstraint_cases (p : Parameter) (value : ParameterValue) (constraint : Constraint) :
    constraint.Holds value ∧ p.checkConstraint value constraint = .ok ()
      ∨ ¬constraint.Holds value
        ∧ ((∃ least greatest x, constraint = .range least greatest ∧ value.float? = some x
            ∧ p.checkConstraint value constraint = .error (.outOfRange p.key x least greatest))
          ∨ constraint = .nonEmpty
            ∧ p.checkConstraint value constraint = .error (.empty p.key)) := by
  cases constraint with
  | range least greatest =>
    cases hx : value.float? with
    | none =>
      refine Or.inl ⟨fun x h => (nomatch hx.symm.trans h), ?_⟩
      cases value <;> first | rfl | cases hx
    | some x =>
      -- Integers and floats are checked alike, by the float that they stand for.
      have hcheck : p.checkConstraint value (.range least greatest)
          = if least.isBelow x && greatest.isAbove x then .ok ()
            else .error (.outOfRange p.key x least greatest) := by
        cases value <;> first | cases hx; rfl | cases hx
      rw [hcheck]
      by_cases hbetween : (least.isBelow x && greatest.isAbove x) = true
      · rw [if_pos hbetween]
        refine Or.inl ⟨fun y hy => ?_, rfl⟩
        obtain rfl := Option.some.inj (hx.symm.trans hy)
        exact Bool.and_eq_true_iff.1 hbetween
      · rw [if_neg hbetween]
        exact Or.inr ⟨fun h => hbetween (Bool.and_eq_true_iff.2 (h x hx)),
          Or.inl ⟨least, greatest, x, rfl, rfl, rfl⟩⟩
  | nonEmpty =>
    cases value with
    | text s | filePath s =>
      by_cases hs : s = ""
      · exact Or.inr ⟨by simp [Constraint.Holds, hs], Or.inr ⟨rfl, if_pos hs⟩⟩
      · exact Or.inl ⟨by simp [Constraint.Holds, hs], if_neg hs⟩
    | bool | integer | float | dataPath => exact Or.inl ⟨⟨nofun, nofun⟩, rfl⟩

end Parameter

/-! ## Look-ups

The library has one look-up for each kind. They differ in the kind only, so what is shown
is shown of all. -/

namespace ParameterValue

variable {kind : ParameterKind} {given value : ParameterValue}

/-- What the look-up of a kind makes of an argument. -/
def as? (kind : ParameterKind) (given : ParameterValue) : Option ParameterValue :=
  match kind with
  | .bool => given.bool?.map .bool
  | .integer => given.integer?.map .integer
  | .float => given.float?.map .float
  | .text => given.text?.map .text
  | .filePath => given.filePath?.map .filePath
  | .dataPath => given.dataPath?.map .dataPath

theorem Converts.as?_eq (h : Converts kind given value) : given.as? kind = some value := by
  cases h with
  | self h =>
    subst h
    cases given <;> rfl
  | widened i => rfl
  | located s => rfl
  | parsed h =>
    show (DataPath.parse _).toOption.map _ = _
    rw [h]
    rfl

/-- **A look-up takes an argument as conversion does.** So it does not matter for the value
whether arguments were bound before they are looked up. -/
theorem as?_eq_some_iff : given.as? kind = some value ↔ Converts kind given value := by
  refine ⟨fun h => ?_, Converts.as?_eq⟩
  -- A value of the kind that is asked for is itself; only three kinds take a value of another.
  by_cases hkind : given.kind = kind
  · obtain rfl := Option.some.inj ((Converts.self hkind).as?_eq.symm.trans h)
    exact .self hkind
  · cases kind with
    | float => cases given with
      | integer i =>
        obtain rfl := Option.some.inj h
        exact .widened i
      | float => exact absurd rfl hkind
      | bool | text | filePath | dataPath => cases h
    | filePath => cases given with
      | text s =>
        obtain rfl := Option.some.inj h
        exact .located s
      | filePath => exact absurd rfl hkind
      | bool | integer | float | dataPath => cases h
    | dataPath => cases given with
      | text s =>
        obtain ⟨path, hpath, rfl⟩ := Option.map_eq_some_iff.1 h
        refine .parsed ?_
        cases hparse : DataPath.parse s with
        | ok found =>
          rw [dataPath?, hparse] at hpath
          exact congrArg _ (Option.some.inj hpath)
        | error cause =>
          rw [dataPath?, hparse] at hpath
          cases hpath
      | dataPath => exact absurd rfl hkind
      | bool | integer | float | filePath => cases h
    | bool | integer | text => cases given <;> first | exact absurd rfl hkind | cases h

end ParameterValue

namespace Arguments

variable {args : Arguments} {kind : ParameterKind} {key : String} {value : ParameterValue}

/-- **The look-up of a kind**, with the value as it is bound to a parameter of the kind. The six
look-ups become one function of the kind, and what they have in common can be said once. -/
def lookUp (kind : ParameterKind) (key : String) (args : Arguments) :
    Except ArgumentError ParameterValue :=
  match kind with
  | .bool => (args.bool key).map .bool
  | .integer => (args.integer key).map .integer
  | .float => (args.float key).map .float
  | .text => (args.text key).map .text
  | .filePath => (args.filePath key).map .filePath
  | .dataPath => (args.dataPath key).map .dataPath

theorem map_read {α : Type} (take : ParameterValue → Option α) (wrap : α → ParameterValue) :
    (args.read kind take key).map wrap = match args.find? key with
      | none => .error (.missing key)
      | some given =>
        match (take given).map wrap with
        | none => .error (.wrongKind key kind)
        | some value => .ok value := by
  rw [read]
  cases args.find? key with
  | none => rfl
  | some given =>
    dsimp only
    cases take given <;> rfl

/-- All look-ups are made in one way. -/
theorem lookUp_eq : args.lookUp kind key = match args.find? key with
    | none => .error (.missing key)
    | some given =>
      match given.as? kind with
      | none => .error (.wrongKind key kind)
      | some value => .ok value := by
  cases kind <;> exact map_read _ _

/-- **A look-up gives the argument read as its kind.** If there is no argument under the key, it
fails. -/
theorem lookUp_eq_ok_iff : args.lookUp kind key = .ok value
    ↔ ∃ given, args.find? key = some given ∧ Converts kind given value := by
  simp only [lookUp_eq, ← ParameterValue.as?_eq_some_iff]
  cases args.find? key with
  | none => simp
  | some given => cases hvalue : given.as? kind <;> simp [hvalue]

end Arguments

end Meshwork
