import Mathlib.Data.List.Basic
import Meshwork.Proofs.Failure
import Meshwork.Proofs.Parameter.Conversion

/-!
# What binding provides

Where binding reports no error, every parameter has a value of its kind under
its key (`provides_bind`), whether the value was given, converted or a
default. A look-up of the kind of the parameter cannot fail then
(`Arguments.Provides.exists_read`).

This needs the parameters to have different keys, since a later one would
otherwise take the place of an earlier.
-/

namespace Meshwork

/-- **Every one of the parameters has a value of its kind.** So the look-ups of a filter succeed,
each for its own kind. -/
def Arguments.Provides (args : Arguments) (parameters : List Parameter) : Prop :=
  ∀ p ∈ parameters, ∃ value, args.find? p.key = some value ∧ value.kind = p.kind

namespace Parameter

variable {p : Parameter} {args : Arguments} {value given : ParameterValue}

/-- A value that could be converted is of the kind of the parameter. -/
theorem kind_of_coerce (h : p.coerce given = .ok value) : value.kind = p.kind :=
  (coerce_eq_ok_iff.1 h).kind_eq

/-- **A parameter gets a value** if one is given or is its default, can be converted and satisfies
the constraint. The constraint is checked on the converted value, and a default is checked like
any other. -/
theorem bindOne_eq_ok_iff : p.bindOne args = .ok value ↔
    ∃ given, (args.find? p.key).or p.default? = some given ∧ p.coerce given = .ok value
      ∧ ∀ constraint, p.constraint = some constraint → p.checkConstraint value constraint = .ok () := by
  rw [bindOne]
  cases hgiven : (args.find? p.key).or p.default? with
  | none =>
    refine iff_of_false (fun h => ?_) ?_
    · cases h
    · rintro ⟨_, h, -⟩
      cases h
  | some given =>
    refine bind_eq_ok_iff.trans ⟨?_, ?_⟩
    · rintro ⟨_, hfound, h⟩
      obtain rfl := pure_eq_ok_iff.1 hfound
      obtain ⟨found, hcoerce, h⟩ := bind_eq_ok_iff.1 h
      -- A constraint is checked, and the value stays what it is.
      suffices found = value ∧ ∀ constraint, p.constraint = some constraint →
          p.checkConstraint found constraint = .ok () from
        ⟨_, rfl, this.1 ▸ hcoerce, this.1 ▸ this.2⟩
      dsimp only at h
      split at h <;> rename_i hconstraint
      · obtain ⟨_, hcheck, h⟩ := bind_eq_ok_iff.1 h
        refine ⟨pure_eq_ok_iff.1 h, fun constraint h => ?_⟩
        rw [hconstraint] at h
        exact Option.some.inj h ▸ hcheck
      · exact ⟨pure_eq_ok_iff.1 h, fun constraint h => absurd h (hconstraint constraint)⟩
    · rintro ⟨_, ⟨rfl⟩, hcoerce, hcheck⟩
      refine ⟨given, rfl, bind_eq_ok_iff.2 ⟨value, hcoerce, ?_⟩⟩
      dsimp only
      split <;> rename_i hconstraint
      · exact bind_eq_ok_iff.2 ⟨(), hcheck _ hconstraint, rfl⟩
      · rfl

/-- The value of a parameter is of its kind. -/
theorem kind_of_bindOne (h : p.bindOne args = .ok value) : value.kind = p.kind := by
  obtain ⟨_, -, hcoerce, -⟩ := bindOne_eq_ok_iff.1 h
  exact kind_of_coerce hcoerce

end Parameter

variable {args : Arguments} {parameters : List Parameter}

/-- **No error is forgotten**: there is none if there was none and every parameter gets a value.
Errors are only ever added to the list. -/
theorem bindAll_errors_eq_nil_iff {bound : Arguments} {errors : List BindingError} :
    (bindAll args parameters (bound, errors)).2 = []
      ↔ errors = [] ∧ ∀ p ∈ parameters, ∃ value, p.bindOne args = .ok value := by
  induction parameters generalizing bound errors with
  | nil => simp [bindAll]
  | cons p rest ih =>
    rw [bindAll, List.forall_mem_cons]
    cases hbind : p.bindOne args with
    | error e => simp [ih]
    | ok value => simp [ih]

/-- **Nothing is wrong** if every argument is for a parameter and every parameter gets a value.
The two are reported separately, unknown keys before the parameters. -/
theorem hasErrors_bind_eq_false_iff :
    (bind parameters args).2.hasErrors = false ↔
      (∀ key ∈ args.keys, ∃ p ∈ parameters, p.key = key)
        ∧ ∀ p ∈ parameters, ∃ value, p.bindOne args = .ok value := by
  have hunknown : unknownKeys parameters args = []
      ↔ ∀ key ∈ args.keys, ∃ p ∈ parameters, p.key = key := by
    simp [unknownKeys]
  have hbinds := @bindAll_errors_eq_nil_iff args parameters [] (unknownKeys parameters args)
  rw [← hunknown, ← hbinds]
  simp [bind, Findings.hasErrors]

/-! ## The values that are bound

Parameters are bound one after another, and what was bound before is passed on. For each
of them there is one place where its value is entered, since no other has its key. -/

/-- Binding asks for nothing but the values of the parameters. -/
theorem bindAll_congr {args' : Arguments} (h : ∀ p ∈ parameters, p.bindOne args = p.bindOne args')
    (outcome : Arguments × List BindingError) :
    bindAll args parameters outcome = bindAll args' parameters outcome := by
  induction parameters generalizing outcome with
  | nil => rfl
  | cons p rest ih =>
    obtain ⟨hp, hrest⟩ := List.forall_mem_cons.1 h
    rw [bindAll, bindAll, hp]
    split <;> exact ih hrest _

/-- Binding keeps the values under other keys. -/
theorem find?_bindAll_of_notMem {key : String} (h : key ∉ parameters.map Parameter.key)
    {bound : Arguments} {errors : List BindingError} :
    (bindAll args parameters (bound, errors)).1.find? key = bound.find? key := by
  induction parameters generalizing bound errors with
  | nil => rfl
  | cons p rest ih =>
    rw [List.map_cons, List.mem_cons, not_or] at h
    rw [bindAll]
    split
    · rw [ih h.2, Keyed.find?_insert, if_neg h.1]
    · exact ih h.2

/-- **Under the key of a parameter** there is the value that it gets, or what was there before.
The keys have to differ, or a later parameter would replace the value of an earlier one. -/
theorem find?_bindAll_of_mem (hkeys : (parameters.map Parameter.key).Nodup) {p : Parameter}
    (hp : p ∈ parameters) {bound : Arguments} {errors : List BindingError} :
    (bindAll args parameters (bound, errors)).1.find? p.key
      = (p.bindOne args).toOption.or (bound.find? p.key) := by
  -- The keys differ, so what is entered for the parameters behind leaves the value of `p` alone.
  induction parameters generalizing bound errors with
  | nil => cases hp
  | cons first rest ih =>
    obtain ⟨hfirst, hrest⟩ := List.nodup_cons.1 hkeys
    rw [bindAll]
    rcases List.mem_cons.1 hp with rfl | hp
    · cases p.bindOne args with
      | ok value =>
        dsimp only
        rw [find?_bindAll_of_notMem hfirst, Keyed.find?_insert, if_pos rfl]
        rfl
      | error e =>
        dsimp only
        rw [find?_bindAll_of_notMem hfirst]
        rfl
    · have hne : p.key ≠ first.key := fun he => hfirst (he ▸ List.mem_map_of_mem hp)
      cases first.bindOne args with
      | ok value =>
        dsimp only
        rw [ih hrest hp, Keyed.find?_insert, if_neg hne]
      | error e => exact ih hrest hp

/-- Binding keeps the order of the keys. -/
theorem ordered_bindAll {bound : Arguments} {errors : List BindingError} (h : bound.Ordered) :
    (bindAll args parameters (bound, errors)).1.Ordered := by
  induction parameters generalizing bound errors with
  | nil => exact h
  | cons p rest ih =>
    rw [bindAll]
    split
    · exact ih (Keyed.ordered_insert h)
    · exact ih h

theorem bind_fst : (bind parameters args).1
    = (bindAll args parameters ([], unknownKeys parameters args)).1 := rfl

/-- **What is bound for a parameter** is the value that it gets. If it gets none, there is nothing
under its key, whatever was given. -/
theorem find?_bind_of_mem (hkeys : (parameters.map Parameter.key).Nodup) {p : Parameter}
    (hp : p ∈ parameters) :
    (bind parameters args).1.find? p.key = (p.bindOne args).toOption := by
  rw [bind_fst, find?_bindAll_of_mem hkeys hp, Keyed.find?_nil, Option.or_none]

/-- A value that a parameter gets is bound. -/
theorem find?_bind_of_bindOne (hkeys : (parameters.map Parameter.key).Nodup) {p : Parameter}
    (hp : p ∈ parameters) {value : ParameterValue} (h : p.bindOne args = .ok value) :
    (bind parameters args).1.find? p.key = some value := by
  rw [find?_bind_of_mem hkeys hp, h]
  rfl

/-- The look-up of the kind of the parameter gives it. -/
theorem lookUp_bind_of_bindOne (hkeys : (parameters.map Parameter.key).Nodup) {p : Parameter}
    (hp : p ∈ parameters) {value : ParameterValue} (h : p.bindOne args = .ok value) :
    (bind parameters args).1.lookUp p.kind p.key = .ok value :=
  Arguments.lookUp_eq_ok_iff.2
    ⟨value, find?_bind_of_bindOne hkeys hp h, .self (Parameter.kind_of_bindOne h)⟩

/-- Nothing is bound under other keys. -/
theorem find?_bind_of_notMem {key : String} (h : key ∉ parameters.map Parameter.key) :
    (bind parameters args).1.find? key = none := by
  rw [bind_fst, find?_bindAll_of_notMem h, Keyed.find?_nil]

/-- **Without an error, binding provides for every parameter.** This is the form in which the work
of a filter uses it. -/
theorem provides_bind (hkeys : (parameters.map Parameter.key).Nodup)
    (h : (bind parameters args).2.hasErrors = false) :
    (bind parameters args).1.Provides parameters := by
  intro p hp
  obtain ⟨value, hvalue⟩ := (hasErrors_bind_eq_false_iff.1 h).2 p hp
  exact ⟨value, find?_bind_of_bindOne hkeys hp hvalue, Parameter.kind_of_bindOne hvalue⟩

namespace Arguments.Provides

variable {α : Type}

/-- **A look-up of a parameter's kind succeeds.** The look-up goes through `take`, which has to
accept all values of the kind. -/
theorem exists_read (h : args.Provides parameters) (take : ParameterValue → Option α)
    {p : Parameter} (hp : p ∈ parameters)
    (htake : ∀ value : ParameterValue, value.kind = p.kind → (take value).isSome) :
    ∃ x, args.read p.kind take p.key = .ok x := by
  obtain ⟨value, hvalue, hkind⟩ := h p hp
  obtain ⟨x, hx⟩ := Option.isSome_iff_exists.1 (htake value hkind)
  exact ⟨x, by rw [Arguments.read, hvalue]; dsimp only; rw [hx]⟩

end Arguments.Provides

end Meshwork
