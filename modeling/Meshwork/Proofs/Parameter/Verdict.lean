import Meshwork.Proofs.Parameter.Binding

/-!
# What binding finds

A parameter is missing, or what is given for it cannot be read as its kind, or what it is read
as violates its constraint, or it gets a value. `Parameter.Becomes` lists these verdicts with
their conditions, and every parameter has exactly one of them (`Parameter.becomes_iff`).

Binding reports the arguments that belong to no parameter, in order of their keys, and after them
the verdicts that are errors, in order of the parameters (`Reported`). What it binds are the
values of the others and nothing else, each under its key (`Binds`). Without an error, every
look-up by the kind of a parameter succeeds, which is what filters rely on when they read their
arguments.
-/

namespace Meshwork

open ParameterValue (Converts)

namespace Parameter

variable {p : Parameter} {args : Arguments} {given value : ParameterValue}

/-! ## One parameter

The verdicts exclude one another by their conditions, and one of them always holds. This
is what makes it a specification of binding one parameter: it does not say in which order
things are tried. -/

/-- **What is given for a parameter**: the argument under its key, or without one its default. A
default counts only where there is no argument, also if the argument cannot be used. -/
def Given (p : Parameter) (args : Arguments) (given : ParameterValue) : Prop :=
  args.find? p.key = some given ∨ args.find? p.key = none ∧ p.default? = some given

/-- **What becomes of a parameter.** The cases are the errors of binding and the value, each with
what has to be so for it. -/
inductive Becomes (p : Parameter) (args : Arguments) : Except BindingError ParameterValue → Prop where
  /-- Nothing is given for it. -/
  | missing (hnone : args.find? p.key = none) (hrequired : p.default? = none) :
    Becomes p args (.error (.missing p.key p.title))
  /-- A path is asked for, and a text is given that is none. -/
  | malformed {s : String} {cause : PathError} (hgiven : p.Given args (.text s))
      (hkind : p.kind = .dataPath) (hparse : DataPath.parse s = .error cause) :
    Becomes p args (.error (.invalidPath p.key s cause))
  /-- What is given is not read as the kind. -/
  | mistyped {given : ParameterValue} (hgiven : p.Given args given)
      (hkind : ¬(p.kind = .dataPath ∧ given.kind = .text))
      (hnone : ∀ value, ¬Converts p.kind given value) :
    Becomes p args (.error (.wrongKind p.key p.kind given))
  /-- The number does not lie in the range. -/
  | outside {given value : ParameterValue} {x : Double} {least greatest : Bound}
      (hgiven : p.Given args given) (hconverts : Converts p.kind given value)
      (hconstraint : p.constraint = some (.range least greatest)) (hx : value.float? = some x)
      (hviolated : ¬(Constraint.range least greatest).Holds value) :
    Becomes p args (.error (.outOfRange p.key x least greatest))
  /-- The text is empty, and must not be. -/
  | empty {given value : ParameterValue} (hgiven : p.Given args given)
      (hconverts : Converts p.kind given value) (hconstraint : p.constraint = some .nonEmpty)
      (hviolated : ¬Constraint.nonEmpty.Holds value) :
    Becomes p args (.error (.empty p.key))
  /-- Nothing is wrong. -/
  | bound {given value : ParameterValue} (hgiven : p.Given args given)
      (hconverts : Converts p.kind given value)
      (hholds : ∀ constraint, p.constraint = some constraint → constraint.Holds value) :
    Becomes p args (.ok value)

theorem given_iff : p.Given args given ↔ (args.find? p.key).or p.default? = some given := by
  rw [Given, Option.or_eq_some_iff]

/-- A parameter for which nothing is given. -/
theorem bindOne_of_missing (hnone : args.find? p.key = none) (hrequired : p.default? = none) :
    p.bindOne args = .error (.missing p.key p.title) := by
  rw [bindOne, hnone, hrequired]
  rfl

/-- A parameter for which something is given. -/
theorem bindOne_of_given (h : p.Given args given) :
    p.bindOne args = p.coerce given >>= fun value =>
      (match p.constraint with
        | none => .ok ()
        | some constraint => p.checkConstraint value constraint) >>= fun _ => .ok value := by
  rw [bindOne, given_iff.1 h]
  show (p.coerce given >>= _) = _
  cases p.coerce given with
  | error e => rfl
  | ok value =>
    show _ = _ >>= _
    cases p.constraint <;> rfl

/-- What is given cannot be converted. -/
theorem bindOne_of_coerce_error {e : BindingError} (h : p.Given args given)
    (hcoerce : p.coerce given = .error e) : p.bindOne args = .error e := by
  rw [bindOne_of_given h, hcoerce]
  rfl

/-- What is given can be converted, and there is something that it must satisfy. -/
theorem bindOne_of_constraint {constraint : Constraint} (h : p.Given args given)
    (hconverts : Converts p.kind given value) (hconstraint : p.constraint = some constraint) :
    p.bindOne args = (p.checkConstraint value constraint).map fun _ => value := by
  rw [bindOne_of_given h, coerce_eq_ok_iff.2 hconverts, hconstraint]
  show (p.checkConstraint value constraint >>= _) = _
  cases p.checkConstraint value constraint <;> rfl

/-- **Binding a parameter** gives what becomes of it. So one of the cases holds of every
parameter, whatever is given for it. -/
theorem becomes_bindOne (p : Parameter) (args : Arguments) : p.Becomes args (p.bindOne args) := by
  -- The verdicts in the order in which binding reaches them: missing, not converted, not in bounds.
  cases hfound : (args.find? p.key).or p.default? with
  | none =>
    obtain ⟨hnone, hrequired⟩ := Option.or_eq_none_iff.1 hfound
    rw [bindOne_of_missing hnone hrequired]
    exact .missing hnone hrequired
  | some given =>
    have hgiven : p.Given args given := given_iff.2 hfound
    rcases p.coerce_cases given with
      ⟨value, hconverts, hcoerce⟩ | ⟨hnone, ⟨s, cause, hkind, rfl, hparse, hcoerce⟩ | ⟨hkind, hcoerce⟩⟩
    · cases hconstraint : p.constraint with
      | none =>
        rw [bindOne_of_given hgiven, hcoerce, hconstraint]
        exact .bound hgiven hconverts fun _ h => nomatch hconstraint.symm.trans h
      | some constraint =>
        rw [bindOne_of_constraint hgiven hconverts hconstraint]
        rcases p.checkConstraint_cases value constraint with
          ⟨hholds, hcheck⟩ | ⟨hviolated, ⟨least, greatest, x, rfl, hx, hcheck⟩ | ⟨rfl, hcheck⟩⟩
        · rw [hcheck]
          exact .bound hgiven hconverts fun other h =>
            Option.some.inj (hconstraint.symm.trans h) ▸ hholds
        · rw [hcheck]
          exact .outside hgiven hconverts hconstraint hx hviolated
        · rw [hcheck]
          exact .empty hgiven hconverts hconstraint hviolated
    · rw [bindOne_of_coerce_error hgiven hcoerce]
      exact .malformed hgiven hkind hparse
    · rw [bindOne_of_coerce_error hgiven hcoerce]
      exact .mistyped hgiven hkind hnone

/-- **Nothing else becomes of it**: the verdict is what binding the parameter gives. The
conditions of the cases exclude each other. -/
theorem Becomes.bindOne_eq {verdict : Except BindingError ParameterValue}
    (h : p.Becomes args verdict) : p.bindOne args = verdict := by
  -- Each verdict excludes the branches before its own; the case analysis of the conversion leaves
  -- only one.
  cases h with
  | missing hnone hrequired => exact bindOne_of_missing hnone hrequired
  | @malformed s cause hgiven hkind hparse =>
    refine bindOne_of_coerce_error hgiven ?_
    rcases p.coerce_cases (.text s) with
      ⟨value, hconverts, -⟩ | ⟨-, ⟨s', cause', -, hs, hparse', hcoerce⟩ | ⟨hother, -⟩⟩
    · rw [hkind] at hconverts
      cases hconverts with
      | self h => cases h
      | parsed h => cases h.symm.trans hparse
    · cases hs
      rw [hcoerce, Except.error.inj (hparse'.symm.trans hparse)]
    · exact absurd ⟨hkind, rfl⟩ hother
  | @mistyped given hgiven hkind hnone =>
    refine bindOne_of_coerce_error hgiven ?_
    rcases p.coerce_cases given with
      ⟨value, hconverts, -⟩ | ⟨-, ⟨s, cause, hpath, rfl, -⟩ | ⟨-, hcoerce⟩⟩
    · exact absurd hconverts (hnone value)
    · exact absurd ⟨hpath, rfl⟩ hkind
    · exact hcoerce
  | @outside given value x least greatest hgiven hconverts hconstraint hx hviolated =>
    rw [bindOne_of_constraint hgiven hconverts hconstraint]
    rcases p.checkConstraint_cases value (.range least greatest) with
      ⟨hholds, -⟩ | ⟨-, ⟨least', greatest', x', hrange, hx', hcheck⟩ | ⟨hrange, -⟩⟩
    · exact absurd hholds hviolated
    · cases hrange
      rw [hcheck, Option.some.inj (hx'.symm.trans hx)]
      rfl
    · cases hrange
  | @empty given value hgiven hconverts hconstraint hviolated =>
    rw [bindOne_of_constraint hgiven hconverts hconstraint]
    rcases p.checkConstraint_cases value .nonEmpty with
      ⟨hholds, -⟩ | ⟨-, ⟨least, greatest, x, hrange, -⟩ | ⟨-, hcheck⟩⟩
    · exact absurd hholds hviolated
    · cases hrange
    · rw [hcheck]
      rfl
  | @bound given value hgiven hconverts hholds =>
    refine bindOne_eq_ok_iff.2 ⟨given, given_iff.1 hgiven, coerce_eq_ok_iff.2 hconverts,
      fun constraint hconstraint => ?_⟩
    rcases p.checkConstraint_cases value constraint with ⟨-, hcheck⟩ | ⟨hviolated, -⟩
    · exact hcheck
    · exact absurd (hholds constraint hconstraint) hviolated

/-- **Every parameter has one verdict.** The relation is the function, said by what is true of
parameter and arguments. -/
theorem becomes_iff {verdict : Except BindingError ParameterValue} :
    p.Becomes args verdict ↔ p.bindOne args = verdict :=
  ⟨Becomes.bindOne_eq, fun h => h ▸ p.becomes_bindOne args⟩

end Parameter

/-! ## All parameters

What is reported is determined by the verdicts alone, as a list; the order of parameters
is the order in which they are declared. -/

variable {parameters : List Parameter} {args : Arguments}

/-- **What is reported of parameters**: in their order, an error for each that gets no value.
Parameters that get a value leave no trace in the list. -/
inductive Reported (args : Arguments) : List Parameter → List BindingError → Prop where
  /-- There are no more parameters. -/
  | nil : Reported args [] []
  /-- The first parameter gets no value. -/
  | refused {p : Parameter} {rest : List Parameter} {e : BindingError} {errors : List BindingError}
      (hp : p.Becomes args (.error e)) (hrest : Reported args rest errors) :
    Reported args (p :: rest) (e :: errors)
  /-- The first parameter gets a value. -/
  | bound {p : Parameter} {rest : List Parameter} {value : ParameterValue}
      {errors : List BindingError} (hp : p.Becomes args (.ok value))
      (hrest : Reported args rest errors) :
    Reported args (p :: rest) errors

/-- **Binding reports the parameters** after what was reported before. By induction on the
parameters, with what was bound so far kept general. -/
theorem reported_bindAll (bound : Arguments) (errors : List BindingError) :
    ∃ reported, Reported args parameters reported
      ∧ (bindAll args parameters (bound, errors)).2 = errors ++ reported := by
  induction parameters generalizing bound errors with
  | nil => exact ⟨[], .nil, (List.append_nil errors).symm⟩
  | cons p rest ih =>
    rw [bindAll]
    cases hp : p.bindOne args with
    | ok value =>
      obtain ⟨reported, hreported, he⟩ := ih (Keyed.insert p.key value bound) errors
      exact ⟨reported, .bound (Parameter.becomes_iff.2 hp) hreported, he⟩
    | error e =>
      obtain ⟨reported, hreported, he⟩ := ih bound (errors ++ [e])
      refine ⟨e :: reported, .refused (Parameter.becomes_iff.2 hp) hreported, ?_⟩
      dsimp only
      rw [he, List.append_assoc, List.singleton_append]

/-- **What binding finds and gives.** The `result` is the bound arguments with the findings. -/
structure Binds (parameters : List Parameter) (args : Arguments) (result : Arguments × Findings) :
    Prop where
  /-- Every parameter has one verdict. -/
  decided : ∀ p ∈ parameters, ∃! verdict, p.Becomes args verdict
  /-- The findings are errors: first the keys that no parameter has, in increasing order and each
  once, and then those of the parameters. -/
  findings : ∃ (strays : List String) (reported : List BindingError), strays.Pairwise (· < ·)
    ∧ (∀ key, key ∈ strays ↔ args.contains key = true ∧ ∀ p ∈ parameters, p.key ≠ key)
    ∧ Reported args parameters reported
    ∧ result.2
      = ⟨(strays.map BindingError.unknown ++ reported).map BindingError.diagnostic, []⟩
  /-- The keys of what is bound are in order. -/
  ordered : result.1.Ordered
  /-- What is bound are the values of the parameters that get one. -/
  values : ∀ key value, result.1.find? key = some value
    ↔ ∃ p ∈ parameters, p.key = key ∧ p.Becomes args (.ok value)
  /-- Nothing is bound for a parameter that is reported. -/
  refused : ∀ p ∈ parameters, result.1.find? p.key = none ↔ ∃ e, p.Becomes args (.error e)
  /-- A value is of the kind of its parameter and satisfies its constraint. -/
  sound : ∀ p ∈ parameters, ∀ value, result.1.find? p.key = some value →
    value.kind = p.kind ∧ ∀ constraint, p.constraint = some constraint → constraint.Holds value
  /-- Without errors, the look-up of the kind of a parameter gives its value. -/
  complete : result.2.hasErrors = false → ∀ p ∈ parameters, ∃ value,
    p.Becomes args (.ok value) ∧ result.1.lookUp p.kind p.key = .ok value

theorem toOption_bindOne_eq_some_iff {p : Parameter} {value : ParameterValue} :
    (p.bindOne args).toOption = some value ↔ p.Becomes args (.ok value) := by
  rw [Parameter.becomes_iff]
  cases p.bindOne args <;> simp [Except.toOption]

/-- **Binding is sound and complete** for parameters with different keys. No parameter is left out
and none is reported twice. -/
theorem binds_bind (hkeys : (parameters.map Parameter.key).Nodup) (hordered : args.Ordered) :
    Binds parameters args (bind parameters args) where
  decided p _ := ⟨p.bindOne args, p.becomes_bindOne args, fun _ h => h.bindOne_eq.symm⟩
  findings := by
    obtain ⟨reported, hreported, he⟩ := @reported_bindAll parameters args []
      (unknownKeys parameters args)
    refine ⟨args.keys.filter fun key => !parameters.any (·.key == key), reported,
      List.Pairwise.filter _ (List.pairwise_map.2 hordered), fun key => ?_, hreported, ?_⟩
    · rw [List.mem_filter, Keyed.mem_keys_iff, Keyed.contains]
      simp
    · show Findings.mk ((bindAll args parameters ([], unknownKeys parameters args)).2.map _) [] = _
      rw [he]
      rfl
  ordered := ordered_bindAll List.Pairwise.nil
  -- A key of no parameter holds nothing, whatever the arguments have there.
  values key value := by
    constructor
    · intro hfound
      by_cases hkey : key ∈ parameters.map Parameter.key
      · obtain ⟨p, hp, rfl⟩ := List.mem_map.1 hkey
        rw [find?_bind_of_mem hkeys hp] at hfound
        exact ⟨p, hp, rfl, toOption_bindOne_eq_some_iff.1 hfound⟩
      · rw [find?_bind_of_notMem hkey] at hfound
        cases hfound
    · rintro ⟨p, hp, rfl, hvalue⟩
      rw [find?_bind_of_mem hkeys hp, toOption_bindOne_eq_some_iff.2 hvalue]
  refused p hp := by
    rw [find?_bind_of_mem hkeys hp]
    simp only [Parameter.becomes_iff]
    cases p.bindOne args <;> simp [Except.toOption]
  sound p hp value hfound := by
    rw [find?_bind_of_mem hkeys hp, toOption_bindOne_eq_some_iff] at hfound
    cases hfound with
    | bound _ hconverts hholds => exact ⟨hconverts.kind_eq, hholds⟩
  complete hclean p hp := by
    obtain ⟨value, hvalue⟩ := (hasErrors_bind_eq_false_iff.1 hclean).2 p hp
    exact ⟨value, Parameter.becomes_iff.2 hvalue, lookUp_bind_of_bindOne hkeys hp hvalue⟩

/-- A factor is left to its default, a text is empty, a path has an empty name, and there is a key
that no parameter has. -/
theorem binds_bind_mixed :
    let factor : Parameter := ⟨"factor", "Factor", "", .float,
      some (.integer 2), some (.range (.excluded .zero) .unbounded)⟩
    let name : Parameter := ⟨"name", "Name", "", .text, none, some .nonEmpty⟩
    let place : Parameter := ⟨"place", "Place", "", .dataPath, none, none⟩
    let target : Parameter := ⟨"target", "Target", "", .dataPath, none, none⟩
    let parameters := [target, place, factor, name]
    let args : Arguments := [("bogus", .bool true), ("name", .text ""), ("place", .text "a//b")]
    let result := bind parameters args
    (parameters.map Parameter.key).Nodup ∧ args.Ordered ∧ Binds parameters args result
      ∧ result.2.errors.map Diagnostic.code
        = [.unknownParameter, .missingParameter, .invalidPath, .emptyValue]
      ∧ result.1 = [("factor", .float (.ofInt 2))] := by
  intro factor name place target parameters args result
  have hkeys : (parameters.map Parameter.key).Nodup := by decide
  have hordered : args.Ordered := by
    unfold Keyed.Ordered
    decide
  exact ⟨hkeys, hordered, binds_bind hkeys hordered, by decide +kernel, by decide +kernel⟩

end Meshwork
