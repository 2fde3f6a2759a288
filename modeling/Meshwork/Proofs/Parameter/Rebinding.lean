import Meshwork.Proofs.Parameter.Verdict

/-!
# Arguments before and after binding

Filters read bound arguments, and others may read arguments that were never bound. Both see the
same: a look-up of the kind of a parameter gives what the conversion to the kind gives, whether it
is made before binding or after (`Rebinds`). What was bound is bound to itself, so nothing changes
when arguments are bound twice (`bind_bind`).
-/

namespace Meshwork

variable {parameters : List Parameter} {args : Arguments} {p : Parameter}

namespace Arguments

variable {given : ParameterValue}

/-- **A look-up and the conversion agree**: both give the same value, or both fail. Their errors
are of different types and carry different data. -/
theorem toOption_lookUp (h : args.find? p.key = some given) :
    (args.lookUp p.kind p.key).toOption = (p.coerce given).toOption := by
  have hiff : ∀ value, args.lookUp p.kind p.key = .ok value ↔ p.coerce given = .ok value :=
    fun value => by
      rw [lookUp_eq_ok_iff, Parameter.coerce_eq_ok_iff, h]
      simp
  cases hlookUp : args.lookUp p.kind p.key with
  | ok value =>
    rw [(hiff value).1 hlookUp]
    rfl
  | error e =>
    cases hcoerce : p.coerce given with
    | ok value => cases hlookUp.symm.trans ((hiff value).2 hcoerce)
    | error e' => rfl

/-- A look-up under a key that is there fails only for the kind. -/
theorem eq_wrongKind_of_lookUp {key : String} {kind : ParameterKind} {e : ArgumentError}
    (h : args.find? key = some given) (hlookUp : args.lookUp kind key = .error e) :
    e = .wrongKind key kind := by
  rw [lookUp_eq, h] at hlookUp
  dsimp only at hlookUp
  split at hlookUp
  · exact (Except.error.inj hlookUp).symm
  · cases hlookUp

end Arguments

/-! ## Binding twice

The second binding finds every key known and every value of its kind, and a value of the
right kind is not converted again. -/

/-- **A value that was bound is bound to itself.** It is of its kind already, and passed the
constraint. -/
theorem Parameter.bindOne_bind (hkeys : (parameters.map Parameter.key).Nodup)
    (hp : p ∈ parameters) {value : ParameterValue} (h : p.bindOne args = .ok value) :
    p.bindOne (bind parameters args).1 = .ok value := by
  obtain ⟨given, -, hcoerce, hcheck⟩ := bindOne_eq_ok_iff.1 h
  refine bindOne_eq_ok_iff.2 ⟨value, ?_, coerce_eq_ok_iff.2 (.self (kind_of_coerce hcoerce)), hcheck⟩
  rw [find?_bind_of_bindOne hkeys hp h, Option.some_or]

/-- What is bound has no key that no parameter has. -/
theorem unknownKeys_bind : unknownKeys parameters (bind parameters args).1 = [] := by
  rw [unknownKeys, List.map_eq_nil_iff, List.filter_eq_nil_iff]
  intro key hkey
  have hmem : key ∈ parameters.map Parameter.key := by
    by_contra hnone
    obtain ⟨value, hvalue⟩ := Option.isSome_iff_exists.1 (Keyed.mem_keys_iff.1 hkey)
    cases (find?_bind_of_notMem hnone).symm.trans hvalue
  simpa using hmem

/-- **Binding is idempotent** where it finds no error. The second time it finds no error either. -/
theorem bind_bind (hkeys : (parameters.map Parameter.key).Nodup)
    (hclean : (bind parameters args).2.hasErrors = false) :
    bind parameters (bind parameters args).1 = ((bind parameters args).1, .none) := by
  obtain ⟨hknown, hvalues⟩ := hasErrors_bind_eq_false_iff.1 hclean
  have hunknown : unknownKeys parameters args = [] := by
    simpa [unknownKeys] using hknown
  -- Every parameter finds under its key the value that it was bound to, which is bound to itself.
  have hsame : bind parameters (bind parameters args).1 = bind parameters args := by
    have hall : bindAll (bind parameters args).1 parameters ([], [])
        = bindAll args parameters ([], []) :=
      bindAll_congr (fun p hp => by
        obtain ⟨value, hvalue⟩ := hvalues p hp
        rw [hvalue, Parameter.bindOne_bind hkeys hp hvalue]) _
    rw [bind, unknownKeys_bind, hall, bind, hunknown]
  have hnone : (bindAll args parameters ([], unknownKeys parameters args)).2 = [] :=
    bindAll_errors_eq_nil_iff.2 ⟨hunknown, hvalues⟩
  have hfindings : (bind parameters args).2 = .none := by
    show Findings.mk ((bindAll args parameters ([], unknownKeys parameters args)).2.map _) [] = _
    rw [hnone]
    rfl
  rw [hsame, ← hfindings]

/-! ## Reading before and after binding

A look-up converts what was not bound, and takes what was bound as it is. Both come to the
same value, or fail for the same reason. -/

/-- **A look-up gives the same before binding and after**, for an argument that was given. For an
argument that was not given, binding may have put a default there, where before the look-up
failed. -/
theorem lookUp_bind (hkeys : (parameters.map Parameter.key).Nodup)
    (hclean : (bind parameters args).2.hasErrors = false) (hp : p ∈ parameters)
    (hcontains : args.contains p.key = true) :
    (bind parameters args).1.lookUp p.kind p.key = args.lookUp p.kind p.key := by
  obtain ⟨given, hgiven⟩ := Option.isSome_iff_exists.1 hcontains
  obtain ⟨value, hvalue⟩ := (hasErrors_bind_eq_false_iff.1 hclean).2 p hp
  obtain ⟨found, hfound, hcoerce, -⟩ := Parameter.bindOne_eq_ok_iff.1 hvalue
  rw [hgiven, Option.some_or] at hfound
  obtain rfl := Option.some.inj hfound
  have hbefore : args.lookUp p.kind p.key = .ok value :=
    Arguments.lookUp_eq_ok_iff.2 ⟨given, hgiven, Parameter.coerce_eq_ok_iff.1 hcoerce⟩
  rw [lookUp_bind_of_bindOne hkeys hp hvalue, hbefore]

/-- **How arguments read before binding and after.** The first and the last field are about
arguments without an error, the others about all. -/
structure Rebinds (parameters : List Parameter) (args : Arguments) : Prop where
  /-- What was bound without an error is bound to itself, without an error. -/
  again : (bind parameters args).2.hasErrors = false →
    bind parameters (bind parameters args).1 = ((bind parameters args).1, .none)
  /-- The look-up of an argument that was not bound gives what conversion gives, or both fail. -/
  lookUp : ∀ p ∈ parameters, ∀ given, args.find? p.key = some given →
    (args.lookUp p.kind p.key).toOption = (p.coerce given).toOption
  /-- The look-up fails with the kind that it asks for. -/
  refusal : ∀ p ∈ parameters, args.contains p.key = true → ∀ e,
    args.lookUp p.kind p.key = .error e → e = .wrongKind p.key p.kind
  /-- Without an error, it gives what it gives once the arguments are bound. -/
  kept : (bind parameters args).2.hasErrors = false → ∀ p ∈ parameters,
    args.contains p.key = true →
      (bind parameters args).1.lookUp p.kind p.key = args.lookUp p.kind p.key

/-- **Binding twice is binding once**, and look-ups agree with conversion. -/
theorem rebinds_of_nodup (hkeys : (parameters.map Parameter.key).Nodup) :
    Rebinds parameters args where
  again := bind_bind hkeys
  lookUp _ _ _ := Arguments.toOption_lookUp
  refusal _ _ hcontains _ hlookUp := by
    obtain ⟨_, hgiven⟩ := Option.isSome_iff_exists.1 hcontains
    exact Arguments.eq_wrongKind_of_lookUp hgiven hlookUp
  kept hclean _ := lookUp_bind hkeys hclean

/-- An integer and a text are given for a float and a path, and a default is taken. -/
theorem rebinds_of_nodup_converted :
    let factor : Parameter := ⟨"factor", "Factor", "", .float, none, none⟩
    let place : Parameter := ⟨"place", "Place", "", .dataPath, none, none⟩
    let overwrite : Parameter := ⟨"overwrite", "Overwrite", "", .bool, some (.bool false), none⟩
    let parameters := [place, factor, overwrite]
    let args : Arguments := [("factor", .integer 3), ("place", .text "/a/b")]
    (parameters.map Parameter.key).Nodup ∧ Rebinds parameters args
      ∧ (bind parameters args).2.hasErrors = false
      ∧ args.lookUp .float "factor" = .ok (.float (.ofInt 3))
      ∧ (bind parameters args).1.lookUp .float "factor" = .ok (.float (.ofInt 3)) := by
  intro factor place overwrite parameters args
  have hkeys : (parameters.map Parameter.key).Nodup := by decide
  have hrebinds := @rebinds_of_nodup parameters args hkeys
  have hclean : (bind parameters args).2.hasErrors = false := by decide +kernel
  refine ⟨hkeys, hrebinds, hclean, rfl, ?_⟩
  exact hrebinds.kept hclean factor (by decide) rfl

end Meshwork
