import Meshwork.Filter.Input
import Meshwork.Proofs.Edit.Effect
import Meshwork.Proofs.Failure
import Meshwork.Proofs.Filter.Lifecycle
import Meshwork.Proofs.Parameter.Binding

/-!
# Findings without a defect

The code of a defect is for what should never happen. A filter is regular if
neither its plan nor its work reports one for arguments that provide for its
parameters (`Filter.Regular`). Binding and the check of edits never do either.
What is left is the last stage: an execution of a regular filter reports a
defect exactly if its edits are refused (`Filter.Regular.defect_iff`).
-/

namespace Meshwork

/-! ## Findings

Regularity is about codes, and errors get their codes when they are made. Each kind of
error that the library has is looked at once. -/

/-- **Findings report no defect.** Errors of all other kinds are allowed, as they are for the user
to see. -/
def Findings.Regular (f : Findings) : Prop := ∀ d ∈ f, d.code ≠ .internal

namespace Findings

variable {a b : Findings} {name : String}

theorem regular_none : Findings.none.Regular := fun _ hd => hd.elim nofun nofun

theorem regular_append : (a ++ b).Regular ↔ a.Regular ∧ b.Regular :=
  ⟨fun h => ⟨fun d hd => h d (mem_append.2 (Or.inl hd)), fun d hd => h d (mem_append.2 (Or.inr hd))⟩,
    fun h d hd => (mem_append.1 hd).elim (h.1 d) (h.2 d)⟩

theorem regular_ofError {code : DiagnosticCode} (h : code ≠ .internal) (message : String) :
    (ofError code message).Regular := by
  rintro d (hd | hd)
  · rw [List.mem_singleton.1 hd]
    exact h
  · cases hd

theorem regular_ofWarning {code : DiagnosticCode} (h : code ≠ .internal) (message : String) :
    (ofWarning code message).Regular := by
  rintro d (hd | hd)
  · cases hd
  · rw [List.mem_singleton.1 hd]
    exact h

/-- Naming a filter changes no code. -/
theorem regular_attributed : (a.attributed name).Regular ↔ a.Regular := by
  constructor
  · rintro h d (hd | hd)
    · exact h (d.attributed name) (Or.inl (List.mem_map_of_mem hd))
    · exact h (d.attributed name) (Or.inr (List.mem_map_of_mem hd))
  · rintro h d (hd | hd)
    · obtain ⟨own, hown, rfl⟩ := List.mem_map.1 hd
      exact h own (Or.inl hown)
    · obtain ⟨own, hown, rfl⟩ := List.mem_map.1 hd
      exact h own (Or.inr hown)

end Findings

/-- No refusal of a store is a defect. -/
theorem StoreError.code_ne_internal (e : StoreError) : e.code ≠ .internal := by
  cases e <;> exact nofun

/-- No error of binding is a defect. -/
theorem BindingError.code_ne_internal (e : BindingError) : e.code ≠ .internal := by
  cases e <;> exact nofun

theorem regular_bind (parameters : List Parameter) (args : Arguments) :
    (bind parameters args).2.Regular := by
  rintro d (hd | hd)
  · obtain ⟨e, -, rfl⟩ := List.mem_map.1 hd
    exact e.code_ne_internal
  · cases hd

theorem regular_checkEdits (s : Store) (edits : List Edit) : (checkEdits s edits).Regular := by
  rintro d (hd | hd)
  · obtain ⟨e, -, rfl⟩ := List.mem_map.1 hd
    exact e.code_ne_internal
  · cases hd

/-! ## Steps of plans and of work

Plans and work are chains of steps, any of which may give errors instead of a value. A
chain is regular if its steps are, so a filter is shown to be regular by following its
text. -/

/-- **A step reports no defect**: what it gives is as said, and if it gives nothing, it reports
errors of another kind. Steps in a row are composed with it, as with a postcondition. -/
def Regularly {α : Type} (post : α → Prop) : Except Findings α → Prop
  | .ok value => post value
  | .error findings => findings.hasErrors = true ∧ findings.Regular

namespace Regularly

variable {α β : Type} {post : α → Prop} {x : Except Findings α}

/-- One step after another. -/
theorem bind {f : α → Except Findings β} {post' : β → Prop} (hx : Regularly post x)
    (hf : ∀ value, post value → Regularly post' (f value)) : Regularly post' (x >>= f) := by
  cases x with
  | error findings => exact hx
  | ok value => exact hf value hx

/-- An error that is no defect. -/
theorem mapError {ε : Type} {x : Except ε α} {f : ε → Findings}
    (hf : ∀ e, (f e).hasErrors = true ∧ (f e).Regular) :
    Regularly (fun value => x = .ok value) (x.mapError f) := by
  cases x with
  | error e => exact hf e
  | ok value => rfl

theorem mono {post' : α → Prop} (h : Regularly post x) (himp : ∀ value, post value → post' value) :
    Regularly post' x := by
  cases x with
  | error findings => exact h
  | ok value => exact himp value h

end Regularly

namespace Filter

theorem regularly_requireFile (files : FileSystem) (path : String) :
    Regularly (fun _ => files.isFile path) (requireFile files path) := by
  unfold requireFile
  split
  · assumption
  · exact ⟨rfl, Findings.regular_ofError (by decide) _⟩

theorem regularly_readInput (files : FileSystem) (path : String) :
    Regularly (fun bytes => files.read path = .ok bytes) (readInput files path) := by
  refine Regularly.mapError fun e => ⟨rfl, Findings.regular_ofError ?_ _⟩
  split <;> decide

/-- A file that is not of its format. -/
theorem regularly_codec {α : Type} (path : String) (x : Except CodecError α) :
    Regularly (fun value => x = .ok value) (x.mapError (CodecError.finding path)) :=
  Regularly.mapError fun _ => ⟨rfl, Findings.regular_ofError (by decide) _⟩

/-- An argument of a parameter is there. -/
theorem argument_eq_ok {α : Type} {value : Except ArgumentError α} {x : α} (h : value = .ok x) :
    argument value = .ok x := by
  rw [argument, h]
  rfl

/-- What a plan without errors comes from. -/
theorem declare_of_hasErrors_eq_false {f : Filter} {files : FileSystem} {s : Store}
    {args : Arguments} (h : (f.declare files s args).findings.hasErrors = false) :
    let plan := f.plan files s (bind f.parameters args).1
    (bind f.parameters args).2.hasErrors = false ∧ plan.findings.hasErrors = false
      ∧ (f.declare files s args).edits = plan.edits := by
  rw [declare, prepare_eq] at h ⊢
  cases hbound : (bind f.parameters args).2.hasErrors with
  | true => simp [Plan.failed, hbound] at h
  | false =>
    rw [hbound, if_neg Bool.false_ne_true] at h
    dsimp only at h
    rw [Findings.hasErrors_attributed, Findings.hasErrors_append, Bool.or_eq_false_iff] at h
    exact ⟨rfl, h.2, rfl⟩

/-- **Nothing is wrong beforehand** if the arguments can be bound and neither the plan nor its
edits have errors. The stages come one after another, and a later one is not reached if an earlier
one has errors. -/
theorem hasErrors_preflight_eq_false_iff (f : Filter) (files : FileSystem) (s : Store)
    (args : Arguments) :
    (f.preflight files s args).hasErrors = false ↔ (bind f.parameters args).2.hasErrors = false
      ∧ (f.plan files s (bind f.parameters args).1).findings.hasErrors = false
      ∧ (checkEdits s (f.plan files s (bind f.parameters args).1).edits).hasErrors = false := by
  rw [preflight, checkPlan, declare, prepare_eq]
  cases hbound : (bind f.parameters args).2.hasErrors with
  | true => simp [Plan.failed, hbound]
  | false =>
    rw [if_neg Bool.false_ne_true]
    dsimp only
    rw [Findings.hasErrors_attributed, Findings.hasErrors_append, hbound, Bool.false_or]
    cases hplan : (f.plan files s (bind f.parameters args).1).findings.hasErrors with
    | true => simp [Findings.hasErrors_append, hplan]
    | false => simp [Findings.hasErrors_append, hbound, hplan]

/-- **A filter reports no defect of its own** for arguments that provide for its parameters. This
is about the plan and the work only; whether the edits are accepted is another matter. -/
structure Regular (f : Filter) : Prop where
  /-- The parameters have different keys. -/
  keys : (f.parameters.map Parameter.key).Nodup
  /-- The plan reports no defect. -/
  plan : ∀ files s args, args.Provides f.parameters → (f.plan files s args).findings.Regular
  /-- Nor does the work. -/
  perform : ∀ s args context state, args.Provides f.parameters →
    (f.perform s args context state).1.findings.Regular

namespace Regular

variable {f : Filter} {s : Store} {files : FileSystem} {args : Arguments}

/-- Nothing that is found beforehand is a defect. -/
theorem preflight (h : f.Regular) (files : FileSystem) (s : Store) (args : Arguments) :
    (f.preflight files s args).Regular := by
  have hdeclare : (f.declare files s args).findings.Regular := by
    rw [declare, prepare_eq]
    split <;> rename_i hbound
    · exact Findings.regular_attributed.2 (regular_bind _ _)
    · exact Findings.regular_attributed.2 (Findings.regular_append.2 ⟨regular_bind _ _,
        h.plan _ _ _ (provides_bind h.keys (Bool.not_eq_true _ ▸ hbound))⟩)
  rw [Filter.preflight, checkPlan]
  split
  · exact hdeclare
  · exact Findings.regular_append.2 ⟨hdeclare, Findings.regular_attributed.2 (regular_checkEdits _ _)⟩

/-- With nothing wrong beforehand, the arguments were bound. -/
theorem provides (h : f.Regular) (hbefore : ¬(f.preflight files s args).hasErrors) :
    (Meshwork.bind f.parameters args).1.Provides f.parameters := by
  rw [Bool.not_eq_true] at hbefore
  exact provides_bind h.keys ((f.hasErrors_preflight_eq_false_iff files s args).1 hbefore).1

/-- **An execution of a regular filter reports a defect exactly if its edits are refused**, after
everything else went well. So the only defects that there can be are edits which the check let
pass and the store refuses. -/
theorem defect_iff (h : f.Regular) (hs : s.Sound) (args : Arguments) {context : RunContext}
    {state : RunState} (hrunning : (Run.isStopped context state).1 = false) :
    let outcome := (f.perform s (Meshwork.bind f.parameters args).1 context
      (Run.isStopped context state).2).1
    (∃ d ∈ (f.execute s args context state).1.1, d.code = .internal) ↔
      ¬(f.preflight state.files s args).hasErrors ∧ ¬outcome.findings.hasErrors
        ∧ ¬Edit.AcceptedEach s.get? outcome.edits := by
  intro outcome
  have hends := f.ends_execute hs args hrunning
  have hregular : ¬(f.preflight state.files s args).hasErrors →
      (f.preflight state.files s args ++ outcome.findings.attributed f.name).Regular :=
    fun hbefore => Findings.regular_append.2 ⟨h.preflight _ _ _,
      Findings.regular_attributed.2 (h.perform _ _ _ _ (h.provides hbefore))⟩
  have hfree : ∀ {findings : Findings}, findings.Regular → ¬∃ d ∈ findings, d.code = .internal :=
    fun hfindings ⟨d, hd, hcode⟩ => hfindings d hd hcode
  -- A regular filter reports no defect by itself. So only the end in which the commit fails has
  -- one.
  generalize (f.execute s args context state).1 = result at hends ⊢
  cases hends with
  | refused hbefore =>
    exact iff_of_false (hfree (h.preflight _ _ _)) fun hcases => hcases.1 hbefore
  | dropped hbefore hwork =>
    exact iff_of_false (hfree (hregular hbefore)) fun hcases => hcases.2.1 hwork
  | made hbefore hwork hcommit =>
    refine iff_of_false (hfree (hregular hbefore)) fun hcases => ?_
    rcases hs.commit_cases outcome.edits with ⟨haccepted, -⟩ | ⟨-, e, s', he, -⟩
    · exact hcases.2.2 haccepted
    · cases he.symm.trans hcommit
  | failed hbefore hwork hcommit =>
    refine iff_of_true ⟨_, Findings.mem_append.2 (Or.inr (Or.inl List.mem_cons_self)), rfl⟩
      ⟨hbefore, hwork, fun haccepted => ?_⟩
    rcases hs.commit_cases outcome.edits with ⟨-, s', hok, -⟩ | ⟨hrefused, -⟩
    · cases hok.symm.trans hcommit
    · exact hrefused haccepted

end Regular

end Filter

end Meshwork
