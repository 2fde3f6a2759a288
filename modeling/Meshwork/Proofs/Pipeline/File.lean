import Meshwork.Pipeline.File
import Meshwork.Proofs.Filter.Registry
import Meshwork.Proofs.Parameter.Plain

/-!
# Pipeline files keep what a pipeline means

The description of a pipeline is read back from its text with the arguments in their plain
form (`PipelineFile.parse_pretty`), and every filter is found under its name again
(`Registry.resolve?_name`). Plain arguments bind to what the arguments themselves bind to, so
the pipeline that is resolved does what the one that was described does
(`PipelineFile.exists_resolve_pretty`).

What the file does not show is what has its usual value: a step that is enabled, and a label
that is missing. The reader puts it back.
-/

namespace Meshwork

open Json

namespace Registry

/-- The parameters of the library that take floats take numbers only. -/
theorem isBounded_builtin {f : Filter} (hf : f ∈ builtin.filters) {p : Parameter}
    (hp : p ∈ f.parameters) : p.isBounded = true := by
  have hall : builtin.filters.all (·.parameters.all Parameter.isBounded) = true := by decide +kernel
  exact List.all_eq_true.1 (List.all_eq_true.1 hall f hf) p hp

end Registry

/-! ## Descriptions in JSON

The JSON of a description is put together from that of its arguments. What is shown about
reading it takes the reading of arguments as given, so that it serves for different
arguments that are read. -/

/-- The JSON of a step whose arguments have the given one. -/
def StepEntry.jsonWith (e : StepEntry) (args : Value) : Value :=
  let enabled := if e.enabled then [] else [("enabled", Value.bool false)]
  let label := match e.label with
    | none => []
    | some label => [("label", Value.string label)]
  .object (("filter", .string e.filter) :: enabled ++ label ++ [("args", args)])

namespace PipelineFile

/-- The JSON of a description whose steps have the given one. -/
def jsonWith (f : PipelineFile) (steps : List Value) : Value :=
  let policy := match f.policy with
    | none => []
    | some policy => [("failure_policy", Value.string policy.text)]
  .object (("name", .string f.name) :: policy ++ [("steps", .array steps)])

/-- **A step is read** if its arguments are. All else in a step is a text or a truth value, which
always comes back. -/
theorem takeStep_jsonWith (e : StepEntry) (args : Value) :
    takeStep (e.jsonWith args).tree
      = (takeArguments args.tree).map fun args => { e with args := args } := by
  obtain ⟨filter, enabled, label, given⟩ := e
  unfold takeStep Tree.record
  cases hargs : takeArguments args.tree <;> cases enabled <;> cases label <;>
    simp [StepEntry.jsonWith, Value.tree, Value.treeMembers, foldMembers, field, hargs, Tree.text,
      Tree.bool?, Tree.option, Json.demand, Bind.bind, Except.bind, Pure.pure, Except.pure, Except.map]

theorem takePolicy_text (policy : FailurePolicy) :
    takePolicy (.string (.ok policy.text)) = .ok (some policy) := by
  cases policy <;> rfl

/-- **A description is read** if its steps are. Name and policy come back in any case. -/
theorem take_jsonWith (f : PipelineFile) (steps : List Value) :
    take (f.jsonWith steps).tree
      = (takeItems takeStep .closed (Value.treeItems steps)).map fun steps =>
        { f with steps := steps } := by
  obtain ⟨name, policy, given⟩ := f
  unfold take Tree.record
  cases hsteps : takeItems takeStep .closed (Value.treeItems steps) <;>
    rcases policy with _ | policy <;>
    simp [jsonWith, Value.tree, Value.treeMembers, foldMembers, field, hsteps, takePolicy_text,
      Tree.list, Tree.text, Json.demand, Bind.bind, Except.bind, Pure.pure, Except.pure, Except.map]

end PipelineFile

/-! ## Descriptions read back

Arguments that bind to bounded parameters are numbers where they are floats, and their
numbers are read back by assumption. So the arguments come back in their plain form. -/

/-- The step with its arguments as JSON keeps them. -/
def Step.plain (s : Step) : Step := { s with arguments := s.arguments.plain }

/-- **The arguments of a step come back from JSON**: they are in order, every float is a
number, and its text alone is read as that number. -/
structure Step.Returns (s : Step) : Prop where
  /-- The arguments are in order. -/
  ordered : s.arguments.Ordered
  /-- Their floats are numbers. -/
  finite : ∀ v ∈ s.arguments.values, v.IsFinite
  /-- Each of these is read back. -/
  alone : ∀ x, .float x ∈ s.arguments.values → (Number.float x).ReadsAlone

namespace PipelineFile

theorem readable_entryOf {s : Step} (h : s.Returns) : (entryOf s).json.Readable := by
  have hargs : s.arguments.json.Readable := Arguments.readable_json fun x hx _ => h.alone x hx
  obtain ⟨filter, args, enabled, label⟩ := s
  refine .object ?_
  cases enabled <;> cases label <;>
    simp [entryOf, hargs, Value.Readable.bool, Value.Readable.string]

/-- **A step is read back** from its JSON, its arguments in their plain form. What is plain is
read as it is, so a second round changes nothing more. -/
theorem takeStep_entryOf {s : Step} (h : s.Returns) :
    takeStep (entryOf s).json.tree = .ok (entryOf s.plain) := by
  have hargs : takeArguments s.arguments.json.tree = .ok s.arguments.plain :=
    Arguments.ofTree_json h.ordered h.finite argumentDepth
  have hstep := takeStep_jsonWith (entryOf s) s.arguments.json
  rw [hargs] at hstep
  exact hstep

variable {p : Pipeline}

theorem readable_ofPipeline (h : ∀ s ∈ p.steps, s.Returns) : (ofPipeline p).json.Readable := by
  have hsteps : (Value.array ((p.steps.map entryOf).map StepEntry.json)).Readable := by
    refine .array fun value hvalue => ?_
    rw [List.map_map] at hvalue
    obtain ⟨s, hs, rfl⟩ := List.mem_map.1 hvalue
    exact readable_entryOf (h s hs)
  refine .object ?_
  simp [-List.map_map, ofPipeline, hsteps, Value.Readable.string]

/-- **A description is read back** from its JSON, the arguments in their plain form. The filters
come back as texts, and are looked up only when the description is resolved. -/
theorem take_ofPipeline (h : ∀ s ∈ p.steps, s.Returns) :
    take (ofPipeline p).json.tree = .ok (ofPipeline { p with steps := p.steps.map Step.plain }) := by
  have hsteps : takeItems takeStep .closed (Value.treeItems
      ((p.steps.map entryOf).map StepEntry.json)) = .ok ((p.steps.map Step.plain).map entryOf) := by
    rw [List.map_map, List.map_map]
    exact takeItems_treeItems_map _ fun s hs => takeStep_entryOf (h s hs)
  have htake := take_jsonWith (ofPipeline p) ((p.steps.map entryOf).map StepEntry.json)
  rw [hsteps] at htake
  exact htake

/-- **The text of a description is read.** The text is that over indented lines, as a description
is written to a file. -/
theorem parse_pretty (h : ∀ s ∈ p.steps, s.Returns) :
    parse (ofPipeline p).json.pretty
      = .ok (ofPipeline { p with steps := p.steps.map Step.plain }) := by
  rw [parse, takeDocument_pretty _ (readable_ofPipeline h), take_ofPipeline h]

/-! ## Pipelines of descriptions

A description names its filters, and the registry finds each under its name. The pipeline
that is resolved is in the state of one that was not run yet. -/

variable {registry : Registry}

theorem resolveSteps_entryOf (hregistry : registry.Distinct) {steps : List Step}
    (h : ∀ s ∈ steps, s.filter ∈ registry.filters) (index : Nat) :
    resolveSteps registry index (steps.map entryOf) = .ok steps := by
  induction steps generalizing index with
  | nil => rfl
  | cons s rest ih =>
    obtain ⟨hs, hrest⟩ := List.forall_mem_cons.1 h
    have hfilter : registry.resolve? (entryOf s).filter = some s.filter :=
      Registry.resolve?_name hregistry hs
    rw [List.map_cons, resolveSteps, hfilter]
    dsimp only
    rw [ih hrest]
    rfl

/-- **A description is resolved** to the pipeline that it describes, as one that was not run yet.
Filters are named by what they are registered under, and such a name leads to one filter. -/
theorem resolve_ofPipeline (hregistry : registry.Distinct)
    (h : ∀ s ∈ p.steps, s.filter ∈ registry.filters) :
    (ofPipeline p).resolve registry = .ok (.ofSteps p.name p.policy p.steps) := by
  rw [resolve, ofPipeline, resolveSteps_entryOf hregistry h]
  rfl

end PipelineFile

/-- **A step acts like another** whose locations it has as texts. What a filter gets to see are
the bound arguments, so the two do the same. -/
structure Step.ActsLike (s t : Step) : Prop where
  /-- The filters are the same. -/
  filter : s.filter = t.filter
  /-- Both are done, or neither is. -/
  enabled : s.enabled = t.enabled
  /-- They are called the same. -/
  label : s.label = t.label
  /-- The locations among the arguments are texts. -/
  arguments : s.arguments = t.arguments.plain
  /-- The arguments bind without an error, -/
  regular : (bind s.filter.parameters s.arguments).2.hasErrors = false
  /-- and to the same values. -/
  bound : (bind s.filter.parameters s.arguments).1 = (bind t.filter.parameters t.arguments).1

/-- **A pipeline file keeps what the pipeline means.** A pipeline of filters of the library,
with arguments that bind without an error, is described in a text that is read and resolved to
a pipeline of the same name and policy, each of whose steps acts like the one described. Each
float among the arguments must be one that is read back from its own text. -/
theorem PipelineFile.exists_resolve_pretty (p : Pipeline)
    (hfilters : ∀ s ∈ p.steps, s.filter ∈ Registry.builtin.filters)
    (hordered : ∀ s ∈ p.steps, s.arguments.Ordered)
    (hbinds : ∀ s ∈ p.steps, (bind s.filter.parameters s.arguments).2.hasErrors = false)
    (hfloats : ∀ s ∈ p.steps, ∀ x, .float x ∈ s.arguments.values → x.isFinite = true →
      (Number.float x).ReadsAlone) :
    ∃ file q, parse (ofPipeline p).json.pretty = .ok file
      ∧ file.resolve .builtin = .ok q
      ∧ q.name = p.name ∧ q.policy = p.policy ∧ List.Forall₂ Step.ActsLike q.steps p.steps := by
  have hreturns : ∀ s ∈ p.steps, s.Returns := fun s hs => by
    have hfinite := isFinite_of_bind (fun _ => Registry.isBounded_builtin (hfilters s hs))
      (hordered s hs) (hbinds s hs)
    exact ⟨hordered s hs, hfinite, fun x hx => hfloats s hs x hx (hfinite _ hx x rfl)⟩
  refine ⟨_, _, parse_pretty hreturns, resolve_ofPipeline Registry.distinct_builtin ?_, rfl, rfl, ?_⟩
  · exact List.forall_mem_map.2 hfilters
  · refine List.forall₂_map_left_iff.2 (List.forall₂_same.2 fun s hs => ?_)
    have hbound : bind s.plain.filter.parameters s.plain.arguments
        = bind s.filter.parameters s.arguments := bind_plain (hbinds s hs)
    exact ⟨rfl, rfl, rfl, rfl, hbound ▸ hbinds s hs, congrArg Prod.fst hbound⟩

/-- A mesh is imported at two and a half times its size, and a step that is disabled would
delete what is above it. -/
theorem PipelineFile.exists_resolve_pretty_scaled :
    let scaled : Step :=
      ⟨Filter.importGeometry, [("apply_scale", .bool true), ("file_path", .filePath "part \"b\".stl"),
        ("geometry_path", .dataPath ⟨["Scan", "Part"], by decide, by decide⟩),
        ("scale_factor", .float ⟨0x4004000000000000⟩)], true, some "Scaled part"⟩
    let disabled : Step := ⟨Filter.deleteData, [("data_path", .text "Scan")], false, none⟩
    let p : Pipeline := ⟨"scan", [scaled, disabled], .continueOnError, .completed⟩
    (∀ s ∈ p.steps, s.filter ∈ Registry.builtin.filters) ∧ (∀ s ∈ p.steps, s.arguments.Ordered)
      ∧ (∀ s ∈ p.steps, (bind s.filter.parameters s.arguments).2.hasErrors = false)
      ∧ (∀ s ∈ p.steps, ∀ x, .float x ∈ s.arguments.values → x.isFinite = true →
        (Number.float x).ReadsAlone)
      ∧ ∃ file q, parse (ofPipeline p).json.pretty = .ok file ∧ file.resolve .builtin = .ok q
        ∧ q.name = p.name ∧ q.policy = p.policy ∧ List.Forall₂ Step.ActsLike q.steps p.steps := by
  intro scaled disabled p
  have hboth : ∀ {P : Step → Prop}, P scaled → P disabled → ∀ s ∈ p.steps, P s :=
    fun hscaled hdisabled => List.forall_mem_cons.2 ⟨hscaled, List.forall_mem_singleton.2 hdisabled⟩
  have hfilters : ∀ s ∈ p.steps, s.filter ∈ Registry.builtin.filters :=
    hboth (.head _) (.tail _ (.tail _ (.tail _ (.tail _ (.head _)))))
  have hordered : ∀ s ∈ p.steps, s.arguments.Ordered :=
    hboth (by unfold Keyed.Ordered; decide) (List.pairwise_singleton _ _)
  have hbinds : ∀ s ∈ p.steps, (bind s.filter.parameters s.arguments).2.hasErrors = false :=
    hboth (by decide +kernel) (by decide +kernel)
  have hfloats : ∀ s ∈ p.steps, ∀ x, .float x ∈ s.arguments.values → x.isFinite = true →
      (Number.float x).ReadsAlone := by
    refine hboth (fun x hx _ => ?_) fun x hx _ => ?_
    · obtain rfl : x = ⟨0x4004000000000000⟩ := by simpa [scaled, Keyed.values] using hx
      rfl
    · exact absurd hx (by simp [disabled, Keyed.values])
  exact ⟨hfilters, hordered, hbinds, hfloats,
    exists_resolve_pretty p hfilters hordered hbinds hfloats⟩

end Meshwork
