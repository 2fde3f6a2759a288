import Meshwork.Proofs.Json.Float
import Meshwork.Proofs.Pipeline.File

/-!
# Which pipeline files come back

A description is written whatever its arguments are, and the text is read again exactly if
every float among them is a number (`PipelineFile.exists_parse_iff`): a float that is none is
written as `null`, which no argument is read from. What is read agrees with what was written
in all but the values of the arguments (`PipelineFile.Alike`), which come back in their
plain form, each float as what its text is read as (`PipelineFile.parse_pretty_iff`).

The text is followed part by part. Where the part that is written is not the one that is
read, `rereadJson` is the latter.
-/

namespace Meshwork

open Json

/-! ## Arguments

A float that is no number has no JSON number, and `null` stands in its place. It is read
as a tree without a fault; it is the argument that cannot be made of it. -/

namespace ParameterValue

/-- **The value as it comes back**: of a location the text, and of a float what its text is read
as. The reader rounds at each step, so this may be a neighbour of the float that was written. -/
def reread : ParameterValue → ParameterValue
  | float x => float x.reread
  | value => value.plain

/-- The JSON of the value as it is read. -/
def rereadJson : ParameterValue → Value
  | float x => if x.isFinite then .number (.float x.reread) else .null
  | value => value.json

theorem readsAs_rereadJson (v : ParameterValue) : v.json.ReadsAs v.rereadJson := by
  cases v with
  | float x =>
    rw [json, rereadJson]
    split <;> rename_i hx
    · exact Value.readsAs_number (Double.readsAs_reread hx)
    · exact Value.Readable.null.readsBack
  | bool b => exact (Value.Readable.bool b).readsBack
  | integer i => exact (readable_integerJson i).readsBack
  | text _ | filePath _ | dataPath _ => exact (Value.Readable.string _).readsBack

/-- The JSON that is read holds no other values. -/
theorem value_rereadJson (v : ParameterValue) (depth : Nat) :
    v.rereadJson.tree.value depth = .ok v.rereadJson := by
  cases v with
  | float x =>
    rw [rereadJson]
    split <;> rfl
  | bool _ | integer _ | text _ | filePath _ | dataPath _ => rfl

/-- **A value comes back** unless it is a float and no number. Such a float is written as `null`,
which is no value of a parameter. -/
theorem ofJson_rereadJson_iff {v w : ParameterValue} :
    ofJson v.rereadJson = .ok w ↔ v.IsFinite ∧ w = v.reread := by
  cases v with
  | float x =>
    by_cases hx : x.isFinite = true
    · have hfinite : (float x).IsFinite := by
        rintro _ ⟨⟩
        exact hx
      rw [rereadJson, if_pos hx]
      exact ⟨fun h => ⟨hfinite, (Except.ok.inj h).symm⟩, fun h => congrArg _ h.2.symm⟩
    · rw [rereadJson, if_neg hx]
      exact ⟨nofun, fun h => absurd (h.1 x rfl) hx⟩
  | integer i =>
    rw [show (integer i).rereadJson = integerJson i.toInt from rfl, ofJson_integerJson]
    exact ⟨fun h => ⟨nofun, (Except.ok.inj h).symm⟩, fun h => congrArg _ h.2.symm⟩
  | bool _ | text _ | filePath _ | dataPath _ =>
    exact ⟨fun h => ⟨nofun, (Except.ok.inj h).symm⟩, fun h => congrArg _ h.2.symm⟩

end ParameterValue

namespace Arguments

variable {args : Arguments}

/-- **Every float among the arguments is a number.** -/
def IsFinite (args : Arguments) : Prop := ∀ v ∈ args.values, v.IsFinite

/-- The arguments as they come back. -/
def reread (args : Arguments) : Arguments := args.mapValues ParameterValue.reread

/-- The JSON of the arguments as it is read. -/
def rereadJson (args : Arguments) : Value :=
  .object (args.map fun m => (m.1, m.2.rereadJson))

theorem readsAs_rereadJson (args : Arguments) : args.json.ReadsAs args.rereadJson :=
  Value.readsAs_object (List.forall₂_map_left_iff.2 (List.forall₂_map_right_iff.2
    (List.forall₂_same.2 fun m _ => ⟨rfl, m.2.readsAs_rereadJson⟩)))

/-- **Arguments come back** if all of their values do. One value that does not makes the whole
unreadable. -/
theorem ofTree_rereadJson_iff (h : args.Ordered) (depth : Nat) (read : Arguments) :
    ofTree depth args.rereadJson.tree = .ok read ↔ args.IsFinite ∧ read = args.reread := by
  -- One argument is entered at a time, under the key that it has.
  have hvisit : ∀ (entered : Arguments), ∀ m ∈ args, ∀ after,
      (do
        let value ← m.2.rereadJson.tree.value depth
        let value ← ParameterValue.ofJson value
        return Keyed.insert m.1 value entered : Except Error Arguments) = .ok after
        ↔ m.2.IsFinite ∧ after = Keyed.insert m.1 m.2.reread entered := by
    intro entered m _ after
    rw [ParameterValue.value_rereadJson]
    show (ParameterValue.ofJson m.2.rereadJson >>= _) = _ ↔ _
    simp only [bind_eq_ok_iff, ParameterValue.ofJson_rereadJson_iff, pure_eq_ok_iff]
    constructor
    · rintro ⟨_, ⟨hfinite, rfl⟩, rfl⟩
      exact ⟨hfinite, rfl⟩
    · rintro ⟨hfinite, rfl⟩
      exact ⟨_, ⟨hfinite, rfl⟩, rfl⟩
  have hfold : args.foldl (fun entered m => Keyed.insert m.1 m.2.reread entered) [] = args.reread := by
    have hordered : args.reread.Ordered := Keyed.ordered_mapValues _ h
    rw [← Keyed.ofList_of_ordered hordered, reread, Keyed.mapValues, Keyed.ofList, Keyed.insertEach,
      List.foldl_map]
  rw [rereadJson, Value.tree, ofTree,
    foldMembers_treeMembers_iff (fun m : String × ParameterValue => (m.1, m.2.rereadJson)) hvisit, hfold]
  refine and_congr_left fun _ => ⟨?_, fun hfinite m hm => hfinite _ (List.mem_map_of_mem hm)⟩
  rintro hfinite _ hv
  obtain ⟨m, hm, rfl⟩ := List.mem_map.1 hv
  exact hfinite m hm

end Arguments

/-! ## Steps

All other members of a step are texts and truth values, which come back as they are. -/

namespace StepEntry

/-- The step with its arguments as they come back. -/
def reread (e : StepEntry) : StepEntry := { e with args := e.args.reread }

/-- The JSON of the step as it is read. -/
def rereadJson (e : StepEntry) : Value := e.jsonWith e.args.rereadJson

theorem readsAs_rereadJson (e : StepEntry) : e.json.ReadsAs e.rereadJson := by
  have hargs : Value.MemberReadsAs ("args", e.args.json) ("args", e.args.rereadJson) :=
    ⟨rfl, e.args.readsAs_rereadJson⟩
  have hstring : ∀ key text, Value.MemberReadsAs (key, .string text) (key, .string text) :=
    fun _ text => ⟨rfl, Value.readsBack_string text⟩
  have hbool : ∀ key, Value.MemberReadsAs (key, .bool false) (key, .bool false) :=
    fun _ => ⟨rfl, (Value.Readable.bool false).readsBack⟩
  obtain ⟨filter, enabled, label, args⟩ := e
  refine Value.readsAs_object ?_
  cases enabled <;> cases label <;> simp [hargs, hstring, hbool]

/-- **A step comes back** if the floats among its arguments are numbers. Everything else in a step
comes back in any case. -/
theorem takeStep_reread_iff {e : StepEntry} (h : e.args.Ordered) (read : StepEntry) :
    PipelineFile.takeStep e.rereadJson.tree = .ok read ↔ e.args.IsFinite ∧ read = e.reread := by
  rw [rereadJson, PipelineFile.takeStep_jsonWith, map_eq_ok_iff, PipelineFile.takeArguments]
  simp only [Arguments.ofTree_rereadJson_iff h]
  constructor
  · rintro ⟨_, ⟨hfinite, rfl⟩, rfl⟩
    exact ⟨hfinite, rfl⟩
  · rintro ⟨hfinite, rfl⟩
    exact ⟨_, ⟨hfinite, rfl⟩, rfl⟩

/-- **Two steps agree** but for the values of their arguments. This is what a file keeps of a
step, whatever becomes of the values. -/
structure Alike (e e' : StepEntry) : Prop where
  /-- The filters are the same. -/
  filter : e.filter = e'.filter
  /-- Both are done, or neither is. -/
  enabled : e.enabled = e'.enabled
  /-- They are called the same. -/
  label : e.label = e'.label
  /-- There are arguments under the same keys. -/
  keys : e.args.keys = e'.args.keys

theorem alike_reread (e : StepEntry) : e.Alike e.reread :=
  ⟨rfl, rfl, rfl, (Keyed.keys_mapValues _ _).symm⟩

end StepEntry

/-! ## Files

One argument that does not come back makes the whole description unreadable, since nothing
is read in part. -/

namespace PipelineFile

/-- The description with its arguments as they come back. -/
def reread (f : PipelineFile) : PipelineFile := { f with steps := f.steps.map StepEntry.reread }

/-- The JSON of the description as it is read. -/
def rereadJson (f : PipelineFile) : Value := f.jsonWith (f.steps.map StepEntry.rereadJson)

theorem readsAs_rereadJson (f : PipelineFile) : f.json.ReadsAs f.rereadJson := by
  have hsteps : Value.MemberReadsAs ("steps", .array (f.steps.map StepEntry.json))
      ("steps", .array (f.steps.map StepEntry.rereadJson)) :=
    ⟨rfl, Value.readsAs_array (List.forall₂_map_left_iff.2 (List.forall₂_map_right_iff.2
      (List.forall₂_same.2 fun e _ => e.readsAs_rereadJson)))⟩
  have hstring : ∀ key text, Value.MemberReadsAs (key, .string text) (key, .string text) :=
    fun _ text => ⟨rfl, Value.readsBack_string text⟩
  obtain ⟨name, policy, steps⟩ := f
  refine Value.readsAs_object ?_
  cases policy <;> simp [-List.map_map, hsteps, hstring]

/-- **A description comes back** if all of its steps do. In particular a description without steps
does. -/
theorem take_reread_iff {f : PipelineFile} (h : ∀ e ∈ f.steps, e.args.Ordered) (read : PipelineFile) :
    take f.rereadJson.tree = .ok read
      ↔ (∀ e ∈ f.steps, e.args.IsFinite) ∧ read = f.reread := by
  rw [rereadJson, take_jsonWith, map_eq_ok_iff]
  simp only [takeItems_treeItems_iff fun e he => StepEntry.takeStep_reread_iff (h e he)]
  constructor
  · rintro ⟨_, ⟨hfinite, rfl⟩, rfl⟩
    exact ⟨hfinite, rfl⟩
  · rintro ⟨hfinite, rfl⟩
    exact ⟨_, ⟨hfinite, rfl⟩, rfl⟩

/-- **What is read from the text of a description.** A line feed at the end is white space and
does not count. -/
theorem parse_pretty_iff {f : PipelineFile} (h : ∀ e ∈ f.steps, e.args.Ordered) (read : PipelineFile) :
    parse (f.json.pretty ++ "\n") = .ok read
      ↔ (∀ e ∈ f.steps, e.args.IsFinite) ∧ read = f.reread := by
  have hends : EndsNumber [some '\n'] := endsNumber_cons (by decide) []
  rw [parse, String.toList_append, List.map_append]
  rw [show ("\n".toList.map some) = [some '\n'] from rfl,
    f.readsAs_rereadJson.takeDocument_pretty take hends rfl, take_reread_iff h]

/-- **Two descriptions agree** but for the values of arguments. It is what a file keeps of a
description in any case. -/
structure Alike (f g : PipelineFile) : Prop where
  /-- They have the same name. -/
  name : f.name = g.name
  /-- They have the same policy, or none. -/
  policy : f.policy = g.policy
  /-- Their steps agree one by one. -/
  steps : List.Forall₂ StepEntry.Alike f.steps g.steps

theorem alike_reread (f : PipelineFile) : f.Alike f.reread :=
  ⟨rfl, rfl, List.forall₂_map_right_iff.2 (List.forall₂_same.2 fun e _ => e.alike_reread)⟩

/-- **A description that was written is read exactly if every float in it is a number.** What
is read has the same name, the same policy and the same steps, each with arguments under the
same keys. -/
theorem exists_parse_iff (f : PipelineFile) (h : ∀ e ∈ f.steps, e.args.Ordered) :
    ((∃ g, parse (f.json.pretty ++ "\n") = .ok g) ↔ ∀ e ∈ f.steps, e.args.IsFinite)
      ∧ ∀ g, parse (f.json.pretty ++ "\n") = .ok g → f.Alike g := by
  simp only [parse_pretty_iff h]
  refine ⟨⟨fun ⟨_, hfinite, _⟩ => hfinite, fun hfinite => ⟨_, hfinite, rfl⟩⟩, ?_⟩
  rintro _ ⟨-, rfl⟩
  exact f.alike_reread

/-- A scale that is no number is written, and what is written is not read. -/
theorem not_exists_parse_nan :
    let f : PipelineFile := ⟨"scan", none, [⟨"import_geometry_from_file", true, none,
      [("apply_scale", .bool true), ("scale_factor", .float ⟨0x7ff8000000000000⟩)]⟩]⟩
    (∀ e ∈ f.steps, e.args.Ordered) ∧ ¬ ∃ g, parse (f.json.pretty ++ "\n") = .ok g := by
  intro f
  have hordered : ∀ e ∈ f.steps, e.args.Ordered :=
    List.forall_mem_singleton.2 (by unfold Keyed.Ordered; decide)
  refine ⟨hordered, fun hread => ?_⟩
  have hfinite := (exists_parse_iff f hordered).1.1 hread _ List.mem_cons_self
  exact absurd (hfinite _ (.tail _ (.head _)) ⟨0x7ff8000000000000⟩ rfl) (by decide)

end PipelineFile

end Meshwork
