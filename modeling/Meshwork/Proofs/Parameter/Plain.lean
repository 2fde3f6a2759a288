import Meshwork.Proofs.DataPath
import Meshwork.Proofs.Json.Number
import Meshwork.Proofs.Number.Binary
import Meshwork.Proofs.Parameter.Binding

/-!
# Arguments that come back from JSON

JSON keeps of a location only its text, so a value comes back in its plain form
(`ParameterValue.plain`), and a float that is no number does not come back at all. Binding
makes up for the first: the plain form is converted to whatever the value itself is
converted to (`Parameter.coerce_plain`), so plain arguments bind to the same as the
arguments themselves (`bind_plain`). The second is left to the ranges of the parameters
(`Parameter.isBounded`).
-/

namespace Meshwork

open Json

namespace ParameterValue

/-- **The value as JSON keeps it**: of a location the text. Integers, floats and truth values have
forms of their own there. -/
def plain : ParameterValue → ParameterValue
  | filePath value => text value
  | dataPath value => text value.text
  | value => value

/-- **The value is a number if it is a float.** Others have no form in JSON and are written as
`null`. -/
def IsFinite (v : ParameterValue) : Prop := ∀ x, v = float x → x.isFinite = true

theorem ofJson_integerJson (i : Int64) :
    ofJson (integerJson i.toInt) = .ok (integer i) := by
  unfold integerJson
  split <;> rename_i hsign
  · have hvalue : -(i.toInt.natAbs : Int) = i.toInt := by omega
    show Except.ok (integer (.ofInt (-(i.toInt.natAbs : Int)))) = _
    rw [hvalue, Int64.ofInt_toInt]
  · have hvalue : (i.toInt.toNat : Int) = i.toInt := by omega
    have hbound := i.toInt_lt
    have hrange : i.toInt.toNat < Nat.pow 2 63 := by
      rw [Nat.pow_eq]
      omega
    show Except.ok (ofNumber (.natural _)) = _
    rw [ofNumber, if_pos hrange, ← Int64.ofInt_eq_ofNat, hvalue, Int64.ofInt_toInt]

/-- **A value comes back from JSON** in its plain form. -/
theorem ofJson_json {v : ParameterValue} (h : v.IsFinite) : ofJson v.json = .ok v.plain := by
  cases v with
  | integer i => exact ofJson_integerJson i
  | float x =>
    rw [json, if_pos (h x rfl)]
    rfl
  | bool _ | text _ | filePath _ | dataPath _ => rfl

/-- An integer is read back. -/
theorem readable_integerJson (i : Int64) : (integerJson i.toInt).Readable := by
  have hleast := i.le_toInt
  have hgreatest := i.toInt_lt
  unfold integerJson
  split <;> rename_i hsign
  · exact .number (Number.readsBack_negative (by omega) (show i.toInt.natAbs ≤ 2 ^ 63 by omega))
  · exact .number (Number.readsBack_natural (show i.toInt.toNat < 2 ^ 64 by omega))

/-- The JSON of a value is read back, and that of a float if its number is. -/
theorem readable_json {v : ParameterValue}
    (h : ∀ x, v = float x → x.isFinite = true → (Number.float x).ReadsAlone) : v.json.Readable := by
  cases v with
  | bool b => exact .bool b
  | integer i => exact readable_integerJson i
  | float x =>
    rw [json]
    split <;> rename_i hx
    · exact .number ((h x rfl hx).readsBack_float hx)
    · exact .null
  | text _ | filePath _ | dataPath _ => exact .string _

/-- The JSON of a value holds no other values. -/
theorem value_json (v : ParameterValue) (depth : Nat) : v.json.tree.value depth = .ok v.json := by
  cases v with
  | float x =>
    rw [json]
    split <;> rfl
  | bool _ | integer _ | text _ | filePath _ | dataPath _ => rfl

end ParameterValue

namespace Arguments

/-- **The arguments as JSON keeps them.** -/
def plain (args : Arguments) : Arguments := args.mapValues ParameterValue.plain

/-- The JSON of arguments is read back if the number of every float among them is. -/
theorem readable_json {args : Arguments}
    (h : ∀ x, .float x ∈ args.values → x.isFinite = true → (Number.float x).ReadsAlone) :
    args.json.Readable := by
  refine .object fun member hmember => ?_
  obtain ⟨⟨key, v⟩, hv, rfl⟩ := List.mem_map.1 hmember
  exact ParameterValue.readable_json fun x hx => h x (List.mem_map.2 ⟨_, hv, hx⟩)

theorem ordered_plain {args : Arguments} (h : args.Ordered) : args.plain.Ordered :=
  Keyed.ordered_mapValues _ h

/-- **Arguments come back from JSON** in their plain form. Their keys come back in order, since
they were in order. -/
theorem ofTree_json {args : Arguments} (hordered : args.Ordered)
    (hfinite : ∀ v ∈ args.values, v.IsFinite) (depth : Nat) :
    ofTree depth args.json.tree = .ok args.plain := by
  rw [json, Value.tree, ofTree,
    foldMembers_treeMembers_map _ fun entered (m : String × ParameterValue) =>
      Keyed.insert m.1 m.2.plain entered]
  · have hfold : args.foldl (fun entered m => Keyed.insert m.1 m.2.plain entered) []
        = Keyed.ofList args.plain := by
      rw [plain, Keyed.mapValues, Keyed.ofList, Keyed.insertEach, List.foldl_map]
    rw [hfold, Keyed.ofList_of_ordered (ordered_plain hordered)]
  · intro entered m hm
    dsimp only
    rw [ParameterValue.value_json]
    show (ParameterValue.ofJson m.2.json).bind _ = _
    rw [ParameterValue.ofJson_json (hfinite _ (List.mem_map_of_mem hm))]
    rfl

end Arguments

/-! ## Binding

Binding converts a value before it looks at anything else, and of a location and its text
the conversion makes the same. -/

namespace Parameter

variable {p : Parameter} {args : Arguments} {given value : ParameterValue}

/-- Only integers and texts are converted to something else. -/
theorem eq_of_coerce (h : p.coerce given = .ok value) (hinteger : given.kind ≠ .integer)
    (htext : given.kind ≠ .text) : given.kind = p.kind ∧ given = value := by
  have hconverts := coerce_eq_ok_iff.1 h
  generalize p.kind = kind at hconverts ⊢
  cases hconverts with
  | self hkind => exact ⟨hkind, rfl⟩
  | widened => exact absurd rfl hinteger
  | located | parsed => exact absurd rfl htext

/-- **The plain form is converted** to what the value itself is converted to. A path is read from
its text as the same path, and a location is its own text. -/
theorem coerce_plain (h : p.coerce given = .ok value) : p.coerce given.plain = .ok value := by
  cases given with
  | filePath file =>
    obtain ⟨hkind, rfl⟩ := eq_of_coerce h nofun nofun
    show p.coerce (.text file) = _
    unfold coerce
    rw [← hkind]
    rfl
  | dataPath path =>
    obtain ⟨hkind, rfl⟩ := eq_of_coerce h nofun nofun
    show p.coerce (.text path.text) = _
    unfold coerce
    rw [← hkind]
    simp [ParameterValue.kind, DataPath.parse_text]
  | bool _ | integer _ | float _ | text _ => exact h

/-- **A plain argument gives a parameter the same value.** A default is not affected, as it is not
part of the arguments. -/
theorem bindOne_plain (h : p.bindOne args = .ok value) : p.bindOne args.plain = .ok value := by
  obtain ⟨given, hgiven, hcoerce, hconstraint⟩ := bindOne_eq_ok_iff.1 h
  rw [bindOne_eq_ok_iff, Arguments.plain, Keyed.find?_mapValues]
  cases hfound : args.find? p.key with
  | none =>
    rw [hfound] at hgiven
    exact ⟨given, hgiven, hcoerce, hconstraint⟩
  | some found =>
    rw [hfound] at hgiven
    obtain rfl : found = given := Option.some.inj hgiven
    exact ⟨found.plain, rfl, coerce_plain hcoerce, hconstraint⟩

end Parameter

variable {parameters : List Parameter} {args : Arguments}

/-- **Plain arguments bind to the same**, if nothing is wrong with the arguments. With errors the
two might differ, since a message shows what was given. -/
theorem bind_plain (h : (bind parameters args).2.hasErrors = false) :
    bind parameters args.plain = bind parameters args := by
  have hvalues : ∀ p ∈ parameters, p.bindOne args.plain = p.bindOne args := fun p hp => by
    obtain ⟨value, hvalue⟩ := (hasErrors_bind_eq_false_iff.1 h).2 p hp
    rw [hvalue, Parameter.bindOne_plain hvalue]
  have hkeys : unknownKeys parameters args.plain = unknownKeys parameters args := by
    rw [unknownKeys, unknownKeys, Arguments.plain, Keyed.keys_mapValues]
  rw [bind, bind, hkeys, bindAll_congr hvalues]

/-! ## Ranges of floats

A range with two ends keeps out what is no number, since a comparison with it is false. So
a float that was bound to a bounded parameter is a number. -/

/-- Whether the end of a range is a number. -/
def Bound.isFinite : Bound → Bool
  | .included b | .excluded b => b.isFinite
  | .unbounded => false

/-- **A number between two numbers** is one. The order puts infinities and NaNs outside of all
numbers. -/
theorem Bound.isFinite_of_between {least greatest : Bound} {x : Double}
    (hleast : least.isFinite = true) (hgreatest : greatest.isFinite = true)
    (hbelow : least.isBelow x = true) (habove : greatest.isAbove x = true) : x.isFinite = true := by
  -- Both ends bound the key by which floats are ordered, and what lies between two finite keys is
  -- finite.
  have hlow : ∃ low : Double, low.isFinite = true
      ∧ BinaryFormat.double.orderKey low.toNat ≤ BinaryFormat.double.orderKey x.toNat := by
    cases least with
    | included low => exact ⟨low, hleast, by simp_all [isBelow, Double.le, BinaryFormat.le]⟩
    | excluded low =>
      exact ⟨low, hleast, le_of_lt (by simp_all [isBelow, Double.lt, BinaryFormat.lt])⟩
    | unbounded => cases hleast
  have hhigh : ∃ high : Double, high.isFinite = true
      ∧ BinaryFormat.double.orderKey x.toNat ≤ BinaryFormat.double.orderKey high.toNat := by
    cases greatest with
    | included high => exact ⟨high, hgreatest, by simp_all [isAbove, Double.le, BinaryFormat.le]⟩
    | excluded high =>
      exact ⟨high, hgreatest, le_of_lt (by simp_all [isAbove, Double.lt, BinaryFormat.lt])⟩
    | unbounded => cases hgreatest
  obtain ⟨low, hlow, hle⟩ := hlow
  obtain ⟨high, hhigh, hge⟩ := hhigh
  exact decide_eq_true (BinaryFormat.magnitude_lt_of_orderKey_le (of_decide_eq_true hlow)
    (of_decide_eq_true hhigh) hle hge)

/-- **Whether a parameter takes numbers only**, if it takes floats: its range has two
ends. -/
def Parameter.isBounded (p : Parameter) : Bool :=
  p.kind != .float || match p.constraint with
    | some (.range least greatest) => least.isFinite && greatest.isFinite
    | _ => false

/-- A float that a bounded parameter takes is a number. -/
theorem Parameter.isFinite_of_bindOne {p : Parameter} (hp : p.isBounded = true)
    {value : ParameterValue} (h : p.bindOne args = .ok value) : value.IsFinite := by
  rintro x rfl
  obtain ⟨given, -, hcoerce, hconstraint⟩ := bindOne_eq_ok_iff.1 h
  have hkind : p.kind = .float := (kind_of_coerce hcoerce).symm
  rw [isBounded, hkind, bne_self_eq_false, Bool.false_or] at hp
  split at hp
  case h_2 => cases hp
  case h_1 least greatest hrange =>
    obtain ⟨hleast, hgreatest⟩ := Bool.and_eq_true_iff.1 hp
    have hcheck := hconstraint _ hrange
    unfold checkConstraint at hcheck
    dsimp only at hcheck
    split at hcheck <;> rename_i hbetween
    · obtain ⟨hbelow, habove⟩ := Bool.and_eq_true_iff.1 hbetween
      exact Bound.isFinite_of_between hleast hgreatest hbelow habove
    · cases hcheck

/-- **Where nothing is wrong, every float is a number**, if all parameters are bounded. Every
argument belongs to a parameter then, and a float passed the check of its range. -/
theorem isFinite_of_bind (hparameters : ∀ p ∈ parameters, p.isBounded = true)
    (hordered : args.Ordered) (h : (bind parameters args).2.hasErrors = false) :
    ∀ v ∈ args.values, v.IsFinite := by
  rintro _ hv x rfl
  obtain ⟨⟨key, _⟩, hentry, rfl⟩ := List.mem_map.1 hv
  obtain ⟨hknown, hbinds⟩ := hasErrors_bind_eq_false_iff.1 h
  obtain ⟨p, hp, rfl⟩ := hknown key (List.mem_map_of_mem hentry)
  obtain ⟨value, hvalue⟩ := hbinds p hp
  obtain ⟨given, hgiven, hcoerce, -⟩ := Parameter.bindOne_eq_ok_iff.1 hvalue
  rw [Keyed.find?_of_mem hordered hentry] at hgiven
  obtain rfl : ParameterValue.float x = given := Option.some.inj hgiven
  obtain ⟨-, rfl⟩ := Parameter.eq_of_coerce hcoerce nofun nofun
  exact Parameter.isFinite_of_bindOne (hparameters p hp) hvalue x rfl

end Meshwork
