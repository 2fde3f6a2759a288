import Mathlib.Data.List.Induction
import Mathlib.Tactic.SplitIfs
import Meshwork.Proofs.Failure
import Meshwork.Settings.Configuration

/-!
# Settings are cells

Every setting is a cell of its own: a call of `Settings.write` for its key with one
of its texts puts the text there and touches no other cell, and any other call
touches nothing (`Settings.apply_write`). So after a run of calls a setting has the
text of the last one that was accepted for it (`Settings.last_after`), and settings
that made sense still do, since they make sense exactly if every setting has one of
its texts (`Settings.validate_eq_ok_iff`).

The settings in effect are those of the project before those of the user
(`Configuration.Agrees`). What programs ask for by name is what lies under the key, and
the usual value if there is nothing in either file, whether sections are there or not.
-/

namespace Meshwork

namespace Setting

/-- **The texts that a setting may have.** What a call accepts, and what a file may hold, is
proved to be this list. -/
def texts : Setting → List String
  | failurePolicy => ["halt_on_error", "continue_on_error"]
  | writeAuxiliary => ["true", "false"]
  | logLevel => ["off", "error", "warn", "info", "debug", "trace"]

theorem ofKey?_eq_some_iff {key : String} {setting : Setting} :
    ofKey? key = some setting ↔ setting.key = key := by
  refine ⟨fun h => ?_, fun h => h ▸ ofKey?_key setting⟩
  have hkey := List.find?_some (show all.find? (·.key == key) = some setting from h)
  exact eq_of_beq hkey

theorem ofKey?_eq_none_iff {key : String} :
    ofKey? key = none ↔ ∀ setting : Setting, setting.key ≠ key := by
  simp only [Option.eq_none_iff_forall_ne_some, ne_eq, ofKey?_eq_some_iff]

/-- A key is that of no setting, or of one. -/
theorem unknown_or_key (key : String) :
    (∀ setting : Setting, setting.key ≠ key) ∨ ∃ setting : Setting, setting.key = key :=
  (Classical.em _).symm.imp_left not_exists.1

theorem key_inj {setting other : Setting} : setting.key = other.key ↔ setting = other := by
  rw [← ofKey?_eq_some_iff, ofKey?_key, Option.some_inj, eq_comm]

end Setting

namespace Settings

variable {s : Settings} {key text : String} {setting : Setting}

theorem lookup_key (s : Settings) (setting : Setting) :
    s.lookup setting.key = .ok (s.get? setting) := by
  rw [lookup, Setting.ofKey?_key]

theorem lookup_of_unknown (h : ∀ setting : Setting, setting.key ≠ key) :
    s.lookup key = .error (.unknownKey key) := by
  rw [lookup, Setting.ofKey?_eq_none_iff.2 h]

/-! ## One call

A call either finds a setting under its key that accepts the text, or it fails. The proof
is by the settings, of which there are three; everything afterwards is about cells. -/

theorem boolOf?_eq_some_iff {value : Bool} :
    boolOf? text = some value ↔ text = ParameterValue.boolText value := by
  rw [boolOf?]
  cases value <;> split_ifs with htrue hfalse <;> simp_all [ParameterValue.boolText]

theorem boolOf?_eq_none_iff : boolOf? text = none ↔ text ∉ Setting.writeAuxiliary.texts := by
  rw [boolOf?]
  split_ifs with htrue hfalse <;> simp_all [Setting.texts]

/-- A text is checked before anything changes. -/
theorem apply_check_modify (allowed : List String) (f : Settings → Settings) :
    Change.apply (do Change.check (checkAllowed setting allowed text); modify f) s
      = if text ∈ allowed then (.ok (), f s)
        else (.error (.notAllowed setting text allowed), s) := by
  rw [checkAllowed]
  split <;> rfl

/-- **A text that a setting may have is put there**, and no other setting changes. Another text is
refused, and nothing changes. That is one case for each setting and one for all texts that it may
not have. -/
theorem apply_assign (s : Settings) (text : String) (setting : Setting) :
    (text ∈ setting.texts ∧ ∃ t, (assign text setting).apply s = (.ok (), t)
        ∧ ∀ other, t.get? other = if setting = other then some text else s.get? other)
      ∨ text ∉ setting.texts ∧ ∃ e, (assign text setting).apply s = (.error e, s) := by
  -- The two texts of fixed choice are checked before they are put; a truth value is read, which is
  -- the check.
  cases setting with
  | failurePolicy =>
    rw [assign, apply_check_modify]
    by_cases h : text ∈ policies
    · exact .inl ⟨h, _, if_pos h, fun other => by cases other <;> rfl⟩
    · exact .inr ⟨h, _, if_neg h⟩
  | writeAuxiliary =>
    rw [assign]
    cases hread : boolOf? text with
    | none => exact .inr ⟨boolOf?_eq_none_iff.1 hread, _, rfl⟩
    | some value =>
      obtain rfl := boolOf?_eq_some_iff.1 hread
      exact .inl ⟨by cases value <;> decide, _, rfl, fun other => by cases other <;> rfl⟩
  | logLevel =>
    rw [assign, apply_check_modify]
    by_cases h : text ∈ logLevels
    · exact .inl ⟨h, _, if_pos h, fun other => by cases other <;> rfl⟩
    · exact .inr ⟨h, _, if_neg h⟩

/-- **A call is accepted** if its key is that of a setting, which may have the text. Every other
key is refused, whatever the text is. -/
def Accepts (key text : String) : Prop :=
  ∃ setting : Setting, setting.key = key ∧ text ∈ setting.texts

/-- **What a call does.** If it is accepted, the setting of its key has the text, and all others
are as before; otherwise everything is. -/
theorem apply_write (s : Settings) (key text : String) :
    (Accepts key text ∧ ∃ t, (write key text).apply s = (.ok (), t) ∧ ∀ other : Setting,
        t.get? other = if key = other.key then some text else s.get? other)
      ∨ ¬ Accepts key text ∧ ∃ e, (write key text).apply s = (.error e, s) := by
  rw [write]
  cases hkey : Setting.ofKey? key with
  | none =>
    refine .inr ⟨?_, _, rfl⟩
    rintro ⟨setting, hsetting, -⟩
    exact Setting.ofKey?_eq_none_iff.1 hkey setting hsetting
  | some setting =>
    obtain rfl := Setting.ofKey?_eq_some_iff.1 hkey
    rcases apply_assign s text setting with ⟨h, t, happly, hget⟩ | ⟨h, e, happly⟩
    · exact .inl ⟨⟨setting, rfl, h⟩, t, happly, by simpa only [Setting.key_inj] using hget⟩
    · refine .inr ⟨?_, e, happly⟩
      rintro ⟨other, hother, hmem⟩
      exact h (Setting.key_inj.1 hother ▸ hmem)

/-! ## Settings that make sense

Settings may be read from a file and hold anything. A call does not repair what was wrong
before, but neither does it add anything wrong. -/

theorem checkSet_eq_ok_iff {allowed : List String} {given : Option String} :
    checkSet setting allowed given = .ok () ↔ ∀ text, given = some text → text ∈ allowed := by
  cases given with
  | none => exact iff_of_true rfl nofun
  | some text =>
    rw [checkSet, checkAllowed]
    split <;> rename_i h
    · exact iff_of_true rfl fun other hother => Option.some.inj hother ▸ h
    · exact iff_of_false nofun fun hall => h (hall text rfl)

/-- **Settings make sense** exactly if every setting has a text that it may have. A setting that
is missing is no fault, since it then comes from elsewhere or has its default. -/
theorem validate_eq_ok_iff :
    s.validate = .ok () ↔ ∀ (setting : Setting) (text : String),
      s.get? setting = some text → text ∈ setting.texts := by
  have hbool : ∀ text, s.get? .writeAuxiliary = some text →
      text ∈ Setting.writeAuxiliary.texts := by
    intro text h
    obtain ⟨value, -, rfl⟩ := Option.map_eq_some_iff.1 h
    cases value <;> decide
  rw [validate, bind_eq_ok_iff]
  constructor
  · rintro ⟨⟨⟩, hpolicy, hlevel⟩ setting
    cases setting with
    | failurePolicy => exact checkSet_eq_ok_iff.1 hpolicy
    | writeAuxiliary => exact hbool
    | logLevel => exact checkSet_eq_ok_iff.1 hlevel
  · intro h
    exact ⟨(), checkSet_eq_ok_iff.2 (h .failurePolicy), checkSet_eq_ok_iff.2 (h .logLevel)⟩

/-- **What is true of a call** that comes to `outcome` and leaves the settings `t`. The last field
says that both forms of the call, with a value and with a change in place, agree. -/
structure Writes (s : Settings) (key text : String) (outcome : Except SettingsError Unit)
    (t : Settings) : Prop where
  /-- It succeeds if it is accepted. -/
  succeeds_iff : outcome = .ok () ↔ Accepts key text
  /-- Its text is then what lies under the key. -/
  holds : outcome = .ok () → t.lookup key = .ok (some text)
  /-- What lies under any other key stays. -/
  others : ∀ other, other ≠ key → t.lookup other = s.lookup other
  /-- If it fails, everything stays. -/
  refused : outcome ≠ .ok () → t = s
  /-- Settings that make sense still do. -/
  valid : s.validate = .ok () → t.validate = .ok ()
  /-- The settings that are given as a value are those that it leaves. -/
  value : ∀ t', s.set key text = .ok t' ↔ outcome = .ok () ∧ t' = t

/-- **One call.** An accepted key has one setting, because the settings have different keys. -/
theorem writes_apply (s : Settings) (key text : String) :
    Writes s key text ((write key text).apply s).1 ((write key text).apply s).2 := by
  -- A call that is refused leaves all as it was, so that half has nothing to show.
  rcases apply_write s key text with ⟨haccepts, t, happly, hget⟩ | ⟨hrefused, e, happly⟩
  · have hset : s.set key text = .ok t := by rw [set, happly]
    obtain ⟨setting, rfl, hmem⟩ := haccepts
    rw [happly]
    refine ⟨iff_of_true rfl ⟨setting, rfl, hmem⟩, fun _ => ?_, fun other hother => ?_,
      fun hfails => absurd rfl hfails, fun hvalid => ?_, fun t' => ?_⟩
    · rw [lookup_key, hget, if_pos rfl]
    · rw [lookup, lookup]
      cases hsetting : Setting.ofKey? other with
      | none => rfl
      | some found =>
        obtain rfl := Setting.ofKey?_eq_some_iff.1 hsetting
        show Except.ok (t.get? found) = .ok (s.get? found)
        rw [hget, if_neg (Ne.symm hother)]
    -- Every setting holds a text that it may have: the one just put was checked, and the others
    -- were fine before.
    · rw [validate_eq_ok_iff] at hvalid ⊢
      intro other given hgiven
      rw [hget] at hgiven
      split at hgiven <;> rename_i hkey
      · obtain rfl := Setting.key_inj.1 hkey
        exact Option.some.inj hgiven ▸ hmem
      · exact hvalid other given hgiven
    · rw [hset, and_iff_right rfl, Except.ok.injEq, eq_comm]
  · have hset : s.set key text = .error e := by rw [set, happly]
    rw [happly]
    exact ⟨iff_of_false nofun hrefused, nofun, fun _ _ => rfl, fun _ => rfl, id,
      fun t' => hset ▸ iff_of_false nofun fun h => nomatch h.1⟩

/-! ## Calls one after another

What a setting holds is decided by the last call that was accepted for it. The induction
is on the calls from the end, where that call is looked for. -/

/-- **A call**: a key, and a text for its setting. Neither needs to be one that makes sense. -/
structure Call where
  /-- The key. -/
  key : String
  /-- The text. -/
  text : String

/-- **The settings after some calls**, accepted or not. The calls are made one after another, each
on what the one before left. -/
def after (s : Settings) (calls : List Call) : Settings :=
  calls.foldl (fun s call => ((write call.key call.text).apply s).2) s

/-- **The last text for a setting** in a run of calls is that of the last call that was accepted
for it, or the one from before if there was none. -/
inductive Last (calls : List Call) (setting : Setting) (before : Option String) :
    Option String → Prop where
  /-- There was such a call, and none after it. -/
  | given {earlier later : List Call} {text : String}
      (hcalls : calls = earlier ++ ⟨setting.key, text⟩ :: later) (htext : text ∈ setting.texts)
      (hlater : ∀ other ∈ setting.texts, ⟨setting.key, other⟩ ∉ later) :
    Last calls setting before (some text)
  /-- There was none. -/
  | kept (hnone : ∀ text ∈ setting.texts, ⟨setting.key, text⟩ ∉ calls) :
    Last calls setting before before

/-- A call for another setting, or with a text that is refused, does not count. -/
theorem Last.append {calls : List Call} {before last : Option String}
    (h : Last calls setting before last) {call : Call}
    (hcall : ∀ text ∈ setting.texts, ⟨setting.key, text⟩ ≠ call) :
    Last (calls ++ [call]) setting before last := by
  have hnone : ∀ {l : List Call}, (∀ text ∈ setting.texts, ⟨setting.key, text⟩ ∉ l) →
      ∀ text ∈ setting.texts, ⟨setting.key, text⟩ ∉ l ++ [call] := by
    intro l hl text htext hmem
    rcases List.mem_append.1 hmem with hmem | hmem
    · exact hl text htext hmem
    · exact hcall text htext (List.mem_singleton.1 hmem)
  cases h with
  | @given earlier later text hcalls htext hlater =>
    have hcalls : calls ++ [call] = earlier ++ ⟨setting.key, text⟩ :: (later ++ [call]) := by
      rw [hcalls, List.append_assoc, List.cons_append]
    exact .given hcalls htext (hnone hlater)
  | kept h => exact .kept (hnone h)

/-- **After a run of calls**, a setting has the last text for it. Without such a text it has the
one from before the calls. -/
theorem last_after (s : Settings) (calls : List Call) (setting : Setting) :
    Last calls setting (s.get? setting) ((s.after calls).get? setting) := by
  -- On the last call, so that none comes after it.
  induction calls using List.reverseRecOn with
  | nil => exact .kept fun _ _ => List.not_mem_nil
  | append_singleton calls call ih =>
    have hafter : s.after (calls ++ [call])
        = ((write call.key call.text).apply (s.after calls)).2 := List.foldl_append
    rw [hafter]
    rcases apply_write (s.after calls) call.key call.text with
      ⟨⟨found, hfound, hmem⟩, t, happly, hget⟩ | ⟨hrefused, e, happly⟩
    · rw [happly, hget]
      split <;> rename_i hkey
      · obtain rfl := Setting.key_inj.1 (hfound.trans hkey)
        exact .given (by rw [hfound]) hmem fun _ _ => List.not_mem_nil
      · refine ih.append fun text _ heq => hkey ?_
        rw [← heq]
    · rw [happly]
      refine ih.append fun text htext heq => hrefused ⟨setting, ?_⟩
      rw [← heq]
      exact ⟨rfl, htext⟩

/-- Settings that make sense do so after any calls. -/
theorem validate_after (h : s.validate = .ok ()) (calls : List Call) :
    (s.after calls).validate = .ok () := by
  induction calls generalizing s with
  | nil => exact h
  | cons call rest ih => exact ih ((writes_apply s call.key call.text).valid h)

end Settings

/-! ## Two files

Both files are optional in all of their parts: there may be no project file, and either
may lack a section or a setting in it. -/

namespace Configuration

variable {c : Configuration}

/-- **Settings in effect** are those of the project and, for what it leaves open, those of the
user; and what programs ask for by name is what lies under the key, or the usual value if there
is nothing. -/
structure Agrees (c : Configuration) : Prop where
  /-- A setting of the project counts. -/
  project : ∀ p key text, c.project = some p → p.lookup key = .ok (some text) →
    c.lookup key = .ok (some text)
  /-- Without one, that of the user does. -/
  user : ∀ key, (∀ p, c.project = some p → p.lookup key = .ok none) →
    c.lookup key = c.user.lookup key
  /-- No other keys can be asked for. -/
  unknown : ∀ key, (∀ setting : Setting, setting.key ≠ key) →
    c.lookup key = .error (.unknownKey key)
  /-- What is not set is set in neither file. -/
  unset_iff : ∀ key, c.lookup key = .ok none
    ↔ c.user.lookup key = .ok none ∧ ∀ p, c.project = some p → p.lookup key = .ok none
  /-- The policy is to halt unless it is set. -/
  failurePolicy : c.lookup "pipeline.failure_policy" = .ok (some c.failurePolicy)
    ∨ c.lookup "pipeline.failure_policy" = .ok none ∧ c.failurePolicy = "halt_on_error"
  /-- There are descriptors unless it is set. -/
  writeAuxiliary : c.lookup "export.write_auxiliary"
      = .ok (some (ParameterValue.boolText c.writeAuxiliary))
    ∨ c.lookup "export.write_auxiliary" = .ok none ∧ c.writeAuxiliary = true
  /-- The level has no usual value. -/
  logLevel : c.lookup "log.level" = .ok c.logLevel?

theorem lookup_key (c : Configuration) (setting : Setting) :
    c.lookup setting.key = .ok (c.get? setting) := by
  rw [lookup, Setting.ofKey?_key]

theorem lookup_of_unknown {key : String} (c : Configuration)
    (h : ∀ setting : Setting, setting.key ≠ key) : c.lookup key = .error (.unknownKey key) := by
  rw [lookup, Setting.ofKey?_eq_none_iff.2 h]

/-- The files agree with what is in effect. -/
theorem get?_eq (c : Configuration) (setting : Setting) :
    c.get? setting = match c.project with
      | none => c.user.get? setting
      | some p => (p.get? setting).or (c.user.get? setting) := by
  rw [get?]
  cases c.project <;> rfl

/-- **The settings in effect agree** with both files. Each setting is looked up on its own, first
in the file of the project and then in that of the user. -/
theorem agrees (c : Configuration) : c.Agrees where
  project p key text hp hlookup := by
    rcases Setting.unknown_or_key key with hunknown | ⟨setting, rfl⟩
    · cases (Settings.lookup_of_unknown hunknown).symm.trans hlookup
    · rw [Settings.lookup_key, Except.ok.injEq] at hlookup
      rw [lookup_key, get?_eq, hp]
      dsimp only
      rw [hlookup, Option.some_or]
  user key h := by
    rcases Setting.unknown_or_key key with hunknown | ⟨setting, rfl⟩
    · rw [c.lookup_of_unknown hunknown, Settings.lookup_of_unknown hunknown]
    · rw [lookup_key, Settings.lookup_key, get?_eq]
      cases hp : c.project with
      | none => rfl
      | some p =>
        have hnone := h p hp
        rw [Settings.lookup_key, Except.ok.injEq] at hnone
        dsimp only
        rw [hnone, Option.none_or]
  unknown key h := c.lookup_of_unknown h
  -- A setting is unset if neither file has it.
  unset_iff key := by
    rcases Setting.unknown_or_key key with hunknown | ⟨setting, rfl⟩
    · rw [c.lookup_of_unknown hunknown, Settings.lookup_of_unknown hunknown]
      exact iff_of_false nofun fun h => nomatch h.1
    · simp only [lookup_key, Settings.lookup_key, Except.ok.injEq, get?_eq]
      cases c.project with
      | none => simp
      | some p => simp [and_comm]
  failurePolicy := by
    rw [show "pipeline.failure_policy" = Setting.failurePolicy.key from rfl, lookup_key,
      show c.get? .failurePolicy
        = (c.project.bind (·.pipeline.join)).or c.user.pipeline.join from rfl, failurePolicy]
    cases (c.project.bind (·.pipeline.join)).or c.user.pipeline.join with
    | none => exact .inr ⟨rfl, rfl⟩
    | some policy => exact .inl rfl
  writeAuxiliary := by
    have hget : c.get? .writeAuxiliary = ((c.project.bind (·.exports.join)).or
        c.user.exports.join).map ParameterValue.boolText := by
      rw [Option.map_or, Option.map_bind]
      rfl
    rw [show "export.write_auxiliary" = Setting.writeAuxiliary.key from rfl, lookup_key, hget,
      writeAuxiliary]
    cases (c.project.bind (·.exports.join)).or c.user.exports.join with
    | none => exact .inr ⟨rfl, rfl⟩
    | some value => exact .inl rfl
  logLevel := c.lookup_key .logLevel

/-- A section of the project without its setting leaves the setting to the user. -/
example : failurePolicy ⟨⟨some (some "continue_on_error"), none, none⟩,
    some ⟨some none, none, none⟩, none, none⟩ = "continue_on_error" := rfl

end Configuration

/-- **Settings are cells, and those of the project go before those of the user.** After any calls
from any settings, one more call does to the setting of its key what it should and nothing to the
others. Every setting has the last text that was accepted for it, and settings that made sense
still do. The settings in effect agree with the two files that they come from. -/
theorem Settings.cells_after (s : Settings) (calls : List Settings.Call) :
    (∀ key text, Writes (s.after calls) key text ((write key text).apply (s.after calls)).1
        ((write key text).apply (s.after calls)).2)
      ∧ (∀ setting, Last calls setting (s.get? setting) ((s.after calls).get? setting))
      ∧ (s.validate = .ok () → (s.after calls).validate = .ok ())
      ∧ ∀ c : Configuration, c.Agrees :=
  ⟨writes_apply _, last_after s calls, fun h => validate_after h calls, Configuration.agrees⟩

end Meshwork
