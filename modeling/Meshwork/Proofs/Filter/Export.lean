import Meshwork.Proofs.Container.RoundTrip
import Meshwork.Proofs.FileSystem.Write
import Meshwork.Proofs.Filter.Defect

/-!
# Exports replace both files or none

An export that reports an error is to leave the destination and its sibling as
they were, and one that reports none is to have written them. Whether the first
holds depends on the directories that are created on the way
(`Filter.exportStore_allOrNothing_iff`): the check beforehand looks at the
destination before they are there, and a location that goes through a missing
directory and back may be that of a directory afterwards. With the directory of
the destination there beforehand, it always holds (`Filter.spared_of_look`). The
second always holds: what is written is a container, which is read back whatever
the store holds (`Filter.exists_decode`).

Everything after the directories are there comes to one of four ends
(`Filter.Exported`), and the proof goes through them. Two of them leave both files,
or write what was asked for. Of the others, one replaces the sibling and then fails;
it is possible only where the destination became a directory on the way.
-/

namespace Meshwork

open FileSystem

namespace Filter

/-- The name of a staged file is not that of a descriptor. -/
theorem stagedName_ne_append (name : String) (number : Nat) (last : String) :
    stagedName name number ≠ last ++ ".xdmf" := by
  intro h
  have hlast := congrArg (fun text : String => text.toList.getLast?) h
  have htmp : ".tmp".toList.getLast? = some 'p' := by decide
  have hxdmf : ".xdmf".toList.getLast? = some 'f' := by decide
  simp only [stagedName, String.toList_append, List.getLast?_append, htmp, hxdmf, Option.some_or]
    at hlast
  exact absurd hlast (by decide)

theorem separator_not_mem_xdmf : separator ∉ ".xdmf".toList := by decide

/-- The descriptor has a name that ends as its location does. -/
theorem exists_eq_of_replacedPlace {fs : FileSystem} {path : String} {place : Place}
    (h : fs.replacedPlace (Xdmf.siblingPath path) = .ok place) :
    ∃ directory last, place = directory ++ [last ++ ".xdmf"] := by
  obtain ⟨above, name, directory, hnames, rfl, -⟩ := replacedPlace_eq_ok_iff.1 h
  obtain ⟨rooted, above', last, -, happend⟩ := FilePath.pieces_append path separator_not_mem_xdmf
  have hpieces := hnames.pieces
  rw [Xdmf.siblingPath, happend] at hpieces
  have hname := (List.cons.inj (List.append_inj' hpieces rfl).2).1
  exact ⟨directory, last, by rw [hname]⟩

/-! ## The ends of an export

Four things can happen to the two files: nothing, the container alone, the descriptor
alone, or both. The errors that go with them are recorded next to each. -/

/-- **How an export may end** once the directory of the destination is there, with
or without an error, by the files that it leaves. -/
inductive Exported (made : FileSystem) (o : ExportOptions) (contents descriptor : Bytes) :
    Bool → FileSystem → Prop where
  /-- There is an error, and the staged files are taken away. -/
  | undone {after : FileSystem} (h : after.Same made) :
    Exported made o contents descriptor true after
  /-- The descriptor is at its place, but the destination is a directory. -/
  | halfway {after : FileSystem} {place : Place} (hlook : made.look o.destination = some .directory)
      (hsibling : made.replacedPlace (Xdmf.siblingPath o.destination) = .ok place)
      (h : after.Same (made.put place (.file descriptor))) :
    Exported made o contents descriptor true after
  /-- The container is at its place, and no descriptor is asked for. -/
  | alone {after : FileSystem} {place : Place} (hauxiliary : o.writeAuxiliary = false)
      (hdestination : made.replacedPlace o.destination = .ok place)
      (h : after.Same (made.put place (.file contents))) :
    Exported made o contents descriptor false after
  /-- Both are at their places. -/
  | together {after : FileSystem} {above place : Place} (hauxiliary : o.writeAuxiliary = true)
      (hsibling : made.replacedPlace (Xdmf.siblingPath o.destination) = .ok above)
      (hdestination : made.replacedPlace o.destination = .ok place)
      (h : after.Same ((made.put above (.file descriptor)).put place (.file contents))) :
    Exported made o contents descriptor false after

variable {made : FileSystem} {o : ExportOptions} {contents descriptor : Bytes}

theorem sameDirectories_stage {path : String} {place : Place} (h : made.Stages path place)
    (contents : Bytes) : (made.put place (.file contents)).SameDirectories made :=
  sameDirectories_put (by rw [h.free]; nofun) contents

/-- The container alone is moved, or taken away. -/
theorem exported_commit (hauxiliary : o.writeAuxiliary = false) {staged : Place}
    (hstages : made.Stages o.destination staged) :
    let result := commitFiles [⟨staged, o.destination⟩] (made.put staged (.file contents))
    Exported made o contents descriptor (written result.1).findings.hasErrors result.2 := by
  have hne := hstages.ne_nil
  have hundone := same_erase_put hstages.free (.file contents) hne
  have hat : (made.put staged (.file contents)).at? staged = some (.file contents) := by
    rw [at?_put _ _ hne, if_pos rfl]
  dsimp only
  rw [commitFiles]
  rcases commitStaged_cases ⟨staged, o.destination⟩ hat with
    ⟨e, -, hcommit⟩ | ⟨place, hplace, hcommit⟩
  · rw [hcommit]
    exact .undone hundone
  · rw [hcommit]
    exact .alone hauxiliary (replacedPlace_congr (sameDirectories_stage hstages contents) hplace)
      (hundone.put _ (ne_nil_of_replacedPlace hplace))

/-- The descriptor is at its place, and **the container is moved**, or taken away. This is the
second of two moves: whether it fails or not, the descriptor is not taken back. -/
theorem exported_commit_last (hauxiliary : o.writeAuxiliary = true) {staged above : Place}
    (hstages : made.Stages o.destination staged)
    (hsibling : made.replacedPlace (Xdmf.siblingPath o.destination) = .ok above)
    {fs : FileSystem}
    (hmoved : fs.Same ((made.put staged (.file contents)).put above (.file descriptor))) :
    let result := commitFiles [⟨staged, o.destination⟩] fs
    Exported made o contents descriptor (written result.1).findings.hasErrors result.2 := by
  have hne := hstages.ne_nil
  have hne' := ne_nil_of_replacedPlace hsibling
  -- The staged file and the descriptor are different files, so that the one is still there when the
  -- other was moved.
  have hother : staged ≠ above := by
    obtain ⟨directory, name, number, rfl⟩ := hstages.staged
    obtain ⟨directory', last, rfl⟩ := exists_eq_of_replacedPlace hsibling
    exact fun h => stagedName_ne_append name number last
      (List.cons.inj (List.append_inj' h rfl).2).1
  have hstaged := sameDirectories_stage hstages contents
  have hdirectories : fs.SameDirectories made :=
    (hmoved.sameDirectories.trans (sameDirectories_put
      (at?_ne_of_replacedPlace (replacedPlace_congr hstaged.symm hsibling)) descriptor)).trans hstaged
  have hat : fs.at? staged = some (.file contents) := by
    rw [hmoved.at?_eq, at?_put _ _ hne', if_neg hother, at?_put _ _ hne, if_pos rfl]
  have hleft : (fs.erase staged).Same (made.put above (.file descriptor)) :=
    ((hmoved.erase hne).trans (same_erase_put_of_ne hother _ hne' hne)).trans
      ((same_erase_put hstages.free _ hne).put _ hne')
  dsimp only
  rw [commitFiles]
  rcases commitStaged_cases ⟨staged, o.destination⟩ hat with
    ⟨e, herror, hcommit⟩ | ⟨place, hplace, hcommit⟩
  · rw [hcommit]
    -- If the container has no place to go to although its sibling has one, then a directory is in
    -- its way.
    rcases exists_replacedPlace_or_look separator_not_mem_xdmf hstages.named
      (replacedPlace_congr hdirectories.symm hsibling) with ⟨place, hplace⟩ | hlook
    · rw [herror] at hplace
      cases hplace
    · exact .halfway (look_directory_congr hdirectories hlook) hsibling hleft
  · rw [hcommit]
    exact .together hauxiliary hsibling (replacedPlace_congr hdirectories hplace)
      (hleft.put _ (ne_nil_of_replacedPlace hplace))

/-- **The descriptor is moved, and then the container**, or both are taken away. The order is that
of the list: if the descriptor cannot be moved, the container is not tried. -/
theorem exported_commit_both (hauxiliary : o.writeAuxiliary = true) {staged sibling : Place}
    (hstages : made.Stages o.destination staged)
    (hsibling : (made.put staged (.file contents)).Stages (Xdmf.siblingPath o.destination) sibling) :
    let result := commitFiles [⟨sibling, Xdmf.siblingPath o.destination⟩, ⟨staged, o.destination⟩]
      ((made.put staged (.file contents)).put sibling (.file descriptor))
    Exported made o contents descriptor (written result.1).findings.hasErrors result.2 := by
  have hne := hstages.ne_nil
  have hne' := hsibling.ne_nil
  have hboth := (sameDirectories_stage hsibling descriptor).trans
    (sameDirectories_stage hstages contents)
  -- Taking the staged descriptor away undoes that it was put there.
  have hundone := same_erase_put hsibling.free (.file descriptor) hne'
  have hat : ((made.put staged (.file contents)).put sibling (.file descriptor)).at? sibling
      = some (.file descriptor) := by
    rw [at?_put _ _ hne', if_pos rfl]
  dsimp only
  rw [commitFiles]
  rcases commitStaged_cases ⟨sibling, Xdmf.siblingPath o.destination⟩ hat with
    ⟨e, -, hcommit⟩ | ⟨above, habove, hcommit⟩
  · rw [hcommit]
    exact .undone ((hundone.erase hne).trans (same_erase_put hstages.free _ hne))
  · rw [hcommit]
    exact exported_commit_last hauxiliary hstages (replacedPlace_congr hboth habove)
      (hundone.put _ (ne_nil_of_replacedPlace habove))

/-! ## The run

A run applies the functions on file systems to the files of its state, and turns their
failures into findings. Here only the files and whether there are errors matter. -/

theorem withFiles_apply {α : Type} (work : FileSystem → α × FileSystem) (context : RunContext)
    (state : RunState) : Run.withFiles work context state
      = ((work state.files).1, { state with files := (work state.files).2 }) := rfl

/-- The directory of a file is created, or that is an error. -/
theorem makeDirectoryOf_cases (path : String) (fs : FileSystem) :
    (∃ findings : Findings, findings.hasErrors
        ∧ makeDirectoryOf path fs = (.error findings, (fs.makeParent path).2))
      ∨ makeDirectoryOf path fs = (.ok (), (fs.makeParent path).2) := by
  rw [makeDirectoryOf]
  obtain ⟨e | _, made⟩ := fs.makeParent path
  · exact Or.inl ⟨_, rfl, rfl⟩
  · exact Or.inr rfl

/-- Staging a file in a run. -/
theorem stageFile_cases (path : String) (contents : Bytes) (context : RunContext)
    (state : RunState) :
    (∃ findings : Findings, findings.hasErrors
        ∧ (stageFile path contents context state).1 = .error findings
        ∧ (stageFile path contents context state).2.files = state.files)
      ∨ ∃ place, state.files.Stages path place
        ∧ (stageFile path contents context state).1 = .ok ⟨place, path⟩
        ∧ (stageFile path contents context state).2.files
          = state.files.put place (.file contents) := by
  rw [stageFile]
  simp only [Run.bind_apply, withFiles_apply]
  rw [show (Run.report exportName s!"writing {path}" context state).2.files = state.files from rfl]
  rcases stage_cases path contents state.files with ⟨e, hstage⟩ | ⟨place, hplace, hstage⟩
  · rw [hstage]
    exact Or.inl ⟨_, rfl, rfl, rfl⟩
  · rw [hstage]
    exact Or.inr ⟨place, hplace, rfl, rfl⟩

theorem exported_writeSibling (s : Store) (hauxiliary : o.writeAuxiliary = true) {staged : Place}
    (hstages : made.Stages o.destination staged) (context : RunContext) {state : RunState}
    (hfiles : state.files = made.put staged (.file contents)) :
    let result := writeSibling s o.destination ⟨staged, o.destination⟩ context state
    Exported made o contents (bytesOf (Xdmf.render s)) result.1.findings.hasErrors
      result.2.files := by
  dsimp only
  rw [writeSibling]
  simp only [Run.bind_apply]
  rcases stageFile_cases (Xdmf.siblingPath o.destination) (bytesOf (Xdmf.render s)) context state
    with ⟨findings, herrors, hvalue, hstate⟩ | ⟨sibling, hsibling, hvalue, hstate⟩
  · rw [hvalue]
    simp only [Run.bind_apply, Run.pure_apply, withFiles_apply, hstate, hfiles]
    rw [Outcome.failed, herrors]
    exact .undone (same_erase_put hstages.free _ hstages.ne_nil)
  · rw [hvalue]
    simp only [Run.bind_apply, Run.pure_apply, withFiles_apply, hstate, hfiles]
    rw [hfiles] at hsibling
    exact exported_commit_both hauxiliary hstages hsibling

/-- **The work of an export** comes to one of its ends. The steps are gone through as they are
taken: the text, the directory, the two staged files and the two moves. -/
theorem exported_performExport (s : Store) {args : Arguments}
    (ho : ExportOptions.ofArguments args = .ok o) (context : RunContext) (state : RunState) :
    let result := performExport s args context state
    Exported (state.files.makeParent o.destination).2 o (bytesOf (Container.encode context.now s))
      (bytesOf (Xdmf.render s)) result.1.findings.hasErrors result.2.files := by
  dsimp only
  rw [performExport, ho]
  simp only [Run.bind_apply, withFiles_apply]
  rw [show Run.now context state = (context.now, state) from rfl]
  dsimp only
  -- The stages of the work in order: the directories are made, the container is staged, and it is
  -- moved, together with its sibling if one is written. Each stage may fail.
  rcases makeDirectoryOf_cases o.destination state.files with ⟨findings, herrors, hmade⟩ | hmade
  · rw [hmade]
    simp only [Run.pure_apply, Outcome.failed, herrors]
    exact .undone ⟨rfl, fun _ => rfl⟩
  rw [hmade]
  simp only [Run.bind_apply]
  generalize hstate : ({ state with files := (state.files.makeParent o.destination).2 } : RunState)
    = state'
  have hfiles : state'.files = (state.files.makeParent o.destination).2 := by rw [← hstate]
  rw [← hfiles]
  rcases stageFile_cases o.destination (bytesOf (Container.encode context.now s)) context state'
    with ⟨findings, herrors, hvalue, hleft⟩ | ⟨staged, hstages, hvalue, hleft⟩
  · rw [hvalue]
    simp only [Run.pure_apply, Outcome.failed, herrors, hleft]
    exact .undone ⟨rfl, fun _ => rfl⟩
  rw [hvalue]
  simp only [Run.ite_apply]
  split_ifs with hauxiliary
  · exact exported_writeSibling s hauxiliary hstages context hleft
  · simp only [Run.bind_apply, Run.pure_apply, withFiles_apply, hleft]
    exact exported_commit (Bool.eq_false_iff.2 hauxiliary) hstages

/-! ## All or nothing

What was at the destination and its sibling is compared before and after. Where no
directory is created on the way, the locations lead to the same places at both moments;
this is what may fail otherwise, and it is stated as a condition rather than excluded. -/

/-- **Both files are replaced, or none is**, by the file systems before and after
an export that did or did not report an error. -/
structure AllOrNothing (before after : FileSystem) (s : Store) (o : ExportOptions)
    (failed : Bool) : Prop where
  /-- With an error, the destination and its sibling show what they did. -/
  kept : failed = true → after.look o.destination = before.look o.destination
    ∧ after.look (Xdmf.siblingPath o.destination)
      = before.look (Xdmf.siblingPath o.destination)
  /-- With an error, the files are those from before: no staged file remains. -/
  files : failed = true → ∀ place contents,
    after.at? place = some (.file contents) ↔ before.at? place = some (.file contents)
  /-- With none, the store is read back from the destination. -/
  written : failed = false → ∃ contents loaded,
    after.look o.destination = some (.file contents)
      ∧ Container.decode contents = .ok loaded ∧ loaded.Represents s.get?
  /-- With none, the sibling is the descriptor if it was asked for, and otherwise
  shows what it did. -/
  sibling : failed = false → after.look (Xdmf.siblingPath o.destination)
    = if o.writeAuxiliary then some (.file (bytesOf (Xdmf.render s)))
      else before.look (Xdmf.siblingPath o.destination)
  /-- With none, all other files are those from before. -/
  others : failed = false → ∀ place contents, after.resolve o.destination ≠ .ok place →
    (o.writeAuxiliary = true → after.resolve (Xdmf.siblingPath o.destination) ≠ .ok place) →
      (after.at? place = some (.file contents) ↔ before.at? place = some (.file contents))

/-- **The new directories spare the files**: they change nothing that the destination and its
sibling show, as far as these must not change. A location without a directory may show nothing
before and something after, if it passes `..` behind one that was created. -/
structure Spared (before made : FileSystem) (o : ExportOptions) (failed : Bool) : Prop where
  /-- The destination must not, with an error. -/
  destination : failed = true → made.look o.destination = before.look o.destination
  /-- The sibling must not either, nor if it is not asked for. -/
  sibling : failed = true ∨ o.writeAuxiliary = false →
    made.look (Xdmf.siblingPath o.destination) = before.look (Xdmf.siblingPath o.destination)

/-- **They do if none are created**, since the directory of the destination is there or the location
names none. Then the file system before the files are staged is the one at the beginning. -/
theorem spared_of_look {before : FileSystem} (o : ExportOptions) (failed : Bool)
    (h : (FilePath.parent? o.destination).getD "" = ""
      ∨ before.look ((FilePath.parent? o.destination).getD "") = some .directory) :
    Spared before (before.makeParent o.destination).2 o failed := by
  rw [makeParent_of_look h]
  exact ⟨fun _ => rfl, fun _ => rfl⟩

/-- **Nothing is written to a directory.** A directory is not replaced by a file, so that the move
of the container is refused. -/
theorem Exported.failed_of_look {after : FileSystem} {failed : Bool}
    (h : Exported made o contents descriptor failed after)
    (hlook : made.look o.destination = some .directory) : failed = true := by
  have hfree : ∀ place, made.replacedPlace o.destination ≠ .ok place := fun place hplace =>
    at?_ne_of_replacedPlace hplace
      ((look_of_resolve (resolve_of_replacedPlace hplace)).symm.trans hlook)
  cases h with
  | undone | halfway => rfl
  | alone _ hdestination | together _ _ hdestination => exact absurd hdestination (hfree _)

/-- A file that is put where its location leads is found there. -/
theorem look_of_replacedPlace {after : FileSystem} {path : String} {place : Place}
    {entry : FileEntry} (h : after.SameDirectories made)
    (hplace : made.replacedPlace path = .ok place) (hat : after.at? place = some entry) :
    after.look path = some entry :=
  (look_of_resolve ((resolve_congr h).2 (resolve_of_replacedPlace hplace))).trans hat

/-- An export that wrote what it was to write is all or nothing if the sibling was spared
unless it is written. -/
theorem allOrNothing_iff_of_written {before after : FileSystem} {s : Store}
    (hdecode : ∃ loaded, Container.decode contents = .ok loaded ∧ loaded.Represents s.get?)
    (hdestination : after.look o.destination = some (.file contents))
    (hsibling : after.look (Xdmf.siblingPath o.destination)
      = if o.writeAuxiliary then some (.file (bytesOf (Xdmf.render s)))
        else made.look (Xdmf.siblingPath o.destination))
    (hothers : ∀ place contents, after.resolve o.destination ≠ .ok place →
      (o.writeAuxiliary = true → after.resolve (Xdmf.siblingPath o.destination) ≠ .ok place) →
        (after.at? place = some (.file contents) ↔ before.at? place = some (.file contents))) :
    AllOrNothing before after s o false ↔ Spared before made o false := by
  constructor
  -- Without an error, all that is left to ask is whether a sibling that is not written stayed.
  · intro hall
    refine ⟨nofun, fun hauxiliary => ?_⟩
    have hauxiliary := hauxiliary.resolve_left Bool.false_ne_true
    have hkept := hsibling.symm.trans (hall.sibling rfl)
    rwa [hauxiliary, if_neg Bool.false_ne_true, if_neg Bool.false_ne_true] at hkept
  · intro hspared
    obtain ⟨loaded, hloaded⟩ := hdecode
    refine
      { kept := nofun
        files := nofun
        written := fun _ => ⟨contents, loaded, hdestination, hloaded⟩
        sibling := fun _ => ?_
        others := fun _ => hothers }
    rw [hsibling]
    split_ifs with hauxiliary
    · rfl
    · exact hspared.sibling (Or.inr (Bool.eq_false_iff.2 hauxiliary))

/-- The container comes to its place last, and leads to no other place than the sibling
does. -/
theorem allOrNothing_iff_of_put {before base after : FileSystem} {s : Store} {target : Place}
    (hdecode : ∃ loaded, Container.decode contents = .ok loaded ∧ loaded.Represents s.get?)
    (hbase : base.SameDirectories made)
    (hdestination : made.replacedPlace o.destination = .ok target)
    (h : after.Same (base.put target (.file contents)))
    (hsibling : base.look (Xdmf.siblingPath o.destination)
      = if o.writeAuxiliary then some (.file (bytesOf (Xdmf.render s)))
        else made.look (Xdmf.siblingPath o.destination))
    (hothers : ∀ place contents,
      (o.writeAuxiliary = true → base.resolve (Xdmf.siblingPath o.destination) ≠ .ok place) →
        (base.at? place = some (.file contents) ↔ before.at? place = some (.file contents))) :
    AllOrNothing before after s o false ↔ Spared before made o false := by
  have hne := ne_nil_of_replacedPlace hdestination
  have hput : after.SameDirectories base := h.sameDirectories.trans (sameDirectories_put
    (mt (hbase.directory target).1 (at?_ne_of_replacedPlace hdestination)) _)
  have hdirectories := hput.trans hbase
  have hresolve := (resolve_congr hdirectories).2 (resolve_of_replacedPlace hdestination)
  refine allOrNothing_iff_of_written hdecode
    (look_of_replacedPlace hdirectories hdestination ?_) (.trans ?_ hsibling) ?_
  · rw [h.at?_eq, at?_put _ _ hne, if_pos rfl]
  · refine look_congr hput fun place hplace => ?_
    rw [h.at?_eq, at?_put _ _ hne, if_neg (ne_of_resolve_append separator_not_mem_xdmf
      (by decide) hdestination ((resolve_congr hbase).1 hplace))]
  · intro place contents hother hother'
    have hplace : place ≠ target := fun hplace => hother (hplace ▸ hresolve)
    rw [h.at?_eq, at?_put _ _ hne, if_neg hplace]
    exact hothers place contents fun hauxiliary => mt (resolve_congr hput).2 (hother' hauxiliary)

/-- **When an export is all or nothing**, by how it ended. Each end is taken on its own: what it
leaves at the destination and at the sibling is compared with what lay there before. -/
theorem Exported.allOrNothing_iff {before after : FileSystem} {s : Store} {failed : Bool}
    (hdecode : ∃ loaded, Container.decode contents = .ok loaded ∧ loaded.Represents s.get?)
    (hend : Exported made o contents (bytesOf (Xdmf.render s)) failed after)
    (hadds : before.AddsDirectories made)
    (hclear : before.look o.destination ≠ some .directory) :
    AllOrNothing before after s o failed ↔ Spared before made o failed := by
  cases hend with
  | undone h =>
    constructor
    · intro hall
      obtain ⟨hdestination, hsibling⟩ := hall.kept rfl
      exact ⟨fun _ => (h.look_eq _).symm.trans hdestination,
        fun _ => (h.look_eq _).symm.trans hsibling⟩
    · intro hspared
      exact
        { kept := fun _ => ⟨(h.look_eq _).trans (hspared.destination rfl),
            (h.look_eq _).trans (hspared.sibling (Or.inl rfl))⟩
          files := fun _ place contents => by rw [h.at?_eq, hadds.file_iff]
          written := nofun
          sibling := nofun
          others := nofun }
  | halfway hlook hsibling h =>
    -- The destination was no directory before, and is one now.
    have hdirectories := h.sameDirectories.trans
      (sameDirectories_put (at?_ne_of_replacedPlace hsibling) _)
    refine iff_of_false (fun hall => ?_) fun hspared => ?_
    · exact hclear ((hall.kept rfl).1.symm.trans (look_directory_congr hdirectories.symm hlook))
    · exact hclear ((hspared.destination rfl).symm.trans hlook)
  | alone hauxiliary hdestination h =>
    refine allOrNothing_iff_of_put hdecode ⟨rfl, fun _ => Iff.rfl⟩ hdestination h ?_
      fun place contents _ => hadds.file_iff place contents
    rw [hauxiliary, if_neg Bool.false_ne_true]
  | @together _ sibling _ hauxiliary hsibling hdestination h =>
    have hne := ne_nil_of_replacedPlace hsibling
    have hbase := sameDirectories_put (at?_ne_of_replacedPlace hsibling) (bytesOf (Xdmf.render s))
    refine allOrNothing_iff_of_put hdecode hbase hdestination h ?_ fun place contents hother => ?_
    · rw [hauxiliary, if_pos rfl]
      exact look_of_replacedPlace hbase hsibling (by rw [at?_put _ _ hne, if_pos rfl])
    · have hplace : place ≠ sibling := fun hplace => hother hauxiliary
        ((resolve_congr hbase).2 (hplace ▸ resolve_of_replacedPlace hsibling))
      rw [at?_put _ _ hne, if_neg hplace, hadds.file_iff]

/-- The container of a store that operations lead to is read back. -/
theorem exists_decode {now : Timestamp} (hnow : now.IsMoment) {s : Store} (hs : s.Sound) :
    ∃ loaded, Container.decode (bytesOf (Container.encode now s)) = .ok loaded
      ∧ loaded.Represents s.get? := by
  obtain ⟨loaded, hloaded, hsound, hget⟩ := Container.restore_entriesOf hs
  rw [Container.decode_encode_eq hnow]
  exact ⟨loaded, hloaded, hget ▸ hsound.represents⟩

/-- An export reports an error exactly if it is found beforehand or by the work. -/
theorem hasErrors_exportStore (s : Store) (args : Arguments) {context : RunContext}
    {state : RunState} (hrunning : (Run.isStopped context state).1 = false)
    (hbefore : (exportStore.preflight state.files s args).hasErrors = false) :
    (exportStore.execute s args context state).1.1.hasErrors
      = (performExport s (bind exportStore.parameters args).1 context
          (Run.isStopped context state).2).1.findings.hasErrors := by
  have hquiet := (always_performExport s
    (regular_exportStore.provides (Bool.eq_false_iff.1 hbefore)) context
      (Run.isStopped context state).2).1
  rw [exportStore.execute_apply s args hrunning]
  dsimp only
  rw [show exportStore.perform s = performExport s from rfl, hquiet, hbefore,
    if_neg Bool.false_ne_true]
  -- Making no edits finds nothing more.
  have hfound : ∀ found : Findings, (exportStore.conclude s found []).1 = found := fun _ => rfl
  rw [apply_ite Prod.fst, hfound, ite_self, Findings.hasErrors_append, hbefore, Bool.false_or,
    Findings.hasErrors_attributed]

/-- The destination is no directory before the work begins. -/
theorem look_destination_of_preflight {files : FileSystem} {s : Store} {args : Arguments}
    (ho : ExportOptions.ofArguments (bind exportStore.parameters args).1 = .ok o)
    (hbefore : (exportStore.preflight files s args).hasErrors = false) :
    files.look o.destination ≠ some .directory := by
  have hplan := ((exportStore.hasErrors_preflight_eq_false_iff files s args).1 hbefore).2.1
  rw [exportStore_plan, ho] at hplan
  intro hlook
  dsimp only at hplan
  rw [planExport, isDirectory_iff.2 hlook] at hplan
  rw [if_pos rfl, Findings.hasErrors_append] at hplan
  cases hplan

/-- What is not begun fails and leaves everything. -/
theorem allOrNothing_unchanged {before after : FileSystem} {s : Store} {failed : Bool}
    (hfailed : failed = true) (hfiles : after = before) :
    AllOrNothing before after s o failed := by
  rw [hfailed, hfiles]
  exact
    { kept := fun _ => ⟨rfl, rfl⟩
      files := fun _ _ _ => Iff.rfl
      written := nofun
      sibling := nofun
      others := nofun }

/-- **When an export replaces both files or none.** The new directories must spare what the
destination and its sibling show. They fail to do so where one of them shows what lies behind a
directory that the export itself creates. -/
theorem exportStore_allOrNothing_iff {context : RunContext} (hnow : context.now.IsMoment)
    (operations : List Operation) {args : Arguments} {o : ExportOptions}
    (ho : ExportOptions.ofArguments (bind exportStore.parameters args).1 = .ok o)
    (state : RunState) :
    let s := Store.after operations
    let result := exportStore.execute s args context state
    let failed := result.1.1.hasErrors
    AllOrNothing state.files result.2.files s o failed ↔
      ((Run.isStopped context state).1 = false →
        (exportStore.preflight state.files s args).hasErrors = false →
          Spared state.files (state.files.makeParent o.destination).2 o failed) := by
  intro s result failed
  have hs : s.Sound := Store.sound_after operations
  cases hrunning : (Run.isStopped context state).1 with
  | true =>
    -- An execution that is stopped or refused beforehand does not touch the files.
    have hresult : result = ((exportStore.stoppedFindings, s), (Run.isStopped context state).2) :=
      exportStore.execute_of_stopped s args hrunning
    have hfailed : failed = true := congrArg (fun result => result.1.1.hasErrors) hresult
    have hfiles : result.2.files = state.files := congrArg (fun result => result.2.files) hresult
    exact iff_of_true (allOrNothing_unchanged hfailed hfiles) nofun
  | false =>
    have hstate := exportStore.execute_state s args hrunning
    dsimp only at hstate
    cases hbefore : (exportStore.preflight state.files s args).hasErrors with
    | true =>
      have hfailed : failed = true := by
        show (exportStore.execute s args context state).1.1.hasErrors = true
        rw [exportStore.execute_apply s args hrunning]
        dsimp only
        rw [hbefore, if_pos rfl, hbefore]
      rw [hbefore, if_pos rfl] at hstate
      have hfiles : result.2.files = (Run.isStopped context state).2.files :=
        congrArg RunState.files hstate
      exact iff_of_true (allOrNothing_unchanged hfailed hfiles) fun _ => nofun
    | false =>
      rw [hbefore, if_neg Bool.false_ne_true] at hstate
      -- Nothing is wrong beforehand, and the files are those that the work leaves.
      have hfailed := hasErrors_exportStore s args hrunning hbefore
      have hend := exported_performExport s ho context (Run.isStopped context state).2
      dsimp only at hend
      rw [← hfailed, show performExport s = exportStore.perform s from rfl, ← hstate] at hend
      have hiff := hend.allOrNothing_iff (exists_decode hnow hs)
        (addsDirectories_makeParent o.destination state.files)
        (look_destination_of_preflight ho hbefore)
      exact hiff.trans ⟨fun hspared _ _ => hspared, fun h => h rfl rfl⟩

/-- The destination goes through a missing directory and back. Once that is there, the
destination is a directory itself: the export fails, after the file beside it was
replaced. -/
theorem not_allOrNothing_returning :
    let files : FileSystem := ⟨[(["d.xdmf"], .file (bytesOf "OLD"))], []⟩
    let context : RunContext := ⟨⟨0, 0⟩, fun _ => false⟩
    let args : Arguments := [("destination", .filePath "d/../d")]
    let result := exportStore.execute (Store.after []) args context (RunState.start files)
    ¬ AllOrNothing files result.2.files (Store.after []) ⟨"d/../d", true⟩
      result.1.1.hasErrors := by
  intro files context args
  have hnow : context.now.IsMoment := ⟨by decide, Or.inl (by decide)⟩
  have ho : ExportOptions.ofArguments (bind exportStore.parameters args).1
      = .ok ⟨"d/../d", true⟩ := rfl
  have hrunning : (Run.isStopped context (RunState.start files)).1 = false := rfl
  have hbefore : (exportStore.preflight files (Store.after []) args).hasErrors = false := by
    decide
  have hmissing : files.look "d/../d" = none := by decide
  have hmade : (files.makeParent "d/../d").2.look "d/../d" = some .directory := by decide
  have hiff := exportStore_allOrNothing_iff hnow [] ho (RunState.start files)
  have hfailed := hasErrors_exportStore (Store.after []) args hrunning hbefore
  have hend := exported_performExport (Store.after []) ho context
    (Run.isStopped context (RunState.start files)).2
  -- From here on the values would only be run.
  clear_value files context args
  intro result hall
  have hspared := hiff.1 hall hrunning hbefore
  have hkept := hspared.destination (hfailed.trans (hend.failed_of_look hmade))
  exact absurd (hmade.symm.trans (hkept.trans hmissing)) nofun

end Filter

end Meshwork
