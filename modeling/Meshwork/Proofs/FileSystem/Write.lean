import Mathlib.Data.List.Nodup
import Meshwork.Proofs.FileSystem.Places

/-!
# What writing changes

Creating the directory of a file adds directories where nothing was
(`addsDirectories_makeParent`). It changes no file, but it may change what a
location shows that goes through a directory which was missing, and back.

A staged file lies where nothing was: there are more numbers to try than
entries, and its name is different for each (`at?_freeNumber`). So it can be
taken away without a trace.
-/

namespace Meshwork.FileSystem

variable {fs gs : FileSystem} {path : String} {place : Place}

/-! ## Directories

Creating the directories on the way may stop half-way. What it has done until then is
still only to add directories, and nothing that was there changes. -/

/-- **More directories**, where nothing was. No file is made, changed or taken away, and no
directory is lost. -/
structure AddsDirectories (fs gs : FileSystem) : Prop where
  /-- Locations start from the same directory. -/
  start : gs.workingDirectory = fs.workingDirectory
  /-- What is there stays as it is. -/
  kept : ∀ place, gs.at? place = fs.at? place
    ∨ fs.at? place = none ∧ gs.at? place = some .directory

namespace AddsDirectories

theorem refl (fs : FileSystem) : fs.AddsDirectories fs := ⟨rfl, fun _ => Or.inl rfl⟩

theorem trans {hs : FileSystem} (h : fs.AddsDirectories gs) (h' : gs.AddsDirectories hs) :
    fs.AddsDirectories hs where
  start := h'.start.trans h.start
  kept place := by
    rcases h'.kept place with heq | ⟨hnone, hdirectory⟩
    · rw [heq]
      exact h.kept place
    · rcases h.kept place with heq | ⟨-, hdirectory'⟩
      · exact Or.inr ⟨heq ▸ hnone, hdirectory⟩
      · rw [hnone] at hdirectory'
        cases hdirectory'

/-- **All files stay**, and there are no new ones. A directory that is new lies where there was
nothing, hence in the place of no file. -/
theorem file_iff (h : fs.AddsDirectories gs) (place : Place) (contents : Bytes) :
    gs.at? place = some (.file contents) ↔ fs.at? place = some (.file contents) := by
  rcases h.kept place with heq | ⟨hnone, hdirectory⟩
  · rw [heq]
  · rw [hnone, hdirectory]
    exact ⟨nofun, nofun⟩

end AddsDirectories

theorem addsDirectories_makeDirectory (h : fs.makeDirectory path = .ok gs) :
    fs.AddsDirectories gs := by
  rw [makeDirectory] at h
  obtain ⟨⟨place, t⟩, hnew, h⟩ := bind_eq_ok_iff.1 h
  obtain ⟨-, -, directory, name, -, -, -, -, -, rfl⟩ := newPlace_eq_ok_iff.1 hnew
  have hne : directory ++ [name] ≠ [] := List.append_ne_nil_of_right_ne_nil _ (List.cons_ne_nil _ _)
  dsimp only at h
  split at h
  · cases h
  · rename_i hnone
    obtain rfl := pure_eq_ok_iff.1 h
    refine ⟨rfl, fun place => ?_⟩
    rw [at?_put _ _ hne]
    split_ifs with hplace
    · exact Or.inr ⟨hplace ▸ hnone, rfl⟩
    · exact Or.inl rfl

/-- **Creating directories** adds those that are missing, whether it succeeds or not. The
induction is on the fuel, and what the calls for the directories above have added is composed with
what this one adds. -/
theorem addsDirectories_makeDirectoriesFrom (fuel : Nat) (path : String) (fs : FileSystem) :
    fs.AddsDirectories (makeDirectoriesFrom fuel path fs).2 := by
  induction fuel generalizing path fs with
  | zero => exact .refl fs
  | succ fuel ih =>
    -- By induction on the fuel, along the way the directories are created: this one, or those above
    -- it first and then this one again.
    rw [makeDirectoriesFrom]
    by_cases hempty : path = ""
    · rw [if_pos hempty]
      exact .refl fs
    · rw [if_neg hempty]
      split
      · rename_i hmade
        exact addsDirectories_makeDirectory hmade
      · split
        · exact .refl fs
        · rename_i above _
          have habove := ih above fs
          split
          · rename_i hfailed
            rwa [hfailed] at habove
          · rename_i hmade
            rw [hmade] at habove
            split
            · rename_i hlast
              exact habove.trans (addsDirectories_makeDirectory hlast)
            · exact habove
      · exact .refl fs

theorem addsDirectories_makeParent (path : String) (fs : FileSystem) :
    fs.AddsDirectories (fs.makeParent path).2 := addsDirectories_makeDirectoriesFrom _ _ fs

/-- A directory that is there is not made. -/
theorem makeDirectory_of_look (h : fs.look path = some .directory) :
    ∃ e, e ≠ .notFound ∧ fs.makeDirectory path = .error e := by
  obtain ⟨place, hresolve, hat⟩ := exists_resolve_of_look h
  obtain ⟨htext, hwalk⟩ := resolve_eq_ok_iff.1 hresolve
  have herror : ∀ e, e ≠ .notFound → fs.newPlace .alreadyExists path = .error e →
      ∃ e, e ≠ .notFound ∧ fs.makeDirectory path = .error e := fun e he hnew =>
    ⟨e, he, by rw [makeDirectory, hnew]; rfl⟩
  rcases target_cases (FilePath.pieces path) with
    ⟨hblank, htarget⟩ | ⟨above, last, blanks, hpieces, hblanks, hlast, htarget⟩
  · -- The location is where locations start.
    obtain rfl := eq_of_walk_blanks hblank hwalk
    refine herror .alreadyExists nofun ?_
    rw [newPlace_of_walk htext (by rw [htarget]; rfl) hat, htarget]
  · rw [hpieces, walk_append] at hwalk
    obtain ⟨directory, habove, hwalk⟩ := bind_eq_ok_iff.1 hwalk
    obtain ⟨hdirectory, hrest⟩ := walk_cons_eq_ok_iff.1 hwalk
    have hnew : fs.newPlace .alreadyExists path = _ :=
      newPlace_of_walk htext (by rw [htarget]; exact habove) hdirectory
    rw [htarget] at hnew
    dsimp only at hnew
    split_ifs at hnew with hspecial hlong
    · exact herror .alreadyExists nofun hnew
    · exact herror .nameTooLong nofun hnew
    · -- The last part is the name of the directory.
      have hproper : ¬ FilePath.isVoid last := fun hvoid =>
        (isVoid_iff.1 hvoid).elim hlast fun hdot => hspecial (Or.inl hdot)
      rw [if_neg hproper, if_neg fun hup => hspecial (Or.inr hup), if_neg hlong] at hrest
      obtain rfl := eq_of_walk_blanks hblanks hrest
      refine ⟨.alreadyExists, nofun, ?_⟩
      rw [makeDirectory, hnew]
      simp only [bind, Except.bind, hat]
      rfl

/-- **Nothing is created** if the directory of a file is there, or none is named. This is the
common case of an export, to which the statements about all or nothing then apply as they are. -/
theorem makeParent_of_look (h : (FilePath.parent? path).getD "" = ""
      ∨ fs.look ((FilePath.parent? path).getD "") = some .directory) :
    (fs.makeParent path).2 = fs := by
  rw [makeParent, makeDirectories, makeDirectoriesFrom]
  by_cases hempty : (FilePath.parent? path).getD "" = ""
  · rw [if_pos hempty]
  · obtain ⟨e, he, hmade⟩ := makeDirectory_of_look (h.resolve_left hempty)
    rw [if_neg hempty, hmade]
    split
    · contradiction
    · rename_i hnotFound
      exact absurd (Except.error.inj hnotFound) he
    · rfl

/-! ## Names of staged files

A staged file has the name of its target with a number behind it. Numbers are tried from
zero; since different numbers give different names, one of the first is free. -/

/-- The value of a hexadecimal digit. -/
def hexDigitValue (c : Char) : Nat := if c.toNat < 58 then c.toNat - 48 else c.toNat - 87

/-- The number that hexadecimal digits stand for. -/
def hexValue (digits : List Char) : Nat := digits.foldl (fun n c => 16 * n + hexDigitValue c) 0

theorem hexDigitValue_digitChar {n : Nat} (h : n < 16) : hexDigitValue n.digitChar = n :=
  (by decide : ∀ n : Fin 16, hexDigitValue n.val.digitChar = n.val) ⟨n, h⟩

theorem hexValue_toDigits (n : Nat) : hexValue (Nat.toDigits 16 n) = n := by
  induction n using Nat.strongRecOn with
  | ind n ih =>
    by_cases hn : n < 16
    · rw [Nat.toDigits_of_lt_base hn, hexValue, List.foldl_cons, List.foldl_nil,
        hexDigitValue_digitChar hn, Nat.mul_zero, Nat.zero_add]
    · have hrest := ih (n / 16) (by omega)
      rw [hexValue] at hrest
      rw [Nat.toDigits_of_base_le (by decide) (Nat.not_lt.1 hn), hexValue, List.foldl_append, hrest,
        List.foldl_cons, List.foldl_nil, hexDigitValue_digitChar (Nat.mod_lt n (by decide))]
      exact Nat.div_add_mod n 16

theorem hexValue_replicate_append (count : Nat) (digits : List Char) :
    hexValue (List.replicate count '0' ++ digits) = hexValue digits := by
  induction count with
  | zero => rfl
  | succ count ih => exact ih

/-- **Each number makes another name.** Decimal digits determine the number, and the rest of the
name is the same for all. -/
theorem stagedName_injective (name : String) : Function.Injective (stagedName name) := by
  intro n m h
  have hdigits := congrArg (fun text : String => text.toList) h
  simp only [stagedName, String.toList_append, String.toList_ofList, List.append_assoc,
    List.append_cancel_left_eq] at hdigits
  rw [← List.append_assoc, ← List.append_assoc] at hdigits
  have hvalue := congrArg hexValue (List.append_cancel_right hdigits)
  rwa [hexValue_replicate_append, hexValue_replicate_append, hexValue_toDigits, hexValue_toDigits]
    at hvalue

/-- If the number that is found is in use, so are all that were tried. -/
theorem at?_of_at?_freeNumber {directory : Place} {name : String} {fuel number : Nat}
    (h : fs.at? (directory ++ [stagedName name (fs.freeNumber directory name fuel number)]) ≠ none) :
    ∀ k ≤ fuel, fs.at? (directory ++ [stagedName name (number + k)]) ≠ none := by
  induction fuel generalizing number with
  | zero =>
    rintro k hk
    obtain rfl := Nat.le_zero.1 hk
    exact h
  | succ fuel ih =>
    -- The search goes on only past numbers that are in use.
    rw [freeNumber] at h
    split at h
    · contradiction
    · rename_i entry hentry
      intro k hk
      cases k with
      | zero => exact fun hnone => by rw [Nat.add_zero, hentry] at hnone; cases hnone
      | succ k =>
        have := ih h k (Nat.le_of_succ_le_succ hk)
        rwa [Nat.add_assoc, Nat.add_comm 1 k] at this

/-- **A number is found for which there is no staged file.** The names that are tried are all
different, and there is one more of them than there are entries. -/
theorem at?_freeNumber (fs : FileSystem) (directory : Place) (name : String) (number : Nat) :
    fs.at? (directory ++ [stagedName name
      (fs.freeNumber directory name fs.entries.length number)]) = none := by
  by_contra h
  have hused := at?_of_at?_freeNumber h
  -- Otherwise more numbers than there are entries would be in use, each of them by an entry of its
  -- own.
  let tried := (List.range (fs.entries.length + 1)).map fun k =>
    directory ++ [stagedName name (number + k)]
  have hnodup : tried.Nodup := List.Nodup.map (fun k k' heq => Nat.add_left_cancel
    (stagedName_injective name (List.cons.inj (List.append_cancel_left heq)).1)) List.nodup_range
  have hsub : tried ⊆ fs.entries.map Prod.fst := by
    intro place hplace
    obtain ⟨k, hk, rfl⟩ := List.mem_map.1 hplace
    obtain ⟨entry, hentry⟩ :=
      Option.ne_none_iff_exists'.1 (hused k (Nat.le_of_lt_succ (List.mem_range.1 hk)))
    rw [at?, if_neg (List.append_ne_nil_of_right_ne_nil _ (List.cons_ne_nil _ _))] at hentry
    exact List.mem_map.2 ⟨_, mem_of_lookup hentry, rfl⟩
  have hlength := hnodup.length_le_of_subset hsub
  rw [List.length_map, List.length_map, List.length_range] at hlength
  omega

/-! ## Staged files

Staging puts contents aside, and committing moves them. Both are told by what they do to
the entries at two places. -/

/-- **Where a file can be staged**: in a place that is free, under a name made from that of the
file. Only the form of the name is recorded, and neither the directory nor the number. -/
structure Stages (fs : FileSystem) (path : String) (place : Place) : Prop where
  /-- Nothing lies there. -/
  free : fs.at? place = none
  /-- The location has a file name. -/
  named : (FilePath.fileName? path).isSome
  /-- The name of the place is that of a staged file. -/
  staged : ∃ directory name number, place = directory ++ [stagedName name number]

theorem Stages.ne_nil (h : fs.Stages path place) : place ≠ [] := by
  obtain ⟨directory, name, number, rfl⟩ := h.staged
  exact List.append_ne_nil_of_right_ne_nil _ (List.cons_ne_nil _ _)

theorem stages_of_stagedPlace (h : fs.stagedPlace path = .ok place) : fs.Stages path place := by
  rw [stagedPlace] at h
  split at h
  · cases h
  · rename_i name hname
    obtain ⟨-, -, h⟩ := bind_eq_ok_iff.1 h
    obtain ⟨directory, -, h⟩ := bind_eq_ok_iff.1 h
    dsimp only at h
    split at h
    · cases h
    · obtain rfl := pure_eq_ok_iff.1 h
      exact ⟨at?_freeNumber fs directory name 0, Option.isSome_of_eq_some hname, _, _, _, rfl⟩

/-- **Staging** fails and changes nothing, or puts the contents where nothing was. In the second
case the file system differs from what it was in this one entry. -/
theorem stage_cases (path : String) (contents : Bytes) (fs : FileSystem) :
    (∃ e, fs.stage path contents = (.error e, fs)) ∨ ∃ place, fs.Stages path place
      ∧ fs.stage path contents = (.ok ⟨place, path⟩, fs.put place (.file contents)) := by
  rw [stage]
  cases hplace : fs.stagedPlace path with
  | error e => exact Or.inl ⟨e, rfl⟩
  | ok place => exact Or.inr ⟨place, stages_of_stagedPlace hplace, rfl⟩

/-- **A staged file** takes the place of the other, or is taken away. In either case nothing is
left where the file was staged. -/
theorem commitStaged_cases (staged : StagedFile) {entry : FileEntry}
    (h : fs.at? staged.place = some entry) :
    (∃ e, fs.replacedPlace staged.target = .error e
        ∧ fs.commitStaged staged = (.error e, fs.erase staged.place))
      ∨ ∃ place, fs.replacedPlace staged.target = .ok place
        ∧ fs.commitStaged staged = (.ok (), (fs.erase staged.place).put place entry) := by
  rw [commitStaged, h]
  cases fs.replacedPlace staged.target with
  | error e => exact Or.inl ⟨e, rfl, rfl⟩
  | ok place => exact Or.inr ⟨place, rfl, rfl⟩

end Meshwork.FileSystem
