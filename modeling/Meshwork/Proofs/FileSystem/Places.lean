import Mathlib.Data.List.TakeWhile
import Mathlib.Tactic.SplitIfs
import Meshwork.FileSystem.Write
import Meshwork.Proofs.Failure
import Meshwork.Proofs.FilePath

/-!
# Where locations lead

Pieces are followed from directory to directory, so that it depends on the
directories of a file system where a location leads, and not on the files.
File systems with the same directories (`FileSystem.SameDirectories`) lead all
locations to the same places (`resolve_congr`), and differ there by what lies at
these (`look_congr`).

A file is replaced where the last piece of its location is a name, in the
directory that the pieces before lead to (`FileSystem.Names`), unless a
directory has this name (`replacedPlace_eq_ok_iff`).
-/

namespace Meshwork.FileSystem

/-! ## Directories

A walk stops at whatever is no directory, so files influence it only by being in the way
of further pieces. This is why having the same directories is enough for leading to the
same places. -/

/-- **What lies where a location leads**; nothing if it leads nowhere. Why it leads nowhere is
left out, so that two file systems can be compared by what they show. -/
def look (fs : FileSystem) (path : String) : Option FileEntry := (fs.stat path).toOption

/-- **File systems with the same directories.** Where a location leads depends on no more than
this, since files are never passed on the way. -/
structure SameDirectories (fs gs : FileSystem) : Prop where
  /-- Locations start from the same directory. -/
  start : fs.workingDirectory = gs.workingDirectory
  /-- What is a directory in one is a directory in the other. -/
  directory : ∀ place, fs.at? place = some .directory ↔ gs.at? place = some .directory

variable {fs gs : FileSystem} {path : String} {place result : Place}

theorem SameDirectories.symm (h : fs.SameDirectories gs) : gs.SameDirectories fs :=
  ⟨h.start.symm, fun place => (h.directory place).symm⟩

theorem SameDirectories.trans {hs : FileSystem} (h : fs.SameDirectories gs)
    (h' : gs.SameDirectories hs) : fs.SameDirectories hs :=
  ⟨h.start.trans h'.start, fun place => (h.directory place).trans (h'.directory place)⟩

theorem mem_of_lookup {entry : FileEntry} {entries : List (Place × FileEntry)}
    (h : lookup place entries = some entry) :
    (place, entry) ∈ entries := by
  induction entries with
  | nil => cases h
  | cons head rest ih =>
    rw [lookup] at h
    split at h
    · rename_i hplace
      obtain rfl := Option.some.inj h
      exact hplace ▸ List.mem_cons_self
    · exact List.mem_cons_of_mem _ (ih h)

/-! ## Following pieces

Pieces are followed one by one, with `..` leading up and `.` and empty pieces leading
nowhere. The lemmas here are about one piece and about two stretches of them. -/

theorem isVoid_iff {piece : String} : FilePath.isVoid piece ↔ piece = "" ∨ piece = "." := by
  rw [FilePath.isVoid, Bool.or_eq_true, beq_iff_eq, beq_iff_eq]

/-- One piece is followed from a directory. -/
theorem walk_cons_eq_ok_iff {piece : String} {rest : List String} :
    fs.walk place (piece :: rest) = .ok result ↔ fs.at? place = some .directory
      ∧ (if FilePath.isVoid piece then fs.walk place rest
        else if piece = ".." then fs.walk place.dropLast rest
        else if nameLimit < piece.utf8ByteSize then .error .nameTooLong
        else fs.walk (place ++ [piece]) rest) = .ok result := by
  rw [walk]
  cases fs.at? place with
  | none => exact ⟨nofun, nofun⟩
  | some entry =>
    cases entry with
    | file contents => exact ⟨nofun, nofun⟩
    | directory => exact ⟨fun h => ⟨rfl, h⟩, fun h => h.2⟩

/-- **A walk over two stretches** is a walk over the first and then, from where it leads, over the
second. If the first walk fails, so does the whole, with the same error. -/
theorem walk_append (front back : List String) :
    fs.walk place (front ++ back) = (fs.walk place front >>= fun place => fs.walk place back) := by
  induction front generalizing place with
  | nil => rfl
  | cons piece front ih =>
    -- What a part does depends on the place that has been reached alone, not on the parts after it.
    rw [List.cons_append, walk, walk]
    cases fs.at? place with
    | none => rfl
    | some entry =>
      cases entry with
      | file contents => rfl
      | directory =>
        dsimp only
        split_ifs
        · exact ih
        · exact ih
        · rfl
        · exact ih

/-- A piece that stands for nothing still asks for a directory. -/
theorem walk_void {piece : String} (h : FilePath.isVoid piece) :
    fs.walk place [piece] = .ok result ↔ fs.at? place = some .directory ∧ place = result := by
  rw [walk_cons_eq_ok_iff, if_pos h]
  exact and_congr_right fun _ => pure_eq_ok_iff

/-- Slashes lead nowhere else. -/
theorem eq_of_walk_blanks {blanks : List String} (h : ∀ piece ∈ blanks, piece = "")
    (hwalk : fs.walk place blanks = .ok result) : place = result := by
  induction blanks with
  | nil => exact Except.ok.inj hwalk
  | cons piece rest ih =>
    obtain ⟨-, hrest⟩ := walk_cons_eq_ok_iff.1 hwalk
    rw [if_pos (isVoid_iff.2 (Or.inl (h piece List.mem_cons_self)))] at hrest
    exact ih (fun piece hpiece => h piece (List.mem_cons_of_mem _ hpiece)) hrest

/-- A name leads to the entry of a directory. -/
theorem walk_name {name : String} (h : ¬ FilePath.isVoid name) (h' : name ≠ "..")
    (hshort : name.utf8ByteSize ≤ nameLimit) :
    fs.walk place [name] = .ok result
      ↔ fs.at? place = some .directory ∧ place ++ [name] = result := by
  rw [walk_cons_eq_ok_iff, if_neg h, if_neg h', if_neg (Nat.not_lt.2 hshort)]
  exact and_congr_right fun _ => pure_eq_ok_iff

theorem walk_congr (h : fs.SameDirectories gs) {pieces : List String} :
    fs.walk place pieces = .ok result ↔ gs.walk place pieces = .ok result := by
  induction pieces generalizing place with
  | nil => rfl
  | cons piece rest ih =>
    rw [walk_cons_eq_ok_iff, walk_cons_eq_ok_iff, h.directory]
    refine and_congr_right fun _ => ?_
    split_ifs
    · exact ih
    · exact ih
    · rfl
    · exact ih

theorem start_congr (h : fs.SameDirectories gs) (p : FilePath.Pieces) : fs.start p = gs.start p := by
  rw [start, start, h.start]

theorem resolve_eq_ok_iff : fs.resolve path = .ok result ↔ checkText path = .ok ()
    ∧ fs.walk (fs.start (FilePath.pieces path)) (FilePath.pieces path).pieces = .ok result := by
  rw [resolve, bind_eq_ok_iff]
  exact ⟨fun ⟨_, h⟩ => h, fun h => ⟨(), h⟩⟩

/-- **Where a location leads depends on the directories.** Only success is carried over: the
errors may differ where there is a file in one and nothing in the other. -/
theorem resolve_congr (h : fs.SameDirectories gs) :
    fs.resolve path = .ok result ↔ gs.resolve path = .ok result := by
  rw [resolve_eq_ok_iff, resolve_eq_ok_iff, start_congr h, walk_congr h]

/-! ## What is found

Looking is following and then asking for the entry. File systems are compared by their
entries, since the list that holds them is an accident of how they came about. -/

theorem look_of_resolve (h : fs.resolve path = .ok place) : fs.look path = fs.at? place := by
  rw [look, stat, h]
  simp only [bind, Except.bind]
  cases fs.at? place <;> rfl

theorem look_eq_none (h : ∀ place, fs.resolve path ≠ .ok place) : fs.look path = none := by
  rw [look, stat]
  cases hresolve : fs.resolve path with
  | error e => rfl
  | ok place => exact absurd hresolve (h place)

theorem exists_resolve_of_look {entry : FileEntry} (h : fs.look path = some entry) :
    ∃ place, fs.resolve path = .ok place ∧ fs.at? place = some entry := by
  cases hresolve : fs.resolve path with
  | error e =>
    rw [look_eq_none fun place => by rw [hresolve]; nofun] at h
    cases h
  | ok place => exact ⟨place, rfl, (look_of_resolve hresolve).symm.trans h⟩

/-- **File systems with the same directories** show the same at a location if the same lies where
it leads. This is how a write at one place is seen to leave what all other locations show. -/
theorem look_congr (h : fs.SameDirectories gs)
    (hat : ∀ place, gs.resolve path = .ok place → fs.at? place = gs.at? place) :
    fs.look path = gs.look path := by
  cases hresolve : gs.resolve path with
  | error e =>
    have hnone : ∀ place, gs.resolve path ≠ .ok place := fun place => by rw [hresolve]; nofun
    rw [look_eq_none hnone, look_eq_none fun place => mt (resolve_congr h).1 (hnone place)]
  | ok place =>
    rw [look_of_resolve hresolve, look_of_resolve ((resolve_congr h).2 hresolve), hat place hresolve]

theorem isDirectory_iff : fs.isDirectory path ↔ fs.look path = some .directory := by
  rw [isDirectory, look]
  cases fs.stat path with
  | error e => exact ⟨nofun, nofun⟩
  | ok entry => cases entry <;> simp [Except.toOption]

/-- **File systems with the same entries.** They may list their entries in other orders, or list
some more than once, of which the first counts. -/
structure Same (fs gs : FileSystem) : Prop where
  /-- Locations start from the same directory. -/
  start : fs.workingDirectory = gs.workingDirectory
  /-- The same lies everywhere. -/
  at?_eq : ∀ place, fs.at? place = gs.at? place

namespace Same

theorem sameDirectories (h : fs.Same gs) : fs.SameDirectories gs :=
  ⟨h.start, fun place => by rw [h.at?_eq]⟩

theorem trans {hs : FileSystem} (h : fs.Same gs) (h' : gs.Same hs) : fs.Same hs :=
  ⟨h.start.trans h'.start, fun place => (h.at?_eq place).trans (h'.at?_eq place)⟩

theorem look_eq (h : fs.Same gs) (path : String) : fs.look path = gs.look path :=
  look_congr h.sameDirectories fun place _ => h.at?_eq place

theorem put (h : fs.Same gs) (entry : FileEntry) (hne : place ≠ []) :
    (fs.put place entry).Same (gs.put place entry) :=
  ⟨h.start, fun other => by rw [at?_put _ _ hne, at?_put _ _ hne, h.at?_eq]⟩

theorem erase (h : fs.Same gs) (hne : place ≠ []) : (fs.erase place).Same (gs.erase place) :=
  ⟨h.start, fun other => by rw [at?_erase _ hne, at?_erase _ hne, h.at?_eq]⟩

end Same

/-- What is put where nothing was can be taken away. -/
theorem same_erase_put (hfree : fs.at? place = none) (entry : FileEntry) (hne : place ≠ []) :
    ((fs.put place entry).erase place).Same fs := by
  refine ⟨rfl, fun other => ?_⟩
  rw [at?_erase _ hne, at?_put _ _ hne]
  split_ifs with h
  · rw [h, hfree]
  · rfl

/-- Different places are written in any order. -/
theorem same_erase_put_of_ne {other : Place} (h : other ≠ place) (entry : FileEntry)
    (hne : place ≠ []) (hother : other ≠ []) :
    ((fs.put place entry).erase other).Same ((fs.erase other).put place entry) := by
  refine ⟨rfl, fun q => ?_⟩
  rw [at?_erase _ hother, at?_put _ _ hne, at?_put _ _ hne, at?_erase _ hother]
  split_ifs with h₁ h₂
  · exact absurd (h₁.symm.trans h₂) h
  · rfl
  · rfl
  · rfl

theorem ne_nil_of_at? (h : fs.at? place ≠ some .directory) : place ≠ [] := by
  rintro rfl
  exact h (if_pos rfl)

/-- A file that is put where no directory is leaves the directories. -/
theorem sameDirectories_put (h : fs.at? place ≠ some .directory) (contents : Bytes) :
    (fs.put place (.file contents)).SameDirectories fs := by
  refine ⟨rfl, fun other => ?_⟩
  rw [at?_put _ _ (ne_nil_of_at? h)]
  split_ifs with hother
  · rw [hother]
    exact ⟨nofun, fun hdirectory => absurd hdirectory h⟩
  · rfl

/-- What shows as a directory is one for all with the same directories. -/
theorem look_directory_congr (h : fs.SameDirectories gs) (hlook : fs.look path = some .directory) :
    gs.look path = some .directory := by
  obtain ⟨place, hresolve, hat⟩ := exists_resolve_of_look hlook
  exact (look_of_resolve ((resolve_congr h).1 hresolve)).trans ((h.directory place).1 hat)

/-! ## Names of directories

Replacing a file needs a name: the last piece, in the directory that the pieces before
lead to. Trailing slashes ask for a directory and leave no name. -/

/-- **The last piece of a location is a name** in a directory. Neither the name has to be there
nor is it said what it is: the fields are what replacing a file and creating one have in common. -/
structure Names (fs : FileSystem) (path : String) (above : List String) (name : String)
    (directory : Place) : Prop where
  /-- The system takes the text. -/
  text : checkText path = .ok ()
  /-- The name comes last. -/
  pieces : (FilePath.pieces path).pieces = above ++ [name]
  /-- It does not stand for nothing. -/
  proper : ¬ FilePath.isVoid name
  /-- It is not the directory above. -/
  below : name ≠ ".."
  /-- It is not too long. -/
  short : name.utf8ByteSize ≤ nameLimit
  /-- The pieces before lead to the directory. -/
  walk : fs.walk (fs.start (FilePath.pieces path)) above = .ok directory
  /-- This is a directory. -/
  directory : fs.at? directory = some .directory

namespace Names

variable {above : List String} {name : String} {directory : Place}

theorem congr (h : fs.SameDirectories gs) (hnames : fs.Names path above name directory) :
    gs.Names path above name directory where
  text := hnames.text
  pieces := hnames.pieces
  proper := hnames.proper
  below := hnames.below
  short := hnames.short
  walk := (walk_congr h).1 (start_congr h _ ▸ hnames.walk)
  directory := (h.directory directory).1 hnames.directory

theorem resolve (h : fs.Names path above name directory) :
    fs.resolve path = .ok (directory ++ [name]) := by
  rw [resolve_eq_ok_iff, h.pieces, walk_append, h.walk]
  exact ⟨h.text, (walk_name h.proper h.below h.short).2 ⟨h.directory, rfl⟩⟩

end Names

/-- The last piece that is not empty comes before empty ones. -/
theorem exists_blanks (pieces : List String) : (∀ piece ∈ pieces, piece = "")
    ∨ ∃ above last blanks, pieces = above ++ last :: blanks ∧ (∀ piece ∈ blanks, piece = "")
      ∧ last ≠ "" := by
  induction pieces with
  | nil => exact Or.inl nofun
  | cons piece rest ih =>
    rcases ih with hrest | ⟨above, last, blanks, rfl, hblanks, hlast⟩
    · by_cases hpiece : piece = ""
      · exact Or.inl (List.forall_mem_cons.2 ⟨hpiece, hrest⟩)
      · exact Or.inr ⟨[], piece, rest, rfl, hrest, hpiece⟩
    · exact Or.inr ⟨piece :: above, last, blanks, rfl, hblanks, hlast⟩

/-- The parts of a location, with the slashes that follow the last. -/
theorem target_eq {p : FilePath.Pieces} {above blanks : List String} {last : String}
    (hpieces : p.pieces = above ++ last :: blanks) (hblanks : ∀ piece ∈ blanks, piece = "")
    (hlast : last ≠ "") : target p = ⟨above, some last, !blanks.isEmpty⟩ := by
  have hdrop : p.pieces.reverse.dropWhile (· = "") = last :: above.reverse := by
    rw [hpieces, List.reverse_append, List.reverse_cons, List.append_assoc,
      List.dropWhile_append_of_pos fun piece hpiece =>
        decide_eq_true (hblanks piece (List.mem_reverse.1 hpiece))]
    exact List.dropWhile_cons_of_neg (by simpa using hlast)
  have htrailing : decide (p.pieces.reverse.head? = some "") = !blanks.isEmpty := by
    rw [hpieces, List.reverse_append, List.reverse_cons]
    cases hback : blanks.reverse with
    | nil => simp [List.reverse_eq_nil_iff.1 hback, hlast]
    | cons blank rest =>
      have hmem : blank ∈ blanks := List.mem_reverse.1 (hback ▸ List.mem_cons_self)
      simp [hblanks blank hmem, List.ne_nil_of_mem hmem]
  simp only [target]
  rw [hdrop, htrailing]
  simp only [List.reverse_reverse]

/-- **A location has no part**, but slashes, or only slashes follow the last. In the second case
the last part is split off, and it is remembered whether a slash follows it. -/
theorem target_cases (p : FilePath.Pieces) :
    ((∀ piece ∈ p.pieces, piece = "") ∧ target p = ⟨[], none, false⟩)
      ∨ ∃ above last blanks, p.pieces = above ++ last :: blanks
        ∧ (∀ piece ∈ blanks, piece = "") ∧ last ≠ ""
        ∧ target p = ⟨above, some last, !blanks.isEmpty⟩ := by
  rcases exists_blanks p.pieces with h | ⟨above, last, blanks, hpieces, hblanks, hlast⟩
  · refine Or.inl ⟨h, ?_⟩
    have hdrop : p.pieces.reverse.dropWhile (· = "") = [] :=
      List.dropWhile_eq_nil_iff.2 fun piece hpiece =>
        decide_eq_true (h piece (List.mem_reverse.1 hpiece))
    simp only [target]
    rw [hdrop]
  · exact Or.inr ⟨above, last, blanks, hpieces, hblanks, hlast, target_eq hpieces hblanks hlast⟩

/-- The directory that a slash asks for. -/
theorem walk_slash {above : List String} {directory : Place} :
    fs.walk place (above ++ [""]) = .ok directory
      ↔ fs.walk place above = .ok directory ∧ fs.at? directory = some .directory := by
  rw [walk_append, bind_eq_ok_iff]
  constructor
  · rintro ⟨last, hwalk, hlast⟩
    obtain ⟨hdirectory, rfl⟩ := (walk_void rfl).1 hlast
    exact ⟨hwalk, hdirectory⟩
  · rintro ⟨hwalk, hdirectory⟩
    exact ⟨directory, hwalk, (walk_void rfl).2 ⟨hdirectory, rfl⟩⟩

/-- **A new name** in the directory that the parts above lead to. The operation that asks for it
says with which error `.`, `..` and a location without parts are refused. -/
theorem newPlace_of_walk {special : FileError} {directory : Place}
    (htext : checkText path = .ok ())
    (hwalk : fs.walk (fs.start (FilePath.pieces path)) (target (FilePath.pieces path)).above
      = .ok directory)
    (hdirectory : fs.at? directory = some .directory) :
    fs.newPlace special path = match (target (FilePath.pieces path)).last with
      | none => .error special
      | some name =>
        if name = "." ∨ name = ".." then .error special
        else if nameLimit < name.utf8ByteSize then .error .nameTooLong
        else .ok (directory ++ [name], target (FilePath.pieces path)) := by
  rw [newPlace, htext]
  show (fs.walk (fs.start (FilePath.pieces path)) ((target (FilePath.pieces path)).above ++ [""])
    >>= _) = _
  rw [walk_slash.2 ⟨hwalk, hdirectory⟩]
  show (match (target (FilePath.pieces path)).last with | none => _ | some name => _) = _
  cases (target (FilePath.pieces path)).last with
  | none => rfl
  | some name =>
    dsimp only
    split_ifs <;> rfl

/-- **Where a new name goes**: to the directory that the parts above lead to. Nothing is said of
what lies there already, since each operation treats that in its own way. -/
theorem newPlace_eq_ok_iff {special : FileError} {t : Target} :
    fs.newPlace special path = .ok (place, t) ↔ checkText path = .ok ()
      ∧ t = target (FilePath.pieces path) ∧ ∃ directory name,
        fs.walk (fs.start (FilePath.pieces path)) t.above = .ok directory
          ∧ fs.at? directory = some .directory ∧ t.last = some name
          ∧ ¬ (name = "." ∨ name = "..") ∧ name.utf8ByteSize ≤ nameLimit
          ∧ place = directory ++ [name] := by
  constructor
  · intro h
    obtain ⟨_, htext, hrest⟩ := bind_eq_ok_iff.1 h
    obtain ⟨directory, hslash, -⟩ := bind_eq_ok_iff.1 hrest
    obtain ⟨hwalk, hdirectory⟩ := walk_slash.1 hslash
    rw [newPlace_of_walk htext hwalk hdirectory] at h
    -- The directory is found; what is left to check is the last part, which must be a proper name
    -- of bounded length.
    cases hlast : (target (FilePath.pieces path)).last with
    | none =>
      rw [hlast] at h
      cases h
    | some name =>
      rw [hlast] at h
      dsimp only at h
      split_ifs at h with hspecial hlong
      obtain ⟨rfl, rfl⟩ := Prod.mk.inj (Except.ok.inj h)
      exact ⟨htext, rfl, directory, name, hwalk, hdirectory, hlast, hspecial, Nat.not_lt.1 hlong, rfl⟩
  · rintro ⟨htext, rfl, directory, name, hwalk, hdirectory, hlast, hspecial, hshort, rfl⟩
    rw [newPlace_of_walk htext hwalk hdirectory, hlast]
    dsimp only
    rw [if_neg hspecial, if_neg (Nat.not_lt.2 hshort)]

/-- **What is replaced at a location**: the entry of a name, unless it is a directory. The entry
need not be there: then the place is free and the file is new. -/
theorem replacedPlace_eq_ok_iff : fs.replacedPlace path = .ok place ↔ ∃ above name directory,
    fs.Names path above name directory ∧ place = directory ++ [name]
      ∧ fs.at? place ≠ some .directory := by
  rw [replacedPlace, bind_eq_ok_iff]
  constructor
  · rintro ⟨⟨found, t⟩, hnew, h⟩
    obtain ⟨htext, rfl, directory, name, hwalk, hdirectory, hlast, hspecial, hshort, rfl⟩ :=
      newPlace_eq_ok_iff.1 hnew
    dsimp only at h
    rcases target_cases (FilePath.pieces path) with
      ⟨-, htarget⟩ | ⟨above, last, blanks, hpieces, -, hne, htarget⟩
    · rw [htarget] at hlast
      cases hlast
    · rw [htarget] at hlast hwalk h
      obtain rfl := Option.some.inj hlast
      -- Slashes after the last name ask for a directory, and then nothing is replaced.
      cases blanks with
      | cons blank rest => cases h
      | nil =>
        dsimp only at h
        rw [if_neg (by decide)] at h
        have hfree : fs.at? (directory ++ [last]) ≠ some .directory := fun hat => by
          rw [hat] at h
          cases h
        have hplace : directory ++ [last] = place := by
          split at h
          · contradiction
          · exact pure_eq_ok_iff.1 h
        refine ⟨above, last, directory, ⟨htext, hpieces, ?_, fun h => hspecial (Or.inr h), hshort,
          hwalk, hdirectory⟩, hplace.symm, hplace ▸ hfree⟩
        rw [isVoid_iff]
        exact fun h => h.elim hne fun h => hspecial (Or.inl h)
  · rintro ⟨above, name, directory, hnames, rfl, hfree⟩
    -- A name that is neither empty nor a single dot is the last part, with nothing after it.
    have hproper := mt isVoid_iff.2 hnames.proper
    rw [not_or] at hproper
    have htarget := target_eq hnames.pieces nofun hproper.1
    refine ⟨(directory ++ [name], ⟨above, some name, false⟩), newPlace_eq_ok_iff.2 ⟨hnames.text,
      htarget.symm, directory, name, hnames.walk, hnames.directory, rfl,
      not_or.2 ⟨hproper.2, hnames.below⟩, hnames.short, rfl⟩, ?_⟩
    dsimp only
    rw [if_neg Bool.false_ne_true]
    split
    · contradiction
    · rfl

theorem at?_ne_of_replacedPlace (h : fs.replacedPlace path = .ok place) :
    fs.at? place ≠ some .directory := by
  obtain ⟨-, -, -, -, -, hfree⟩ := replacedPlace_eq_ok_iff.1 h
  exact hfree

theorem ne_nil_of_replacedPlace (h : fs.replacedPlace path = .ok place) : place ≠ [] :=
  ne_nil_of_at? (at?_ne_of_replacedPlace h)

/-- A file lies where its location leads. -/
theorem resolve_of_replacedPlace (h : fs.replacedPlace path = .ok place) :
    fs.resolve path = .ok place := by
  obtain ⟨above, name, directory, hnames, rfl, -⟩ := replacedPlace_eq_ok_iff.1 h
  exact hnames.resolve

theorem replacedPlace_congr (h : fs.SameDirectories gs) (hplace : fs.replacedPlace path = .ok place) :
    gs.replacedPlace path = .ok place := by
  obtain ⟨above, name, directory, hnames, hat, hfree⟩ := replacedPlace_eq_ok_iff.1 hplace
  exact replacedPlace_eq_ok_iff.2
    ⟨above, name, directory, hnames.congr h, hat, mt (h.directory place).2 hfree⟩

/-! ### Names with a suffix

The sibling of a file has its location with a suffix. As the suffix is no slash, both have
the same directory and different names. -/

theorem checkText_of_append {suffix : String} (hne : path ≠ "")
    (h : checkText (path ++ suffix) = .ok ()) : checkText path = .ok () := by
  unfold checkText at h ⊢
  rw [String.toList_append, List.contains_append, String.utf8ByteSize_append] at h
  split_ifs at h with hzero hempty hlong
  rw [Bool.or_eq_true, not_or] at hzero
  rw [if_neg hzero.1, if_neg hne, if_neg (by omega)]

/-- **If a file can be replaced, so can the one whose location lacks the suffix**, unless there is
a directory. The name without the suffix is shorter and lies in the same directory, so nothing
else can refuse it. -/
theorem exists_replacedPlace_or_look {suffix : String} (hsuffix : separator ∉ suffix.toList)
    (hname : (FilePath.fileName? path).isSome)
    (hplace : fs.replacedPlace (path ++ suffix) = .ok place) :
    (∃ place, fs.replacedPlace path = .ok place) ∨ fs.look path = some .directory := by
  obtain ⟨above', name', directory, hnames, -, -⟩ := replacedPlace_eq_ok_iff.1 hplace
  obtain ⟨rooted, above, last, hpath, happend⟩ := FilePath.pieces_append path hsuffix
  have hpieces := hnames.pieces
  have hwalk := hnames.walk
  rw [happend] at hpieces hwalk
  obtain ⟨rfl, hlast⟩ := List.append_inj' hpieces rfl
  obtain rfl := (List.cons.inj hlast).1
  obtain ⟨name, hname⟩ := Option.isSome_iff_exists.1 hname
  have hne : path ≠ "" := by
    rintro rfl
    cases hname
  have htext := checkText_of_append hne hnames.text
  by_cases hvoid : FilePath.isVoid last
  · -- The location is that of the directory which holds the other file.
    have hresolve : fs.resolve path = .ok directory := by
      rw [resolve_eq_ok_iff, hpath, walk_append, bind_eq_ok_iff]
      exact ⟨htext, directory, hwalk, (walk_void hvoid).2 ⟨hnames.directory, rfl⟩⟩
    exact Or.inr ((look_of_resolve hresolve).trans hnames.directory)
  · have hshort : last.utf8ByteSize ≤ nameLimit := by
      have := hnames.short
      rw [String.utf8ByteSize_append] at this
      omega
    have hnames' : fs.Names path above last directory :=
      ⟨htext, by rw [hpath], hvoid, FilePath.ne_above_of_fileName? hname hpath, hshort,
        by rw [hpath]; exact hwalk, hnames.directory⟩
    by_cases hat : fs.at? (directory ++ [last]) = some .directory
    · exact Or.inr ((look_of_resolve hnames'.resolve).trans hat)
    · exact Or.inl ⟨_, replacedPlace_eq_ok_iff.2 ⟨_, _, _, hnames', rfl, hat⟩⟩

/-- **A suffix leads elsewhere.** Writing at the one location therefore leaves what the other
shows. -/
theorem ne_of_resolve_append {suffix : String} (hsuffix : separator ∉ suffix.toList)
    (hne : suffix ≠ "") (hplace : fs.replacedPlace path = .ok place)
    (hresult : fs.resolve (path ++ suffix) = .ok result) : result ≠ place := by
  obtain ⟨above', name, directory, hnames, rfl, -⟩ := replacedPlace_eq_ok_iff.1 hplace
  -- The suffix lengthens the last part and leaves those above, so both walks come to the same
  -- directory and differ in the last step.
  obtain ⟨rooted, above, last, hpath, happend⟩ := FilePath.pieces_append path hsuffix
  have hpieces := hnames.pieces
  have hwalk := hnames.walk
  rw [hpath] at hpieces hwalk
  obtain ⟨rfl, hlast⟩ := List.append_inj' hpieces rfl
  obtain rfl := (List.cons.inj hlast).1
  rw [resolve_eq_ok_iff, happend, walk_append] at hresult
  obtain ⟨-, hresult⟩ := hresult
  obtain ⟨directory', hwalk', hresult⟩ := bind_eq_ok_iff.1 hresult
  obtain rfl := Except.ok.inj (hwalk.symm.trans hwalk')
  obtain ⟨-, hresult⟩ := walk_cons_eq_ok_iff.1 hresult
  split_ifs at hresult
  · obtain rfl := pure_eq_ok_iff.1 hresult
    exact fun h => by simpa using congrArg List.length h
  · obtain rfl := pure_eq_ok_iff.1 hresult
    exact fun h => by simpa using congrArg List.length h
  · obtain rfl := pure_eq_ok_iff.1 hresult
    intro h
    have hlast := congrArg String.length (List.cons.inj (List.append_cancel_left h)).1
    rw [String.length_append] at hlast
    exact hne (String.length_eq_zero_iff.1 (by omega))

end Meshwork.FileSystem
