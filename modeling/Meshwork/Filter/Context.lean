import Meshwork.FileSystem.Basic
import Meshwork.Timestamp

/-!
# Runs

A filter that is executed works on the files, tells about its progress, and
may ask whether it should stop. A `Run` is a computation that does these
three things.

Whether a run is to stop is decided outside of it, at moments that the run
does not choose. The `RunContext` therefore answers for every moment, told
apart by how much has been reported and how often the question was asked;
once it was answered with yes, the answer stays.

Reports and questions leave a trace in the state, which is how moments are counted. The
files are part of the state as well, so a computation that fails leaves what it has
written.
-/

namespace Meshwork

/-- **A report of progress.** Reports are made for whoever watches, and no computation depends on
what they say. -/
structure Report where
  /-- The filter that makes it. -/
  filter : String
  /-- Its text. -/
  message : String
deriving DecidableEq, Repr

/-- A moment of a run. -/
structure Moment where
  /-- The number of reports so far. -/
  reports : Nat
  /-- How often the run asked whether it should stop, this time included. -/
  polls : Nat
deriving DecidableEq, Repr

/-- **What a run is given.** Neither is under the control of the filters. -/
structure RunContext where
  /-- The time. -/
  now : Timestamp
  /-- Whether the run is asked to stop at a moment. -/
  stops : Moment → Bool

/-- **What a run works on.** Once told to stop, a run stays told. -/
structure RunState where
  /-- The files. -/
  files : FileSystem
  /-- The reports, in order. -/
  reports : List Report
  /-- How often the run asked whether it should stop. -/
  polls : Nat
  /-- Whether it was told to. -/
  stopped : Bool

/-- The state before anything happened. -/
def RunState.start (files : FileSystem) : RunState := ⟨files, [], 0, false⟩

/-- **A computation within a run.** It reads the one and may change the other. -/
abbrev Run (α : Type) := RunContext → RunState → α × RunState

namespace Run

variable {α β : Type}

/-- A value, with nothing done. -/
def pure (value : α) : Run α := fun _ state => (value, state)

/-- One computation after another. -/
def bind (first : Run α) (next : α → Run β) : Run β := fun context state =>
  let (value, state) := first context state
  next value context state

instance : Monad Run where
  pure := pure
  bind := bind

/-- Tells about progress. -/
def report (filter message : String) : Run Unit := fun _ state =>
  ((), { state with reports := state.reports ++ [⟨filter, message⟩] })

/-- **Asks whether to stop.** The answer may depend on what was reported so far and on how often
it was asked. -/
def isStopped : Run Bool := fun context state =>
  let polls := state.polls + 1
  let stopped := state.stopped || context.stops ⟨state.reports.length, polls⟩
  (stopped, { state with polls, stopped })

/-- The files as they are. -/
def files : Run FileSystem := fun _ state => (state.files, state)

/-- Works on the files. -/
def withFiles (work : FileSystem → α × FileSystem) : Run α := fun _ state =>
  let (value, files) := work state.files
  (value, { state with files })

/-- The time. -/
def now : Run Timestamp := fun context state => (context.now, state)

end Run

end Meshwork
