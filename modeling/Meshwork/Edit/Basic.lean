import Meshwork.Diagnostic
import Meshwork.Store.Change

/-!
# Edits of a store

A filter does not change the store: it says which edits are to be made, and
they are made together once all of its work has succeeded. Committing a list
of edits therefore keeps a log of what undoes each of them, and when one is
refused, the log is run backwards.

`rehearse` makes the edits one after another on a copy and goes on after
refusals, each of which becomes a diagnostic. It shows what a list of edits
would run into.
-/

namespace Meshwork

/-- **An edit of a store.** Filters do not change a store themselves but say which edits are to be
made. -/
inductive Edit where
  /-- Create every missing group along a path. -/
  | groups (path : DataPath)
  /-- Bring an object with all beneath it to a path. -/
  | insert (path : DataPath) (subtree : Subtree) (overwrite : Bool)
  /-- Take out the object at a path with all beneath it. -/
  | remove (path : DataPath)

/-- The path that an edit is about. -/
def Edit.path : Edit → DataPath
  | groups path => path
  | insert path _ _ => path
  | remove path => path

/-- The code of a refusal. -/
def StoreError.code : StoreError → DiagnosticCode
  | duplicatePath _ => .duplicatePath
  | notFound _ | parentNotFound _ => .pathNotFound
  | notAContainer .. => .typeMismatch
  | invalidChild .. => .invalidPlacement
  | tupleCountMismatch .. => .tupleCountMismatch

/-- A refusal as an error. -/
def StoreError.finding (e : StoreError) : Findings := .ofError e.code e.message

/-! ## Making and undoing one edit

What undoes an edit is known when the edit has been made, for it needs the subtree that
was taken out. Steps of undoing are changes of the same kind as edits, and could be
refused like these; that they never are is a matter of proof. -/

/-- **What undoes an edit.** It holds what was lost, as a copy that does not depend on the store. -/
inductive Undo where
  /-- Take out what was created. -/
  | created (path : DataPath)
  /-- Put back what was replaced. -/
  | replaced (path : DataPath) (previous : Subtree)
  /-- Put back what was taken out. -/
  | removed (path : DataPath) (previous : Subtree)

/-- The change that undoes an edit. -/
def Undo.change : Undo → Change Unit
  | created path => discard (Store.remove path)
  | replaced path previous => do
    discard (Store.detach path)
    discard (Store.attach path previous false)
  | removed path previous => discard (Store.attach path previous false)

/-- Undoes an edit. A step that is refused is passed over. -/
def Undo.run (undo : Undo) (s : Store) : Store := (undo.change.apply s).2

/-- Undoes edits in the given order. -/
def Undo.runAll (log : List Undo) (s : Store) : Store := log.foldl (fun s undo => undo.run s) s

/-- Creates missing groups. If a group is refused, those before it are taken
out again. -/
def makeGroups (path : DataPath) : Change (List Undo) := do
  let s ← get
  let missing := path.prefixes.filter fun above => !s.contains above
  tryCatch
    (do
      discard (Store.createGroups path)
      return missing.map Undo.created)
    fun refusal => do
      modify fun s => Undo.runAll (missing.reverse.map Undo.created) s
      throw refusal

/-- **Makes an edit** and gives what undoes it, the first step done first. -/
def Edit.make : Edit → Change (List Undo)
  | groups path => makeGroups path
  | insert path subtree overwrite => do
    let s ← get
    let previous := if overwrite then s.snapshot? path else none
    discard (Store.attach path subtree overwrite)
    match previous with
    | some previous => return [.replaced path previous]
    | none => return [.created path]
  | remove path => do
    let previous ← Store.detach path
    return [.removed path previous]

/-! ## Making edits together

The log is kept with the last edit first, so that running it from its beginning goes back
through the edits. -/

/-- **Why edits were not made.** The positions count the edits that were asked for, beginning with
zero. -/
structure CommitError where
  /-- The position of the edit that was refused. -/
  index : Nat
  /-- Why it was refused. -/
  cause : StoreError
deriving DecidableEq

/-- The text of an error. -/
def CommitError.message (e : CommitError) : String :=
  s!"staged change {e.index} failed: {e.cause.message}"

/-- **Edits made one after another**, up to the first that is refused. If one was refused, the log
is used to take back all the others. -/
structure Attempt where
  /-- What undoes the edits that were made, the last one first. -/
  log : List Undo
  /-- The store that they leave. -/
  store : Store
  /-- Why the next edit was refused, if one was. -/
  refusal : Option CommitError

/-- Makes edits from the one at position `index` on. `log` undoes those before
it, the last one first. -/
def attempt (index : Nat) (log : List Undo) (s : Store) : List Edit → Attempt
  | [] => ⟨log, s, none⟩
  | edit :: rest =>
    match edit.make.apply s with
    | (.ok undo, s) => attempt (index + 1) (undo.reverse ++ log) s rest
    | (.error cause, s) => ⟨log, s, some ⟨index, cause⟩⟩

/-- **Makes all of the edits or none.** The number of edits is the answer. -/
def commit (edits : List Edit) (s : Store) : Except CommitError Nat × Store :=
  let made := attempt 0 [] s edits
  match made.refusal with
  | none => (.ok edits.length, made.store)
  | some e => (.error e, Undo.runAll made.log made.store)

/-- **Makes every edit that is not refused**; each refusal is an error. -/
def rehearse : List Edit → Store → Findings × Store
  | [], s => (.none, s)
  | edit :: rest, s =>
    match edit.make.apply s with
    | (.ok _, s) => rehearse rest s
    | (.error refusal, s) =>
      let (findings, s) := rehearse rest s
      (refusal.finding ++ findings, s)

end Meshwork
