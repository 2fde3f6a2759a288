import Meshwork.Proofs.Edit.Commit
import Meshwork.Proofs.Store.Handles

/-!
# Handles through commits

A commit makes edits one after another, and if one is refused, it undoes those before it.
Undoing brings objects back, but not their identifiers: what an edit took out comes back
under new ones. So also here an identifier stands for what it stood for, or for nothing.

The moments of a run of operations and commits are the stores between its moves: an
operation, an edit that is made, or a step that undoes one. One move leads to a store that
follows the one before (`Move.follows_run`), hence so do all moves of a run
(`Move.follows_runAll`). `handles_stable` says what this means for an identifier, and which
paths an operation or a commit may strike.
-/

namespace Meshwork

/-! ## Edits

A strike is what may separate an identifier from its object: the path of the object, or
one above it, is removed or replaced. Creating strikes nothing. -/

namespace Edit

/-- The paths that an edit strikes, if it is not refused. -/
def struck : Edit → List DataPath
  | groups _ => []
  | insert path _ overwrite => if overwrite then [path] else []
  | remove path => [path]

theorem strikes_change (edit : Edit) : edit.change.Strikes edit.struck := by
  cases edit with
  | groups path => exact (Store.strikes_createGroups path).discard
  | insert path subtree overwrite => exact (Store.strikes_attach path subtree overwrite).discard
  | remove path => exact (Store.strikes_detach path).discard

/-- **An edit** strikes the path that it removes or may overwrite. Creating groups strikes
nothing, since only free paths get one. -/
theorem strikes_make (edit : Edit) : edit.make.Strikes edit.struck := by
  intro s hs
  have hchange := edit.strikes_change s hs
  rcases edit.make_cases hs with ⟨cause, hmake, happly⟩ | ⟨undo, s', hmake, happly, -⟩
  · rw [hmake]
    exact ⟨hs, .refl _ s⟩
  · rw [happly] at hchange
    rwa [hmake]

/-- An edit that is refused leaves the store that it was made on. -/
theorem make_error {edit : Edit} {s : Store} (hs : s.Sound) {cause : StoreError} {t : Store}
    (h : edit.make.apply s = (.error cause, t)) : t = s := by
  rcases edit.make_cases hs with ⟨other, hmake, -⟩ | ⟨undo, s', hmake, -⟩
  · exact (Prod.mk.inj (h.symm.trans hmake)).2
  · cases h.symm.trans hmake

end Edit

namespace Undo

/-- The path that was created, replaced or removed. -/
def path : Undo → DataPath
  | created path | replaced path _ | removed path _ => path

/-- **A step that undoes an edit** strikes its path. It takes out what the edit brought in, or
puts the old object back in its place. -/
theorem strikes_change (undo : Undo) : undo.change.Strikes [undo.path] := by
  have hback : ∀ path previous struck, (discard (Store.attach path previous false)).Strikes struck :=
    fun path previous struck s hs =>
      have h := (Store.strikes_attach path previous false).discard s hs
      ⟨h.1, h.2.mono (List.nil_subset struck)⟩
  cases undo with
  | created path => exact (Store.strikes_remove path).discard
  | replaced path previous =>
    exact (Store.strikes_detach path).discard.bind fun _ => hback path previous _
  | removed path previous => exact hback path previous _

end Undo

/-- **What undoes an edit has the paths that the edit strikes.** So undoing an edit strikes
nothing that making it would not have struck, as far as removed and replaced objects are
concerned. -/
theorem Edit.struck_subset {edit : Edit} {s s' : Store} {undo : List Undo}
    (h : edit.make.apply s = (.ok undo, s')) : edit.struck ⊆ undo.map Undo.path := by
  cases edit with
  | groups path => exact List.nil_subset _
  | insert path subtree overwrite =>
    simp only [make, Change.apply_bind, Change.apply_get, Change.apply_discard] at h
    generalize (Store.attach path subtree overwrite).apply s = result at h
    obtain ⟨_ | id, t⟩ := result
    · cases h
    -- Whether something was replaced or not, the one step that undoes the edit has its path.
    have hundo : undo.map Undo.path = [path] := by
      dsimp only [Except.map] at h
      split at h <;> obtain ⟨hundo, -⟩ := Prod.mk.inj h <;> obtain rfl := Except.ok.inj hundo <;> rfl
    rw [hundo, struck]
    split
    · exact List.Subset.refl _
    · exact List.nil_subset _
  | remove path =>
    rw [make, Change.apply_bind] at h
    generalize (Store.detach path).apply s = result at h
    obtain ⟨_ | previous, t⟩ := result
    · cases h
    · obtain ⟨hundo, -⟩ := Prod.mk.inj h
      obtain rfl := Except.ok.inj hundo
      exact List.Subset.refl _

/-! ## Moves

A commit that fails has made some edits and undone them, which takes more moves than a
commit that succeeds. They are all on record here, so that a statement about moments
covers those in the middle of a rollback. -/

/-- **A move in a run**: an operation, or a step of a commit. Each of them is a single change of
the store, with a store before it and a store after it. -/
inductive Move where
  /-- An operation. -/
  | operation (operation : Operation)
  /-- An edit that a commit makes. -/
  | edit (edit : Edit)
  /-- A step by which a commit undoes an edit. -/
  | undo (undo : Undo)

namespace Move

/-- The store after a move. -/
def run : Move → Store → Store
  | operation o, s => o.run s
  | edit e, s => (e.make.apply s).2
  | undo u, s => u.run s

/-- The paths that a move strikes. -/
def struck : Move → List DataPath
  | operation o => o.struck
  | edit e => e.struck
  | undo u => [u.path]

/-- The store after moves one after another. -/
def runAll (moves : List Move) (s : Store) : Store := moves.foldl (fun s move => move.run s) s

theorem runAll_append (moves later : List Move) (s : Store) :
    runAll (moves ++ later) s = runAll later (runAll moves s) := List.foldl_append

/-- **One move** leads to a store that follows. It is the step from which everything about runs is
derived. -/
theorem follows_run (move : Move) {s : Store} (hs : s.Sound) :
    (move.run s).Sound ∧ s.Follows move.struck (move.run s) := by
  cases move with
  | operation o => exact ⟨o.sound_run hs, o.follows_run hs⟩
  | edit e => exact e.strikes_make s hs
  | undo u => exact u.strikes_change s hs

/-- **All moves** lead to a store that follows. The paths that are struck along the way only have
to be among those given. -/
theorem follows_runAll {moves : List Move} {struck : List DataPath}
    (hstruck : ∀ move ∈ moves, move.struck ⊆ struck) {s : Store} (hs : s.Sound) :
    (runAll moves s).Sound ∧ s.Follows struck (runAll moves s) := by
  induction moves generalizing s with
  | nil => exact ⟨hs, .refl struck s⟩
  | cons move rest ih =>
    obtain ⟨hs', hfollows⟩ := move.follows_run hs
    obtain ⟨ht, hfollows'⟩ := ih (fun other h => hstruck other (List.mem_cons_of_mem _ h)) hs'
    exact ⟨ht, (hfollows.mono (hstruck move List.mem_cons_self)).trans hfollows'⟩

/-- Whatever the moves strike, the store after them follows. -/
theorem exists_follows_runAll (moves : List Move) {s : Store} (hs : s.Sound) :
    (runAll moves s).Sound ∧ ∃ struck, s.Follows struck (runAll moves s) := by
  have hstruck : ∀ move ∈ moves, move.struck ⊆ moves.flatMap struck :=
    fun move hmove path hpath => List.mem_flatMap_of_mem hmove hpath
  have h := follows_runAll hstruck hs
  exact ⟨h.1, _, h.2⟩

end Move

/-! ## Acts

Callers see acts, not moves. The paths that an act may strike are told by what was asked
for, and the moves of the act strike no others. -/

/-- **What is done to a store from outside**: an operation, or a commit. In contrast to a move, an
act may consist of many changes, and be seen from outside only when it is over. -/
inductive Act where
  /-- An operation. -/
  | operation (operation : Operation)
  /-- A commit. -/
  | commit (edits : List Edit)

/-- The edits before the first that is refused. -/
def Edit.accepted : Store → List Edit → List Edit
  | _, [] => []
  | s, edit :: rest =>
    match edit.make.apply s with
    | (.ok _, s') => edit :: accepted s' rest
    | (.error _, _) => []

namespace Act

/-- The store after an act, successful or not. -/
def run : Act → Store → Store
  | operation o, s => o.run s
  | commit edits, s => (Meshwork.commit edits s).2

/-- The store after acts one after another. -/
def runAll (acts : List Act) (s : Store) : Store := acts.foldl (fun s act => act.run s) s

/-- **The moves of an act.** A commit makes edits up to the first that is refused; if there is
one, it undoes what its log has. -/
def moves (s : Store) : Act → List Move
  | operation o => [.operation o]
  | commit edits =>
    let made := attempt 0 [] s edits
    (Edit.accepted s edits).map Move.edit ++ match made.refusal with
      | none => []
      | some _ => made.log.map Move.undo

/-- **The paths that an act may strike.** An operation and a commit that succeeds strike what
they remove or overwrite, a commit that fails what the undone edits removed, overwrote or
created. -/
def struck (s : Store) : Act → List DataPath
  | operation o => o.struck
  | commit edits =>
    let made := attempt 0 [] s edits
    match made.refusal with
    | none => edits.flatMap Edit.struck
    | some _ => made.log.map Undo.path

/-- The moves of acts one after another. -/
def history : Store → List Act → List Move
  | _, [] => []
  | s, act :: rest => act.moves s ++ history (act.run s) rest

end Act

/-- **An attempt** makes the edits before the first that is refused, and logs what they strike.
The position and the log that it starts with play no part in where it leads. -/
theorem attempt_accepted (index : Nat) (log : List Undo) (edits : List Edit) {s : Store}
    (hs : s.Sound) :
    let made := attempt index log s edits
    Move.runAll ((Edit.accepted s edits).map .edit) s = made.store
      ∧ (made.refusal = none → Edit.accepted s edits = edits)
      ∧ log ⊆ made.log
      ∧ ∀ edit ∈ Edit.accepted s edits, edit.struck ⊆ made.log.map Undo.path := by
  induction edits generalizing index log s with
  | nil => exact ⟨rfl, fun _ => rfl, List.Subset.refl _, List.forall_mem_nil _⟩
  | cons edit rest ih =>
    -- By induction on the edits; the log of those before is kept at its end, which is why it is
    -- arbitrary.
    rw [attempt, Edit.accepted]
    have hs' := (edit.strikes_make s hs).1
    cases hmake : edit.make.apply s with
    | mk answer s' =>
      cases answer with
      | error cause =>
        exact ⟨(Edit.make_error hs hmake).symm, fun hrefusal => absurd hrefusal (Option.some_ne_none _),
          List.Subset.refl _, List.forall_mem_nil _⟩
      | ok undo =>
        rw [hmake] at hs'
        obtain ⟨hstore, hall, hlog, hstruck⟩ := ih (index + 1) (undo.reverse ++ log) hs'
        have hundo : undo ⊆ (attempt (index + 1) (undo.reverse ++ log) s' rest).log := fun u hu =>
          hlog (List.mem_append_left _ (List.mem_reverse.2 hu))
        refine ⟨?_, fun hrefusal => congrArg (edit :: ·) (hall hrefusal),
          fun u hu => hlog (List.mem_append_right _ hu), fun other hother => ?_⟩
        · show Move.runAll ((Edit.accepted s' rest).map .edit) ((Move.edit edit).run s) = _
          rw [Move.run, hmake]
          exact hstore
        · rcases List.mem_cons.1 hother with rfl | hother
          · exact List.Subset.trans (Edit.struck_subset hmake) (List.map_subset _ hundo)
          · exact hstruck other hother

namespace Act

variable {s : Store}

/-- **The moves of an act lead where the act leads.** So looking at the moves of an act adds
moments in the middle and changes nothing at the end. -/
theorem runAll_moves (act : Act) (hs : s.Sound) : Move.runAll (act.moves s) s = act.run s := by
  cases act with
  | operation o => rfl
  | commit edits =>
    obtain ⟨hstore, -⟩ := attempt_accepted 0 [] edits hs
    rw [moves, run, Meshwork.commit]
    simp only [Move.runAll_append, hstore]
    cases (attempt 0 [] s edits).refusal with
    | none => rfl
    | some e =>
      show Move.runAll (_ : List Move) _ = Undo.runAll _ _
      rw [Move.runAll, List.foldl_map]
      rfl

/-- The moves of an act strike only what the act may strike. -/
theorem struck_subset (act : Act) (hs : s.Sound) :
    ∀ move ∈ act.moves s, move.struck ⊆ act.struck s := by
  cases act with
  | operation o =>
    intro move hmove
    obtain rfl := List.mem_singleton.1 hmove
    exact List.Subset.refl _
  | commit edits =>
    -- If no edit is refused, the moves are the edits. Otherwise they are the edits before the
    -- refusal and then the steps that undo them, whose paths are in the log.
    obtain ⟨-, hall, -, hstruck⟩ := attempt_accepted 0 [] edits hs
    rw [moves, struck]
    cases hrefusal : (attempt 0 [] s edits).refusal with
    | none =>
      simp only [hall hrefusal, List.append_nil]
      intro move hmove
      obtain ⟨edit, hedit, rfl⟩ := List.mem_map.1 hmove
      exact fun path hpath => List.mem_flatMap_of_mem hedit hpath
    | some e =>
      intro move hmove
      rcases List.mem_append.1 hmove with hmove | hmove
      · obtain ⟨edit, hedit, rfl⟩ := List.mem_map.1 hmove
        exact hstruck edit hedit
      · obtain ⟨undo, hundo, rfl⟩ := List.mem_map.1 hmove
        exact List.cons_subset.2 ⟨List.mem_map_of_mem hundo, List.nil_subset _⟩

theorem sound_run (act : Act) (hs : s.Sound) : (act.run s).Sound := by
  rw [← act.runAll_moves hs]
  exact (Move.exists_follows_runAll _ hs).1

theorem sound_runAll (acts : List Act) (hs : s.Sound) : (runAll acts s).Sound := by
  induction acts generalizing s with
  | nil => exact hs
  | cons act rest ih => exact ih (act.sound_run hs)

/-- **The history of acts** begins with that of the acts before any of them. Later acts add moves
at the end, and the store after the first acts is one of the stores on the way. -/
theorem exists_history_append (acts later : List Act) (hs : s.Sound) :
    ∃ rest, history s (acts ++ later) = history s acts ++ rest
      ∧ Move.runAll (history s acts) s = runAll acts s := by
  induction acts generalizing s with
  | nil => exact ⟨history s later, rfl, rfl⟩
  | cons act acts ih =>
    obtain ⟨rest, hhistory, hrun⟩ := ih (act.sound_run hs)
    refine ⟨rest, ?_, ?_⟩
    · rw [List.cons_append, history, history, hhistory, List.append_assoc]
    · rw [history, Move.runAll_append, act.runAll_moves hs, hrun]
      rfl

end Act

/-- **Identifiers stay with their objects** over any acts, be they operations or commits,
successful or not. The moves that acts make are a history in which each act only adds at the end.
Between any two moments of the history, an identifier denotes the same object at the same path, or
it is dead; a dead one is never given again. And if an act kills an identifier, what lay at its
path was struck by the act: replaced or taken out by an edit, or taken out to undo one. -/
theorem handles_stable (acts : List Act) :
    let history := Act.history .empty acts
    (∀ earlier later, acts = earlier ++ later →
        ∃ rest, history = Act.history .empty earlier ++ rest
          ∧ Move.runAll (Act.history .empty earlier) .empty = Act.runAll earlier .empty)
      ∧ (∀ first second third rest, history = first ++ second ++ third ++ rest →
          let r := Move.runAll first .empty
          let s := Move.runAll second r
          let t := Move.runAll third s
          ∀ path id, r.idOf? path = some id → ∃ object, r.Denotes id path object
            ∧ (s.Denotes id path object ∨ s.Dead id) ∧ (s.Dead id → t.Dead id))
      ∧ ∀ earlier act later, acts = earlier ++ act :: later →
          let s := Act.runAll earlier .empty
          ∀ before after, act.moves s = before ++ after →
            ∀ path id, (Move.runAll before s).idOf? path = some id → (act.run s).Dead id →
              ∃ top ∈ act.struck s, (top.relative? path).isSome := by
  refine ⟨fun earlier later h => h ▸ Act.exists_history_append earlier later Store.sound_empty,
    fun first second third rest _ path id hid => ?_,
    fun earlier act later _ before after hmoves path id hid hdead => ?_⟩
  -- Three moments of the history: the identifier is found at the first, it denotes the same object
  -- at the second or is dead there, and what is dead remains so until the third.
  · obtain ⟨hr, -⟩ := Move.exists_follows_runAll first Store.sound_empty
    obtain ⟨hs, struck, hrs⟩ := Move.exists_follows_runAll second hr
    obtain ⟨ht, struck', hst⟩ := Move.exists_follows_runAll third hs
    obtain ⟨object, hdenotes⟩ := hr.exists_denotes hid
    have hgiven := Nat.lt_of_lt_of_le (hr.lt_nextId hid) hrs.nextId_le
    exact ⟨object, hdenotes, (hrs.denotes_or_dead hr hs hdenotes).imp_right And.left,
      hst.dead ht hgiven⟩
  -- The moves of the act from this moment on strike only what the act may strike, so an identifier
  -- whose object was not struck still denotes it.
  · have hs := Act.sound_runAll earlier Store.sound_empty
    have hstruck := act.struck_subset hs
    have hrun := act.runAll_moves hs
    rw [hmoves, Move.runAll_append] at hrun
    obtain ⟨hm, -⟩ := Move.exists_follows_runAll before hs
    obtain ⟨ht, hfollows⟩ := Move.follows_runAll (fun move hmove =>
      hstruck move (hmoves ▸ List.mem_append_right before hmove)) hm
    rw [hrun] at ht hfollows
    obtain ⟨object, hdenotes⟩ := hm.exists_denotes hid
    rcases hfollows.denotes_or_dead hm ht hdenotes with hkept | ⟨-, hbeneath⟩
    · exact absurd hdead hkept.not_dead
    · exact hbeneath

end Meshwork
