import Meshwork.Edit.Basic

/-!
# Checking edits in advance

Edits that are announced can be checked against a store without a copy of
it. An `Outlook` is the store together with the paths that earlier edits
will have made or taken out: a path counts as there if the store has it and
no earlier edit removes it, or if an earlier edit makes it.

The check is quick and not complete: what an earlier edit makes is known by
its path alone. It may pass edits that are refused later, and where earlier
edits bring in whole trees, replace or take out objects, it may also refuse
edits that would succeed.
-/

namespace Meshwork

/-- **What is to be expected of a store** after some edits. It is an approximation: no edit is
made, and only paths are remembered. -/
structure Outlook where
  /-- The store before the edits. -/
  store : Store
  /-- The paths that edits make, and have not removed since. -/
  made : List DataPath
  /-- The paths that edits remove. -/
  removed : List DataPath

namespace Outlook

/-! ## What is expected of paths

A path counts as made also if it lies on the way to one that an edit makes: groups are
created along the way, and a tree that is brought in needs something above it. -/

/-- Whether an earlier edit makes the path. -/
def isMade (o : Outlook) (path : DataPath) : Bool := o.made.any (·.startsWith path)

/-- Whether the store has the path and no earlier edit removes it. -/
def remains (o : Outlook) (path : DataPath) : Bool :=
  o.store.contains path && !o.removed.any fun top => path.startsWith top

/-! ## Faults

An edit is judged by the outlook before it. The first thing that speaks against it is
told; the edits behind it are judged as if it had been made. -/

/-- What prevents groups along a path: the first object on the way that can
hold nothing. -/
def blocker? (o : Outlook) (path : DataPath) : Option StoreError :=
  path.prefixes.findSome? fun above =>
    if o.remains above then
      (o.store.get? above).bind fun object =>
        if object.isContainer then none else some (.notAContainer above object.kind)
    else none

/-- The path above that will be missing. -/
def missingParent? (o : Outlook) (path : DataPath) : Option DataPath :=
  path.parent?.filter fun above => !o.remains above && !o.isMade above

/-- What speaks against bringing an object to a path. -/
def insertFault? (o : Outlook) (path : DataPath) (object : DataObject) (overwrite : Bool) :
    Option StoreError :=
  match o.missingParent? path with
  | some above => some (.parentNotFound above)
  | none =>
    match o.store.checkCreate path object overwrite with
    | .ok () => none
    | .error (.parentNotFound _) => none
    | .error (.duplicatePath taken) =>
      if o.remains path then some (.duplicatePath taken) else none
    | .error refusal => some refusal

/-- What speaks against an edit. -/
def fault? (o : Outlook) : Edit → Option StoreError
  | .groups path => o.blocker? path
  | .insert path subtree overwrite => o.insertFault? path subtree.label overwrite
  | .remove path => if o.remains path || o.isMade path then none else some (.notFound path)

/-- What is to be expected after one more edit. -/
def after (o : Outlook) : Edit → Outlook
  | .groups path => { o with made := path :: o.made }
  | .insert path _ _ => { o with made := path :: o.made }
  | .remove path =>
    { o with
      made := o.made.filter fun p => !p.startsWith path
      removed := path :: o.removed }

/-- The errors of edits, in order. -/
def faults : Outlook → List Edit → List StoreError
  | _, [] => []
  | o, edit :: rest => (o.fault? edit).toList ++ faults (o.after edit) rest

end Outlook

/-- **Checks edits against a store** that stays as it is. -/
def checkEdits (s : Store) (edits : List Edit) : Findings :=
  ⟨(Outlook.faults ⟨s, [], []⟩ edits).map fun e => ⟨e.code, e.message, none⟩, []⟩

end Meshwork
