import Meshwork.Command.Report

/-!
# Commands that show something

The contents of a container file, and the filters that are available with
their parameters.
-/

namespace Meshwork

/-- What an object is, in a few words. -/
def DataObject.description : DataObject → String
  | .group => "data group"
  | .array a => s!"data array {a.type.name} [{a.tupleCount} x {a.components}]"
  | .attributeMatrix m => s!"attribute matrix ({m.tupleCount} tuples)"
  | .geometry g => s!"triangle geometry ({g.vertexCount} vertices, {g.faceCount} faces)"

namespace Task

/-! ## Containers -/

/-- The objects of a store in JSON. -/
def objectsJson (s : Store) : Json.Value :=
  .array (s.contents.map fun (path, object) =>
    .object [("description", .string object.description), ("path", .string path.text)])

/-- A container in JSON. -/
def containerJson (path : String) (h : Container.Header) (s : Option Store) : Json.Value :=
  .object ([("checksum", .string h.checksum), ("created_at", .string (h.createdAt.text "+00:00")),
    ("file", .string path), ("object_count", .nat h.objectCount)]
    ++ (s.map fun s => ("objects", objectsJson s)).toList
    ++ [("version", .nat h.version.toNat)])

/-- What a container says about itself, as lines. -/
def headerLines (path : String) (h : Container.Header) : List String :=
  let created := h.createdAt.text "+00:00"
  [path, s!"  version:  {h.version.toNat}", s!"  created:  {created}",
    s!"  checksum: {h.checksum}", s!"  objects:  {h.objectCount}"]

/-- The objects of a store as lines, indented by their depth. -/
def treeLines (s : Store) : List String :=
  s.contents.map fun (path, object) =>
    let indent := String.ofList (List.replicate (2 * (path.depth - 1)) ' ')
    s!"{indent}{path.name}  {object.description}"

/-- **Shows what a container file holds.** -/
def inspect (file : String) (headerOnly json : Bool) : Task Unit := do
  let path ← locate file
  let bytes ← readFile path
  let header ← ofExcept (.decode path) (Container.readHeader bytes)
  let store ← if headerOnly then pure none
    else some <$> ofExcept (.decode path) (Container.decode bytes)
  if json then printJson (containerJson path header store)
  else
    printAll (headerLines path header)
    if let some store := store then
      mention ""
      printAll (treeLines store)

/-! ## Filters

Each filter is shown with what it is called and what it takes, for people or for programs. -/

/-- What a filter is called, as a line. -/
def infoLine (quiet : Bool) (info : FilterInfo) : String :=
  if quiet then info.name
  else
    let name := padRight 28 info.name
    let title := padRight 32 info.title
    s!"{name} {title} {info.uuid.text}"

/-- A parameter in JSON. -/
def parameterJson (p : Parameter) : Json.Value :=
  .object [("constraint", .option (p.constraint.map Constraint.text)),
    ("default", (p.default?.map ParameterValue.json).getD .null),
    ("help", .string p.help), ("human_name", .string p.title), ("key", .string p.key),
    ("kind", .string p.kind.tag), ("required", .bool p.default?.isNone)]

/-- A filter in JSON. -/
def filterJson (f : Filter) : Json.Value :=
  .object [("filter", .object [("human_name", .string f.info.title), ("name", .string f.name),
      ("tags", .array (f.info.tags.map .string)), ("uuid", .string f.info.uuid.text),
      ("version", .nat f.info.version)]),
    ("parameters", .array (f.parameters.map parameterJson))]

/-- A parameter as lines. -/
def parameterLines (p : Parameter) : List String :=
  let usual := match p.default? with
    | some value => "default " ++ value.shown
    | none => "required"
  let constraint := match p.constraint with
    | some c => ", " ++ c.text
    | none => ""
  let key := padRight 26 p.key
  let margin := padRight 26 ""
  s!"  {key} {p.kind.name} ({usual}{constraint})"
    :: if p.help = "" then [] else [s!"  {margin} {p.help}"]

/-- A filter as lines. -/
def filterLines (f : Filter) : List String :=
  let tags := ", ".intercalate f.info.tags
  [s!"{f.info.title} ({f.name})", s!"  uuid:    {f.info.uuid.text}",
    s!"  version: {f.info.version}", s!"  tags:    {tags}", "", "Parameters:"]
    ++ f.parameters.flatMap parameterLines

/-- Lists the filters. -/
def listFilters (json : Bool) : Task Unit := do
  let infos := Registry.builtin.infos
  if json then printJson (.array (infos.map FilterInfo.json))
  else printAll (infos.map (infoLine (← isQuiet)))

/-- **Shows the filters**, or the one that a text stands for. -/
def showFilters (filter : Option String) (json : Bool) : Task Unit :=
  match filter with
  | none => listFilters json
  | some id =>
    match Registry.builtin.resolve? id with
    | none => throw (.unknownFilter id)
    | some f => if json then printJson (filterJson f) else printAll (filterLines f)

end Task

end Meshwork
