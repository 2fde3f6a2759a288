import Meshwork.Command.Report

/-!
# Commands on pipelines

Running and checking a pipeline file, and importing a mesh, which is a
pipeline of two steps. The store of a run is written even if the run failed,
since what its steps have done remains.
-/

namespace Meshwork.Task

/-- Writes a container file. -/
def saveStore (s : Store) (path : String) (json : Bool) : Task Unit := do
  let path ← locate path
  let contents := bytesOf (Container.encode (← surroundings).now s)
  withFiles (.write path) (FileSystem.writeAtomic path contents)
  if !json then mention s!"Wrote {path}"

/-- **Runs a pipeline file.** -/
def runPipeline (path : String) (policy input output : Option String) (json : Bool) :
    Task Unit := do
  let pipeline ← loadPipeline path policy
  let store ← loadStore input
  let quiet ← isQuiet
  let (report, store) ← perform (!quiet && !json) (pipeline.run store)
  if json then printJson report.json else printAll (report.lines pipeline.name quiet)
  if let some output := output then saveStore store output json
  if report.phase = .failed then throw (.runFailed pipeline.name report.findings)
  if report.findings.hasErrors then throw (.runWithErrors pipeline.name report.findings)

/-- **Checks a pipeline file.** -/
def checkPipeline (path : String) (input : Option String) (json : Bool) : Task Unit := do
  let pipeline ← loadPipeline path none
  let store ← loadStore input
  let report := pipeline.preflight (← files) store
  if json then printJson report.json
  else printAll (report.lines pipeline.name (← isQuiet))
  if !report.isValid then throw (.preflightFailed report.findings)

/-- The pipeline that imports a mesh into a container. -/
def importPipeline (input output geometryPath : String) (scale : Option Double)
    (writeAuxiliary : Bool) : Pipeline :=
  let scaling : List (String × ParameterValue) := match scale with
    | none => []
    | some factor => [("scale_factor", .float factor), ("apply_scale", .bool true)]
  let importing : Arguments := Keyed.ofList
    ([("file_path", .filePath input), ("geometry_path", .text geometryPath)] ++ scaling)
  let exporting : Arguments := Keyed.ofList
    [("destination", .filePath output), ("write_auxiliary", .bool writeAuxiliary)]
  .ofSteps "import" .standard
    [⟨Filter.importGeometry, importing, true, none⟩, ⟨Filter.exportStore, exporting, true, none⟩]

/-- What is said after an import. -/
def importSummary (s : Store) (output geometryPath : String) : String :=
  let geometry? : Option Geometry := do
    let path ← (DataPath.parse geometryPath).toOption
    match ← s.get? path with
    | .geometry g => some g
    | _ => none
  match geometry? with
  | some g => s!"Wrote {output} ({g.vertexCount} vertices, {g.faceCount} faces)"
  | none => s!"Wrote {output}"

/-- **Imports a mesh file into a container.** -/
def importMesh (input output geometryPath : String) (scale : Option Double)
    (withoutAuxiliary json : Bool) : Task Unit := do
  let configuration ← configuration
  let input ← locate input
  let output ← locate output
  let writeAuxiliary := !withoutAuxiliary && configuration.writeAuxiliary
  let pipeline := importPipeline input output geometryPath scale writeAuxiliary
  let (report, store) ← perform false (pipeline.run .empty)
  if json then printJson report.findings.json
  else printAll (report.findings.lines "" (← isQuiet))
  if report.findings.hasErrors then throw (.importFailed report.findings)
  if !json then mention (importSummary store output geometryPath)

end Meshwork.Task
