import Meshwork.Command.Inspection
import Meshwork.Command.Pipelines
import Meshwork.Command.Preferences
import Meshwork.CommandLine.Invocation

/-!
# Carrying out commands

From the words of a command line to what is printed, to the files afterwards,
and to the error if there is one.

Everything that a command does is a function of its words and surroundings. What is
outside, such as a disk or a terminal, only hands these in and takes the results.
-/

namespace Meshwork

/-- **What a command does.** -/
def Command.task : Command → Task Unit
  | importMesh input output geometryPath scale withoutAuxiliary json =>
    Task.importMesh input output geometryPath scale withoutAuxiliary json
  | run pipeline policy input output json => Task.runPipeline pipeline policy input output json
  | preflight pipeline input json => Task.checkPipeline pipeline input json
  | inspect file headerOnly json => Task.inspect file headerOnly json
  | filters filter json => Task.showFilters filter json
  | getSetting key => Task.getSetting key
  | setSetting key value project => Task.setSetting key value project
  | listSettings => Task.listSettings
  | completion shell => throw (.noCompletion shell)

/-- **Carries out what a command line asks for.** The console is what the
command leaves, whether it fails or not. -/
def Invocation.carryOut (i : Invocation) (environment : Environment) (now : Timestamp)
    (files : FileSystem) : Except CommandError Unit × Console :=
  (i.command.task.run ⟨environment, now, i.directory, i.quiet⟩).run.run ⟨files, "", ""⟩

end Meshwork
