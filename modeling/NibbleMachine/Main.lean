import NibbleMachine.CommandLine.Assemble
import NibbleMachine.CommandLine.Conventional
import NibbleMachine.CommandLine.Dump

namespace NibbleMachine
namespace CommandLine

/-!
# The program

The first word chooses between assembling and dumping.  The commands themselves
are functions on a workspace; here the workspace is filled with what the paths
on the command line lead to, and afterwards the changes are written out and the
lines printed.
-/

inductive Tool where
  | assemble
  | dump
deriving DecidableEq, Repr

namespace Tool

def ofWord? (word : String) : Option Tool :=
  if word = "asm" then some .assemble
  else if word = "dump" then some .dump
  else none

def parameters : Tool -> List Parameter
  | .assemble => assembleParameters
  | .dump => dumpParameters

/-- The command as a function on workspaces. -/
def run : Tool -> Workspace -> List String -> Outcome
  | .assemble => assembleCommand conventional
  | .dump => dumpCommand conventional

end Tool

/-- The paths that a command line can lead to. -/
def namedPaths (tool : Tool) (words : List String) : List String :=
  match readArguments (switchesOf tool.parameters) words with
  | .error _ => []
  | .ok arguments =>
      let values := arguments.given.filterMap Given.value
      let outputs := values.map fun value => (Path.ofString value).toString
      let defaults := arguments.positional.map fun source => (defaultOutput source).toString
      arguments.positional ++ values ++ outputs ++ defaults

/-- A path cut after each of its components. -/
def pathSteps (path : String) : List String :=
  let components := pathComponents path
  (List.range components.length).map fun count =>
    String.intercalate "/" (components.take (count + 1))

/-- Whether reading failed because a directory was met. -/
def metDirectory : IO.Error -> Bool
  | .inappropriateType _ code _ => code == 21
  | _ => false

/-- Add what a path leads to, if anything. -/
def observe (workspace : Workspace) (path : String) : IO Workspace := do
  try
    return workspace.withFile path (← IO.FS.readBinFile path)
  catch error =>
    return if metDirectory error then workspace.withDirectory path else workspace

/-- A location as a written path. -/
def writtenPath (location : Location) : String :=
  "/" ++ String.intercalate "/" location.reverse

/-- Write out the directories and files that a command made or changed. -/
def writeChanges (before after : Workspace) : IO Unit := do
  for (location, node) in after.nodes do
    match node, before.node? location with
    | .directory, none => IO.FS.createDirAll (writtenPath location)
    | _, _ => pure ()
  for (location, content) in Workspace.changedFiles before after do
    IO.FS.writeBinFile (writtenPath location) content

def currentLocation : IO Location := do
  let here ← IO.currentDir
  return ((pathComponents here.toString).filter fun name => !name.isEmpty).reverse

def runTool (tool : Tool) (words : List String) : IO UInt32 := do
  let mut workspace : Workspace := ⟨← currentLocation, usualLimits, []⟩
  for path in (namedPaths tool words).flatMap pathSteps do
    workspace ← observe workspace path
  let outcome := tool.run workspace words
  writeChanges workspace outcome.workspace
  IO.print (linesText outcome.output)
  IO.eprint (linesText outcome.errors)
  match outcome.failure? with
  | some failure =>
      IO.eprintln ("Error: " ++ (conventional.message? failure).getD "the file cannot be written")
  | none => pure ()
  return (conventional.exitCode outcome.ending).toUInt32

end CommandLine
end NibbleMachine

/-- Choose a command by the first word and run it on the others. -/
def main (words : List String) : IO UInt32 := do
  match words with
  | [] =>
      IO.eprintln "Usage: asm|dump ARGS..."
      return 2
  | word :: rest =>
      match NibbleMachine.CommandLine.Tool.ofWord? word with
      | some tool => NibbleMachine.CommandLine.runTool tool rest
      | none =>
          IO.eprintln "Usage: asm|dump ARGS..."
          return 2
