import NibbleMachine.CommandLine.Frontend
import NibbleMachine.Text.Lines

namespace NibbleMachine
namespace CommandLine

/-!
# Outcomes of a command

A command prints lines, changes its workspace and ends.  Failures are kept apart
from the printed lines: how they are shown is up to the front end.
-/

/-- What a command leaves behind. -/
structure Outcome where
  ending : Ending
  output : List String
  errors : List String
  workspace : Workspace

namespace Outcome

/-- The outcome of a failure after some lines were printed. -/
def failed (workspace : Workspace) (output : List String) (failure : Failure) : Outcome where
  ending := .failed failure
  output := output
  errors := []
  workspace := workspace

def failure? (outcome : Outcome) : Option Failure :=
  match outcome.ending with
  | .failed failure => some failure
  | _ => none

end Outcome

def linesText (lines : List String) : String :=
  String.join (lines.map fun line => line ++ "\n")

/-- Run a command on a command line.  Its work starts only when the front end has values
for all its parameters. -/
def runCommand (frontend : Frontend) (parameters : List Parameter) (perform : Values -> Outcome)
    (workspace : Workspace) (words : List String) : Outcome :=
  match frontend.read parameters workspace words with
  | .refused refusal => .failed workspace [] (.refused refusal)
  | .described lines =>
      { ending := .exited 0
        output := lines
        errors := []
        workspace := workspace }
  | .values values => perform values

/-- The text of a file, with unified line ends. -/
def readText (workspace : Workspace) (path : String) : Except FileError String := do
  let content ← workspace.read path
  match String.fromUTF8? content with
  | none => .error .notText
  | some text => return String.ofList (Text.unifyLineEnds text.toList)

/-- The failure at a file.  A command gives one reason for whatever the file system
refuses; the other errors are not its own. -/
def fileFailure (reason : String) : FileError -> Failure
  | .nullCharacter => .file .nullCharacter
  | .tooDeep => .file .tooDeep
  | _ => .aborted reason

end CommandLine
end NibbleMachine
