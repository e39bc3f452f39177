import NibbleMachine.Fault
import NibbleMachine.Workspace

namespace NibbleMachine
namespace CommandLine

/-!
# Front ends

A command declares its parameters and leaves the rest of the command line to a
front end: to take the words apart, to check the paths among the values, to
describe the command when that is asked for, and to turn the way in which the
command ends into a number.  The front end is not part of the program, so the
commands are written for any front end.
-/

/-- What the values of a parameter are.  A file may be missing unless it must exist,
but it is never a directory. -/
inductive Kind where
  | text
  | file (mustExist : Bool)
deriving DecidableEq, Repr

/-- A parameter that a command declares.  An argument is told by its place; an option
takes a value, and a flag does not. -/
inductive Parameter where
  | argument (name : String) (kind : Kind)
  | option (name : String) (spellings : List String) (kind : Kind) (help : String)
  | flag (name : String) (spellings : List String) (help : String)
deriving DecidableEq, Repr

namespace Parameter

def name : Parameter -> String
  | .argument name _ => name
  | .option name _ _ _ => name
  | .flag name _ _ => name

/-- The words that stand for a parameter. -/
def spellings : Parameter -> List String
  | .argument _ _ => []
  | .option _ spellings _ _ => spellings
  | .flag _ spellings _ => spellings

/-- The name and the kind of an argument. -/
def argument? : Parameter -> Option (String × Kind)
  | .argument name kind => some (name, kind)
  | _ => none

end Parameter

/-- The arguments among the parameters, in order. -/
def argumentsOf (parameters : List Parameter) : List (String × Kind) :=
  parameters.filterMap Parameter.argument?

/-- The values of the parameters, by name.  Every argument has one; an option may be left
out. -/
structure Values where
  argument : String -> String
  option : String -> Option String
  flag : String -> Bool

/-- The error that a command line is refused with. -/
structure Refusal where
  kind : String
  message : String
deriving DecidableEq, Repr

/-- What a front end makes of a command line. -/
inductive Reading where
  | refused (refusal : Refusal)
  | described (lines : List String)
  | values (values : Values)

inductive Failure where
  | refused (refusal : Refusal)
  | value (parameter : String) (reason : String)
  | aborted (reason : String)
  | fault (cause : Fault)
  | file (error : FileError)
  | missingWord
deriving DecidableEq, Repr

/-- How a command ends: by itself, with a number of its own, or with a failure. -/
inductive Ending where
  | returned
  | exited (code : Nat)
  | failed (failure : Failure)
deriving DecidableEq, Repr

/-- What the commands ask of a front end: to read a command line, to give the number
that an ending stands for, and the text that is shown for a failure. -/
structure Frontend where
  read : List Parameter -> Workspace -> List String -> Reading
  exitCode : Ending -> Nat
  message? : Failure -> Option String

end CommandLine
end NibbleMachine
