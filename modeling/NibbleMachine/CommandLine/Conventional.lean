import NibbleMachine.CommandLine.Options

namespace NibbleMachine
namespace CommandLine

/-!
# A conventional front end

This front end runs the program.  A command line in error ends a command with
two, a failure of the command itself with one.  Values are checked in the order
in which they are processed: those of options come before the arguments, and
arguments that are left over are refused last.
-/

/-- The name of an argument as it is shown. -/
def shownName (name : String) : String :=
  String.ofList (name.toList.map Char.toUpper)

/-- How a parameter is named in a refusal. -/
def Parameter.shown : Parameter -> String
  | .argument name _ => Text.quoted (shownName name)
  | .option _ spellings _ _ => String.intercalate " / " (spellings.map Text.quoted)
  | .flag _ spellings _ => String.intercalate " / " (spellings.map Text.quoted)

namespace Refusal

def ofSwitch : SwitchError -> Refusal
  | .unknown name => ⟨"NoSuchOption", "No such option " ++ Text.quoted name ++ "."⟩
  | .needsValue name =>
      ⟨"BadOptionUsage", "Option " ++ Text.quoted name ++ " requires an argument."⟩
  | .refusesValue name =>
      ⟨"BadOptionUsage", "Option " ++ Text.quoted name ++ " does not take a value."⟩

def missingArgument (name : String) : Refusal :=
  ⟨"MissingParameter", "Missing argument " ++ Text.quoted (shownName name) ++ "."⟩

def extraArguments (arguments : List String) : Refusal :=
  let noun := if arguments.length = 1 then "argument" else "arguments"
  ⟨"UsageError",
    "Got unexpected extra " ++ noun ++ " (" ++ String.intercalate " " arguments ++ ")"⟩

/-- The refusal of a file, with what is wrong with it. -/
def file (parameter : Parameter) (path flaw : String) : Refusal :=
  ⟨"BadParameter",
    "Invalid value for " ++ parameter.shown ++ ": File " ++ Text.quoted path ++ " " ++ flaw⟩

def nullCharacter : Refusal := ⟨"ValueError", "embedded null byte"⟩

end Refusal

/-- Check the value of a parameter.  Every file of a workspace may be read, so what a path
leads to decides. -/
def checkValue (workspace : Workspace) (parameter : Parameter) (kind : Kind) (value : String) :
    Except Refusal Unit :=
  match kind with
  | .text => .ok ()
  | .file mustExist =>
      if value.toList.contains (Char.ofNat 0) then .error .nullCharacter
      else
        match workspace.lookup value with
        | .ok .directory => .error (.file parameter value "is a directory.")
        | .ok (.file _) => .ok ()
        | .error _ =>
            if mustExist then .error (.file parameter value "does not exist.") else .ok ()

/-- Check the values that options were given. -/
def checkOptions (workspace : Workspace) (arguments : Arguments) :
    List Parameter -> Except Refusal Unit
  | [] => .ok ()
  | parameter :: rest =>
      match parameter with
      | .option name _ kind _ =>
          match arguments.lastValue? name with
          | none => checkOptions workspace arguments rest
          | some value => do
              checkValue workspace parameter kind value
              checkOptions workspace arguments rest
      | _ => checkOptions workspace arguments rest

/-- Check the arguments against those declared. -/
def checkPositional (workspace : Workspace) :
    List (String × Kind) -> List String -> Except Refusal Unit
  | [], [] => .ok ()
  | [], extra => .error (.extraArguments extra)
  | (name, _) :: _, [] => .error (.missingArgument name)
  | (name, kind) :: declared, argument :: rest => do
      checkValue workspace (.argument name kind) kind argument
      checkPositional workspace declared rest

def valuesOf (parameters : List Parameter) (arguments : Arguments) : Values where
  argument name :=
    (((argumentsOf parameters).map Prod.fst).zip arguments.positional).lookup name |>.getD ""
  option := arguments.lastValue?
  flag name := arguments.has (some name)

/-- One line for each way in which an option or a flag is spelled. -/
def describe (parameters : List Parameter) : List String :=
  parameters.filterMap fun parameter =>
    match parameter with
    | .argument name _ => some (shownName name)
    | .option _ spellings _ help => some (String.intercalate ", " spellings ++ "  " ++ help)
    | .flag _ spellings help => some (String.intercalate ", " spellings ++ "  " ++ help)

def readConventional (parameters : List Parameter) (workspace : Workspace)
    (words : List String) : Reading :=
  match readArguments (switchesOf parameters) words with
  | .error error => .refused (.ofSwitch error)
  | .ok arguments =>
      if arguments.has none then .described (describe parameters)
      else
        let checked := do
          checkOptions workspace arguments parameters
          checkPositional workspace (argumentsOf parameters) arguments.positional
        match checked with
        | .error refusal => .refused refusal
        | .ok _ => .values (valuesOf parameters arguments)

/-- The number that a failing command ends with. -/
def Failure.exitCode : Failure -> Nat
  | .refused refusal => if refusal = .nullCharacter then 1 else 2
  | .value _ _ => 2
  | _ => 1

/-- The text of a failure; most errors of the file system and missing words have none. -/
def Failure.message? : Failure -> Option String
  | .refused refusal => some refusal.message
  | .value parameter reason => some ("Invalid value for " ++ parameter ++ ": " ++ reason)
  | .aborted reason => some reason
  | .fault cause => some cause.message
  | .file .nullCharacter => some Refusal.nullCharacter.message
  | .file _ => none
  | .missingWord => none

def usualLimits : Limits where
  name := 255
  path := 4096
  depth := 984
  names_allowed := by decide
  paths_allowed := by decide

/-- The front end that runs the program. -/
def conventional : Frontend where
  read := readConventional
  exitCode
    | .returned => 0
    | .exited code => code
    | .failed failure => failure.exitCode
  message? := Failure.message?

end CommandLine
end NibbleMachine
