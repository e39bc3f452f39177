import NibbleMachine.CommandLine.Frontend
import NibbleMachine.Text.Quoted

namespace NibbleMachine
namespace CommandLine

/-!
# Options and arguments

Options may stand anywhere before `--`; everything else is an argument, and so
is a single dash.  A long option starts with two dashes and may carry its value
after an equals sign.  Short options are single letters after one dash and may
be joined; the first of them that takes a value takes the rest of the letters.
An option whose value is not attached takes the next argument, whatever it is.
-/

/-- What a word that starts with a dash may stand for: an option or a flag of the
command, or else the request to describe the command, which has no name. -/
structure Switch where
  name : Option String
  spellings : List String
  takesValue : Bool
deriving DecidableEq, Repr

/-- The switch that asks for a description. -/
def helpSwitch : Switch := ⟨none, ["--help"], false⟩

def Parameter.switch? : Parameter -> Option Switch
  | .argument _ _ => none
  | .option name spellings _ _ => some ⟨some name, spellings, true⟩
  | .flag name spellings _ => some ⟨some name, spellings, false⟩

def switchesOf (parameters : List Parameter) : List Switch :=
  parameters.filterMap Parameter.switch? ++ [helpSwitch]

structure Given where
  name : Option String
  value : Option String
deriving DecidableEq, Repr

/-- Why the options of a command line are refused. -/
inductive SwitchError where
  | unknown (name : String)
  | needsValue (name : String)
  | refusesValue (name : String)
deriving DecidableEq, Repr

/-- A command line taken apart. -/
structure Arguments where
  given : List Given
  positional : List String
deriving DecidableEq, Repr

namespace Arguments

def has (arguments : Arguments) (name : Option String) : Bool :=
  arguments.given.any fun given => given.name == name

/-- The value that an option was given last. -/
def lastValue? (arguments : Arguments) (name : String) : Option String :=
  ((arguments.given.filter fun given => given.name == some name).getLast?).bind Given.value

/-- Put switches in front of those given later. -/
def withGiven (earlier : List Given) (arguments : Arguments) : Arguments :=
  { arguments with given := earlier ++ arguments.given }

/-- Put an argument in front of the later ones. -/
def withPositional (argument : String) (arguments : Arguments) : Arguments :=
  { arguments with positional := argument :: arguments.positional }

end Arguments

/-- What one word of a command line amounts to. -/
inductive Word where
  | argument
  | switches (given : List Given)
  | awaiting (given : List Given) (switch : Switch) (spelling : String)
deriving DecidableEq, Repr

/-- Put a switch in front of a word. -/
def Word.after (first : Given) : Word -> Word
  | .argument => .switches [first]
  | .switches given => .switches (first :: given)
  | .awaiting given switch spelling => .awaiting (first :: given) switch spelling

/-- The switch that a spelling stands for. -/
def switch? (switches : List Switch) (spelling : String) : Option Switch :=
  switches.find? fun switch => switch.spellings.contains spelling

def readShort (switches : List Switch) : List Char -> Except SwitchError Word
  | [] => .ok (.switches [])
  | letter :: rest =>
      let spelling := String.ofList ['-', letter]
      match switch? switches spelling with
      | none => .error (.unknown spelling)
      | some switch =>
          if switch.takesValue then
            if rest.isEmpty then .ok (.awaiting [] switch spelling)
            else .ok (.switches [⟨switch.name, some (String.ofList rest)⟩])
          else (readShort switches rest).map (Word.after ⟨switch.name, none⟩)

/-- A word cut at its first equals sign. -/
def cutAtEquals (word : List Char) : String × Option String :=
  let spelling := word.takeWhile fun c => c != '='
  match word.drop spelling.length with
  | [] => (String.ofList spelling, none)
  | _ :: value => (String.ofList spelling, some (String.ofList value))

/-- Read a long option with the value attached to it, if any. -/
def readLong (switches : List Switch) (word : List Char) : Except SwitchError Word :=
  let (spelling, attached) := cutAtEquals word
  match switch? switches spelling with
  | none => .error (.unknown spelling)
  | some switch =>
      match switch.takesValue, attached with
      | true, some value => .ok (.switches [⟨switch.name, some value⟩])
      | true, none => .ok (.awaiting [] switch spelling)
      | false, some _ => .error (.refusesValue spelling)
      | false, none => .ok (.switches [⟨switch.name, none⟩])

def readWord (switches : List Switch) (word : String) : Except SwitchError Word :=
  match word.toList with
  | '-' :: '-' :: rest => readLong switches ('-' :: '-' :: rest)
  | '-' :: letter :: rest => readShort switches (letter :: rest)
  | _ => .ok .argument

def readArguments (switches : List Switch) : List String -> Except SwitchError Arguments
  | [] => .ok ⟨[], []⟩
  | word :: rest =>
      if word = "--" then .ok ⟨[], rest⟩
      else
        match readWord switches word with
        | .error error => .error error
        | .ok .argument => (readArguments switches rest).map (Arguments.withPositional word)
        | .ok (.switches given) =>
            (readArguments switches rest).map (Arguments.withGiven given)
        | .ok (.awaiting given switch spelling) =>
            match rest with
            | [] => .error (.needsValue spelling)
            | value :: later =>
                (readArguments switches later).map
                  (Arguments.withGiven (given ++ [⟨switch.name, some value⟩]))

end CommandLine
end NibbleMachine
