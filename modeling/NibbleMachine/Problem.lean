import NibbleMachine.Register

namespace NibbleMachine

/-!
# Problems found in source text

A problem never stops the assembly.  It is recorded together with the line it
was found on, and the line is either dropped or encoded as well as possible.
One finding concerns the program as a whole and has no line.
-/

/-- What may be wrong with a source line. -/
inductive Problem where
  | malformedDefine
  | malformedLabel
  | abbreviationArity (expected found : Nat)
  | unknownCommand
  | commandArity (expected found : Nat)
  | register (error : Register.Error)
  | memoryForm
  | immediateForm
  | immediateRange (value : Int)
  | lineNumberForm
  | lineNumberSign
  | noLineLeft
  | positionRange (position : Nat)
deriving DecidableEq, Repr

/-- The number of words a program image holds. -/
def imageSize : Nat := 256

/-- The text of a problem, without its line. -/
def Problem.message : Problem -> String
  | .malformedDefine => "Could not resolve the define!"
  | .malformedLabel => "Could not resolve the label!"
  | .abbreviationArity expected found =>
      "This Pseudo-Command expected " ++ Numeral.decimal expected ++ " Arguments but found "
        ++ Numeral.decimal found ++ "!"
  | .unknownCommand => "No Matching Command found!"
  | .commandArity expected found =>
      "Expected " ++ Numeral.decimal expected ++ " Arguments but found "
        ++ Numeral.decimal found ++ "!"
  | .register error => error.message
  | .memoryForm => memoryFormMessage
  | .immediateForm => "Could not parse Immediate!"
  | .immediateRange value =>
      "Immediate " ++ Numeral.decimal value ++ " is not in valid range!"
  | .lineNumberForm => "Could not parse the Line Number!"
  | .lineNumberSign => "A Line Number to jump to must be greater than 0!"
  | .noLineLeft => "No valid Line left after the given Line Number to jump to!"
  | .positionRange position =>
      "Line Number " ++ Numeral.decimal position ++ " is not in valid range! "
        ++ "(This is the final translated Line Number.)"

/-- A recorded problem: on a line, or of the whole program. -/
inductive Finding where
  | atLine (line : Nat) (problem : Problem)
  | programTooLong
deriving DecidableEq, Repr

end NibbleMachine
