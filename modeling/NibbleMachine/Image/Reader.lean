import NibbleMachine.Text.Blank
import NibbleMachine.Text.Lines
import NibbleMachine.Text.Quoted
import NibbleMachine.Word

namespace NibbleMachine

/-!
# Reading an image

An image text has one word of sixteen binary digits on a line.  Blanks around a
word and blank lines do not count, but blank lines are numbered.  Any number of
words is accepted.
-/

/-- The first line of an image text that is not a word. -/
structure ImageError where
  line : Nat
  text : String
deriving DecidableEq, Repr

def ImageError.message (error : ImageError) : String :=
  "line " ++ Numeral.decimal error.line ++ ": not a " ++ Numeral.decimal wordBits
    ++ "-bit binary word: " ++ Text.quoted error.text

/-- Whether a text is sixteen binary digits. -/
def isWordText (text : List Char) : Bool :=
  text.length == wordBits && text.all fun c => c == '0' || c == '1'

/-- Read the words of lines numbered from a given number on. -/
def readWords (number : Nat) : List (List Char) -> Except ImageError (List Int)
  | [] => .ok []
  | line :: rest =>
      let text := Text.trim line
      if text.isEmpty then readWords (number + 1) rest
      else if isWordText text then do
        let later ← readWords (number + 1) rest
        return (Numeral.ofBinaryDigits text : Int) :: later
      else .error ⟨number, String.ofList text⟩

def loadImage (text : String) : Except ImageError (List Int) :=
  readWords 1 (Text.lines text.toList)

end NibbleMachine
