import NibbleMachine.Text.CaseTable
import NibbleMachine.Text.LetterTable

namespace NibbleMachine
namespace Text

/-!
# Lowering a text

Lowering replaces every capital by its small form.  Two capitals need more than
the table of runs.  The dotted capital I becomes an `i` followed by a combining
dot.  The capital sigma becomes the final form when it ends a word: the nearest
character before it that is not skipped is a letter with case, and the nearest
one after it is not.

Both neighbours are looked for in the text as it stands before lowering, so the
recursion carries the characters already passed, nearest first.
-/

/-- Whether the first character that is not skipped is a letter with case. -/
def meetsLetter (text : List Char) : Bool :=
  match text.dropWhile isSkipped with
  | [] => false
  | c :: _ => isCasedLetter c

def capitalSigma : Char := Char.ofNat 0x03A3

/-- The small sigma that ends a word. -/
def finalSigma : Char := Char.ofNat 0x03C2

def dottedCapitalI : Char := Char.ofNat 0x0130

/-- The dot that combines with the letter before it. -/
def combiningDot : Char := Char.ofNat 0x0307

/-- The small form of a single character, without regard to its place. -/
def smallChar (c : Char) : Char :=
  Char.ofNat (smallCode c.toNat)

/-- The small form of a character between the characters `before` it, nearest
first, and those `after` it. -/
def lowerAt (before : List Char) (c : Char) (after : List Char) : List Char :=
  if c = dottedCapitalI then ['i', combiningDot]
  else if c = capitalSigma && meetsLetter before && !meetsLetter after then [finalSigma]
  else [smallChar c]

/-- Lower a text whose already passed characters are `before`, nearest first. -/
def lowerAfter (before : List Char) : List Char -> List Char
  | [] => []
  | c :: after => lowerAt before c after ++ lowerAfter (c :: before) after

/-- Replace every capital of a text by its small form. -/
def lower (text : List Char) : List Char :=
  lowerAfter [] text

end Text
end NibbleMachine
