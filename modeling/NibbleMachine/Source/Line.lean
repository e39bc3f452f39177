import NibbleMachine.Command
import NibbleMachine.Fault
import NibbleMachine.Problem
import NibbleMachine.Text.Lines

namespace NibbleMachine

/-!
# Source lines

A source line keeps its number and text for the whole assembly and collects
what the passes find out about it.  A line that turns out to be blank, a
directive or useless is marked invalid; later passes leave it alone and what
was known of it stays visible.  The nibbles of a line and its word are kept
apart: nothing but the encoding makes them agree.
-/

/-- A command with the operand tokens it was resolved with. -/
structure Order where
  command : Command
  operands : List String
deriving DecidableEq, Repr

/-- A source line and what is known of it. -/
structure Line where
  number : Nat
  text : String
  valid : Bool
  tokens : Option (List String)
  order : Option Order
  position : Option Nat
  nibbles : Option Nibbles
  word : Int
deriving DecidableEq, Repr

namespace Line

/-- A line of which only number and text are known. -/
def fresh (number : Nat) (text : String) : Line where
  number := number
  text := text
  valid := true
  tokens := none
  order := none
  position := none
  nibbles := none
  word := 0

def operands (line : Line) : List String :=
  match line.order with
  | some order => order.operands
  | none => []

/-- Withdraw a line from the later passes. -/
def withdraw (line : Line) : Line :=
  { line with valid := false }

end Line

/-- Number lines from a given number on. -/
def numberLines (next : Nat) : List (List Char) -> List Line
  | [] => []
  | text :: rest => Line.fresh next (String.ofList text) :: numberLines (next + 1) rest

/-- The lines of a source text, numbered from one. -/
def loadLines (text : String) : List Line :=
  numberLines 1 (Text.lines text.toList)

/-- The lines that still take part in the assembly. -/
def validLines (lines : List Line) : List Line :=
  lines.filter Line.valid

end NibbleMachine
