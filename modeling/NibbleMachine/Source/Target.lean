import NibbleMachine.Source.Line

namespace NibbleMachine

/-!
# Targets of address loads

The operand of an address load is the number of a source line.  It stands for
the position of the first valid line from there on, because the line itself may
be a label, a comment or useless.  The position is taken modulo 256 and read as
a signed byte.  When the operand does not lead to a line, the first line stands
in for it.
-/

/-- The items from an index on.  A negative index counts from the end, and an
index beyond either end is clipped to it. -/
def fromIndex {Item : Type} (items : List Item) (index : Int) : List Item :=
  if index < 0 then items.drop ((items.length : Int) + index).toNat
  else items.drop index.toNat

/-- The first valid line whose number is at least the given one. -/
def nextValid? (lines : List Line) (number : Int) : Option Line :=
  (fromIndex lines (number - 1)).find? Line.valid

/-- The source line that an operand names, or the first line with a problem. -/
def targetLine (operand : String) : Except Fault (Int × List Problem) :=
  match Numeral.Decimal.ofText? operand.toList with
  | none => .ok (1, [.lineNumberForm])
  | some numeral =>
      if !numeral.isReadable then .error (.unreadable numeral.digits.length)
      else if numeral.value ≤ 0 then .ok (1, [.lineNumberSign])
      else .ok (numeral.value, [])

/-- The position that a source line stands for, or that of the first line with a
problem.  A line that was given no position counts as position zero. -/
def targetPosition (lines : List Line) (number : Int) : Except Fault (Nat × List Problem) :=
  match nextValid? lines number with
  | some line => .ok (line.position.getD 0, [])
  | none =>
      match lines with
      | [] => .error .noLine
      | first :: _ => .ok (first.position.getD 0, [.noLineLeft])

/-- The signed byte that an operand resolves to, with the problems met. -/
def resolveTarget (lines : List Line) (operand : String) :
    Except Fault (Int × List Problem) := do
  let (number, lineProblems) ← targetLine operand
  let (position, positionProblems) ← targetPosition lines number
  let rangeProblems :=
    if position < imageSize then [] else [Problem.positionRange position]
  return (signedByte position, lineProblems ++ positionProblems ++ rangeProblems)

end NibbleMachine
