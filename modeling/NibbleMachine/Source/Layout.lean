import NibbleMachine.Source.Line

namespace NibbleMachine

/-!
# Layout

Valid lines follow each other in the image without gaps, in source order.
-/

/-- Give the valid lines consecutive positions from a given one on. -/
def layoutFrom (next : Nat) : List Line -> List Line
  | [] => []
  | line :: rest =>
      if line.valid then { line with position := some next } :: layoutFrom (next + 1) rest
      else line :: layoutFrom next rest

/-- Give the valid lines consecutive positions from zero on. -/
def layout (lines : List Line) : List Line :=
  layoutFrom 0 lines

end NibbleMachine
