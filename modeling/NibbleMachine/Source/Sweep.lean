import NibbleMachine.Source.Line

namespace NibbleMachine

/-!
# Sweeps

Every pass visits the valid lines in order.  At each line it may change the
line and note something, or stop with a fault.  A sweep that stops keeps the
changes made before the fault and leaves the line at fault and all later ones
as they were; its notes are lost.
-/

/-- The lines after a sweep, and its notes or the fault that stopped it. -/
structure Swept (Note : Type) where
  lines : List Line
  outcome : Except Fault (List Note)

def sweep {Note : Type} (visit : Line -> Except Fault (Line × List Note)) :
    List Line -> Swept Note
  | [] => ⟨[], .ok []⟩
  | line :: rest =>
      if line.valid then
        match visit line with
        | .error fault => ⟨line :: rest, .error fault⟩
        | .ok (changed, notes) =>
            let later := sweep visit rest
            ⟨changed :: later.lines, later.outcome.map (notes ++ ·)⟩
      else
        let later := sweep visit rest
        ⟨line :: later.lines, later.outcome⟩

/-- The result of a sweep that must not stop. -/
def Swept.complete {Note : Type} (swept : Swept Note) :
    Except Fault (List Line × List Note) :=
  swept.outcome.map fun notes => (swept.lines, notes)

end NibbleMachine
