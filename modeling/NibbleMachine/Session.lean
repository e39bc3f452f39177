import NibbleMachine.Assembly

namespace NibbleMachine

/-!
# Sessions

A session runs the passes one at a time, in any order and as often as wanted.
It keeps the lines and the two symbol tables, each as the last complete
collection left it.  A pass that stops with a fault keeps the changes it made
to the lines before the fault, and the session goes on.
-/

inductive Pass where
  | prepare
  | collect (directive : Directive)
  | substitute (directive : Directive)
  | resolve
  | layout
  | encode
  | listing
  | image
deriving DecidableEq, Repr

/-- The lines and symbols between passes. -/
structure Session where
  lines : List Line
  defines : SymbolTable
  labels : SymbolTable
deriving DecidableEq, Repr

/-- What a pass has to tell. -/
inductive Report where
  | silent
  | findings (findings : List Finding)
  | symbols (table : SymbolTable) (findings : List Finding)
  | listing (entries : List String)
  | image (words : List Int) (findings : List Finding)
deriving DecidableEq, Repr

namespace Session

/-- A session on a source text, before any pass. -/
def start (text : String) : Session where
  lines := loadLines text
  defines := .empty
  labels := .empty

/-- The kept symbols of a directive. -/
def table (session : Session) : Directive -> SymbolTable
  | .define => session.defines
  | .label => session.labels

def keep (session : Session) (directive : Directive) (table : SymbolTable) : Session :=
  match directive with
  | .define => { session with defines := table }
  | .label => { session with labels := table }

def run (session : Session) : Pass -> Session × Except Fault Report
  | .prepare => ({ session with lines := NibbleMachine.prepare session.lines }, .ok .silent)
  | .collect directive =>
      let swept := directive.collect session.lines
      let changed := { session with lines := swept.lines }
      match swept.outcome with
      | .error fault => (changed, .error fault)
      | .ok declarations =>
          let table := symbolsOf declarations
          (changed.keep directive table, .ok (.symbols table (findingsOf declarations)))
  | .substitute directive =>
      let swept := NibbleMachine.substitute (session.table directive).entries session.lines
      ({ session with lines := swept.lines }, swept.outcome.map fun _ => .silent)
  | .resolve =>
      let swept := resolveCommands session.lines
      ({ session with lines := swept.lines }, swept.outcome.map .findings)
  | .layout => ({ session with lines := NibbleMachine.layout session.lines }, .ok .silent)
  | .encode =>
      let swept := encodeLines session.lines
      ({ session with lines := swept.lines }, swept.outcome.map .findings)
  | .listing => (session, (NibbleMachine.listing session.lines).map .listing)
  | .image =>
      (session, .ok (.image (buildImage session.lines) (imageFindings session.lines)))

/-- Run passes one after the other, keeping the session and the report after
each. -/
def runAll (session : Session) : List Pass -> List (Session × Except Fault Report)
  | [] => []
  | pass :: rest =>
      let next := session.run pass
      next :: runAll next.1 rest

end Session

end NibbleMachine
