import NibbleMachine.Problem

namespace NibbleMachine

/-!
# Collected messages

A collector keeps messages in the order in which they arrive.  A message that
belongs to a line is introduced by the number of the line; another is kept as
it is.  Collectors are joined by appending.
-/

/-- A message as it is shown for a line, if it belongs to one. -/
def locatedMessage (message : String) : Option Int -> String
  | some line => "ERROR in Line " ++ Numeral.decimal line ++ ": " ++ message
  | none => message

/-- Messages in the order of their arrival. -/
structure Diagnostics where
  messages : List String
deriving DecidableEq, Repr

namespace Diagnostics

def empty : Diagnostics := ⟨[]⟩

def count (diagnostics : Diagnostics) : Nat :=
  diagnostics.messages.length

def add (diagnostics : Diagnostics) (message : String) (line : Option Int) : Diagnostics :=
  ⟨diagnostics.messages ++ [locatedMessage message line]⟩

/-- Keep the messages of another collector after one's own. -/
def merge (diagnostics other : Diagnostics) : Diagnostics :=
  ⟨diagnostics.messages ++ other.messages⟩

theorem count_add (diagnostics : Diagnostics) (message : String) (line : Option Int) :
    (diagnostics.add message line).count = diagnostics.count + 1 := by
  simp [count, add]

theorem count_merge (diagnostics other : Diagnostics) :
    (diagnostics.merge other).count = diagnostics.count + other.count := by
  simp [count, merge]

end Diagnostics

def Finding.message : Finding -> String
  | .atLine line problem => locatedMessage problem.message (some line)
  | .programTooLong =>
      "ERROR: Program is too long to fit in " ++ Numeral.decimal imageSize ++ " Instructions!"

def Diagnostics.ofFindings (findings : List Finding) : Diagnostics :=
  ⟨findings.map Finding.message⟩

end NibbleMachine
