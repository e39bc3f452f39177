namespace NibbleMachine

/-!
# Abbreviations

An abbreviation is a name for a rearrangement of its operands under a command.
Its expansion is a command in one step; abbreviations are not expanded again.
-/

/-- Names that stand for a command with rearranged operands. -/
inductive Abbreviation where
  | nop
  | blt
  | ble
  | j
  | sll
  | blez
  | bltz
  | bgez
  | bgtz
  | neg
deriving DecidableEq, Repr

namespace Abbreviation

def all : List Abbreviation :=
  [.nop, .blt, .ble, .j, .sll, .blez, .bltz, .bgez, .bgtz, .neg]

def mnemonic : Abbreviation -> String
  | .nop => "nop"
  | .blt => "blt"
  | .ble => "ble"
  | .j => "j"
  | .sll => "sll"
  | .blez => "blez"
  | .bltz => "bltz"
  | .bgez => "bgez"
  | .bgtz => "bgtz"
  | .neg => "neg"

def arity : Abbreviation -> Nat
  | .nop => 0
  | .blt => 3
  | .ble => 3
  | .j => 1
  | .sll => 2
  | .blez => 2
  | .bltz => 2
  | .bgez => 2
  | .bgtz => 2
  | .neg => 2

def ofMnemonic? (name : String) : Option Abbreviation :=
  all.find? fun abbreviation => abbreviation.mnemonic == name

/-- The tokens an abbreviation stands for, given its operands.  There are none
when the number of operands is wrong. -/
def expand? : Abbreviation -> List String -> Option (List String)
  | .nop, [] => some ["add", "r0", "r0", "r0"]
  | .blt, [a, b, c] => some ["bgt", a, c, b]
  | .ble, [a, b, c] => some ["bge", a, c, b]
  | .j, [a] => some ["beq", a, "r0", "r0"]
  | .sll, [a, b] => some ["add", a, b, b]
  | .blez, [a, b] => some ["bge", a, "r0", b]
  | .bltz, [a, b] => some ["bgt", a, "r0", b]
  | .bgez, [a, b] => some ["bge", a, b, "r0"]
  | .bgtz, [a, b] => some ["bgt", a, b, "r0"]
  | .neg, [a, b] => some ["sub", a, "r0", b]
  | _, _ => none

/-- Why a list of tokens is not the use of an abbreviation. -/
inductive Error where
  | noToken
  | notAbbreviation
deriving DecidableEq, Repr

/-- Expand a whole line of tokens whose first token is an abbreviation. -/
def expandTokens : List String -> Except Error (Option (List String))
  | [] => .error .noToken
  | name :: operands =>
      match ofMnemonic? name with
      | none => .error .notAbbreviation
      | some abbreviation => .ok (abbreviation.expand? operands)

theorem ofMnemonic?_mnemonic (abbreviation : Abbreviation) :
    ofMnemonic? abbreviation.mnemonic = some abbreviation := by
  cases abbreviation <;> decide

/-- Expansion succeeds exactly on the right number of operands. -/
theorem expand?_isSome_iff (abbreviation : Abbreviation) (operands : List String) :
    (abbreviation.expand? operands).isSome = true <->
      operands.length = abbreviation.arity := by
  rcases operands with _ | ⟨a, _ | ⟨b, _ | ⟨c, _ | ⟨d, rest⟩⟩⟩⟩ <;>
    cases abbreviation <;> simp [expand?, arity]

end Abbreviation

end NibbleMachine
