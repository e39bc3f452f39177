import NibbleMachine.Word

namespace NibbleMachine

/-!
# Registers and memory operands

There are eight registers, written `r0` to `r7`.  A memory operand is a
register in round brackets; taking the brackets off and reading the register
inside are two steps with errors of their own.
-/

abbrev Register := Fin 8

namespace Register

inductive Error where
  | form
  | number
deriving DecidableEq, Repr

def Error.message : Error -> String
  | .form => "Invalid Register!"
  | .number => "Invalid Register Number!"

def read (operand : String) : Except Error Register :=
  match operand.toList with
  | ['r', digit] =>
      if within : digit.isDigit = true ∧ digit.toNat - '0'.toNat < 8 then
        .ok ⟨digit.toNat - '0'.toNat, within.2⟩
      else .error .number
  | _ => .error .form

def toNibble (register : Register) : Nibble :=
  ⟨register.val, by omega⟩

end Register

/-- The message for an operand that is not a register in round brackets. -/
def memoryFormMessage : String :=
  "Invalid Memory Address Format! (should be for example \"(r3)\")"

/-- The two characters between the brackets of a memory operand. -/
def memoryRegister? (operand : String) : Option String :=
  match operand.toList with
  | ['(', first, second, ')'] => some (String.ofList [first, second])
  | _ => none

end NibbleMachine
