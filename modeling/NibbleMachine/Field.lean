import NibbleMachine.Numeral.Operand

namespace NibbleMachine
namespace Field

/-!
# Two's complement fields

A field of some number of bits holds a nonnegative integer.  `fit` places an
integer into a field: negative integers are first raised by the size of the
field.  `toSigned` reads the upper half of a field's values as negative.
Neither function masks its argument.

A width is any integer, and not every integer is the width of a field.  Widths
below zero have no meaning.  The size of a field is kept in digits of thirty
bits, and the number of these digits is bounded.  Within that bound the size
still has to fit into memory; how much there is differs from machine to machine,
so the greatest width whose size fits is a parameter.
-/

/-- Why an integer is not placed in, or read from, a field. -/
inductive Error where
  | negativeWidth
  | tooManyDigits
  | outOfMemory
  | doesNotFit (value : Int) (bits : Int)
deriving DecidableEq, Repr

/-- The message for a failed placement; the value shown is the raised one. -/
def Error.message : Error -> String
  | .negativeWidth => "negative shift count"
  | .tooManyDigits => "too many digits in integer"
  | .outOfMemory => "out of memory"
  | .doesNotFit value bits =>
      if Numeral.isWritable value then
        Numeral.decimal value ++ " does not fit in " ++ Numeral.decimal bits ++ " bits"
      else Numeral.unwritableMessage

/-- The number of bits in a digit of a stored integer. -/
def digitBits : Int := 30

/-- The greatest number of digits of a stored integer. -/
def digitCapacity : Int := 2305843009213693945

/-- The greatest width of which the size can be stored: the size needs one digit
beyond those that the width fills. -/
def widthLimit : Int := digitBits * (digitCapacity - 1)

/-- The width of a field as a number of bits, where `memory` is the greatest width
whose size fits into memory. -/
def checkWidth (memory : Nat) (bits : Int) : Except Error Nat :=
  if bits < 0 then .error .negativeWidth
  else if widthLimit < bits then .error .tooManyDigits
  else if memory < bits.toNat then .error .outOfMemory
  else .ok bits.toNat

/-- Whether a field of a width holds a number.  The number of bits decides, so
the size of the field is not computed. -/
def holds (width value : Nat) : Bool :=
  value == 0 || value.log2 < width

/-- A field holds the numbers below its size. -/
theorem holds_iff (width value : Nat) :
    holds width value = true <-> value < Nat.pow 2 width := by
  by_cases empty : value = 0
  · subst empty
    have positive : 0 < Nat.pow 2 width := Nat.pow_pos (by decide)
    exact ⟨fun _ => positive, fun _ => rfl⟩
  · have bits : value.log2 < width <-> value < Nat.pow 2 width := Nat.log2_lt empty
    rw [← bits]
    simp [holds, empty]

/-- Place an integer into a field of a width that has been checked. -/
def place (value : Int) (width : Nat) : Except Error Int :=
  if value < 0 then
    let raised := (Nat.pow 2 width : Int) + value
    if 0 ≤ raised then .ok raised else .error (.doesNotFit raised width)
  else if holds width value.toNat then .ok value
  else .error (.doesNotFit value width)

/-- Place an integer into a field of the given width. -/
def fit (memory : Nat) (value bits : Int) : Except Error Int := do
  place value (← checkWidth memory bits)

/-- Read a field of the given width as a signed integer.  The size of the field is
needed for its upper half only. -/
def toSigned (memory : Nat) (value bits : Int) : Except Error Int := do
  let lower ← checkWidth memory (bits - 1)
  if value < 0 ∨ holds lower value.toNat then return value
  else
    let width ← checkWidth memory bits
    return value - (Nat.pow 2 width : Int)

end Field
end NibbleMachine
