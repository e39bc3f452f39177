namespace NibbleMachine
namespace Numeral

/-!
# Binary text of a fixed least width

An integer is written in base two and filled with zeros between its sign and
its digits until the whole text, sign included, has the given width.  Longer
texts are not cut.
-/

/-- The binary digits of an integer, filled with zeros to a least width. -/
def binaryDigits (width : Nat) (value : Int) : List Char :=
  let digits := Nat.toDigits 2 value.natAbs
  if value < 0 then
    '-' :: (List.replicate (width - 1 - digits.length) '0' ++ digits)
  else List.replicate (width - digits.length) '0' ++ digits

def binary (width : Nat) (value : Int) : String :=
  String.ofList (binaryDigits width value)

/-- The value of a text of binary digits. -/
def ofBinaryDigits (digits : List Char) : Nat :=
  Nat.ofDigitChars 2 digits 0

/-- Filling with zeros does not change the value of a nonnegative integer. -/
theorem ofBinaryDigits_binaryDigits (width value : Nat) :
    ofBinaryDigits (binaryDigits width value) = value := by
  have notNegative : ¬ ((value : Int) < 0) := by omega
  simp [ofBinaryDigits, binaryDigits, notNegative, Nat.ofDigitChars_append,
    Nat.ofDigitChars_replicate_zero, Nat.ofDigitChars_toDigits]

end Numeral
end NibbleMachine
