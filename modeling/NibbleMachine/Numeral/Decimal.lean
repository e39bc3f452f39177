namespace NibbleMachine
namespace Numeral

/-!
# Decimal numerals

An integer is written with a minus sign when negative and without leading
zeros.  A decimal numeral may carry either sign and leading zeros.  Conversion
between integers and decimal text is bounded: neither a numeral of more than
`digitLimit` digits is read nor an integer of more than that many digits
written.  The digits are counted as they stand, leading zeros included.
-/

/-- The number of decimal digits beyond which no conversion is made. -/
def digitLimit : Nat := 4300

/-- The decimal digits of an integer, after a minus sign when it is negative. -/
def decimalDigits : Int -> List Char
  | .ofNat n => Nat.toDigits 10 n
  | .negSucc n => '-' :: Nat.toDigits 10 (n + 1)

def decimal (value : Int) : String :=
  String.ofList (decimalDigits value)

/-- Whether the decimal text of an integer stays within the limit. -/
def isWritable (value : Int) : Bool :=
  value.natAbs < Nat.pow 10 digitLimit

/-- A decimal numeral taken apart: its sign and its digits. -/
structure Decimal where
  negative : Bool
  digits : List Char
deriving DecidableEq, Repr

/-- Take an optional sign off a text. -/
def splitSign : List Char -> Bool × List Char
  | '-' :: rest => (true, rest)
  | '+' :: rest => (false, rest)
  | text => (false, text)

/-- Recognise an optional sign followed by at least one digit. -/
def Decimal.ofText? (text : List Char) : Option Decimal :=
  let (negative, digits) := splitSign text
  if !digits.isEmpty && digits.all Char.isDigit then some ⟨negative, digits⟩ else none

def signed (negative : Bool) (magnitude : Nat) : Int :=
  if negative then -(magnitude : Int) else magnitude

def Decimal.value (numeral : Decimal) : Int :=
  signed numeral.negative (Nat.ofDigitChars 10 numeral.digits 0)

def Decimal.isReadable (numeral : Decimal) : Bool :=
  numeral.digits.length ≤ digitLimit

/-- Written integers are recognised and keep their value. -/
theorem value_of_decimalDigits (value : Int) :
    (Decimal.ofText? (decimalDigits value)).map Decimal.value = some value := by
  have digitsAll : ∀ n : Nat, (Nat.toDigits 10 n).all Char.isDigit = true := by
    intro n
    rw [List.all_eq_true]
    intro c member
    exact Nat.isDigit_of_mem_toDigits (by decide) (by decide) member
  have nonempty : ∀ n : Nat, (Nat.toDigits 10 n).isEmpty = false := by
    intro n
    simp
  have noSign : ∀ n : Nat,
      splitSign (Nat.toDigits 10 n) = (false, Nat.toDigits 10 n) := by
    intro n
    cases shape : Nat.toDigits 10 n with
    | nil => rfl
    | cons c rest =>
        have member : c ∈ Nat.toDigits 10 n := by simp [shape]
        have digit : c.isDigit = true :=
          Nat.isDigit_of_mem_toDigits (by decide) (by decide) member
        unfold splitSign
        split
        · next first => cases first; simp [Char.isDigit] at digit
        · next first => cases first; simp [Char.isDigit] at digit
        · rfl
  cases value with
  | ofNat n =>
      simp [decimalDigits, Decimal.ofText?, noSign, digitsAll, nonempty,
        Decimal.value, signed, Nat.ofDigitChars_ten_toDigits]
  | negSucc n =>
      simp [decimalDigits, Decimal.ofText?, splitSign, digitsAll, nonempty,
        Decimal.value, signed, Nat.ofDigitChars_ten_toDigits]
      omega

end Numeral
end NibbleMachine
