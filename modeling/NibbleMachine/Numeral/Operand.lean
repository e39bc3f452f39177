import NibbleMachine.Numeral.Decimal
import NibbleMachine.Text.Quoted

namespace NibbleMachine
namespace Numeral

/-!
# Numerals in operands

An operand numeral is either `0x` followed by lower-case hexadecimal digits,
always without a sign and of any length, or a decimal numeral with an optional
sign.  Nothing else is a number: no upper-case digits, no underscores, no
digits of other scripts.
-/

inductive Error where
  | tooManyDigits (count : Nat)
  | notNumeral (text : String)
deriving DecidableEq, Repr

/-- The refusal to convert, for whichever direction. -/
def limitNotice : String :=
  "Exceeds the limit (" ++ decimal digitLimit ++ " digits) for integer string conversion"

/-- The advice that ends both notices of the limit. -/
def limitAdvice : String :=
  "; use sys.set_int_max_str_digits() to increase the limit"

def Error.message : Error -> String
  | .tooManyDigits count =>
      limitNotice ++ ": value has " ++ decimal count ++ " digits" ++ limitAdvice
  | .notNumeral text => "not a number: " ++ Text.quoted text

def isHexDigit (c : Char) : Bool :=
  c.isDigit || ('a' ≤ c && c ≤ 'f')

/-- The value of a decimal digit or of a small letter taken as a digit. -/
def digitValue (c : Char) : Nat :=
  if c.isDigit then c.toNat - '0'.toNat else c.toNat - 'a'.toNat + 10

/-- The value of a text of digits in a base, the first digit weighing most. -/
def valueInBase (base : Nat) (digits : List Char) : Nat :=
  digits.foldl (fun value c => base * value + digitValue c) 0

def hexDigits? : List Char -> Option (List Char)
  | '0' :: 'x' :: digits =>
      if !digits.isEmpty && digits.all isHexDigit then some digits else none
  | _ => none

/-- Read a decimal numeral within the limit. -/
def Decimal.read (numeral : Decimal) : Except Error Int :=
  if numeral.isReadable then .ok numeral.value
  else .error (.tooManyDigits numeral.digits.length)

def read (text : String) : Except Error Int :=
  match hexDigits? text.toList with
  | some digits => .ok (valueInBase 16 digits)
  | none =>
      match Decimal.ofText? text.toList with
      | some numeral => numeral.read
      | none => .error (.notNumeral text)

/-- The decimal text of an integer, unless it exceeds the limit. -/
def decimal? (value : Int) : Option String :=
  if isWritable value then some (decimal value) else none

def unwritableMessage : String :=
  limitNotice ++ limitAdvice

end Numeral
end NibbleMachine
