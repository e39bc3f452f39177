import NibbleMachine.Numeral.Operand
import NibbleMachine.Text.Blank
import NibbleMachine.Text.DigitTable

namespace NibbleMachine
namespace Numeral

/-!
# Numerals with a radix mark

The ends of a memory range are written more freely than operands.  Blanks may
stand around the numeral and a sign in front of it.  A radix mark (`0x`, `0o`
or `0b`, in either case) chooses the base; without one the base is ten, and a
numeral that starts with a zero must then be zero.  Digits may be grouped by
single underscores, also right after the mark, and may come from any script.
Decimal numerals obey the limit on digits.
-/

/-- The blanks of the ASCII range that may surround a numeral. -/
def isPlainBlank (c : Char) : Bool :=
  c == ' ' || ('\t' ≤ c && c ≤ '\r')

/-- Write digits and blanks outside the ASCII range by their ASCII equivalents. -/
def plainChar (c : Char) : Char :=
  if c.toNat < 128 then c
  else if Text.isBlank c then ' '
  else match Text.digitOfAnyScript? c with
    | some value => Char.ofNat ('0'.toNat + value)
    | none => c

def radix? (mark : Char) : Option Nat :=
  if mark == 'x' || mark == 'X' then some 16
  else if mark == 'o' || mark == 'O' then some 8
  else if mark == 'b' || mark == 'B' then some 2
  else none

/-- The value of a digit or letter as a digit of some base up to sixteen. -/
def digitInBase? (base : Nat) (c : Char) : Option Nat :=
  let small := c.toLower
  if isHexDigit small && digitValue small < base then some (digitValue small) else none

/-- The digits of a text in which single underscores may group them. -/
def groupedDigits? (base : Nat) (text : List Char) : Option (List Nat) :=
  let groups := text.splitOn '_'
  if groups.any List.isEmpty then none
  else groups.flatten.mapM (digitInBase? base)

/-- The value of a list of digits, the first weighing most. -/
def ofDigits (base : Nat) (digits : List Nat) : Nat :=
  digits.foldl (fun value digit => base * value + digit) 0

/-- Read digits after a radix mark, which one underscore may follow. -/
def markedValue? (base : Nat) (text : List Char) : Option Nat :=
  let body := match text with
    | '_' :: rest => rest
    | _ => text
  (groupedDigits? base body).map (ofDigits base)

def plainValue? (text : List Char) : Option Nat := do
  let digits ← groupedDigits? 10 text
  if digits.length > digitLimit then none
  else
    let value := ofDigits 10 digits
    if text.head? = some '0' && value ≠ 0 then none else some value

/-- Read an unsigned numeral, with or without a radix mark. -/
def unsignedValue? : List Char -> Option Nat
  | '0' :: mark :: rest =>
      match radix? mark with
      | some base => markedValue? base rest
      | none => plainValue? ('0' :: mark :: rest)
  | text => plainValue? text

/-- Read a numeral with an optional sign and radix mark. -/
def literal? (text : List Char) : Option Int :=
  let (negative, magnitude) := splitSign (Text.trimBy isPlainBlank (text.map plainChar))
  (unsignedValue? magnitude).map (signed negative)

end Numeral
end NibbleMachine
