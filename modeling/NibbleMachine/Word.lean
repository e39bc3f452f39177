import NibbleMachine.Field
import NibbleMachine.Numeral.Binary

namespace NibbleMachine

/-!
# Words and nibbles

A word of the machine is sixteen bits, read as four nibbles with the highest
first.  Words are kept as integers because a word under examination may be any
integer: its nibbles are then those of its infinite two's complement, which
division rounding down and remainder give directly.
-/

abbrev Nibble := Fin 16

def Nibble.zero : Nibble := ⟨0, by decide⟩

def wordBits : Nat := 16

/-- The nibble of an integer at a place, counted from the lowest. -/
def nibbleAt : Nat -> Int -> Nibble
  | 0, value => ⟨(value % 16).toNat, by omega⟩
  | place + 1, value => nibbleAt place (value / 16)

/-- Join nibbles into a number, the first weighing most.  Only the lowest four
bits of each element count. -/
def pack (elements : List Int) : Int :=
  elements.foldl (fun word element => 16 * word + element % 16) 0

/-- Join nibbles that may be missing; without any the word is zero. -/
def packOrZero : Option (List Int) -> Int
  | some elements => pack elements
  | none => 0

/-- The four nibbles of a word.  The first selects the command; the second names
the destination register; the last two hold registers, a byte or a function. -/
structure Nibbles where
  command : Nibble
  target : Nibble
  third : Nibble
  fourth : Nibble
deriving DecidableEq, Repr

namespace Nibbles

def toList (nibbles : Nibbles) : List Nibble :=
  [nibbles.command, nibbles.target, nibbles.third, nibbles.fourth]

def elements (nibbles : Nibbles) : List Int :=
  nibbles.toList.map fun nibble => (nibble.val : Int)

def word (nibbles : Nibbles) : Int :=
  pack nibbles.elements

/-- The lowest four nibbles of an integer. -/
def ofWord (word : Int) : Nibbles where
  command := nibbleAt 3 word
  target := nibbleAt 2 word
  third := nibbleAt 1 word
  fourth := nibbleAt 0 word

end Nibbles

/-- The two nibbles of the lowest byte of an integer. -/
def byteNibbles (value : Int) : Nibble × Nibble :=
  (nibbleAt 1 value, nibbleAt 0 value)

/-- The two nibbles of an integer that fits into a byte. -/
def splitByte (value : Int) : Except Field.Error (Nibble × Nibble) :=
  (Field.place value 8).map byteNibbles

def signedByte (value : Int) : Int :=
  if 128 ≤ value % 256 then value % 256 - 256 else value % 256

/-- A word in binary with all sixteen bits. -/
def wordText (word : Int) : String :=
  Numeral.binary wordBits word

/-- The first sixteen characters of a word's binary text in groups of four. -/
def nibbleText (word : Int) : String :=
  let bits := Numeral.binaryDigits wordBits word
  let group (start : Nat) : String := String.ofList ((bits.drop start).take 4)
  String.intercalate " " [group 0, group 4, group 8, group 12]

/-- Packing four nibbles weighs them by powers of sixteen. -/
theorem Nibbles.word_eq (nibbles : Nibbles) :
    nibbles.word = 4096 * (nibbles.command.val : Int) + 256 * nibbles.target.val
      + 16 * nibbles.third.val + nibbles.fourth.val := by
  simp only [Nibbles.word, Nibbles.elements, Nibbles.toList, pack, List.map, List.foldl]
  omega

/-- Four nibbles are recovered from the word they make. -/
theorem Nibbles.ofWord_word (nibbles : Nibbles) : Nibbles.ofWord nibbles.word = nibbles := by
  rw [Nibbles.word_eq]
  obtain ⟨command, target, third, fourth⟩ := nibbles
  simp only [Nibbles.ofWord, nibbleAt, Nibbles.mk.injEq]
  refine ⟨?_, ?_, ?_, ?_⟩ <;> apply Fin.ext <;> simp only <;> omega

end NibbleMachine
