import NibbleMachine.Instruction

namespace NibbleMachine

/-!
# Tables of an image

A table lists a range of words with their positions and readings as comma
separated values: a header, then a row for each word, each ended by a carriage
return and a line feed.  A value that holds a comma, a quote or a line end is
quoted, and quotes inside it are doubled.

Positions may be negative and then count from the end of the words.  A table
that runs into a position without a word stops there; the rows before it stand.
-/

/-- Whether a value must be quoted. -/
def needsQuotes (value : List Char) : Bool :=
  value.any fun c => c == ',' || c == '"' || c == '\r' || c == '\n'

def tableValue (value : String) : String :=
  if needsQuotes value.toList then
    String.ofList
      ('"' :: (value.toList.flatMap fun c => if c = '"' then ['"', '"'] else [c]) ++ ['"'])
  else value

def tableRow (values : List String) : String :=
  String.intercalate "," (values.map tableValue) ++ "\r\n"

def tableHeader : String :=
  tableRow ["position", "word", "instruction"]

def wordRow (position : Int) (word : Int) : String :=
  tableRow [Numeral.decimal position, wordText word, disassemble word]

/-- The word at a position; a negative position counts from the end. -/
def wordAt? (words : List Int) (position : Int) : Option Int :=
  if 0 ≤ position then words[position.toNat]?
  else if 0 ≤ (words.length : Int) + position then
    words[((words.length : Int) + position).toNat]?
  else none

/-- A table as far as it could be written. -/
structure WrittenTable where
  rows : List String
  complete : Bool
deriving DecidableEq, Repr

/-- The rows of a number of positions from a given one on. -/
def tableRows (words : List Int) (position : Int) : Nat -> WrittenTable
  | 0 => ⟨[], true⟩
  | count + 1 =>
      match wordAt? words position with
      | none => ⟨[], false⟩
      | some word =>
          let later := tableRows words (position + 1) count
          ⟨wordRow position word :: later.rows, later.complete⟩

/-- The table of the positions from `first` to `last`. -/
def imageTable (words : List Int) (first last : Int) : WrittenTable :=
  let body := tableRows words first (last + 1 - first).toNat
  ⟨tableHeader :: body.rows, body.complete⟩

def WrittenTable.text (table : WrittenTable) : String :=
  String.join table.rows

end NibbleMachine
