import NibbleMachine.Instruction

namespace NibbleMachine

/-!
# Instruction records

A record describes an instruction by named parts, any of which may be missing.
Its text asks for the parts one after the other, in the order in which they are
needed to choose the form and then to fill it, and fails at the first missing
one.  Parts are taken as they are: the text of a record is not restricted to
mnemonics, registers or immediates that exist.
-/

inductive RecordPart where
  | mnemonic
  | form
  | word
  | target
  | left
  | right
  | immediate
deriving DecidableEq, Repr

/-- An instruction described by parts. -/
structure InstructionRecord where
  mnemonic : Option String := none
  form : Option String := none
  word : Option Int := none
  target : Option Int := none
  left : Option Int := none
  right : Option Int := none
  immediate : Option Int := none
deriving DecidableEq, Repr

namespace InstructionRecord

/-- The mnemonic that marks plain data. -/
def unknown : String := "?"

/-- A part that has to be there. -/
def require {α : Type} (part : RecordPart) : Option α -> Except RecordPart α
  | some value => .ok value
  | none => .error part

def registerPart (part : RecordPart) (number : Option Int) : Except RecordPart String :=
  (require part number).map fun value => "r" ++ Numeral.decimal value

/-- The text of a record.  A form other than a calculation or an immediate
command is written like a memory command. -/
def text (record : InstructionRecord) : Except RecordPart String := do
  let mnemonic ← require .mnemonic record.mnemonic
  if mnemonic = unknown then
    return Instruction.dataText (← require .word record.word)
  let form ← require .form record.form
  let target ← registerPart .target record.target
  if form = "calc" then
    let left ← registerPart .left record.left
    let right ← registerPart .right record.right
    return mnemonic ++ " " ++ target ++ ", " ++ left ++ ", " ++ right
  else if form = "imm" then
    let value ← require .immediate record.immediate
    return mnemonic ++ " " ++ target ++ ", " ++ Numeral.decimal value
  else
    let address ← registerPart .left record.left
    return mnemonic ++ " " ++ target ++ ", (" ++ address ++ ")"

end InstructionRecord

/-- The record of an instruction; only the parts of its form are present. -/
def Instruction.record : Instruction -> InstructionRecord
  | .calculate op target left right =>
      { mnemonic := some op.mnemonic, form := some "calc", target := some target.val,
        left := some left.val, right := some right.val }
  | .immediate op target value =>
      { mnemonic := some op.mnemonic, form := some "imm", target := some target.val,
        immediate := some value }
  | .memory op target address =>
      { mnemonic := some op.mnemonic, form := some "mem", target := some target.val,
        left := some address.val }
  | .data word => { mnemonic := some InstructionRecord.unknown, word := some word }

/-- The record of an instruction is complete and has the instruction's text. -/
theorem Instruction.text_record (instruction : Instruction) :
    instruction.record.text = .ok instruction.text := by
  cases instruction with
  | calculate op target left right => cases op <;> rfl
  | immediate op target value => cases op <;> rfl
  | memory op target address => cases op <;> rfl
  | data word => rfl

end NibbleMachine
