import NibbleMachine.Command

namespace NibbleMachine

/-!
# Instructions

Decoding reads a word as an instruction: a command with the registers and the
immediate found in the other nibbles.  Registers are read as whole nibbles, so
an instruction may name a register that the machine does not have.  A word
whose nibbles select no command is plain data.  Loading an address is never
read back, because its word is the one of loading an immediate.
-/

/-- The reading of a word. -/
inductive Instruction where
  | calculate (op : CalcOp) (target left right : Nibble)
  | immediate (op : ImmOp) (target : Nibble) (value : Int)
  | memory (op : MemOp) (target address : Nibble)
  | data (word : Int)
deriving DecidableEq, Repr

namespace Instruction

def decode (word : Int) : Instruction :=
  let nibbles := Nibbles.ofWord word
  if nibbles.command = MemOp.opcode then
    match MemOp.ofFunction? nibbles.fourth with
    | some op => .memory op nibbles.target nibbles.third
    | none => .data word
  else
    match CalcOp.ofOpcode? nibbles.command, ImmOp.ofOpcode? nibbles.command with
    | some op, _ => .calculate op nibbles.target nibbles.third nibbles.fourth
    | none, some op => .immediate op nibbles.target (signedByte word)
    | none, none => .data word

/-- A nibble written as a register. -/
def registerText (nibble : Nibble) : String :=
  "r" ++ Numeral.decimal nibble.val

/-- A binary word directive. -/
def dataText (word : Int) : String :=
  ".word 0b" ++ wordText word

def text : Instruction -> String
  | .calculate op target left right =>
      op.mnemonic ++ " " ++ registerText target ++ ", " ++ registerText left ++ ", "
        ++ registerText right
  | .immediate op target value =>
      op.mnemonic ++ " " ++ registerText target ++ ", " ++ Numeral.decimal value
  | .memory op target address =>
      op.mnemonic ++ " " ++ registerText target ++ ", (" ++ registerText address ++ ")"
  | .data word => dataText word

end Instruction

/-- The text of a word read as an instruction. -/
def disassemble (word : Int) : String :=
  (Instruction.decode word).text

end NibbleMachine
