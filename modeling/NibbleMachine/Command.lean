import NibbleMachine.Word

namespace NibbleMachine

/-!
# Commands

The machine knows four forms of command.  A calculation takes three registers;
an immediate command takes a register and a signed byte; a memory command takes
two registers, the second in brackets; and loading an address takes a register
and a source line.  Every calculation and every immediate command has a nibble
of its own.  The memory commands share one and are told apart by the last
nibble of the word.  Loading an address is encoded as loading the immediate it
resolves to.
-/

/-- Commands on three registers.  Those whose names start with `b` branch to the
address in the first register. -/
inductive CalcOp where
  | add
  | sub
  | xor
  | or
  | and
  | bge
  | beq
  | bgt
deriving DecidableEq, Repr

namespace CalcOp

def all : List CalcOp := [.add, .sub, .xor, .or, .and, .bge, .beq, .bgt]

def mnemonic : CalcOp -> String
  | .add => "add"
  | .sub => "sub"
  | .xor => "xor"
  | .or => "or"
  | .and => "and"
  | .bge => "bge"
  | .beq => "beq"
  | .bgt => "bgt"

/-- The first nibble of the word. -/
def opcode : CalcOp -> Nibble
  | .add => 0b0000
  | .sub => 0b0001
  | .xor => 0b0100
  | .or => 0b0110
  | .and => 0b0111
  | .bge => 0b1001
  | .beq => 0b1011
  | .bgt => 0b1101

def ofOpcode? (nibble : Nibble) : Option CalcOp :=
  all.find? fun op => op.opcode == nibble

theorem ofOpcode?_opcode (op : CalcOp) : ofOpcode? op.opcode = some op := by
  cases op <;> decide

end CalcOp

/-- Commands on a register and a signed byte. -/
inductive ImmOp where
  | addi
  | li
  | xori
  | ori
  | andi
deriving DecidableEq, Repr

namespace ImmOp

def all : List ImmOp := [.addi, .li, .xori, .ori, .andi]

def mnemonic : ImmOp -> String
  | .addi => "addi"
  | .li => "li"
  | .xori => "xori"
  | .ori => "ori"
  | .andi => "andi"

/-- The first nibble of the word. -/
def opcode : ImmOp -> Nibble
  | .addi => 0b1000
  | .li => 0b1010
  | .xori => 0b1100
  | .ori => 0b1110
  | .andi => 0b1111

def ofOpcode? (nibble : Nibble) : Option ImmOp :=
  all.find? fun op => op.opcode == nibble

theorem ofOpcode?_opcode (op : ImmOp) : ofOpcode? op.opcode = some op := by
  cases op <;> decide

end ImmOp

/-- Commands on a register and a memory cell. -/
inductive MemOp where
  | lb
  | sb
deriving DecidableEq, Repr

namespace MemOp

def all : List MemOp := [.lb, .sb]

def mnemonic : MemOp -> String
  | .lb => "lb"
  | .sb => "sb"

/-- The first nibble of every memory command. -/
def opcode : Nibble := 0b0101

/-- The last nibble of the word. -/
def function : MemOp -> Nibble
  | .lb => 0b0000
  | .sb => 0b0001

def ofFunction? (nibble : Nibble) : Option MemOp :=
  all.find? fun op => op.function == nibble

theorem ofFunction?_function (op : MemOp) : ofFunction? op.function = some op := by
  cases op <;> decide

end MemOp

/-- A command as source text may name it. -/
inductive Command where
  | calculate (op : CalcOp)
  | immediate (op : ImmOp)
  | memory (op : MemOp)
  | loadAddress
deriving DecidableEq, Repr

namespace Command

def all : List Command :=
  CalcOp.all.map .calculate ++ ImmOp.all.map .immediate ++ MemOp.all.map .memory ++ [.loadAddress]

def mnemonic : Command -> String
  | .calculate op => op.mnemonic
  | .immediate op => op.mnemonic
  | .memory op => op.mnemonic
  | .loadAddress => "la"

def arity : Command -> Nat
  | .calculate _ => 3
  | .immediate _ => 2
  | .memory _ => 2
  | .loadAddress => 2

def ofMnemonic? (name : String) : Option Command :=
  all.find? fun command => command.mnemonic == name

theorem ofMnemonic?_mnemonic (command : Command) :
    ofMnemonic? command.mnemonic = some command := by
  rcases command with op | op | op | _
  · cases op <;> decide
  · cases op <;> decide
  · cases op <;> decide
  · decide

end Command

end NibbleMachine
