import NibbleMachine.Source.Sweep
import NibbleMachine.Source.Target

namespace NibbleMachine

/-!
# Encoding

A line is encoded as well as its operands allow.  Every operand is read on its
own: a bad one is recorded and counts as zero, and the others keep their
nibbles.  Only a wrong number of operands leaves the line without nibbles.
-/

/-- The nibbles of a line, the problems met, and the value that an address load
resolved to. -/
structure Encoding where
  nibbles : Option Nibbles
  problems : List Problem
  resolved : Option Int
deriving DecidableEq, Repr

/-- Read a register operand, or register zero with a problem. -/
def registerOperand (operand : String) : Nibble × List Problem :=
  match Register.read operand with
  | .ok register => (register.toNibble, [])
  | .error error => (Nibble.zero, [.register error])

/-- Read a memory operand, or register zero with a problem. -/
def memoryOperand (operand : String) : Nibble × List Problem :=
  match memoryRegister? operand with
  | some register => registerOperand register
  | none => (Nibble.zero, [.memoryForm])

def leastImmediate : Int := -128

def greatestImmediate : Int := 127

/-- Read an immediate operand, or zero with a problem.  An immediate too long to
be shown in its problem is a fault. -/
def immediateOperand (operand : String) : Except Fault (Int × List Problem) :=
  match Numeral.read operand with
  | .error _ => .ok (0, [.immediateForm])
  | .ok value =>
      if leastImmediate ≤ value ∧ value ≤ greatestImmediate then .ok (value, [])
      else if Numeral.isWritable value then .ok (0, [.immediateRange value])
      else .error .unwritable

/-- The nibbles of a command whose last two nibbles are a byte. -/
def splitCommand (opcode target : Nibble) (value : Int) : Except Fault Nibbles :=
  match splitByte value with
  | .ok (high, low) => .ok ⟨opcode, target, high, low⟩
  | .error error => .error (.field error)

/-- Encode a command among the lines of its program. -/
def encodeOrder (lines : List Line) (order : Order) : Except Fault Encoding :=
  match order.command, order.operands with
  | .calculate op, [first, second, third] =>
      let (target, targetProblems) := registerOperand first
      let (left, leftProblems) := registerOperand second
      let (right, rightProblems) := registerOperand third
      .ok {
        nibbles := some ⟨op.opcode, target, left, right⟩
        problems := targetProblems ++ leftProblems ++ rightProblems
        resolved := none }
  | .immediate op, [first, second] => do
      let (target, targetProblems) := registerOperand first
      let (value, valueProblems) ← immediateOperand second
      let nibbles ← splitCommand op.opcode target value
      return {
        nibbles := some nibbles
        problems := targetProblems ++ valueProblems
        resolved := none }
  | .memory op, [first, second] =>
      let (target, targetProblems) := registerOperand first
      let (address, addressProblems) := memoryOperand second
      .ok {
        nibbles := some ⟨MemOp.opcode, target, address, op.function⟩
        problems := targetProblems ++ addressProblems
        resolved := none }
  | .loadAddress, [first, second] => do
      let (target, targetProblems) := registerOperand first
      let (value, valueProblems) ← resolveTarget lines second
      let nibbles ← splitCommand ImmOp.li.opcode target value
      return {
        nibbles := some nibbles
        problems := targetProblems ++ valueProblems
        resolved := some value }
  | command, operands =>
      .ok {
        nibbles := none
        problems := [.commandArity command.arity operands.length]
        resolved := none }

/-- Show a resolved value in place of the third token. -/
def showResolved (tokens : Option (List String)) :
    Option Int -> Except Fault (Option (List String))
  | none => .ok tokens
  | some value =>
      match tokens with
      | none => .error .untokenized
      | some tokens =>
          if 2 < tokens.length then .ok (some (tokens.set 2 (Numeral.decimal value)))
          else .error .missingToken

/-- Store the nibbles of a line, and then the word that they make. -/
def Line.store (line : Line) (nibbles : Option Nibbles) : Line :=
  { line with nibbles := nibbles, word := packOrZero (nibbles.map Nibbles.elements) }

namespace Line

@[simp]
theorem valid_store (line : Line) (nibbles : Option Nibbles) :
    (line.store nibbles).valid = line.valid :=
  rfl

@[simp]
theorem tokens_store (line : Line) (nibbles : Option Nibbles) :
    (line.store nibbles).tokens = line.tokens :=
  rfl

@[simp]
theorem order_store (line : Line) (nibbles : Option Nibbles) :
    (line.store nibbles).order = line.order :=
  rfl

@[simp]
theorem nibbles_store (line : Line) (nibbles : Option Nibbles) :
    (line.store nibbles).nibbles = nibbles :=
  rfl

end Line

def encodeLine (lines : List Line) (line : Line) : Except Fault (Line × List Finding) :=
  match line.order with
  | none => .error .unresolved
  | some order => do
      let encoding ← encodeOrder lines order
      let tokens ← showResolved line.tokens encoding.resolved
      return ({ line with tokens := tokens }.store encoding.nibbles,
        encoding.problems.map (Finding.atLine line.number))

def encodeLines (lines : List Line) : Swept Finding :=
  sweep (encodeLine lines) lines

end NibbleMachine
