import NibbleMachine.Instruction
import NibbleMachine.Proofs.Field
import NibbleMachine.Proofs.Numeral
import NibbleMachine.Proofs.Sweep
import NibbleMachine.Source.Encode
import Mathlib.Data.List.Basic

namespace NibbleMachine

/-!
# Operands that are read without a problem

Every operand reader falls back to a value and reports a problem when the
operand is not well formed.  The statements here say for each reader which
operands it takes without a problem and what it reads from them.

Two relations collect the forms of a command.  `EncodedAs` is what encoding gives
in each form, whatever its operands; `ClearEncoding` is the part of it without a
problem.  Later arguments split on the cases of one of them and never open the
encoder.
-/

/-! ## Registers -/

theorem read_registerText (register : Register) :
    Register.read (Instruction.registerText register.toNibble) = .ok register := by
  have readAll : forall other : Register,
      (Register.read (Instruction.registerText other.toNibble)).toOption = some other := by
    decide +kernel
  have here := readAll register
  cases read : Register.read (Instruction.registerText register.toNibble) with
  | error error =>
      rw [read] at here
      cases here
  | ok found =>
      rw [read] at here
      exact congrArg Except.ok (Option.some.inj here)

theorem registerText_toList (nibble : Nibble) :
    (Instruction.registerText nibble).toList = 'r' :: Nat.toDigits 10 nibble.val := by
  simp [Instruction.registerText, Numeral.decimal, Numeral.decimalDigits]

/-- The registers are read from their own texts only. -/
theorem Register.read_eq_ok_iff (operand : String) (register : Register) :
    Register.read operand = .ok register <->
      operand = Instruction.registerText register.toNibble := by
  constructor
  · intro read
    unfold Register.read at read
    split at read
    · next digit shape =>
        split at read
        · next within =>
            cases read
            apply String.toList_inj.mp
            rw [shape, registerText_toList, Nat.toDigits_of_lt_base]
            · exact congrArg (fun c => ['r', c]) (Numeral.digitChar_of_isDigit within.1).symm
            · exact Nat.lt_trans within.2 (by decide)
        · cases read
    · cases read
  · rintro rfl
    exact read_registerText register

/-- A register operand is taken without a problem when it is a register. -/
theorem registerOperand_eq_clear_iff (operand : String) (nibble : Nibble) :
    registerOperand operand = (nibble, []) <->
      Exists fun register : Register =>
        operand = Instruction.registerText register.toNibble ∧ nibble = register.toNibble := by
  unfold registerOperand
  cases read : Register.read operand with
  | error error =>
      constructor
      · intro clear
        simp at clear
      · rintro ⟨register, written, -⟩
        rw [written, read_registerText] at read
        cases read
  | ok register =>
      have written := (Register.read_eq_ok_iff operand register).mp read
      constructor
      · intro clear
        exact ⟨register, written, (congrArg Prod.fst clear).symm⟩
      · rintro ⟨other, alsoWritten, rfl⟩
        rw [alsoWritten, read_registerText] at read
        cases read
        rfl

@[simp] theorem registerOperand_registerText (register : Register) :
    registerOperand (Instruction.registerText register.toNibble) = (register.toNibble, []) :=
  (registerOperand_eq_clear_iff _ _).mpr ⟨register, rfl, rfl⟩

/-! ## Memory operands -/

def memoryText (register : Register) : String :=
  "(" ++ Instruction.registerText register.toNibble ++ ")"

theorem memoryRegister?_memoryText (register : Register) :
    memoryRegister? (memoryText register) = some (Instruction.registerText register.toNibble) := by
  revert register
  decide +kernel

/-- A memory operand is taken without a problem when it is a register in round
brackets. -/
theorem memoryOperand_eq_clear_iff (operand : String) (nibble : Nibble) :
    memoryOperand operand = (nibble, []) <->
      Exists fun register : Register =>
        operand = memoryText register ∧ nibble = register.toNibble := by
  constructor
  · intro clear
    unfold memoryOperand memoryRegister? at clear
    split at clear
    · next inner found =>
        split at found
        · next first second shape =>
            cases found
            rcases (registerOperand_eq_clear_iff _ _).mp clear with ⟨register, written, same⟩
            refine ⟨register, ?_, same⟩
            apply String.toList_inj.mp
            rw [shape, memoryText, ← written]
            simp
        · cases found
    · simp at clear
  · rintro ⟨register, rfl, rfl⟩
    rw [memoryOperand, memoryRegister?_memoryText]
    exact registerOperand_registerText register

@[simp] theorem memoryOperand_memoryText (register : Register) :
    memoryOperand (memoryText register) = (register.toNibble, []) :=
  (memoryOperand_eq_clear_iff _ _).mpr ⟨register, rfl, rfl⟩

/-! ## Immediates and line numbers -/

/-- An immediate is taken without a problem when it is a numeral of a signed
byte. -/
theorem immediateOperand_eq_clear_iff (operand : String) (value : Int) :
    immediateOperand operand = .ok (value, []) <->
      Numeral.read operand = .ok value ∧ -128 ≤ value ∧ value ≤ 127 := by
  unfold immediateOperand leastImmediate greatestImmediate
  cases read : Numeral.read operand with
  | error error => simp
  | ok number =>
      by_cases within : -128 ≤ number ∧ number ≤ 127
      · simp only [if_pos within, Except.ok.injEq, Prod.mk.injEq, and_true]
        constructor
        · rintro rfl
          exact ⟨rfl, within⟩
        · intro same
          exact same.1
      · simp only [if_neg within]
        constructor
        · intro clear
          split at clear <;> simp at clear
        · rintro ⟨same, bounds⟩
          cases same
          exact absurd bounds within

/-- A line number is taken without a problem when it is a decimal numeral within
the limit on digits and positive. -/
theorem targetLine_eq_clear_iff (operand : String) (number : Int) :
    targetLine operand = .ok (number, []) <->
      Exists fun numeral : Numeral.Decimal =>
        Numeral.Decimal.ofText? operand.toList = some numeral ∧ numeral.isReadable = true ∧
          numeral.value = number ∧ 0 < number := by
  unfold targetLine
  cases recognised : Numeral.Decimal.ofText? operand.toList with
  | none => simp
  | some numeral =>
      simp only [Option.some.injEq, exists_eq_left']
      cases readable : numeral.isReadable with
      | false => simp
      | true =>
          by_cases positive : numeral.value ≤ 0
          · simp only [Bool.not_true, Bool.false_eq_true, if_false, if_pos positive]
            constructor
            · intro clear
              simp at clear
            · rintro ⟨-, rfl, above⟩
              omega
          · simp only [Bool.not_true, Bool.false_eq_true, if_false, if_neg positive]
            constructor
            · intro clear
              simp only [Except.ok.injEq, Prod.mk.injEq, and_true] at clear
              exact ⟨trivial, clear, by omega⟩
            · rintro ⟨-, rfl, -⟩
              rfl

/-- A target is taken without a problem when its line number is, a valid line
follows, and that line has a position within the image. -/
theorem resolveTarget_eq_clear_iff (lines : List Line) (operand : String) (value : Int) :
    resolveTarget lines operand = .ok (value, []) <->
      Exists fun number : Int => Exists fun line : Line =>
        targetLine operand = .ok (number, []) ∧ nextValid? lines number = some line ∧
          line.position.getD 0 < imageSize ∧ value = signedByte (line.position.getD 0) := by
  unfold resolveTarget
  cases named : targetLine operand with
  | error fault => simp [bind, Except.bind]
  | ok result =>
      rcases result with ⟨number, problems⟩
      simp only [bind, Except.bind, pure, Except.pure]
      cases found : nextValid? lines number with
      | none =>
          simp only [targetPosition, found]
          constructor
          · intro clear
            cases lines <;> simp at clear
          · rintro ⟨other, line, same, next, -⟩
            cases same
            rw [found] at next
            cases next
      | some line =>
          simp only [targetPosition, found]
          constructor
          · intro clear
            simp only [List.append_nil, Except.ok.injEq, Prod.mk.injEq,
              List.append_eq_nil_iff] at clear
            rcases clear with ⟨sameValue, clearLine, clearRange⟩
            refine ⟨number, line, by rw [clearLine], found, ?_, sameValue.symm⟩
            by_cases within : line.position.getD 0 < imageSize
            · exact within
            · simp [within] at clearRange
          · rintro ⟨other, target, same, next, within, rfl⟩
            cases same
            rw [found] at next
            cases next
            simp [within]

/-! ## Bytes that are cut into nibbles -/

theorem signedByte_bounds (value : Int) : -128 ≤ signedByte value ∧ signedByte value ≤ 127 := by
  unfold signedByte
  split
  · omega
  · omega

theorem splitByte_of_signedByte {value : Int} (least : -128 ≤ value) (greatest : value ≤ 127) :
    splitByte value = .ok (byteNibbles value) :=
  splitByte_of_accepted ⟨by omega, by omega⟩

theorem splitByte_of_immediateOperand {operand : String} {value : Int} {problems : List Problem}
    (reads : immediateOperand operand = .ok (value, problems)) :
    splitByte value = .ok (byteNibbles value) := by
  unfold immediateOperand leastImmediate greatestImmediate at reads
  split at reads
  · cases reads
    rfl
  · split at reads
    · next within =>
        cases reads
        exact splitByte_of_signedByte within.1 within.2
    · split at reads
      · cases reads
        rfl
      · cases reads

theorem splitByte_of_resolveTarget {lines : List Line} {operand : String} {value : Int}
    {problems : List Problem} (resolves : resolveTarget lines operand = .ok (value, problems)) :
    splitByte value = .ok (byteNibbles value) := by
  unfold resolveTarget at resolves
  rcases exists_of_bind_eq_ok resolves with ⟨⟨number, lineProblems⟩, -, named⟩
  rcases exists_of_bind_eq_ok named with ⟨⟨position, positionProblems⟩, -, placed⟩
  cases placed
  exact splitByte_of_signedByte (signedByte_bounds position).1 (signedByte_bounds position).2

/-- The nibbles of a command whose last two nibbles are the lowest byte of a value. -/
def byteCommand (opcode target : Nibble) (value : Int) : Nibbles :=
  let (high, low) := byteNibbles value
  ⟨opcode, target, high, low⟩

theorem splitCommand_of_splitByte {value : Int} (fits : splitByte value = .ok (byteNibbles value))
    (opcode target : Nibble) :
    splitCommand opcode target value = .ok (byteCommand opcode target value) := by
  rw [splitCommand, fits]
  rfl

/-- The values that a byte is made of always fit, so encoding a command with a byte goes on
with its nibbles. -/
theorem splitCommand_of_immediateOperand {operand : String} {value : Int}
    {problems : List Problem} (reads : immediateOperand operand = .ok (value, problems))
    (opcode target : Nibble) :
    splitCommand opcode target value = .ok (byteCommand opcode target value) :=
  splitCommand_of_splitByte (splitByte_of_immediateOperand reads) opcode target

theorem splitCommand_of_resolveTarget {lines : List Line} {operand : String} {value : Int}
    {problems : List Problem} (resolves : resolveTarget lines operand = .ok (value, problems))
    (opcode target : Nibble) :
    splitCommand opcode target value = .ok (byteCommand opcode target value) :=
  splitCommand_of_splitByte (splitByte_of_resolveTarget resolves) opcode target

/-! ## Commands -/

/-- A command has as many operands as it takes, or a wrong number of them. -/
inductive Order.HasForm : Order -> Prop
  | calculate (op : CalcOp) (first second third : String) :
      Order.HasForm ⟨.calculate op, [first, second, third]⟩
  | immediate (op : ImmOp) (first second : String) : Order.HasForm ⟨.immediate op, [first, second]⟩
  | memory (op : MemOp) (first second : String) : Order.HasForm ⟨.memory op, [first, second]⟩
  | loadAddress (first second : String) : Order.HasForm ⟨.loadAddress, [first, second]⟩
  | miscounted (command : Command) (operands : List String)
      (wrong : operands.length ≠ command.arity) : Order.HasForm ⟨command, operands⟩

theorem Order.hasForm (order : Order) : order.HasForm := by
  rcases order with ⟨command, operands⟩
  by_cases count : operands.length = command.arity
  · cases command with
    | calculate op =>
        rcases List.length_eq_three.mp count with ⟨first, second, third, rfl⟩
        exact .calculate op first second third
    | immediate op =>
        rcases List.length_eq_two.mp count with ⟨first, second, rfl⟩
        exact .immediate op first second
    | memory op =>
        rcases List.length_eq_two.mp count with ⟨first, second, rfl⟩
        exact .memory op first second
    | loadAddress =>
        rcases List.length_eq_two.mp count with ⟨first, second, rfl⟩
        exact .loadAddress first second
  · exact .miscounted command operands count

theorem encodeOrder_immediate (lines : List Line) (op : ImmOp) (first second : String) :
    encodeOrder lines ⟨.immediate op, [first, second]⟩ =
      (immediateOperand second).map fun read =>
        ⟨some (byteCommand op.opcode (registerOperand first).1 read.1),
          (registerOperand first).2 ++ read.2, none⟩ := by
  cases reads : immediateOperand second with
  | error fault => simp only [encodeOrder, reads, bind, Except.bind, Except.map]
  | ok read =>
      simp only [encodeOrder, reads, splitCommand_of_immediateOperand reads, bind, Except.bind,
        pure, Except.pure, Except.map]

theorem encodeOrder_loadAddress (lines : List Line) (first second : String) :
    encodeOrder lines ⟨.loadAddress, [first, second]⟩ =
      (resolveTarget lines second).map fun read =>
        ⟨some (byteCommand ImmOp.li.opcode (registerOperand first).1 read.1),
          (registerOperand first).2 ++ read.2, some read.1⟩ := by
  cases resolves : resolveTarget lines second with
  | error fault => simp only [encodeOrder, resolves, bind, Except.bind, Except.map]
  | ok read =>
      simp only [encodeOrder, resolves, splitCommand_of_resolveTarget resolves, bind, Except.bind,
        pure, Except.pure, Except.map]

/-- A command with the wrong number of operands has no nibbles and one problem. -/
theorem encodeOrder_of_wrong_count (lines : List Line) {order : Order}
    (wrong : order.operands.length ≠ order.command.arity) :
    encodeOrder lines order =
      .ok ⟨none, [.commandArity order.command.arity order.operands.length], none⟩ := by
  rcases order with ⟨command, operands⟩
  unfold encodeOrder
  dsimp only
  split
  all_goals first
    | exact absurd rfl wrong
    | rfl

/-- What encoding a command gives, by its form: every operand is read on its own,
and a wrong number of operands leaves nothing to read. -/
inductive EncodedAs (lines : List Line) : Order -> Encoding -> Prop
  | calculate (op : CalcOp) (first second third : String) :
      EncodedAs lines ⟨.calculate op, [first, second, third]⟩
        ⟨some ⟨op.opcode, (registerOperand first).1, (registerOperand second).1,
            (registerOperand third).1⟩,
          (registerOperand first).2 ++ (registerOperand second).2 ++ (registerOperand third).2,
          none⟩
  | immediate (op : ImmOp) (first second : String) (value : Int) (problems : List Problem)
      (reads : immediateOperand second = .ok (value, problems)) :
      EncodedAs lines ⟨.immediate op, [first, second]⟩
        ⟨some (byteCommand op.opcode (registerOperand first).1 value),
          (registerOperand first).2 ++ problems, none⟩
  | memory (op : MemOp) (first second : String) :
      EncodedAs lines ⟨.memory op, [first, second]⟩
        ⟨some ⟨MemOp.opcode, (registerOperand first).1, (memoryOperand second).1, op.function⟩,
          (registerOperand first).2 ++ (memoryOperand second).2, none⟩
  | loadAddress (first second : String) (value : Int) (problems : List Problem)
      (resolves : resolveTarget lines second = .ok (value, problems)) :
      EncodedAs lines ⟨.loadAddress, [first, second]⟩
        ⟨some (byteCommand ImmOp.li.opcode (registerOperand first).1 value),
          (registerOperand first).2 ++ problems, some value⟩
  | miscounted (command : Command) (operands : List String)
      (wrong : operands.length ≠ command.arity) :
      EncodedAs lines ⟨command, operands⟩
        ⟨none, [.commandArity command.arity operands.length], none⟩

theorem encodeOrder_of_encodedAs {lines : List Line} {order : Order} {encoding : Encoding}
    (encoded : EncodedAs lines order encoding) : encodeOrder lines order = .ok encoding := by
  cases encoded with
  | calculate op first second third => rfl
  | immediate op first second value problems reads =>
      rw [encodeOrder_immediate, reads]
      rfl
  | memory op first second => rfl
  | loadAddress first second value problems resolves =>
      rw [encodeOrder_loadAddress, resolves]
      rfl
  | miscounted command operands wrong => exact encodeOrder_of_wrong_count lines wrong

/-- Encoding gives the outcome of the command's form and no other. -/
theorem encodeOrder_eq_ok_iff (lines : List Line) (order : Order) (encoding : Encoding) :
    encodeOrder lines order = .ok encoding <-> EncodedAs lines order encoding := by
  refine ⟨?_, encodeOrder_of_encodedAs⟩
  intro encoded
  cases order.hasForm with
  | calculate op first second third =>
      cases encoded
      exact .calculate op first second third
  | immediate op first second =>
      rw [encodeOrder_immediate] at encoded
      rcases exists_of_map_eq_ok encoded with ⟨read, reads, rfl⟩
      exact .immediate op first second read.1 read.2 reads
  | memory op first second =>
      cases encoded
      exact .memory op first second
  | loadAddress first second =>
      rw [encodeOrder_loadAddress] at encoded
      rcases exists_of_map_eq_ok encoded with ⟨read, resolves, rfl⟩
      exact .loadAddress first second read.1 read.2 resolves
  | miscounted command operands wrong =>
      rw [encodeOrder_of_wrong_count lines wrong] at encoded
      cases encoded
      exact .miscounted command operands wrong

/-- The encodings that give no problem, by the form of the command. -/
inductive ClearEncoding (lines : List Line) : Order -> Encoding -> Prop
  | calculate (op : CalcOp) (target left right : Register) :
      ClearEncoding lines
        ⟨.calculate op, [Instruction.registerText target.toNibble,
          Instruction.registerText left.toNibble, Instruction.registerText right.toNibble]⟩
        ⟨some ⟨op.opcode, target.toNibble, left.toNibble, right.toNibble⟩, [], none⟩
  | immediate (op : ImmOp) (target : Register) (numeral : String) (value : Int)
      (reads : immediateOperand numeral = .ok (value, [])) :
      ClearEncoding lines
        ⟨.immediate op, [Instruction.registerText target.toNibble, numeral]⟩
        ⟨some (byteCommand op.opcode target.toNibble value), [], none⟩
  | memory (op : MemOp) (target address : Register) :
      ClearEncoding lines
        ⟨.memory op, [Instruction.registerText target.toNibble, memoryText address]⟩
        ⟨some ⟨MemOp.opcode, target.toNibble, address.toNibble, op.function⟩, [], none⟩
  | loadAddress (target : Register) (operand : String) (value : Int)
      (resolves : resolveTarget lines operand = .ok (value, [])) :
      ClearEncoding lines
        ⟨.loadAddress, [Instruction.registerText target.toNibble, operand]⟩
        ⟨some (byteCommand ImmOp.li.opcode target.toNibble value), [], some value⟩

theorem encodeOrder_of_clear {lines : List Line} {order : Order} {encoding : Encoding}
    (clear : ClearEncoding lines order encoding) : encodeOrder lines order = .ok encoding := by
  cases clear with
  | calculate op target left right => simp [encodeOrder]
  | immediate op target numeral value reads =>
      rw [encodeOrder_immediate, reads]
      simp [Except.map]
  | memory op target address => simp [encodeOrder]
  | loadAddress target operand value resolves =>
      rw [encodeOrder_loadAddress, resolves]
      simp [Except.map]

theorem problems_of_clear {lines : List Line} {order : Order} {encoding : Encoding}
    (clear : ClearEncoding lines order encoding) : encoding.problems = [] := by
  cases clear <;> rfl

theorem registerText_of_no_problems {operand : String} (none : (registerOperand operand).2 = []) :
    Exists fun register : Register =>
      operand = Instruction.registerText register.toNibble :=
  ((registerOperand_eq_clear_iff operand _).mp (Prod.ext rfl none)).imp
    fun _ read => read.1

theorem memoryText_of_no_problems {operand : String} (none : (memoryOperand operand).2 = []) :
    Exists fun register : Register => operand = memoryText register :=
  ((memoryOperand_eq_clear_iff operand _).mp (Prod.ext rfl none)).imp
    fun _ read => read.1

/-- Encoding gives no problem in the four clear forms only. -/
theorem clear_of_encodeOrder {lines : List Line} {order : Order} {encoding : Encoding}
    (encoded : encodeOrder lines order = .ok encoding) (none : encoding.problems = []) :
    ClearEncoding lines order encoding := by
  cases (encodeOrder_eq_ok_iff _ _ _).mp encoded with
  | calculate op first second third =>
      simp only [List.append_eq_nil_iff] at none
      rcases registerText_of_no_problems none.1.1 with ⟨target, rfl⟩
      rcases registerText_of_no_problems none.1.2 with ⟨left, rfl⟩
      rcases registerText_of_no_problems none.2 with ⟨right, rfl⟩
      simpa using ClearEncoding.calculate op target left right
  | immediate op first second value problems reads =>
      simp only [List.append_eq_nil_iff] at none
      rcases none with ⟨clearTarget, rfl⟩
      rcases registerText_of_no_problems clearTarget with ⟨target, rfl⟩
      simpa using ClearEncoding.immediate op target second value reads
  | memory op first second =>
      simp only [List.append_eq_nil_iff] at none
      rcases registerText_of_no_problems none.1 with ⟨target, rfl⟩
      rcases memoryText_of_no_problems none.2 with ⟨address, rfl⟩
      simpa using ClearEncoding.memory op target address
  | loadAddress first second value problems resolves =>
      simp only [List.append_eq_nil_iff] at none
      rcases none with ⟨clearTarget, rfl⟩
      rcases registerText_of_no_problems clearTarget with ⟨target, rfl⟩
      simpa using ClearEncoding.loadAddress target second value resolves
  | miscounted => cases none

/-- Only an address load resolves a value. -/
theorem loadAddress_of_resolved {lines : List Line} {order : Order} {encoding : Encoding}
    {value : Int} (encoded : encodeOrder lines order = .ok encoding)
    (resolved : encoding.resolved = some value) :
    Exists fun target => Exists fun operand => order = ⟨.loadAddress, [target, operand]⟩ := by
  cases (encodeOrder_eq_ok_iff _ _ _).mp encoded with
  | loadAddress first second => exact ⟨first, second, rfl⟩
  | calculate | immediate | memory | miscounted => cases resolved

/-- Encoding an address load has read its line number. -/
theorem targetLine_of_encodeOrder {lines : List Line} {target operand : String}
    {encoding : Encoding}
    (encoded : encodeOrder lines ⟨.loadAddress, [target, operand]⟩ = .ok encoding) :
    Exists fun result => targetLine operand = .ok result := by
  cases named : targetLine operand with
  | ok result => exact ⟨result, rfl⟩
  | error fault =>
      rw [encodeOrder_loadAddress, resolveTarget, named] at encoded
      cases encoded

end NibbleMachine
