import NibbleMachine.Proofs.Grammar
import NibbleMachine.Proofs.Target

namespace NibbleMachine

/-!
# Operands in their roles

Every command reads its operands in fixed roles: a register, an immediate, a
register in brackets, or the target of an address load.  An operand is read on
its own, whatever stands beside it, so the encoding of a command with the right
number of operands is put together from the readings of its operands.  This is
`encodeOrder_of_readings`, the one place where the forms of a command are told
apart.  What is left to say concerns one operand in one role.

An operand can be used in its role or not, which is decided without the encoder.
When it cannot be used it has one problem and is read as zero.  When it can be used
it has none, except that a target may lie behind the image.
-/

/-! ## Roles -/

/-- What an operand stands for in its command. -/
inductive OperandRole where
  | register
  | immediate
  | memory
  | target
deriving DecidableEq, Repr

def Command.roles : Command -> List OperandRole
  | .calculate _ => [.register, .register, .register]
  | .immediate _ => [.register, .immediate]
  | .memory _ => [.register, .memory]
  | .loadAddress => [.register, .target]

theorem Command.length_roles (command : Command) : command.roles.length = command.arity := by
  cases command <;> rfl

/-- What is read from an operand in a role, with the problems met. -/
def OperandRole.read (lines : List Line) (operand : String) :
    OperandRole -> Except Fault (Int × List Problem)
  | .register => .ok ((registerOperand operand).1.val, (registerOperand operand).2)
  | .immediate => immediateOperand operand
  | .memory => .ok ((memoryOperand operand).1.val, (memoryOperand operand).2)
  | .target => resolveTarget lines operand

/-- The operands of a command, each with its role. -/
def Order.slots (order : Order) : List (OperandRole × String) :=
  order.command.roles.zip order.operands

/-- The readings of operands in their roles. -/
def Readings (lines : List Line) :
    List (OperandRole × String) -> List (Int × List Problem) -> Prop :=
  List.Forall₂ fun slot reading => slot.1.read lines slot.2 = .ok reading

/-- The nibbles of a command with the values of its operands. -/
def Command.compose : Command -> List Int -> Option Nibbles
  | .calculate op, [target, left, right] =>
      some ⟨op.opcode, nibbleAt 0 target, nibbleAt 0 left, nibbleAt 0 right⟩
  | .immediate op, [target, value] => some (byteCommand op.opcode (nibbleAt 0 target) value)
  | .memory op, [target, address] =>
      some ⟨MemOp.opcode, nibbleAt 0 target, nibbleAt 0 address, op.function⟩
  | .loadAddress, [target, value] =>
      some (byteCommand ImmOp.li.opcode (nibbleAt 0 target) value)
  | _, _ => none

/-- The value that a command shows in its tokens. -/
def Command.shownValue : Command -> List Int -> Option Int
  | .loadAddress, [_, value] => some value
  | _, _ => none

/-- The encoding of a command with the readings of its operands. -/
def Command.gather (command : Command) (readings : List (Int × List Problem)) : Encoding where
  nibbles := command.compose (readings.map Prod.fst)
  problems := readings.flatMap Prod.snd
  resolved := command.shownValue (readings.map Prod.fst)

theorem nibbleAt_zero (nibble : Nibble) : nibbleAt 0 (nibble.val : Int) = nibble := by
  apply Fin.ext
  simp only [nibbleAt]
  omega

theorem Command.gather_two (command : Command) (first second : Int × List Problem) :
    command.gather [first, second] = ⟨command.compose [first.1, second.1], first.2 ++ second.2,
      command.shownValue [first.1, second.1]⟩ := by
  simp [gather]

theorem Command.gather_three (command : Command) (first second third : Int × List Problem) :
    command.gather [first, second, third] =
      ⟨command.compose [first.1, second.1, third.1], first.2 ++ second.2 ++ third.2,
        command.shownValue [first.1, second.1, third.1]⟩ := by
  simp [gather]

/-- What was encoded has been read. -/
theorem exists_readings {lines : List Line} {order : Order} {encoding : Encoding}
    (encoded : encodeOrder lines order = .ok encoding)
    (count : order.operands.length = order.command.arity) :
    Exists fun readings => Readings lines order.slots readings := by
  cases (encodeOrder_eq_ok_iff _ _ _).mp encoded with
  | calculate op first second third => exact ⟨_, .cons rfl (.cons rfl (.cons rfl .nil))⟩
  | immediate op first second value problems reads => exact ⟨_, .cons rfl (.cons reads .nil)⟩
  | memory op first second => exact ⟨_, .cons rfl (.cons rfl .nil)⟩
  | loadAddress first second value problems resolves =>
      exact ⟨_, .cons rfl (.cons resolves .nil)⟩
  | miscounted command operands wrong => exact absurd count wrong

theorem exists_nibbles {lines : List Line} {order : Order} {encoding : Encoding}
    (encoded : encodeOrder lines order = .ok encoding)
    (count : order.operands.length = order.command.arity) :
    Exists fun nibbles => encoding.nibbles = some nibbles := by
  cases (encodeOrder_eq_ok_iff _ _ _).mp encoded with
  | calculate | immediate | memory | loadAddress => exact ⟨_, rfl⟩
  | miscounted command operands wrong => exact absurd count wrong

/-- A command with the right number of operands is encoded from their readings. -/
theorem encodeOrder_of_readings {lines : List Line} {order : Order}
    {readings : List (Int × List Problem)} (reads : Readings lines order.slots readings)
    (count : order.operands.length = order.command.arity) :
    encodeOrder lines order = .ok (order.command.gather readings) := by
  apply encodeOrder_of_encodedAs
  rcases order with ⟨command, operands⟩
  -- a register is always read, so its reading is known; that of a numeral is kept as given
  cases command with
  | calculate op =>
      rcases List.length_eq_three.mp count with ⟨first, second, third, rfl⟩
      rcases reads with _ | ⟨target, _ | ⟨left, _ | ⟨right, _ | _⟩⟩⟩
      cases target
      cases left
      cases right
      simp only [Command.gather_three, Command.compose, Command.shownValue, nibbleAt_zero]
      exact .calculate op first second third
  | immediate op =>
      rcases List.length_eq_two.mp count with ⟨first, second, rfl⟩
      rcases reads with _ | ⟨target, _ | ⟨value, _ | _⟩⟩
      cases target
      simp only [Command.gather_two, Command.compose, Command.shownValue, nibbleAt_zero]
      exact .immediate op first second _ _ value
  | memory op =>
      rcases List.length_eq_two.mp count with ⟨first, second, rfl⟩
      rcases reads with _ | ⟨target, _ | ⟨address, _ | _⟩⟩
      cases target
      cases address
      simp only [Command.gather_two, Command.compose, Command.shownValue, nibbleAt_zero]
      exact .memory op first second
  | loadAddress =>
      rcases List.length_eq_two.mp count with ⟨first, second, rfl⟩
      rcases reads with _ | ⟨target, _ | ⟨value, _ | _⟩⟩
      cases target
      simp only [Command.gather_two, Command.compose, Command.shownValue, nibbleAt_zero]
      exact .loadAddress first second _ _ value

/-! ## Usable operands -/

/-- Whether an operand can be used in a role, among valid lines of given numbers. -/
def OperandRole.usable (numbers : List Nat) (operand : String) : OperandRole -> Bool
  | .register => registerNames.contains operand
  | .immediate =>
      match Numeral.read operand with
      | .ok value => -128 ≤ value && value ≤ 127
      | .error _ => false
  | .memory => registerNames.any fun register => operand == "(" ++ register ++ ")"
  | .target =>
      match Numeral.Decimal.ofText? operand.toList with
      | some numeral => 0 < numeral.value && numbers.any fun number : Nat => numeral.value ≤ number
      | none => false

/-- The problem of an operand that can be used: a target behind the image. -/
def OperandRole.excess (numbers : List Nat) (operand : String) : OperandRole -> List Problem
  | .target =>
      match Numeral.Decimal.ofText? operand.toList with
      | some numeral =>
          let position := numbers.countP fun number : Nat => (number : Int) < numeral.value
          if position ≤ 255 then [] else [.positionRange position]
      | none => []
  | _ => []

/-- An operand that cannot be used, or a target behind the image. -/
def OperandRole.isBad (numbers : List Nat) (slot : OperandRole × String) : Bool :=
  !slot.1.usable numbers slot.2 || !(slot.1.excess numbers slot.2).isEmpty

theorem OperandRole.excess_cases (numbers : List Nat) (operand : String) (role : OperandRole) :
    role.excess numbers operand = [] ∨
      Exists fun position =>
        255 < position ∧ role.excess numbers operand = [.positionRange position] := by
  unfold excess
  split
  · split
    · dsimp only
      split
      · exact Or.inl rfl
      · next above => exact Or.inr ⟨_, Nat.lt_of_not_le above, rfl⟩
    · exact Or.inl rfl
  · exact Or.inl rfl

theorem registerOperand_cases (operand : String) :
    (operand ∈ registerNames ∧ (registerOperand operand).2 = []) ∨
      operand ∉ registerNames ∧
        Exists fun problem => registerOperand operand = (Nibble.zero, [problem]) := by
  rw [mem_registerNames_iff]
  cases read : Register.read operand with
  | ok register =>
      refine Or.inl ⟨⟨register, (Register.read_eq_ok_iff _ _).mp read⟩, ?_⟩
      simp [registerOperand, read]
  | error error =>
      refine Or.inr ⟨?_, .register error, by simp [registerOperand, read]⟩
      rintro ⟨register, rfl⟩
      rw [read_registerText] at read
      cases read

theorem memoryOperand_cases (operand : String) :
    ((Exists fun name => name ∈ registerNames ∧ operand = "(" ++ name ++ ")") ∧
        (memoryOperand operand).2 = []) ∨
      (¬ Exists fun name => name ∈ registerNames ∧ operand = "(" ++ name ++ ")") ∧
        Exists fun problem => memoryOperand operand = (Nibble.zero, [problem]) := by
  by_cases bracketed : Exists fun name => name ∈ registerNames ∧ operand = "(" ++ name ++ ")"
  · refine Or.inl ⟨bracketed, ?_⟩
    rcases bracketed with ⟨name, named, rfl⟩
    rcases (mem_registerNames_iff name).mp named with ⟨register, rfl⟩
    exact congrArg Prod.snd (memoryOperand_memoryText register)
  · refine Or.inr ⟨bracketed, ?_⟩
    cases inside : memoryRegister? operand with
    | none => exact ⟨.memoryForm, by simp [memoryOperand, inside]⟩
    | some name =>
        have same : memoryOperand operand = registerOperand name := by
          simp [memoryOperand, inside]
        rcases registerOperand_cases name with ⟨-, clear⟩ | ⟨-, refused⟩
        · rw [← same] at clear
          rcases memoryText_of_no_problems clear with ⟨register, rfl⟩
          exact absurd ⟨_, registerText_mem_registerNames register, rfl⟩ bracketed
        · rw [same]
          exact refused

theorem immediateOperand_cases {operand : String} {value : Int} {problems : List Problem}
    (numbers : List Nat) (reads : immediateOperand operand = .ok (value, problems)) :
    (OperandRole.immediate.usable numbers operand = true ∧ problems = []) ∨
      OperandRole.immediate.usable numbers operand = false ∧ value = 0 ∧
        Exists fun problem => problems = [problem] := by
  unfold immediateOperand leastImmediate greatestImmediate at reads
  unfold OperandRole.usable
  cases read : Numeral.read operand with
  | error error =>
      rw [read] at reads
      cases reads
      exact Or.inr ⟨rfl, rfl, _, rfl⟩
  | ok number =>
      simp only [read] at reads
      by_cases within : -128 ≤ number ∧ number ≤ 127
      · rw [if_pos within] at reads
        cases reads
        exact Or.inl ⟨by simpa using within, rfl⟩
      · rw [if_neg within] at reads
        split at reads
        · cases reads
          exact Or.inr ⟨by simpa using within, rfl, _, rfl⟩
        · cases reads

/-- The outcomes of a target, by whether it can be used. -/
theorem TargetOutcome.usable_cases {numbers : List Nat} {operand : String} {position : Nat}
    {problems : List Problem} (outcome : TargetOutcome numbers operand position problems) :
    (OperandRole.target.usable numbers operand = true ∧
        problems = OperandRole.target.excess numbers operand) ∨
      OperandRole.target.usable numbers operand = false ∧ position = 0 ∧
        Exists fun problem => problems = [problem] := by
  have recognised : forall {numeral}, Numeral.SignedDigits operand.toList numeral ->
      Numeral.Decimal.ofText? operand.toList = some numeral :=
    fun written => (Numeral.ofText?_eq_some_iff _ _).mpr written
  cases outcome with
  | form malformed =>
      have unread : Numeral.Decimal.ofText? operand.toList = none := by
        apply Option.eq_none_iff_forall_ne_some.mpr
        intro numeral read
        exact malformed numeral ((Numeral.ofText?_eq_some_iff _ _).mp read)
      refine Or.inr ⟨?_, rfl, _, rfl⟩
      simp [OperandRole.usable, unread]
  | sign numeral written low =>
      refine Or.inr ⟨?_, rfl, _, rfl⟩
      simp [OperandRole.usable, recognised written, Int.not_lt.mpr low]
  | past numeral written positive behind =>
      refine Or.inr ⟨?_, rfl, _, rfl⟩
      simpa [OperandRole.usable, recognised written, positive] using behind
  | found numeral written positive ahead _ place =>
      rw [place]
      refine Or.inl ⟨?_, ?_⟩
      · simpa [OperandRole.usable, recognised written, positive] using ahead
      · simp only [OperandRole.excess, recognised written]

section

variable {text : String} (occupied : numberedOrders text ≠ [])

include occupied

/-- An operand that can be used has no problem, but for a target behind the image.  Any
other has one problem and is read as zero. -/
theorem OperandRole.read_cases {role : OperandRole} {operand : String} {value : Int}
    {problems : List Problem}
    (reads : role.read (placedLines text) operand = .ok (value, problems)) :
    (role.usable ((numberedOrders text).map Prod.fst) operand = true ∧
        problems = role.excess ((numberedOrders text).map Prod.fst) operand) ∨
      role.usable ((numberedOrders text).map Prod.fst) operand = false ∧ value = 0 ∧
        Exists fun problem => problems = [problem] := by
  cases role with
  | register =>
      cases reads
      rcases registerOperand_cases operand with ⟨named, clear⟩ | ⟨unnamed, problem, refused⟩
      · exact Or.inl ⟨List.contains_iff_mem.mpr named, clear⟩
      · rw [refused]
        exact Or.inr ⟨by simpa [usable] using unnamed, rfl, problem, rfl⟩
  | immediate => exact immediateOperand_cases _ reads
  | memory =>
      cases reads
      rcases memoryOperand_cases operand with ⟨bracketed, clear⟩ | ⟨unbracketed, problem, refused⟩
      · exact Or.inl ⟨by simpa [usable] using bracketed, clear⟩
      · rw [refused]
        exact Or.inr ⟨by simpa [usable] using unbracketed, rfl, problem, rfl⟩
  | target =>
      rcases outcome_of_resolveTarget occupied reads with ⟨position, outcome, rfl⟩
      rcases outcome.usable_cases with found | ⟨unusable, rfl, refused⟩
      · exact Or.inl found
      · exact Or.inr ⟨unusable, rfl, refused⟩

/-- A bad operand has one problem, and any other has none. -/
theorem OperandRole.length_problems {slot : OperandRole × String} {reading : Int × List Problem}
    (reads : slot.1.read (placedLines text) slot.2 = .ok reading) :
    reading.2.length = if isBad ((numberedOrders text).map Prod.fst) slot then 1 else 0 := by
  rcases slot with ⟨role, operand⟩
  rcases reading with ⟨value, problems⟩
  unfold isBad
  rcases read_cases occupied reads with ⟨usable, rfl⟩ | ⟨unusable, -, problem, rfl⟩
  · rcases excess_cases ((numberedOrders text).map Prod.fst) operand role with
      none | ⟨position, -, one⟩
    · simp [usable, none]
    · simp [usable, one]
  · simp [unusable]

/-- The problems of a command with the right number of operands are as many as its bad
operands. -/
theorem length_problems_of_readings {slots : List (OperandRole × String)}
    {readings : List (Int × List Problem)} (reads : Readings (placedLines text) slots readings) :
    (readings.flatMap Prod.snd).length =
      slots.countP (OperandRole.isBad ((numberedOrders text).map Prod.fst)) := by
  induction reads with
  | nil => rfl
  | cons read _ inductionHypothesis =>
      rw [List.flatMap_cons, List.length_append, inductionHypothesis, List.countP_cons,
        OperandRole.length_problems occupied read, Nat.add_comm]

end

end NibbleMachine
