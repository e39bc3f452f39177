import NibbleMachine.Proofs.Accounting
import NibbleMachine.Proofs.SourceText

namespace NibbleMachine

/-!
# Repaired operands

A line is encoded as well as its operands allow.  An operand that cannot be used is
read as zero, and each role has a fallback that is read as zero without a problem.
So the line is encoded as if its unusable operands had been repaired, and a repaired
line has no problem left, unless its target lies behind the image.
-/

/-- What an unusable operand is taken for. -/
def OperandRole.fallback : OperandRole -> String
  | .register => "r0"
  | .immediate => "0"
  | .memory => "(r0)"
  | .target => "1"

/-- An operand that can be used in its role: itself, or else the fallback. -/
def OperandRole.repair (numbers : List Nat) (slot : OperandRole × String) : String :=
  if slot.1.usable numbers slot.2 then slot.2 else slot.1.fallback

/-- A command with its unusable operands repaired. -/
def Order.repaired (numbers : List Nat) (order : Order) : Order where
  command := order.command
  operands := order.slots.map (OperandRole.repair numbers)

theorem Order.length_repaired (numbers : List Nat) {order : Order}
    (count : order.operands.length = order.command.arity) :
    (order.repaired numbers).operands.length = (order.repaired numbers).command.arity := by
  simp [repaired, slots, Command.length_roles, count]

theorem Order.slots_repaired (numbers : List Nat) (order : Order) :
    (order.repaired numbers).slots =
      order.slots.map fun slot => (slot.1, OperandRole.repair numbers slot) := by
  have zipped : forall (roles : List OperandRole) (operands : List String),
      roles.zip ((roles.zip operands).map (OperandRole.repair numbers)) =
        (roles.zip operands).map fun slot => (slot.1, OperandRole.repair numbers slot) := by
    intro roles operands
    induction roles generalizing operands with
    | nil => rfl
    | cons role rest inductionHypothesis =>
        cases operands with
        | nil => rfl
        | cons operand others =>
            simp only [List.zip_cons_cons, List.map_cons, inductionHypothesis]
  exact zipped order.command.roles order.operands

def Problem.IsExcess (problem : Problem) : Prop :=
  Exists fun position => 255 < position ∧ problem = .positionRange position

theorem OperandRole.isExcess_of_mem_excess {numbers : List Nat} {operand : String}
    {role : OperandRole} {problem : Problem} (member : problem ∈ role.excess numbers operand) :
    problem.IsExcess := by
  rcases excess_cases numbers operand role with none | ⟨position, above, one⟩
  · rw [none] at member
    cases member
  · rw [one, List.mem_singleton] at member
    exact ⟨position, above, member⟩

section

variable {text : String} (occupied : numberedOrders text ≠ [])

include occupied

/-- The fallbacks are read as zero, without a problem. -/
theorem OperandRole.read_fallback (role : OperandRole) :
    role.read (placedLines text) role.fallback = .ok (0, []) := by
  cases role with
  | register => rfl
  | immediate => rfl
  | memory => rfl
  | target =>
      have named : targetLine "1" = .ok (1, []) := by decide
      exact resolveTarget_of_landing named (targetPosition_one occupied)

/-- A repaired operand is read as the operand was, without a problem but for a target
behind the image. -/
theorem OperandRole.read_repair {slot : OperandRole × String} {reading : Int × List Problem}
    (reads : slot.1.read (placedLines text) slot.2 = .ok reading) :
    Exists fun problems =>
      slot.1.read (placedLines text)
          (OperandRole.repair ((numberedOrders text).map Prod.fst) slot) =
        .ok (reading.1, problems) ∧ forall problem, problem ∈ problems -> problem.IsExcess := by
  rcases slot with ⟨role, operand⟩
  rcases reading with ⟨value, problems⟩
  unfold repair
  rcases read_cases occupied reads with ⟨usable, rfl⟩ | ⟨unusable, rfl, -⟩
  · rw [if_pos usable]
    exact ⟨_, reads, fun _ member => isExcess_of_mem_excess member⟩
  · rw [if_neg (by simp [unusable])]
    exact ⟨[], read_fallback occupied role, fun _ member => absurd member List.not_mem_nil⟩

/-- The repaired operands of a command are read as the operands were. -/
theorem exists_readings_repaired {slots : List (OperandRole × String)}
    {readings : List (Int × List Problem)} (reads : Readings (placedLines text) slots readings) :
    Exists fun others =>
      Readings (placedLines text) (slots.map fun slot =>
          (slot.1, OperandRole.repair ((numberedOrders text).map Prod.fst) slot)) others ∧
        others.map Prod.fst = readings.map Prod.fst ∧
        forall problem, problem ∈ others.flatMap Prod.snd -> problem.IsExcess := by
  induction reads with
  | nil => exact ⟨[], .nil, rfl, fun _ member => absurd member List.not_mem_nil⟩
  | cons read _ inductionHypothesis =>
      rcases OperandRole.read_repair occupied read with ⟨problems, repaired, excess⟩
      rcases inductionHypothesis with ⟨others, later, values, excesses⟩
      refine ⟨_ :: others, .cons repaired later, ?_, ?_⟩
      · rw [List.map_cons, List.map_cons, values]
      · intro problem member
        rw [List.flatMap_cons, List.mem_append] at member
        rcases member with here | there
        · exact excess problem here
        · exact excesses problem there

end

/-- A valid line is encoded as if its unusable operands had been repaired: a register
that does not exist by `r0`, an immediate that is no signed byte by `0`, anything but
a register in brackets by `(r0)`, and a target that leads to no line by `1`.  The
repaired line has the same nibbles, and the only problem it may still have is a target
behind the image.  A line with the wrong number of operands has no nibbles and one
problem, and it stands at its position among the valid lines. -/
theorem encoding_is_encoding_of_repaired (text : String) (assembly : Assembly)
    (returned : assemble text = .ok assembly) (line : Line) (member : line ∈ assembly.lines)
    (valid : line.valid = true) :
    Exists fun order => line.order = some order ∧
      (order.operands.length = order.command.arity ->
        Exists fun nibbles => Exists fun step : Line × List Finding =>
          line.nibbles = some nibbles ∧
            encodeLine assembly.lines { line with
              order := some
                (order.repaired ((validLines assembly.lines).map Line.number)) } = .ok step ∧
            step.1.nibbles = some nibbles ∧
            forall finding, finding ∈ step.2 -> Exists fun position : Nat =>
              255 < position ∧ finding = .atLine line.number (.positionRange position)) ∧
      (order.operands.length ≠ order.command.arity ->
        line.nibbles = none ∧ line.word = 0 ∧
          assembly.problemsAt line.number =
            [.commandArity order.command.arity order.operands.length] ∧
          Exists fun position : Nat =>
            line.position = some position ∧
              (validLines assembly.lines)[position]? = some line) := by
  have taking : line ∈ validLines assembly.lines := List.mem_filter.mpr ⟨member, valid⟩
  rcases problemsAt_line returned member valid with ⟨order, ordered, recorded⟩
  rcases encoded_of_mem_lines returned taking ordered with ⟨encoding, encoded, shown, nibbles⟩
  have numbered := mem_numberedOrders_of_line returned taking ordered
  -- the line itself is valid, so the target of a repaired address load leads to a line
  have occupied := List.ne_nil_of_mem numbered
  refine ⟨order, ordered, ?_, ?_⟩
  · intro count
    rcases exists_nibbles encoded count with ⟨own, encodes⟩
    rcases exists_readings encoded count with ⟨readings, reads⟩
    have read := encodeOrder_of_readings reads count
    rw [encoded] at read
    cases read
    rcases exists_readings_repaired occupied reads with ⟨others, repaired, values, excess⟩
    rw [← Order.slots_repaired, ← map_number_lines returned] at repaired
    have again := encodeOrder_of_readings repaired (Order.length_repaired _ count)
    rw [← encodeOrder_lines returned] at again
    -- the shown value and the nibbles depend on the values that were read only
    have sameResolved : (order.command.gather others).resolved =
        (order.command.gather readings).resolved := by
      rw [Command.gather, Command.gather, values]
    have sameNibbles : (order.command.gather others).nibbles =
        (order.command.gather readings).nibbles := by
      rw [Command.gather, Command.gather, values]
    have shownAgain := showResolved_again shown
    rw [← sameResolved] at shownAgain
    refine ⟨own, _, nibbles.trans encodes,
      (encodeLine_eq_ok_iff _ _ _).mpr ⟨_, _, _, rfl, again, shownAgain, rfl⟩,
      sameNibbles.trans encodes, ?_⟩
    intro finding found
    rcases List.mem_map.mp found with ⟨problem, listed, rfl⟩
    rcases excess problem listed with ⟨position, above, rfl⟩
    exact ⟨position, above, rfl⟩
  · intro wrong
    rw [encodeOrder_of_wrong_count _ wrong] at encoded
    cases encoded
    have placed : line.position ∈ (validLines assembly.lines).map Line.position :=
      List.mem_map_of_mem taking
    rw [positions_lines returned] at placed
    rcases List.mem_map.mp placed with ⟨position, -, here⟩
    have packed := packed_of_mem_lines returned (List.mem_filter.mp taking).1
    refine ⟨nibbles, packed.word_of_no_nibbles nibbles, ?_, position, here.symm,
      getElem?_validLines_of_position returned taking here.symm⟩
    rw [recorded, orderProblems_of_ok (encodeOrder_of_wrong_count _ wrong)]

/-- The first line is encoded as a load into the first register from the address in it,
and the second, which lacks an operand, is left empty between the others. -/
theorem encoding_is_encoding_of_repaired_of_sample :
    Exists fun assembly => Exists fun load => Exists fun short => Exists fun step =>
      assemble "lb r9, r1\nadd r1, r2\nla r3, 99" = .ok assembly ∧
        assembly.lines[0]? = some load ∧ assembly.lines[1]? = some short ∧
        load.order = some ⟨.memory .lb, ["r9", "r1"]⟩ ∧
        encodeLine assembly.lines { load with order := some ⟨.memory .lb, ["r0", "(r0)"]⟩ } =
          .ok step ∧
        step.1.nibbles = load.nibbles ∧
        (forall finding, finding ∈ step.2 -> Exists fun position : Nat =>
          255 < position ∧ finding = .atLine load.number (.positionRange position)) ∧
        short.nibbles = none ∧ assembly.problemsAt short.number = [.commandArity 3 2] ∧
        (validLines assembly.lines)[1]? = some short := by
  rcases exists_assembly_of_map "lb r9, r1\nadd r1, r2\nla r3, 99"
    (fun assembly => (assembly.lines.map fun line : Line => (line.valid, line.order, line.position),
      (validLines assembly.lines).map Line.number))
    (show _ = some ([(true, some ⟨.memory .lb, ["r9", "r1"]⟩, some 0),
      (true, some ⟨.calculate .add, ["r1", "r2"]⟩, some 1),
      (true, some ⟨.loadAddress, ["r3", "99"]⟩, some 2)], [1, 2, 3]) by decide +kernel)
    with ⟨assembly, returned, read⟩
  rw [Prod.mk.injEq] at read
  rcases read with ⟨lines, numbers⟩
  have first := congrArg (fun items => items[0]?) lines
  have second := congrArg (fun items => items[1]?) lines
  simp only [List.getElem?_map, List.getElem?_cons_zero, List.getElem?_cons_succ,
    Option.map_eq_some_iff, Prod.mk.injEq] at first second
  rcases first with ⟨load, loadListed, loadValid, loadOrder, -⟩
  rcases second with ⟨short, shortListed, shortValid, shortOrder, shortPlaced⟩
  rcases encoding_is_encoding_of_repaired _ assembly returned load
    (List.mem_of_getElem? loadListed) loadValid with ⟨order, ordered, repaired, -⟩
  rcases encoding_is_encoding_of_repaired _ assembly returned short
    (List.mem_of_getElem? shortListed) shortValid with ⟨other, otherOrdered, -, empty⟩
  rw [loadOrder] at ordered
  rw [shortOrder] at otherOrdered
  cases ordered
  cases otherOrdered
  rcases repaired rfl with ⟨nibbles, step, own, encoded, same, findings⟩
  rcases empty (by decide) with ⟨none, -, problems, position, placed, here⟩
  rw [numbers] at encoded
  rw [shortPlaced] at placed
  cases placed
  have shape : Order.repaired [1, 2, 3] ⟨.memory .lb, ["r9", "r1"]⟩ =
      ⟨.memory .lb, ["r0", "(r0)"]⟩ := by decide
  rw [shape] at encoded
  exact ⟨assembly, load, short, step, returned, loadListed, shortListed, loadOrder, encoded,
    same.trans own.symm, findings, none, problems, here⟩

end NibbleMachine
