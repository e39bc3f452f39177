import NibbleMachine.Proofs.Encoding
import NibbleMachine.Proofs.Instruction

namespace NibbleMachine

/-!
# What can stop an assembly

No problem in a source text stops its assembly, but two operands do, and both
only because conversion between integers and decimal text is limited in length.
An address load with too many digits in its line number cannot be read.  A
hexadecimal immediate is read whatever its length, found to be out of range, and
then cannot be written into the message that refuses it.  The same number
written in decimal as an immediate is only reported: it is refused before it is
read.

Everything else that the passes could trip over is excluded by what the passes
before have left: lines that take part have a first token, lines that are
encoded have an order and show its tokens, and the line that is encoded is there
when a target asks for the first one.  Every byte that is cut into nibbles fits
into one.
-/

/-! ## Operands beyond the limit -/

/-- A line number is refused with a fault exactly when it is a decimal numeral of
too many digits. -/
theorem targetLine_eq_error_iff (operand : String) (fault : Fault) :
    targetLine operand = .error fault <->
      Exists fun numeral : Numeral.Decimal =>
        Numeral.SignedDigits operand.toList numeral ∧ 4300 < numeral.digits.length ∧
          fault = .unreadable numeral.digits.length := by
  have signed := fun numeral => Numeral.ofText?_eq_some_iff operand.toList numeral
  unfold targetLine
  cases recognised : Numeral.Decimal.ofText? operand.toList with
  | none =>
      constructor
      · intro refused
        cases refused
      · rintro ⟨numeral, written, -⟩
        rw [(signed numeral).mpr written] at recognised
        cases recognised
  | some numeral =>
      dsimp only
      have written := (signed numeral).mp recognised
      have only : forall other, Numeral.SignedDigits operand.toList other -> other = numeral := by
        intro other alsoWritten
        have same := (signed other).mpr alsoWritten
        rw [recognised] at same
        exact (Option.some.inj same).symm
      cases readable : numeral.isReadable with
      | false =>
          have long : 4300 < numeral.digits.length :=
            Nat.lt_of_not_le (of_decide_eq_false readable)
          simp only [Bool.not_false, if_true, Except.error.injEq]
          constructor
          · rintro rfl
            exact ⟨numeral, written, long, rfl⟩
          · rintro ⟨other, alsoWritten, -, rfl⟩
            rw [only other alsoWritten]
      | true =>
          have short : numeral.digits.length ≤ 4300 := of_decide_eq_true readable
          constructor
          · intro refused
            simp only [Bool.not_true, Bool.false_eq_true, if_false] at refused
            split at refused <;> cases refused
          · rintro ⟨other, alsoWritten, long, -⟩
            rw [only other alsoWritten] at long
            exact absurd short (Nat.not_le_of_lt long)

/-- Where there is a line, every line number leads to a position. -/
theorem exists_targetPosition {lines : List Line} (occupied : lines ≠ []) (number : Int) :
    Exists fun place => targetPosition lines number = .ok place := by
  unfold targetPosition
  cases nextValid? lines number with
  | some line => exact ⟨_, rfl⟩
  | none =>
      cases lines with
      | nil => exact absurd rfl occupied
      | cons first rest => exact ⟨_, rfl⟩

/-- A target is refused with a fault exactly when its line number is. -/
theorem resolveTarget_eq_error_iff {lines : List Line} (occupied : lines ≠ []) (operand : String)
    (fault : Fault) :
    resolveTarget lines operand = .error fault <-> targetLine operand = .error fault := by
  unfold resolveTarget
  cases targetLine operand with
  | error early => simp [bind, Except.bind]
  | ok result =>
      rcases exists_targetPosition occupied result.1 with ⟨place, lands⟩
      simp [lands, bind, Except.bind, pure, Except.pure]

/-- Of the values that are read, those that cannot be written are large and hexadecimal: a
decimal numeral that was read is short enough. -/
theorem read_unwritable_iff (operand : String) (value : Int) :
    Numeral.read operand = .ok value ∧ Numeral.isWritable value = false <->
      Exists fun digits : List Char =>
        operand.toList = '0' :: 'x' :: digits ∧ digits ≠ [] ∧
          (forall c, c ∈ digits -> Numeral.isHexDigit c = true) ∧
          Nat.pow 10 4300 ≤ Numeral.valueInBase 16 digits ∧
          value = Numeral.valueInBase 16 digits := by
  rw [Numeral.read_eq_ok_iff, Bool.eq_false_iff]
  constructor
  · rintro ⟨written, unwritable⟩
    generalize operand.toList = characters at written
    cases written with
    | decimal _ numeral signed short =>
        exact absurd (Numeral.isWritable_of_signedDigits signed short) unwritable
    | hexadecimal digits nonempty all =>
        rw [ne_eq, Numeral.isWritable_iff, Nat.not_lt] at unwritable
        exact ⟨digits, rfl, nonempty, all, unwritable, rfl⟩
  · rintro ⟨digits, shape, nonempty, all, large, rfl⟩
    rw [shape, ne_eq, Numeral.isWritable_iff, Nat.not_lt]
    exact ⟨.hexadecimal digits nonempty all, large⟩

/-- An immediate in range is small enough to be written, so one that stops is out of range. -/
theorem immediateOperand_eq_error_iff_unwritable (operand : String) (fault : Fault) :
    immediateOperand operand = .error fault <->
      Exists fun value => (Numeral.read operand = .ok value ∧ Numeral.isWritable value = false) ∧
        fault = .unwritable := by
  unfold immediateOperand leastImmediate greatestImmediate
  cases Numeral.read operand with
  | error error => simp
  | ok value =>
      dsimp only
      by_cases within : -128 ≤ value ∧ value ≤ 127
      · rw [if_pos within]
        simp [Numeral.isWritable_of_signedByte within.1 within.2]
      · rw [if_neg within]
        cases writable : Numeral.isWritable value with
        | true => simp [writable]
        | false =>
            simp only [Bool.false_eq_true, if_false, Except.error.injEq]
            constructor
            · rintro rfl
              exact ⟨value, ⟨rfl, writable⟩, rfl⟩
            · rintro ⟨_, _, rfl⟩
              rfl

/-- An immediate is refused with a fault exactly when it is a hexadecimal numeral
too large to be written. -/
theorem immediateOperand_eq_error_iff (operand : String) (fault : Fault) :
    immediateOperand operand = .error fault <->
      Exists fun digits : List Char =>
        operand.toList = '0' :: 'x' :: digits ∧ digits ≠ [] ∧
          (forall c, c ∈ digits -> Numeral.isHexDigit c = true) ∧
          Nat.pow 10 4300 ≤ Numeral.valueInBase 16 digits ∧ fault = .unwritable := by
  simp only [immediateOperand_eq_error_iff_unwritable, read_unwritable_iff]
  constructor
  · rintro ⟨value, ⟨digits, shape, nonempty, all, large, -⟩, stops⟩
    exact ⟨digits, shape, nonempty, all, large, stops⟩
  · rintro ⟨digits, shape, nonempty, all, large, stops⟩
    exact ⟨_, ⟨digits, shape, nonempty, all, large, rfl⟩, stops⟩

/-- The orders that stop an assembly, and how: a line number of too many digits
cannot be read, and a hexadecimal immediate of too many digits cannot be
written. -/
inductive Order.Exceeds : Order -> Fault -> Prop
  | target (register operand : String) (numeral : Numeral.Decimal)
      (written : Numeral.SignedDigits operand.toList numeral)
      (long : 4300 < numeral.digits.length) :
      Order.Exceeds ⟨.loadAddress, [register, operand]⟩ (.unreadable numeral.digits.length)
  | immediate (op : ImmOp) (register operand : String) (digits : List Char)
      (written : operand.toList = '0' :: 'x' :: digits) (nonempty : digits ≠ [])
      (all : forall c, c ∈ digits -> Numeral.isHexDigit c = true)
      (large : Nat.pow 10 4300 ≤ Numeral.valueInBase 16 digits) :
      Order.Exceeds ⟨.immediate op, [register, operand]⟩ .unwritable

/-- Encoding faults on the orders beyond the limit and on no others. -/
theorem encodeOrder_eq_error_iff {lines : List Line} (occupied : lines ≠ []) (order : Order)
    (fault : Fault) :
    encodeOrder lines order = .error fault <-> order.Exceeds fault := by
  constructor
  · intro refused
    cases order.hasForm with
    | calculate op first second third => cases refused
    | immediate op first second =>
        rw [encodeOrder_immediate, map_eq_error_iff, immediateOperand_eq_error_iff] at refused
        rcases refused with ⟨digits, written, nonempty, all, large, rfl⟩
        exact .immediate op first second digits written nonempty all large
    | memory op first second => cases refused
    | loadAddress first second =>
        rw [encodeOrder_loadAddress, map_eq_error_iff, resolveTarget_eq_error_iff occupied,
          targetLine_eq_error_iff] at refused
        rcases refused with ⟨numeral, written, long, rfl⟩
        exact .target first second numeral written long
    | miscounted command operands wrong =>
        rw [encodeOrder_of_wrong_count lines wrong] at refused
        cases refused
  · intro exceeds
    cases exceeds with
    | target register operand numeral written long =>
        rw [encodeOrder_loadAddress, map_eq_error_iff, resolveTarget_eq_error_iff occupied,
          targetLine_eq_error_iff]
        exact ⟨numeral, written, long, rfl⟩
    | immediate op register operand digits written nonempty all large =>
        rw [encodeOrder_immediate, map_eq_error_iff, immediateOperand_eq_error_iff]
        exact ⟨digits, written, nonempty, all, large, rfl⟩

/-- The notice of an order beyond the limit is the one for reading when it loads an
address, and the one for writing when it takes an immediate. -/
theorem Order.Exceeds.message {order : Order} {fault : Fault} (exceeds : order.Exceeds fault) :
    (order.command = .loadAddress ∧ Exists fun digits : Nat =>
      fault = .unreadable digits ∧
        fault.message = "Exceeds the limit (4300 digits) for integer string conversion"
          ++ ": value has " ++ Numeral.decimal digits ++ " digits"
          ++ "; use sys.set_int_max_str_digits() to increase the limit") ∨
      (Exists fun op => order.command = .immediate op) ∧ fault = .unwritable ∧
        fault.message = "Exceeds the limit (4300 digits) for integer string conversion"
          ++ "; use sys.set_int_max_str_digits() to increase the limit" := by
  have notice : Numeral.limitNotice =
      "Exceeds the limit (4300 digits) for integer string conversion" := by decide +kernel
  cases exceeds with
  | target register operand numeral written long =>
      refine Or.inl ⟨rfl, numeral.digits.length, rfl, ?_⟩
      change Numeral.limitNotice ++ _ ++ _ ++ _ ++ _ = _
      rw [notice]
      rfl
  | immediate op register operand digits written nonempty all large =>
      refine Or.inr ⟨⟨op, rfl⟩, rfl, ?_⟩
      change Numeral.limitNotice ++ _ = _
      rw [notice]
      rfl

/-! ## The line that stops an assembly -/

/-- A line whose order is beyond the limit. -/
def Line.Exceeds (line : Line) (fault : Fault) : Prop :=
  Exists fun order => line.order = some order ∧ order.Exceeds fault

/-- The first line beyond the limit, and how it is. -/
def FirstExceeds (lines : List Line) (fault : Fault) : Prop :=
  Exists fun before => Exists fun line => Exists fun after =>
    lines = before ++ line :: after ∧ line.Exceeds fault ∧
      forall other earlier, other ∈ before -> ¬ other.Exceeds earlier

/-- Only the orders of lines decide which is the first beyond the limit. -/
theorem FirstExceeds.of_orders {lines others : List Line} {fault : Fault}
    (same : others.map Line.order = lines.map Line.order) (first : FirstExceeds lines fault) :
    FirstExceeds others fault := by
  rcases first with ⟨before, line, after, rfl, ⟨order, ordered, exceeds⟩, earlier⟩
  rw [List.map_append, List.map_cons] at same
  rcases List.map_eq_append_iff.mp same with ⟨front, back, rfl, sameFront, sameBack⟩
  rcases List.map_eq_cons_iff.mp sameBack with ⟨other, rest, rfl, sameOrder, -⟩
  refine ⟨front, other, rest, rfl, ⟨order, sameOrder.trans ordered, exceeds⟩, ?_⟩
  rintro ahead fault member ⟨aheadOrder, aheadOrdered, aheadExceeds⟩
  have listed : ahead.order ∈ before.map Line.order := by
    rw [← sameFront]
    exact List.mem_map_of_mem member
  rcases List.mem_map.mp listed with ⟨original, inBefore, originalOrder⟩
  exact earlier original fault inBefore
    ⟨aheadOrder, originalOrder.trans aheadOrdered, aheadExceeds⟩

/-- Encoding a line faults when the line has no order or its order is beyond the limit.
Showing the value that an address load resolves to is left to the line's tokens. -/
theorem encodeLine_eq_error_iff {lines : List Line} (occupied : lines ≠ []) {line : Line}
    (shows : forall order encoding, line.order = some order ->
      encodeOrder lines order = .ok encoding ->
        Exists fun tokens => showResolved line.tokens encoding.resolved = .ok tokens)
    (fault : Fault) :
    encodeLine lines line = .error fault <->
      line.order = none ∧ fault = .unresolved ∨ line.Exceeds fault := by
  unfold encodeLine Line.Exceeds
  cases ordered : line.order with
  | none => simp [eq_comm]
  | some order =>
      simp only [reduceCtorEq, false_and, false_or, Option.some.injEq, exists_eq_left']
      rw [← encodeOrder_eq_error_iff occupied]
      cases encoded : encodeOrder lines order with
      | error early => simp [bind, Except.bind]
      | ok encoding =>
          rcases shows order encoding ordered encoded with ⟨tokens, shown⟩
          simp [shown, bind, Except.bind, pure, Except.pure]

/-- Encoding a laid out line faults exactly when its order is beyond the limit. -/
theorem visitOrKeep_eq_error_iff {text : String} {line : Line} (member : line ∈ placedLines text)
    (fault : Fault) :
    visitOrKeep (encodeLine (placedLines text)) line = .error fault <->
      line.valid = true ∧ line.Exceeds fault := by
  cases valid : line.valid with
  | false => simp [visitOrKeep_of_invalid _ valid]
  | true =>
      rcases entry_of_mem_placedLines (List.mem_filter.mpr ⟨member, valid⟩) with
        ⟨entry, order, -, -, -, ordered, tokens⟩
      rw [visitOrKeep_of_valid _ valid, encodeLine_eq_error_iff (List.ne_nil_of_mem member)]
      · simp [ordered]
      · intro other encoding alsoOrdered encoded
        rw [ordered] at alsoOrdered
        cases alsoOrdered
        rw [tokens]
        exact exists_showResolved encoded

theorem exists_step_iff {text : String} {line : Line} (member : line ∈ placedLines text) :
    (Exists fun step => visitOrKeep (encodeLine (placedLines text)) line = .ok step) <->
      forall fault, ¬ (line.valid = true ∧ line.Exceeds fault) := by
  constructor
  · rintro ⟨step, stepped⟩ fault exceeds
    rw [(visitOrKeep_eq_error_iff member fault).mpr exceeds] at stepped
    cases stepped
  · intro within
    cases stepped : visitOrKeep (encodeLine (placedLines text)) line with
    | ok step => exact ⟨step, rfl⟩
    | error fault =>
        exact absurd ((visitOrKeep_eq_error_iff member fault).mp stepped) (within fault)

/-- An assembly stops at the first valid laid out line beyond the limit. -/
theorem assemble_eq_error_iff_placedLines (text : String) (fault : Fault) :
    assemble text = .error fault <-> FirstExceeds (validLines (placedLines text)) fault := by
  have stops : assemble text = .error fault <->
      (encodeLines (placedLines text)).complete = .error fault := by
    rw [assemble_eq]
    cases (encodeLines (placedLines text)).complete <;> simp [Except.map]
  rw [stops, encodeLines, complete_sweep_eq_error_iff]
  constructor
  · rintro ⟨before, line, after, split, faults, steps⟩
    have member : line ∈ placedLines text := by simp [split]
    rcases (visitOrKeep_eq_error_iff member fault).mp faults with ⟨valid, exceeds⟩
    refine ⟨validLines before, line, validLines after, ?_, exceeds, ?_⟩
    · rw [split, validLines, List.filter_append, List.filter_cons_of_pos valid]
      rfl
    · intro other earlier listed alsoExceeds
      have inBefore := List.mem_filter.mp listed
      have inPlaced : other ∈ placedLines text := by simp [split, inBefore.1]
      exact (exists_step_iff inPlaced).mp (steps other inBefore.1) earlier
        ⟨inBefore.2, alsoExceeds⟩
  · rintro ⟨before, line, after, split, exceeds, earlier⟩
    rcases List.filter_eq_append_iff.mp split with ⟨front, back, splitPlaced, rfl, rest⟩
    rcases List.filter_eq_cons_iff.mp rest with ⟨skipped, behind, rfl, invalid, valid, -⟩
    rw [← List.append_assoc] at splitPlaced
    have inPlaced : line ∈ placedLines text := by
      rw [splitPlaced]
      exact List.mem_append_right _ List.mem_cons_self
    refine ⟨front ++ skipped, line, behind, splitPlaced, ?_, ?_⟩
    · exact (visitOrKeep_eq_error_iff inPlaced fault).mpr ⟨valid, exceeds⟩
    · intro other member
      have ahead : other ∈ placedLines text := by
        rw [splitPlaced]
        exact List.mem_append_left _ member
      apply (exists_step_iff ahead).mpr
      rintro reason ⟨otherValid, otherExceeds⟩
      rcases List.mem_append.mp member with inFront | inSkipped
      · exact earlier other reason (List.mem_filter.mpr ⟨inFront, otherValid⟩) otherExceeds
      · exact invalid other inSkipped otherValid

/-- An assembly that returned met no line beyond the limit. -/
theorem not_exceeds_of_returned {text : String} {assembly : Assembly}
    (returned : assemble text = .ok assembly) {line : Line}
    (member : line ∈ validLines (placedLines text)) {fault : Fault} : ¬ line.Exceeds fault := by
  intro exceeds
  rcases (assemble_eq_ok_iff text assembly).mp returned with ⟨steps, taken, -⟩
  have listed := List.mem_filter.mp member
  rcases taken.exists_step _ listed.1 with ⟨step, -, stepped⟩
  exact (exists_step_iff listed.1).mp ⟨step, stepped⟩ fault ⟨listed.2, exceeds⟩

/-- The lines of a text when its commands have been resolved. -/
def resolveText (text : String) : Except Fault (List Line) := do
  let defined ← applyDirective .define (preparedLines text)
  let labelled ← applyDirective .label defined.lines
  let (resolved, _) ← (resolveCommands labelled.lines).complete
  return resolved

theorem resolveText_eq (text : String) : resolveText text = .ok (resolvedLines text) := by
  have defined := applyDirective_eq .define (tokenized_preparedLines text)
  rw [entries_preparedLines] at defined
  have labelled := applyDirective_eq .label (tokenized_definedLines text)
  rw [entries_definedLines] at labelled
  have resolved := complete_resolveCommands (tokenized_labelledLines text)
  unfold definedLines at labelled
  unfold labelledLines definedLines at resolved
  simp only [resolveText, defined, labelled, resolved, bind, Except.bind, pure, Except.pure]
  rfl

theorem orders_resolvedLines (text : String) :
    (validLines (resolvedLines text)).map Line.order =
      (validLines (placedLines text)).map Line.order := by
  rw [← map_validLines_erased Line.unplaced (fun _ => rfl) Line.order (fun _ => rfl),
    ← map_unplaced_placedLines,
    map_validLines_erased Line.unplaced (fun _ => rfl) Line.order (fun _ => rfl)]

/-- An assembly stops exactly when a line with a command is beyond the limit on
digits; it stops at the first such line, with the notice for reading at an
address load and with the one for writing at an immediate command.  Any other
text is assembled.  The passes before encoding never stop, and every byte cut
into nibbles fits. -/
theorem assemble_eq_error_iff (text : String) :
    Exists fun lines =>
      resolveText text = .ok lines ∧
        (forall fault, assemble text = .error fault <-> FirstExceeds (validLines lines) fault) ∧
        ((Exists fun assembly => assemble text = .ok assembly) <->
          forall line fault, line ∈ validLines lines -> ¬ line.Exceeds fault) ∧
        (forall order fault, Order.Exceeds order fault ->
          (order.command = .loadAddress ∧ Exists fun digits : Nat =>
            fault = .unreadable digits ∧ fault.message =
              "Exceeds the limit (4300 digits) for integer string conversion"
                ++ ": value has " ++ Numeral.decimal digits ++ " digits"
                ++ "; use sys.set_int_max_str_digits() to increase the limit") ∨
          (Exists fun op => order.command = .immediate op) ∧ fault = .unwritable ∧
            fault.message = "Exceeds the limit (4300 digits) for integer string conversion"
              ++ "; use sys.set_int_max_str_digits() to increase the limit") ∧
        (forall operand value problems, immediateOperand operand = .ok (value, problems) ->
          splitByte value = .ok (byteNibbles value)) ∧
        (forall operand value problems,
          resolveTarget (layout lines) operand = .ok (value, problems) ->
            splitByte value = .ok (byteNibbles value)) := by
  have orders := orders_resolvedLines text
  have stops : forall fault, assemble text = .error fault <->
      FirstExceeds (validLines (resolvedLines text)) fault := by
    intro fault
    rw [assemble_eq_error_iff_placedLines]
    constructor
    · intro first
      exact first.of_orders orders
    · intro first
      exact first.of_orders orders.symm
  refine ⟨resolvedLines text, resolveText_eq text, stops, ?_, ?_, ?_, ?_⟩
  · constructor
    · rintro ⟨assembly, returned⟩ line fault member ⟨order, ordered, exceeds⟩
      have listed : line.order ∈ (validLines (placedLines text)).map Line.order := by
        rw [← orders]
        exact List.mem_map_of_mem member
      rcases List.mem_map.mp listed with ⟨placed, inPlaced, same⟩
      exact not_exceeds_of_returned returned inPlaced ⟨order, same.trans ordered, exceeds⟩
    · intro within
      cases result : assemble text with
      | ok assembly => exact ⟨assembly, rfl⟩
      | error fault =>
          rcases (stops fault).mp result with ⟨before, line, after, split, exceeds, -⟩
          have member : line ∈ validLines (resolvedLines text) := by
            rw [split]
            exact List.mem_append_right _ List.mem_cons_self
          exact absurd exceeds (within line fault member)
  · intro order fault exceeds
    exact exceeds.message
  · intro operand value problems reads
    exact splitByte_of_immediateOperand reads
  · intro operand value problems resolves
    exact splitByte_of_resolveTarget resolves

end NibbleMachine
