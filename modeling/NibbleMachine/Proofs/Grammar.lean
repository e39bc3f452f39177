import NibbleMachine.Proofs.Image
import NibbleMachine.Proofs.Numeral

namespace NibbleMachine

/-!
# The accepted language

An assembly without findings is one whose text belongs to a language that can
be described without the assembler.  Its declarations have the right number of
tokens, every other line is in the grammar of commands once the symbols have
been replaced, and there are no more such lines than the image has words.

Each pass reports on its own, so the findings of an assembly are empty exactly
when those of every pass are.  The first section says for each pass what that
means in terms of the entries of the text.  The second compares the outcome
with the grammar.  A line of the grammar is judged by itself, except for an
address load: its target is found among all lines that remain, and the target
has a position within the image because there are few enough of them.  A line
number too long to be read stops the assembly; the grammar does not exclude it
because an assembly that returned did not meet one.
-/

/-! ## Assemblies without findings -/

theorem Assembly.count_eq_zero_iff (assembly : Assembly) :
    assembly.diagnostics.count = 0 <-> assembly.findings = [] := by
  rw [Diagnostics.count, Assembly.diagnostics, Diagnostics.ofFindings, List.length_map,
    List.length_eq_zero_iff]

def Directive.tokenCount : Directive -> Nat
  | .define => 3
  | .label => 2

theorem Directive.finding?_declare_eq_none_iff (directive : Directive) (number : Nat)
    (operands : List String) :
    (directive.declare number operands).finding? = none <->
      operands.length + 1 = directive.tokenCount := by
  unfold declare
  split
  · simp [Declaration.finding?, tokenCount]
  · simp [Declaration.finding?, tokenCount]
  · next noDefine noLabel =>
      constructor
      · intro unreported
        cases unreported
      · intro count
        cases directive with
        | define =>
            rcases List.length_eq_two.mp (Nat.succ.inj count) with ⟨name, value, rfl⟩
            exact absurd rfl (noDefine name value rfl)
        | label =>
            rcases List.length_eq_one_iff.mp (Nat.succ.inj count) with ⟨name, rfl⟩
            exact absurd rfl (noLabel name rfl)

/-- A directive is reported on the entries that it opens with the wrong number of
tokens. -/
theorem findingsOf_declarations_eq_nil_iff (directive : Directive) (entries : List Entry) :
    findingsOf (directive.declarations entries) = [] <->
      forall entry, entry ∈ entries -> entry.tokens.head? = some directive.keyword ->
        entry.tokens.length = directive.tokenCount := by
  rw [findingsOf, List.filterMap_eq_nil_iff]
  constructor
  · intro unreported entry member opened
    have opens : directive.opens entry.tokens = true := by simp [Directive.opens, opened]
    have declared : directive.declare entry.number entry.tokens.tail ∈
        directive.declarations entries :=
      List.mem_map.mpr ⟨entry, List.mem_filter.mpr ⟨member, opens⟩, rfl⟩
    have count := (directive.finding?_declare_eq_none_iff _ _).mp (unreported _ declared)
    rcases List.head?_eq_some_iff.mp opened with ⟨operands, shape⟩
    rw [shape] at count ⊢
    exact count
  · intro wellFormed declaration declared
    rcases List.mem_map.mp declared with ⟨entry, listed, rfl⟩
    have opened := List.mem_filter.mp listed
    have keyword : entry.tokens.head? = some directive.keyword := by
      simpa [Directive.opens] using opened.2
    have count := wellFormed entry opened.1 keyword
    rcases List.head?_eq_some_iff.mp keyword with ⟨operands, shape⟩
    apply (directive.finding?_declare_eq_none_iff _ _).mpr
    rw [shape] at count ⊢
    exact count

/-- Resolving reports the entries that have no order. -/
theorem resolveFindings_eq_nil_iff (text : String) :
    (validLines (labelledLines text)).flatMap Line.resolveFindings = [] <->
      forall entry, entry ∈ commandEntries text ->
        Exists fun order => orderOf entry.tokens = .ok order := by
  rw [List.flatMap_eq_nil_iff, ← entries_labelledLines]
  constructor
  · intro unreported entry member
    rcases List.mem_map.mp member with ⟨line, listed, rfl⟩
    exact line.resolveFindings_eq_nil_iff.mp (unreported line listed)
  · intro ordered line listed
    exact line.resolveFindings_eq_nil_iff.mpr (ordered line.entry (List.mem_map_of_mem listed))

/-- Encoding reports the orders that have no clear encoding. -/
theorem encodeFindings_eq_nil_iff {text : String} {steps : List (Line × List Finding)}
    (taken : StepsAt (encodeLine (placedLines text)) (placedLines text) steps) :
    steps.flatMap Prod.snd = [] <->
      forall entry order, entry ∈ commandEntries text -> orderOf entry.tokens = .ok order ->
        Exists fun encoding => ClearEncoding (placedLines text) order encoding := by
  rw [List.flatMap_eq_nil_iff]
  constructor
  · intro unreported entry order member ordered
    rcases step_of_mem_commandEntries taken member ordered with
      ⟨step, encoding, inSteps, encoded, findings⟩
    have noFindings := unreported step inSteps
    rw [findings, List.map_eq_nil_iff] at noFindings
    exact ⟨encoding, clear_of_encodeOrder encoded noFindings⟩
  · intro clear step inSteps
    cases valid : step.1.valid with
    | false => exact (kept_of_mem_steps taken inSteps valid).2
    | true =>
        rcases encoded_of_mem_steps taken inSteps valid with
          ⟨order, encoding, ⟨entry, member, ordered⟩, encoded, -, -, -, findings⟩
        rcases clear entry order member ordered with ⟨other, isClear⟩
        rw [encodeOrder_of_clear isClear] at encoded
        cases encoded
        rw [findings, problems_of_clear isClear, List.map_nil]

/-- Without a line dropped there are as many valid lines as entries. -/
theorem length_validLines_placedLines {text : String}
    (ordered : forall entry, entry ∈ commandEntries text ->
      Exists fun order => orderOf entry.tokens = .ok order) :
    (validLines (placedLines text)).length = (commandEntries text).length := by
  have orders := congrArg List.length (orders_placedLines text)
  rw [List.length_map, List.length_map, commandOrders] at orders
  rw [orders, List.length_filterMap_eq_countP, List.countP_eq_length]
  intro entry member
  rcases ordered entry member with ⟨order, found⟩
  rw [found]
  rfl

theorem imageFindings_eq_nil_iff {text : String} {assembly : Assembly}
    (returned : assemble text = .ok assembly) :
    imageFindings assembly.lines = [] <-> (validLines (placedLines text)).length ≤ 256 := by
  have orders := congrArg List.length (map_validLines_lines returned Line.order fun _ => rfl)
  rw [List.length_map, List.length_map] at orders
  rw [imageFindings_eq, programWords, List.length_map, orders]
  by_cases fits : (validLines (placedLines text)).length ≤ imageSize
  · rw [if_pos fits]
    exact ⟨fun _ => fits, fun _ => rfl⟩
  · rw [if_neg fits]
    exact ⟨fun none => absurd none (List.cons_ne_nil _ _), fun short => absurd short fits⟩

/-- An assembly is without findings when all declarations have the right number
of tokens, every entry left has an order with a clear encoding, and the entries
fit into the image. -/
theorem findings_eq_nil_iff {text : String} {assembly : Assembly}
    (returned : assemble text = .ok assembly) :
    assembly.findings = [] <->
      (forall entry, entry ∈ sourceEntries text -> entry.tokens.head? = some "#define" ->
          entry.tokens.length = 3) ∧
        (forall entry, entry ∈ definedEntries text -> entry.tokens.head? = some "#label" ->
          entry.tokens.length = 2) ∧
        (forall entry, entry ∈ commandEntries text ->
          Exists fun order => Exists fun encoding =>
            orderOf entry.tokens = .ok order ∧
              ClearEncoding (placedLines text) order encoding) ∧
        (commandEntries text).length ≤ 256 := by
  have overlong := imageFindings_eq_nil_iff returned
  rcases (assemble_eq_ok_iff text assembly).mp returned with ⟨steps, taken, rfl⟩
  have split : (encodedAssembly text (steps.map Prod.fst) (steps.flatMap Prod.snd)).findings =
      [] <-> (((findingsOf (Directive.define.declarations (sourceEntries text)) = [] ∧
        findingsOf (Directive.label.declarations (definedEntries text)) = []) ∧
        (validLines (labelledLines text)).flatMap Line.resolveFindings = []) ∧
        steps.flatMap Prod.snd = []) ∧ imageFindings (steps.map Prod.fst) = [] := by
    simp only [encodedAssembly, earlyFindings, List.append_eq_nil_iff]
  have short : imageFindings (steps.map Prod.fst) = [] <->
      (validLines (placedLines text)).length ≤ 256 := overlong
  rw [split, findingsOf_declarations_eq_nil_iff, findingsOf_declarations_eq_nil_iff,
    resolveFindings_eq_nil_iff, encodeFindings_eq_nil_iff taken, short]
  constructor
  · rintro ⟨⟨⟨⟨defines, labels⟩, ordered⟩, clear⟩, fits⟩
    rw [length_validLines_placedLines ordered] at fits
    refine ⟨defines, labels, ?_, fits⟩
    intro entry member
    rcases ordered entry member with ⟨order, found⟩
    rcases clear entry order member found with ⟨encoding, isClear⟩
    exact ⟨order, encoding, found, isClear⟩
  · rintro ⟨defines, labels, commands, fits⟩
    have ordered : forall entry, entry ∈ commandEntries text ->
        Exists fun order => orderOf entry.tokens = .ok order := by
      intro entry member
      rcases commands entry member with ⟨order, -, found, -⟩
      exact ⟨order, found⟩
    rw [← length_validLines_placedLines ordered] at fits
    refine ⟨⟨⟨⟨defines, labels⟩, ordered⟩, ?_⟩, fits⟩
    intro entry order member found
    rcases commands entry member with ⟨other, encoding, alsoFound, isClear⟩
    rw [found] at alsoFound
    cases alsoFound
    exact ⟨encoding, isClear⟩

/-! ## The grammar -/

def registerNames : List String :=
  ["r0", "r1", "r2", "r3", "r4", "r5", "r6", "r7"]

/-- The token lists of commands.  The entries are those among which an address
load finds its target. -/
inductive InGrammar (entries : List Entry) : List String -> Prop
  | abbreviation (abbreviation : Abbreviation) (operands : List String)
      (count : operands.length = abbreviation.arity)
      (registers : forall operand, operand ∈ operands -> operand ∈ registerNames) :
      InGrammar entries (abbreviation.mnemonic :: operands)
  | calculate (op : CalcOp) (target left right : String) (isTarget : target ∈ registerNames)
      (isLeft : left ∈ registerNames) (isRight : right ∈ registerNames) :
      InGrammar entries [op.mnemonic, target, left, right]
  | immediate (op : ImmOp) (target numeral : String) (value : Int)
      (isTarget : target ∈ registerNames)
      (written : Numeral.OperandNumeral numeral.toList value)
      (least : -128 ≤ value) (greatest : value ≤ 127) :
      InGrammar entries [op.mnemonic, target, numeral]
  | memory (op : MemOp) (target address : String) (isTarget : target ∈ registerNames)
      (isAddress : address ∈ registerNames) :
      InGrammar entries [op.mnemonic, target, "(" ++ address ++ ")"]
  | loadAddress (target operand : String) (numeral : Numeral.Decimal) (entry : Entry)
      (isTarget : target ∈ registerNames)
      (written : Numeral.SignedDigits operand.toList numeral) (positive : 1 ≤ numeral.value)
      (member : entry ∈ entries) (reached : numeral.value ≤ entry.number) :
      InGrammar entries ["la", target, operand]

/-- The texts whose declarations have the right number of tokens and whose other
lines are commands that fit into the image. -/
structure Accepted (text : String) : Prop where
  defines : forall entry, entry ∈ sourceEntries text -> entry.tokens.head? = some "#define" ->
    entry.tokens.length = 3
  labels : forall entry, entry ∈ definedEntries text -> entry.tokens.head? = some "#label" ->
    entry.tokens.length = 2
  commands : forall entry, entry ∈ commandEntries text ->
    InGrammar (commandEntries text) entry.tokens
  fits : (commandEntries text).length ≤ 256

theorem mem_registerNames_iff (token : String) :
    token ∈ registerNames <->
      Exists fun register : Register =>
        token = Instruction.registerText register.toNibble := by
  have names : registerNames = (List.finRange 8).map fun register =>
      Instruction.registerText (Register.toNibble register) := by
    decide +kernel
  rw [names, List.mem_map]
  constructor
  · rintro ⟨register, -, rfl⟩
    exact ⟨register, rfl⟩
  · rintro ⟨register, rfl⟩
    exact ⟨register, List.mem_finRange register, rfl⟩

theorem registerText_mem_registerNames (register : Register) :
    Instruction.registerText register.toNibble ∈ registerNames :=
  (mem_registerNames_iff _).mpr ⟨register, rfl⟩

/-- An expansion has registers for operands when the abbreviation has. -/
theorem Abbreviation.registers_iff {abbreviation : Abbreviation} {operands rest : List String}
    {name : String} (expands : abbreviation.expand? operands = some (name :: rest)) :
    (forall operand, operand ∈ rest -> operand ∈ registerNames) <->
      forall operand, operand ∈ operands -> operand ∈ registerNames := by
  have zero : "r0" ∈ registerNames := by decide
  unfold Abbreviation.expand? at expands
  split at expands
  case h_11 => cases expands
  all_goals
    cases expands
    simp only [List.forall_mem_cons, zero, true_and] <;> tauto

/-- What is encoded without a problem is in the grammar. -/
theorem inGrammar_of_clear {text : String} {tokens : List String} {order : Order}
    {encoding : Encoding} (ordered : orderOf tokens = .ok order)
    (clear : ClearEncoding (placedLines text) order encoding) :
    InGrammar (commandEntries text) tokens := by
  rcases (orderOf_eq_ok_iff tokens order).mp ordered with
    rfl | ⟨abbreviation, operands, rfl, expands⟩
  · cases clear with
    | calculate op target left right =>
        exact .calculate op _ _ _ (registerText_mem_registerNames target)
          (registerText_mem_registerNames left) (registerText_mem_registerNames right)
    | immediate op target numeral value reads =>
        rcases (immediateOperand_eq_clear_iff numeral value).mp reads with ⟨read, least, greatest⟩
        exact .immediate op _ numeral value (registerText_mem_registerNames target)
          ((Numeral.read_eq_ok_iff _ _).mp read) least greatest
    | memory op target address =>
        exact .memory op _ _ (registerText_mem_registerNames target)
          (registerText_mem_registerNames address)
    | loadAddress target operand value resolves =>
        rcases (resolveTarget_eq_clear_iff _ _ _).mp resolves with ⟨number, line, named, found, -⟩
        rcases (targetLine_eq_clear_iff operand number).mp named with
          ⟨numeral, recognised, -, rfl, positive⟩
        rcases (exists_nextValid?_iff (numbered_placedLines text) positive).mp ⟨line, found⟩ with
          ⟨reached, placed, above⟩
        rcases entry_of_mem_placedLines placed with ⟨entry, _, member, -, sameNumber, -⟩
        rw [sameNumber] at above
        exact .loadAddress _ operand numeral entry (registerText_mem_registerNames target)
          ((Numeral.ofText?_eq_some_iff _ _).mp recognised) positive member above
  · rcases Abbreviation.expand?_eq_some expands with ⟨op, first, second, third, same⟩
    -- an expansion is a calculation, so the other forms do not occur
    have calculation : order = ⟨.calculate op, [first, second, third]⟩ := by
      have named := namedOrder_tokens order
      rw [same, namedOrder_tokens] at named
      exact (Except.ok.inj named).symm
    have count : operands.length = abbreviation.arity := by
      apply (abbreviation.expand?_isSome_iff operands).mp
      rw [expands]
      rfl
    refine .abbreviation abbreviation operands count ((Abbreviation.registers_iff expands).mp ?_)
    rw [calculation] at clear ⊢
    cases clear with
    | calculate _ target left right => simp [registerText_mem_registerNames]

theorem ordered_of_inGrammar {entries : List Entry} {tokens : List String}
    (grammatical : InGrammar entries tokens) :
    Exists fun order => orderOf tokens = .ok order := by
  cases grammatical with
  | abbreviation abbreviation operands count registers =>
      rcases Abbreviation.exists_order count with ⟨op, first, second, third, -, own⟩
      exact ⟨_, own⟩
  | calculate op target left right =>
      exact ⟨_, orderOf_tokens ⟨.calculate op, [target, left, right]⟩⟩
  | immediate op target numeral =>
      exact ⟨_, orderOf_tokens ⟨.immediate op, [target, numeral]⟩⟩
  | memory op target address =>
      exact ⟨_, orderOf_tokens ⟨.memory op, [target, _]⟩⟩
  | loadAddress target operand =>
      exact ⟨_, orderOf_tokens ⟨.loadAddress, [target, operand]⟩⟩

theorem isReadable_of_targetLine {operand : String} {numeral : Numeral.Decimal}
    {result : Int × List Problem} (named : targetLine operand = .ok result)
    (recognised : Numeral.Decimal.ofText? operand.toList = some numeral) :
    numeral.isReadable = true := by
  cases readable : numeral.isReadable with
  | true => rfl
  | false => simp [targetLine, recognised, readable] at named

/-- The target of an address load is found, and within the image, when a line of
its number or a later one remains and the program fits. -/
theorem exists_resolveTarget {text : String} {operand : String} {numeral : Numeral.Decimal}
    {line : Line} (recognised : Numeral.Decimal.ofText? operand.toList = some numeral)
    (readable : numeral.isReadable = true) (positive : 0 < numeral.value)
    (member : line ∈ validLines (placedLines text)) (reached : numeral.value ≤ line.number)
    (fits : (validLines (placedLines text)).length ≤ 256) :
    Exists fun value => resolveTarget (placedLines text) operand = .ok (value, []) := by
  have named := (targetLine_eq_clear_iff operand _).mpr
    ⟨numeral, recognised, readable, rfl, positive⟩
  rcases (exists_nextValid?_iff (numbered_placedLines text) positive).mpr ⟨line, member, reached⟩
    with ⟨next, found⟩
  rcases position_of_mem_layout (mem_validLines_of_nextValid? found) with ⟨position, placed, below⟩
  have within : next.position.getD 0 < imageSize := by
    rw [placed]
    exact Nat.lt_of_lt_of_le below fits
  exact ⟨_, (resolveTarget_eq_clear_iff _ _ _).mpr ⟨_, next, named, found, within, rfl⟩⟩

/-- What is in the grammar is encoded without a problem, if it is encoded at all
and every line of a program that fits has an order. -/
theorem clear_of_inGrammar {text : String} {tokens : List String} {order : Order}
    {encoding : Encoding}
    (allOrdered : forall entry, entry ∈ commandEntries text ->
      Exists fun order => orderOf entry.tokens = .ok order)
    (fits : (commandEntries text).length ≤ 256)
    (grammatical : InGrammar (commandEntries text) tokens) (ordered : orderOf tokens = .ok order)
    (encoded : encodeOrder (placedLines text) order = .ok encoding) :
    Exists fun clear => ClearEncoding (placedLines text) order clear := by
  cases grammatical with
  | abbreviation abbreviation operands count registers =>
      rcases Abbreviation.exists_order count with ⟨op, first, second, third, expands, own⟩
      cases own.symm.trans ordered
      have operandNames := (Abbreviation.registers_iff expands).mpr registers
      simp only [List.forall_mem_cons, mem_registerNames_iff] at operandNames
      rcases operandNames with ⟨⟨target, rfl⟩, ⟨left, rfl⟩, ⟨right, rfl⟩, -⟩
      exact ⟨_, .calculate op target left right⟩
  | calculate op target left right isTarget isLeft isRight =>
      cases (orderOf_tokens ⟨.calculate op, [target, left, right]⟩).symm.trans ordered
      rcases (mem_registerNames_iff target).mp isTarget with ⟨target, rfl⟩
      rcases (mem_registerNames_iff left).mp isLeft with ⟨left, rfl⟩
      rcases (mem_registerNames_iff right).mp isRight with ⟨right, rfl⟩
      exact ⟨_, .calculate op target left right⟩
  | immediate op target numeral value isTarget written least greatest =>
      cases (orderOf_tokens ⟨.immediate op, [target, numeral]⟩).symm.trans ordered
      rcases (mem_registerNames_iff target).mp isTarget with ⟨target, rfl⟩
      have read := (Numeral.read_eq_ok_iff numeral value).mpr written
      exact ⟨_, .immediate op target numeral value
        ((immediateOperand_eq_clear_iff numeral value).mpr ⟨read, least, greatest⟩)⟩
  | memory op target address isTarget isAddress =>
      cases (orderOf_tokens ⟨.memory op, [target, "(" ++ address ++ ")"]⟩).symm.trans ordered
      rcases (mem_registerNames_iff target).mp isTarget with ⟨target, rfl⟩
      rcases (mem_registerNames_iff address).mp isAddress with ⟨address, rfl⟩
      exact ⟨_, .memory op target address⟩
  | loadAddress target operand numeral entry isTarget written positive member reached =>
      cases (orderOf_tokens ⟨.loadAddress, [target, operand]⟩).symm.trans ordered
      rcases (mem_registerNames_iff target).mp isTarget with ⟨target, rfl⟩
      have recognised := (Numeral.ofText?_eq_some_iff _ _).mpr written
      rcases targetLine_of_encodeOrder encoded with ⟨result, named⟩
      have readable := isReadable_of_targetLine named recognised
      rcases allOrdered entry member with ⟨entryOrder, entryOrdered⟩
      rcases placed_of_mem_commandEntries member entryOrdered with ⟨line, placed, number, -⟩
      rw [← number] at reached
      rw [← length_validLines_placedLines allOrdered] at fits
      rcases exists_resolveTarget recognised readable positive placed reached fits with
        ⟨value, resolves⟩
      exact ⟨_, .loadAddress target operand value resolves⟩

/-- An assembly counts no problem exactly when its text is in the accepted
language. -/
theorem count_eq_zero_iff_accepted (text : String) (assembly : Assembly)
    (returned : assemble text = .ok assembly) :
    assembly.diagnostics.count = 0 <-> Accepted text := by
  rw [assembly.count_eq_zero_iff, findings_eq_nil_iff returned]
  constructor
  · rintro ⟨defines, labels, commands, fits⟩
    refine ⟨defines, labels, ?_, fits⟩
    intro entry member
    rcases commands entry member with ⟨order, encoding, ordered, clear⟩
    exact inGrammar_of_clear ordered clear
  · intro accepted
    have allOrdered : forall entry, entry ∈ commandEntries text ->
        Exists fun order => orderOf entry.tokens = .ok order := fun entry member =>
      ordered_of_inGrammar (accepted.commands entry member)
    refine ⟨accepted.defines, accepted.labels, ?_, accepted.fits⟩
    intro entry member
    rcases allOrdered entry member with ⟨order, ordered⟩
    rcases (assemble_eq_ok_iff text assembly).mp returned with ⟨steps, taken, -⟩
    rcases step_of_mem_commandEntries taken member ordered with ⟨_, encoding, -, encoded, -⟩
    rcases clear_of_inGrammar allOrdered accepted.fits (accepted.commands entry member) ordered
      encoded with ⟨clear, isClear⟩
    exact ⟨order, clear, ordered, isClear⟩

/-- A define, a label and an abbreviation are accepted; a ninth register is not. -/
theorem count_eq_zero_iff_accepted_of_samples :
    (Exists fun assembly =>
      assemble "#define t r1\n#label q\nla t, q\nj t" = .ok assembly ∧
        assembly.diagnostics.count = 0 ∧ Accepted "#define t r1\n#label q\nla t, q\nj t") ∧
      Exists fun assembly =>
        assemble "li r8, 1" = .ok assembly ∧ assembly.diagnostics.count = 1 ∧
          ¬ Accepted "li r8, 1" := by
  constructor
  · rcases exists_assembly_of_map "#define t r1\n#label q\nla t, q\nj t"
      (fun assembly => assembly.diagnostics.count) (show _ = some 0 by decide +kernel) with
        ⟨assembly, returned, count⟩
    exact ⟨assembly, returned, count, (count_eq_zero_iff_accepted _ assembly returned).mp count⟩
  · rcases exists_assembly_of_map "li r8, 1" (fun assembly => assembly.diagnostics.count)
      (show _ = some 1 by decide +kernel) with ⟨assembly, returned, count⟩
    refine ⟨assembly, returned, count, ?_⟩
    intro accepted
    have none := (count_eq_zero_iff_accepted _ assembly returned).mpr accepted
    rw [count] at none
    cases none

end NibbleMachine
