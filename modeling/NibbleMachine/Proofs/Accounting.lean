import NibbleMachine.Proofs.Passage
import NibbleMachine.Proofs.Roles

namespace NibbleMachine

/-!
# Accounting for every line

Each source line ends in one of four ways.  It is blank, it is consumed by a
directive, it is dropped because it has no order, or it is encoded.  The ways are
told apart by the pass that withdraws the line, and since a line that was withdrawn
stays so, no line is withdrawn twice.

Every pass that reports does so on the lines it visits, and a pass that leaves a
line in the program has nothing to say about it.  So what is recorded for a line
comes from the pass at which its way ends: at most one problem from a directive, one
from resolving, and from encoding one for each bad operand.
-/

/-! ## The passes of an assembly -/

/-- What the passes of an assembly left, one after the other. -/
structure Passes (text : String) (assembly : Assembly) where
  defined : Applied
  labelled : Applied
  resolved : List Line
  resolving : List Finding
  encoding : List Finding
  defines : applyDirective .define (preparedLines text) = .ok defined
  labels : applyDirective .label defined.lines = .ok labelled
  resolves : (resolveCommands labelled.lines).complete = .ok (resolved, resolving)
  encodes : (encodeLines (layout resolved)).complete = .ok (assembly.lines, encoding)
  findings : assembly.findings =
    defined.findings ++ labelled.findings ++ resolving ++ encoding ++ imageFindings assembly.lines

/-- How the way of a source line ends. -/
inductive Fate where
  | blank
  | consumed (directive : Directive)
  | dropped
  | encoded
deriving DecidableEq, Repr

/-- A line that goes into a pass and is withdrawn by it. -/
def WithdrawnAt (index : Nat) (before after : List Line) : Prop :=
  Exists fun line => Exists fun left =>
    before[index]? = some line ∧ line.valid = true ∧ after[index]? = some left ∧ left.valid = false

namespace Passes

variable {text : String} {assembly : Assembly} (passes : Passes text assembly)

def visited : Directive -> List Line
  | .define => preparedLines text
  | .label => passes.defined.lines

def Meets (index : Nat) : Fate -> Prop
  | .blank => Exists fun source =>
      (Text.lines text.toList)[index]? = some source ∧ clean (String.ofList source) = ""
  | .consumed directive =>
      WithdrawnAt index (passes.visited directive)
        (directive.collect (passes.visited directive)).lines
  | .dropped => WithdrawnAt index passes.labelled.lines passes.resolved
  | .encoded => Exists fun line => assembly.lines[index]? = some line ∧ line.valid = true

/-- The findings of the pass at which a fate is met. -/
def part : Fate -> List Finding
  | .blank => []
  | .consumed .define => passes.defined.findings
  | .consumed .label => passes.labelled.findings
  | .dropped => passes.resolving
  | .encoded => passes.encoding

end Passes

def Passes.ofReturned {text : String} {assembly : Assembly}
    (returned : assemble text = .ok assembly) : Passes text assembly where
  defined :=
    { lines := definedLines text
      symbols := Directive.define.table (sourceEntries text)
      findings := tokenFindings Directive.define.problems (entries (preparedLines text)) }
  labelled :=
    { lines := labelledLines text
      symbols := Directive.label.table (definedEntries text)
      findings := tokenFindings Directive.label.problems (entries (definedLines text)) }
  resolved := resolvedLines text
  resolving := tokenFindings resolveProblems (entries (labelledLines text))
  encoding := tokenFindings (encodeProblems (placedLines text)) (entries (labelledLines text))
  defines := by
    rw [applyDirective_eq .define (tokenized_preparedLines text), findingsOf_declarations,
      entries_preparedLines]
    rfl
  labels := by
    rw [applyDirective_eq .label (tokenized_definedLines text), findingsOf_declarations,
      entries_definedLines]
    rfl
  resolves := by
    rw [complete_resolveCommands (tokenized_labelledLines text), resolveFindings_labelledLines,
      flatMap_resolveFindings, entries_labelledLines]
    rfl
  encodes := by
    rcases (assemble_eq_ok_iff text assembly).mp returned with ⟨steps, taken, rfl⟩
    rw [entries_labelledLines, ← encodeFindings_numberedOrders, ← encodeFindings_of_steps taken]
    exact (complete_sweep_eq_ok_iff _ _ _ _).mpr ⟨steps, taken, rfl, rfl⟩
  findings := findings_eq_tokenFindings returned

/-! ## Fates by passages -/

/-- Whether a line of a given fate is valid when it has been cut, after the defines,
after the labels, and when it has been resolved. -/
def Fate.stages : Fate -> List Bool
  | .blank => [false, false, false, false]
  | .consumed .define => [true, false, false, false]
  | .consumed .label => [true, true, false, false]
  | .dropped => [true, true, true, false]
  | .encoded => [true, true, true, true]

theorem Fate.stages_injective {first second : Fate} (same : first.stages = second.stages) :
    first = second := by
  rcases first with _ | (_ | _) | _ | _ <;> rcases second with _ | (_ | _) | _ | _ <;>
    simp_all [stages]

/-- A line that a directive leaves valid was valid and not opened by it. -/
theorem closed_of_settle {directive : Directive} {symbols : List (String × String)} {line : Line}
    (valid : (onValid (directive.settle symbols) line).valid = true) :
    line.valid = true ∧ directive.opens line.tokenList = false := by
  unfold onValid at valid
  split at valid
  · next taking =>
      refine ⟨taking, ?_⟩
      unfold Directive.settle at valid
      split at valid
      · cases valid
      · next closed => exact eq_false_of_ne_true closed
  · next invalid => exact absurd valid invalid

namespace Passage

variable (passage : Passage)

/-- Whether the line of a passage is valid at each of its stages. -/
def stages : List Bool :=
  [passage.prepared.valid, passage.defined.valid, passage.labelled.valid, passage.resolved.valid]

/-- A line that is valid at a stage was valid at all stages before. -/
theorem valid_before :
    (passage.resolved.valid = true -> passage.labelled.valid = true) ∧
      (passage.labelled.valid = true -> passage.defined.valid = true) ∧
      (passage.defined.valid = true -> passage.prepared.valid = true) :=
  ⟨fun valid => (exists_order_of_valid _ valid).1, fun valid => (closed_of_settle valid).1,
    fun valid => (closed_of_settle valid).1⟩

/-- The stages of a passage are those of one fate. -/
theorem exists_fate : Exists fun fate : Fate => passage.stages = fate.stages := by
  rcases passage.valid_before with ⟨resolved, labelled, defined⟩
  unfold stages
  cases last : passage.resolved.valid with
  | true =>
      rw [defined (labelled (resolved last)), labelled (resolved last), resolved last]
      exact ⟨.encoded, rfl⟩
  | false =>
  cases third : passage.labelled.valid with
  | true =>
      rw [defined (labelled third), labelled third]
      exact ⟨.dropped, rfl⟩
  | false =>
  cases second : passage.defined.valid with
  | true =>
      rw [defined second]
      exact ⟨.consumed .label, rfl⟩
  | false =>
  cases passage.prepared.valid with
  | true => exact ⟨.consumed .define, rfl⟩
  | false => exact ⟨.blank, rfl⟩

/-- How a fate is recognised by the stage at which the line stops being valid. -/
theorem stages_eq_iff (fate : Fate) :
    passage.stages = fate.stages <->
      match fate with
      | .blank => passage.prepared.valid = false
      | .consumed .define => passage.prepared.valid = true ∧ passage.defined.valid = false
      | .consumed .label => passage.defined.valid = true ∧ passage.labelled.valid = false
      | .dropped => passage.labelled.valid = true ∧ passage.resolved.valid = false
      | .encoded => passage.resolved.valid = true := by
  -- validity is never regained, so the stages before and behind the named ones follow
  rcases passage.valid_before with ⟨resolved, labelled, defined⟩
  rcases fate with _ | (_ | _) | _ | _ <;>
    simp only [stages, Fate.stages, List.cons.injEq, and_true] <;> grind

end Passage

theorem valid_tokenize_eq_false_iff (line : Line) (valid : line.valid = true) :
    line.tokenize.valid = false <-> clean line.text = "" := by
  cases blank : (clean line.text).isEmpty with
  | true =>
      rw [tokenize_of_blank blank]
      exact ⟨fun _ => String.isEmpty_iff.mp blank, fun _ => rfl⟩
  | false =>
      rw [tokenize_of_not_blank blank]
      constructor
      · intro invalid
        cases valid.symm.trans invalid
      · intro empty
        rw [empty] at blank
        cases blank

theorem withdrawnAt_iff {index : Nat} {before after : List Line} {line left : Line}
    (listed : before[index]? = some line) (leftListed : after[index]? = some left) :
    WithdrawnAt index before after <-> line.valid = true ∧ left.valid = false := by
  constructor
  · rintro ⟨other, otherLeft, found, valid, foundLeft, invalid⟩
    rw [listed] at found
    rw [leftListed] at foundLeft
    cases found
    cases foundLeft
    exact ⟨valid, invalid⟩
  · rintro ⟨valid, invalid⟩
    exact ⟨line, left, listed, valid, leftListed, invalid⟩

/-- Collecting withdraws the lines that are withdrawn when the symbols have been
replaced as well. -/
theorem withdrawnAt_collect_iff {directive : Directive} {lines : List Line}
    (tokenized : Tokenized lines) {index : Nat} {line : Line}
    (listed : lines[index]? = some line) (symbols : List (String × String)) :
    WithdrawnAt index lines (directive.collect lines).lines <->
      line.valid = true ∧ (onValid (directive.settle symbols) line).valid = false := by
  have collected := (Swept.complete_eq_ok_iff _ _ _).mp (directive.complete_collect tokenized)
  have left : (directive.collect lines).lines[index]? = some (onValid directive.strip line) := by
    rw [collected.1, List.getElem?_map, listed]
    rfl
  have kept : (onValid (directive.settle symbols) line).valid =
      (onValid directive.strip line).valid := by
    rw [← directive.onValid_substituted_strip]
    generalize onValid directive.strip line = stripped
    unfold onValid
    split <;> rfl
  rw [withdrawnAt_iff listed left, kept]

/-- The line of a passage is valid in the end when it was resolved. -/
theorem Passage.EndsAs.valid_eq {lines : List Line} {passage : Passage} {line : Line}
    (ends : passage.EndsAs lines line) : line.valid = passage.resolved.valid := by
  cases ends with
  | withdrawn invalid => rfl
  | encoded order encoding tokens position valid ordered =>
      rw [Passage.valid_resolved valid ordered]
      simpa only [Line.valid_store] using valid

section

variable {text : String} {assembly : Assembly} {index : Nat} {source : List Char}

/-- A line meets the fate that the stages of its passage show. -/
theorem meets_iff (returned : assemble text = .ok assembly)
    (listed : (Text.lines text.toList)[index]? = some source) (fate : Fate) :
    (Passes.ofReturned returned).Meets index fate <->
      (assembly.passage index source).stages = fate.stages := by
  have prepared := getElem?_preparedLines assembly listed
  have defined := getElem?_definedLines returned listed
  have labelled := getElem?_labelledLines returned listed
  have resolved := getElem?_resolvedLines returned listed
  rw [Passage.stages_eq_iff]
  rcases fate with _ | (_ | _) | _ | _
  · have cut := valid_tokenize_eq_false_iff (Line.fresh (index + 1) (String.ofList source)) rfl
    constructor
    · rintro ⟨other, alsoListed, empty⟩
      rw [listed] at alsoListed
      cases alsoListed
      exact cut.mpr empty
    · intro invalid
      exact ⟨source, listed, cut.mp invalid⟩
  · exact withdrawnAt_collect_iff (tokenized_preparedLines text) prepared _
  · exact withdrawnAt_collect_iff (tokenized_definedLines text) defined _
  · exact withdrawnAt_iff labelled resolved
  · rcases exists_line_of_passage returned listed with ⟨line, inLines, ends⟩
    rw [← ends.valid_eq]
    constructor
    · rintro ⟨other, alsoListed, valid⟩
      rw [inLines] at alsoListed
      cases alsoListed
      exact valid
    · intro valid
      exact ⟨line, inLines, valid⟩

end

/-! ## Problems by fates -/

section

variable {line : Line} {directive : Directive} {symbols : List (String × String)}

theorem opens_of_withdrawn (valid : line.valid = true)
    (withdrawn : (onValid (directive.settle symbols) line).valid = false) :
    directive.opens line.tokenList = true := by
  cases opened : directive.opens line.tokenList with
  | true => rfl
  | false =>
      rw [onValid_of_valid _ valid, Directive.settle, opened,
        if_neg Bool.false_ne_true] at withdrawn
      cases valid.symm.trans withdrawn

theorem exists_problem_of_withdrawn (valid : line.valid = true)
    (withdrawn : (onValid Line.resolved line).valid = false) :
    Exists fun problem => orderOf line.tokenList = .error problem := by
  cases ordered : orderOf line.tokenList with
  | error problem => exact ⟨problem, rfl⟩
  | ok order =>
      rw [onValid_of_valid _ valid, Line.resolved_of_order ordered] at withdrawn
      cases valid.symm.trans withdrawn

/-- A directive has nothing to say about a line that it does not withdraw. -/
theorem problemsBy_directive_eq_nil
    (stays : line.valid = (onValid (directive.settle symbols) line).valid) :
    line.problemsBy directive.problems = [] := by
  cases valid : line.valid with
  | false => exact Line.problemsBy_of_invalid _ valid
  | true =>
      rw [Line.problemsBy_of_valid _ valid]
      exact directive.problems_of_not_opens (closed_of_settle (stays.symm.trans valid)).2

/-- Resolving has nothing to say about a line that it does not withdraw. -/
theorem problemsBy_resolve_eq_nil (stays : line.valid = (onValid Line.resolved line).valid) :
    line.problemsBy resolveProblems = [] := by
  cases valid : line.valid with
  | false => exact Line.problemsBy_of_invalid _ valid
  | true =>
      rcases exists_order_of_valid line (stays.symm.trans valid) with ⟨-, order, ordered, -⟩
      rw [Line.problemsBy_of_valid _ valid, resolveProblems, ordered]

/-- Encoding has nothing to say about a line that was withdrawn before. -/
theorem problemsBy_encode_eq_nil (lines : List Line)
    (withdrawn : (onValid Line.resolved line).valid = false) :
    line.problemsBy (encodeProblems lines) = [] := by
  cases valid : line.valid with
  | false => exact Line.problemsBy_of_invalid _ valid
  | true =>
      rcases exists_problem_of_withdrawn valid withdrawn with ⟨problem, refused⟩
      rw [Line.problemsBy_of_valid _ valid, encodeProblems, refused]

end

namespace Passage

variable (passage : Passage) (lines : List Line)

/-- The problems that are recorded by the pass at which a fate is met. -/
def fateProblems : Fate -> List Problem
  | .blank => []
  | .consumed .define => passage.prepared.problemsBy Directive.define.problems
  | .consumed .label => passage.defined.problemsBy Directive.label.problems
  | .dropped => passage.labelled.problemsBy resolveProblems
  | .encoded => passage.labelled.problemsBy (encodeProblems lines)

/-- All problems of a passage come from the pass at which its fate is met. -/
theorem problems_eq_fateProblems {fate : Fate} (fares : passage.stages = fate.stages) :
    passage.problems lines = passage.fateProblems lines fate := by
  have define : passage.prepared.valid = passage.defined.valid ->
      passage.prepared.problemsBy Directive.define.problems = [] := problemsBy_directive_eq_nil
  have label : passage.defined.valid = passage.labelled.valid ->
      passage.defined.problemsBy Directive.label.problems = [] := problemsBy_directive_eq_nil
  have resolve : passage.labelled.valid = passage.resolved.valid ->
      passage.labelled.problemsBy resolveProblems = [] := problemsBy_resolve_eq_nil
  have encode : passage.resolved.valid = false ->
      passage.labelled.problemsBy (encodeProblems lines) = [] := problemsBy_encode_eq_nil lines
  unfold problems
  rcases fate with _ | (_ | _) | _ | _ <;>
    simp only [stages, Fate.stages, List.cons.injEq, and_true] at fares <;>
    simp [fateProblems, fares, define, label, resolve, encode]

/-- A line that reaches encoding has the problems of its order, and no others. -/
theorem problems_of_order {order : Order} (valid : passage.labelled.valid = true)
    (ordered : orderOf passage.labelled.tokenList = .ok order) :
    passage.problems lines = orderProblems lines order := by
  have fares := (passage.stages_eq_iff .encoded).mpr (valid_resolved valid ordered)
  rw [passage.problems_eq_fateProblems lines fares, fateProblems, Line.problemsBy_of_valid _ valid,
    encodeProblems, ordered]

end Passage

theorem Directive.problems_of_opens (directive : Directive) {tokens : List String}
    (opened : directive.opens tokens = true) :
    directive.problems tokens =
      if tokens.length = directive.tokenCount then [] else [directive.problem] := by
  simp [problems, opened]

section

variable {text : String} {assembly : Assembly} {index : Nat} {source : List Char}

/-- For a valid line exactly the problems of its order are recorded. -/
theorem problemsAt_line {line : Line} (returned : assemble text = .ok assembly)
    (member : line ∈ assembly.lines) (valid : line.valid = true) :
    Exists fun order => line.order = some order ∧
      assembly.problemsAt line.number = orderProblems (placedLines text) order := by
  rcases List.mem_iff_getElem?.mp member with ⟨index, listed⟩
  rcases exists_source_of_line returned listed with ⟨source, read, ends⟩
  rw [number_of_getElem? (numbered_lines returned) listed, problemsAt_passage returned read]
  generalize assembly.passage index source = passage at ends
  cases ends with
  | withdrawn invalid =>
      rw [invalid] at valid
      cases valid
  | encoded order _ _ _ taking ordered =>
      exact ⟨order, rfl, passage.problems_of_order _ taking ordered⟩

theorem problemsAt_part (returned : assemble text = .ok assembly)
    (listed : (Text.lines text.toList)[index]? = some source) (fate : Fate) :
    ((Passes.ofReturned returned).part fate).filterMap (Finding.problemAt? (index + 1)) =
      (assembly.passage index source).fateProblems (placedLines text) fate := by
  have prepared := getElem?_preparedLines assembly listed
  have defined := getElem?_definedLines returned listed
  have labelled := getElem?_labelledLines returned listed
  generalize assembly.passage index source = passage at prepared defined labelled ⊢
  rcases fate with _ | (_ | _) | _ | _ <;>
    simp only [Passes.part, Passes.ofReturned, Passage.fateProblems]
  · rfl
  · exact problemsAt_pass _ (numbered_preparedLines text) prepared
  · exact problemsAt_pass _ (numbered_definedLines text) defined
  · exact problemsAt_pass _ (numbered_labelledLines text) labelled
  · exact problemsAt_pass _ (numbered_labelledLines text) labelled

/-- What is recorded for a line comes from the pass at which it meets its fate. -/
theorem problemsAt_of_meets (returned : assemble text = .ok assembly)
    (listed : (Text.lines text.toList)[index]? = some source) {fate : Fate}
    (meets : (Passes.ofReturned returned).Meets index fate) :
    assembly.problemsAt (index + 1) =
      (assembly.passage index source).fateProblems (placedLines text) fate := by
  rw [problemsAt_passage returned listed]
  exact Passage.problems_eq_fateProblems _ _ ((meets_iff returned listed fate).mp meets)

end

/-! ## Findings in the order of the lines -/

def Finding.line? : Finding -> Option Nat
  | .atLine line _ => some line
  | .programTooLong => none

/-- Findings on lines, in the order of the lines. -/
def LinesGrow (findings : List Finding) : Prop :=
  Exists fun numbers : List Nat =>
    findings.map Finding.line? = numbers.map some ∧
      numbers.Pairwise fun first second => first ≤ second

/-- What is found at items with growing numbers is in the order of the lines. -/
theorem linesGrow_locatedFindings {Item : Type} (number : Item -> Nat)
    (problems : Item -> List Problem) {items : List Item}
    (increases : (items.map number).Pairwise fun first second => first < second) :
    LinesGrow (locatedFindings number problems items) := by
  refine ⟨items.flatMap fun item => (problems item).map fun _ => number item, ?_, ?_⟩
  · rw [locatedFindings, List.map_flatMap, List.map_flatMap]
    apply List.flatMap_congr
    intro item _
    rw [List.map_map, List.map_map]
    rfl
  · rw [List.pairwise_flatMap]
    constructor
    · intro item _
      rw [List.pairwise_map]
      exact List.pairwise_of_forall fun _ _ => Nat.le_refl _
    · rw [List.pairwise_map] at increases
      refine increases.imp ?_
      intro first second less one inFirst other inSecond
      rcases List.mem_map.mp inFirst with ⟨_, -, rfl⟩
      rcases List.mem_map.mp inSecond with ⟨_, -, rfl⟩
      exact Nat.le_of_lt less

theorem linesGrow_part {text : String} {assembly : Assembly}
    (returned : assemble text = .ok assembly) (fate : Fate) :
    LinesGrow ((Passes.ofReturned returned).part fate) := by
  have pass : forall (problems : List String -> List Problem) {lines : List Line},
      Numbered lines -> LinesGrow (tokenFindings problems (entries lines)) :=
    fun problems _ numbered => linesGrow_locatedFindings Entry.number
      (fun entry => problems entry.tokens) (number_increases_entries numbered)
  rcases fate with _ | (_ | _) | _ | _ <;> simp only [Passes.part, Passes.ofReturned]
  · exact ⟨[], rfl, .nil⟩
  · exact pass _ (numbered_preparedLines text)
  · exact pass _ (numbered_definedLines text)
  · exact pass _ (numbered_labelledLines text)
  · exact pass _ (numbered_labelledLines text)

/-! ## Every line -/

section

variable {text : String} {assembly : Assembly} {index : Nat} {source : List Char}

/-- A directive line has no problem or the one of its directive, by its number of
tokens. -/
theorem problemsAt_of_consumed (returned : assemble text = .ok assembly)
    (listed : (Text.lines text.toList)[index]? = some source) {directive : Directive} {line : Line}
    (meets : (Passes.ofReturned returned).Meets index (.consumed directive))
    (visits : ((Passes.ofReturned returned).visited directive)[index]? = some line) :
    assembly.problemsAt (index + 1) =
      if line.tokenList.length = directive.tokenCount then [] else [directive.problem] := by
  have prepared := getElem?_preparedLines assembly listed
  have defined := getElem?_definedLines returned listed
  have stopped := (Passage.stages_eq_iff _ _).mp ((meets_iff returned listed _).mp meets)
  rw [problemsAt_of_meets returned listed meets]
  generalize assembly.passage index source = passage at prepared defined stopped ⊢
  cases directive with
  | define =>
      have same : passage.prepared = line := Option.some.inj (prepared.symm.trans visits)
      rw [Passage.fateProblems, Line.problemsBy_of_valid _ stopped.1,
        Directive.problems_of_opens _ (opens_of_withdrawn stopped.1 stopped.2), same]
  | label =>
      have same : passage.defined = line := Option.some.inj (defined.symm.trans visits)
      rw [Passage.fateProblems, Line.problemsBy_of_valid _ stopped.1,
        Directive.problems_of_opens _ (opens_of_withdrawn stopped.1 stopped.2), same]

/-- A line without an order has one problem. -/
theorem problemsAt_of_dropped (returned : assemble text = .ok assembly)
    (listed : (Text.lines text.toList)[index]? = some source)
    (meets : (Passes.ofReturned returned).Meets index .dropped) :
    Exists fun problem => assembly.problemsAt (index + 1) = [problem] := by
  have stopped := (Passage.stages_eq_iff _ _).mp ((meets_iff returned listed _).mp meets)
  rw [problemsAt_of_meets returned listed meets]
  rcases exists_problem_of_withdrawn stopped.1 stopped.2 with ⟨problem, refused⟩
  refine ⟨problem, ?_⟩
  rw [Passage.fateProblems, Line.problemsBy_of_valid _ stopped.1, resolveProblems, refused]

/-- A line that is encoded has one problem when its number of operands is wrong, and
otherwise one for each bad operand. -/
theorem problemsAt_of_encoded (returned : assemble text = .ok assembly) {line : Line}
    (member : line ∈ assembly.lines) (valid : line.valid = true) :
    Exists fun order => line.order = some order ∧
      (order.operands.length ≠ order.command.arity ->
        (assembly.problemsAt line.number).length = 1) ∧
      (order.operands.length = order.command.arity ->
        (assembly.problemsAt line.number).length = order.slots.countP
          (OperandRole.isBad ((validLines assembly.lines).map Line.number))) := by
  have taking : line ∈ validLines assembly.lines := List.mem_filter.mpr ⟨member, valid⟩
  rcases problemsAt_line returned member valid with ⟨order, ordered, recorded⟩
  have numbered := mem_numberedOrders_of_line returned taking ordered
  rcases exists_encoding_of_mem_numberedOrders returned numbered with ⟨encoding, encoded⟩
  refine ⟨order, ordered, ?_, ?_⟩
  · intro wrong
    rw [recorded, orderProblems_of_ok (encodeOrder_of_wrong_count _ wrong)]
    rfl
  · intro count
    rcases exists_readings encoded count with ⟨readings, reads⟩
    rw [recorded, orderProblems_of_ok (encodeOrder_of_readings reads count), Command.gather,
      map_number_lines returned]
    exact length_problems_of_readings (List.ne_nil_of_mem numbered) reads

end

theorem Order.countP_slots_le (order : Order) (bad : OperandRole × String -> Bool) :
    order.slots.countP bad ≤ order.command.arity := by
  calc
    order.slots.countP bad ≤ order.slots.length := List.countP_le_length
    _ ≤ order.command.roles.length := by
      rw [slots, List.length_zip]
      exact Nat.min_le_left _ _
    _ = order.command.arity := order.command.length_roles

/-- No line is lost and none is reported twice.  Every source line is blank, consumed
by a directive, dropped, or encoded, and not two of these.  What is recorded for it
comes from the pass at which this is decided: nothing for a blank line, at most one
problem for a directive, by its number of tokens, exactly one for a line that is
dropped, and for a line that is encoded one when its number of operands is wrong and
otherwise one for each bad operand.  The messages are those of the passes one after
the other, each in the order of the lines, and at most one on the whole program. -/
theorem every_line_is_accounted_for (text : String) (assembly : Assembly)
    (returned : assemble text = .ok assembly) :
    Exists fun passes : Passes text assembly =>
      (forall (index : Nat) (source : List Char),
        (Text.lines text.toList)[index]? = some source ->
          ExistsUnique (passes.Meets index) ∧
          (forall fate, passes.Meets index fate -> assembly.problemsAt (index + 1) =
            (passes.part fate).filterMap (Finding.problemAt? (index + 1))) ∧
          (passes.Meets index .blank -> assembly.problemsAt (index + 1) = []) ∧
          (forall directive line, passes.Meets index (.consumed directive) ->
            (passes.visited directive)[index]? = some line ->
              assembly.problemsAt (index + 1) =
                if line.tokenList.length = directive.tokenCount then []
                else [directive.problem]) ∧
          (passes.Meets index .dropped -> (assembly.problemsAt (index + 1)).length = 1) ∧
          (passes.Meets index .encoded -> Exists fun line => Exists fun order =>
            assembly.lines[index]? = some line ∧ line.order = some order ∧
              (order.operands.length ≠ order.command.arity ->
                (assembly.problemsAt (index + 1)).length = 1) ∧
              (order.operands.length = order.command.arity ->
                (assembly.problemsAt (index + 1)).length = order.slots.countP
                    (OperandRole.isBad ((validLines assembly.lines).map Line.number)) ∧
                  (assembly.problemsAt (index + 1)).length ≤ order.command.arity))) ∧
      assembly.diagnostics.messages =
        (passes.defined.findings ++ passes.labelled.findings ++ passes.resolving ++
          passes.encoding ++ imageFindings assembly.lines).map Finding.message ∧
      LinesGrow passes.defined.findings ∧ LinesGrow passes.labelled.findings ∧
      LinesGrow passes.resolving ∧ LinesGrow passes.encoding ∧
      (imageFindings assembly.lines = [] ∨
        imageFindings assembly.lines = [.programTooLong]) := by
  refine ⟨Passes.ofReturned returned, ?_, ?_, linesGrow_part returned (.consumed .define),
    linesGrow_part returned (.consumed .label), linesGrow_part returned .dropped,
    linesGrow_part returned .encoded, ?_⟩
  · intro index source listed
    have meets := meets_iff returned listed
    refine ⟨?_, ?_, ?_, ?_, ?_, ?_⟩
    · rcases (assembly.passage index source).exists_fate with ⟨fate, fares⟩
      refine ⟨fate, (meets fate).mpr fares, ?_⟩
      intro other otherwise
      exact Fate.stages_injective (((meets other).mp otherwise).symm.trans fares)
    · intro fate met
      rw [problemsAt_of_meets returned listed met, problemsAt_part returned listed]
    · intro met
      exact problemsAt_of_meets returned listed met
    · intro directive line met visits
      exact problemsAt_of_consumed returned listed met visits
    · intro met
      rcases problemsAt_of_dropped returned listed met with ⟨problem, one⟩
      rw [one]
      rfl
    · rintro ⟨line, inLines, valid⟩
      rcases problemsAt_of_encoded returned (List.mem_of_getElem? inLines) valid with
        ⟨order, ordered, wrong, counted⟩
      rw [number_of_getElem? (numbered_lines returned) inLines] at wrong counted
      refine ⟨line, order, inLines, ordered, wrong, ?_⟩
      intro count
      refine ⟨counted count, ?_⟩
      rw [counted count]
      exact order.countP_slots_le _
  · rw [← (Passes.ofReturned returned).findings]
    rfl
  · rw [imageFindings_eq]
    split
    · exact Or.inl rfl
    · exact Or.inr rfl

/-- A comment, a malformed define, a line without an order, and a command with two bad
operands. -/
theorem every_line_is_accounted_for_of_sample :
    Exists fun assembly =>
      Exists fun passes : Passes " // c\n#define t\nx\nadd r9, 3, r1" assembly =>
        assemble " // c\n#define t\nx\nadd r9, 3, r1" = .ok assembly ∧
          passes.Meets 0 .blank ∧ assembly.problemsAt 1 = [] ∧
          ExistsUnique (passes.Meets 1) ∧ ExistsUnique (passes.Meets 2) ∧
          passes.Meets 3 .encoded ∧ (assembly.problemsAt 4).length = 2 ∧
          LinesGrow passes.encoding := by
  rcases exists_assembly_of_map " // c\n#define t\nx\nadd r9, 3, r1"
    (fun assembly => (assembly.lines[3]?.map fun line : Line => (line.valid, line.order),
      (validLines assembly.lines).map Line.number))
    (show _ = some (some (true, some ⟨.calculate .add, ["r9", "3", "r1"]⟩), [4]) by decide +kernel)
    with ⟨assembly, returned, read⟩
  simp only [Prod.mk.injEq, Option.map_eq_some_iff] at read
  rcases read with ⟨⟨line, inLines, valid, ordered⟩, numbers⟩
  rcases every_line_is_accounted_for _ assembly returned with
    ⟨passes, fates, -, -, -, -, grows, -⟩
  have blank : passes.Meets 0 .blank := ⟨" // c".toList, by decide +kernel, by decide +kernel⟩
  have encoded : passes.Meets 3 .encoded := ⟨line, inLines, valid⟩
  have first := fates 0 " // c".toList (by decide +kernel)
  have second := fates 1 "#define t".toList (by decide +kernel)
  have third := fates 2 "x".toList (by decide +kernel)
  have fourth := fates 3 "add r9, 3, r1".toList (by decide +kernel)
  rcases fourth.2.2.2.2.2 encoded with ⟨same, order, listed, carries, -, counted⟩
  rw [inLines] at listed
  cases listed
  rw [ordered] at carries
  cases carries
  have two := (counted rfl).1
  rw [numbers] at two
  exact ⟨assembly, passes, returned, blank, first.2.2.1 blank, second.1, third.1, encoded,
    two.trans (by decide), grows⟩

end NibbleMachine
