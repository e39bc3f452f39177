import NibbleMachine.Proofs.Cleaning
import NibbleMachine.Proofs.Grammar
import NibbleMachine.Proofs.LineEnds

namespace NibbleMachine

/-!
# Written programs

A text that is written line by line is read back line by line, provided that
every line is cut into the tokens it was written from.  If moreover no line
opens a directive, nothing is replaced in it and its entries are those tokens,
numbered from one.

The texts of interest are those written from a list of orders, one order to a
line with a space between its tokens.  When the tokens are clean such a text has
these orders and no others.  Whether it is assembled, and whether without a
problem, is then a question about the orders one by one.
-/

/-! ## A line on its way -/

/-- A line that has been cut and not yet resolved. -/
def Line.cut (number : Nat) (text : String) (tokens : List String) : Line :=
  { Line.fresh number text with tokens := some tokens }

theorem tokenize_fresh {text : String} {tokens : List String}
    (cut : tokensOf (clean text) = tokens) (solid : tokens ≠ []) (number : Nat) :
    (Line.fresh number text).tokenize = Line.cut number text tokens := by
  have notBlank : (clean (Line.fresh number text).text).isEmpty = false :=
    not_blank_of_tokensOf_clean (cut ▸ solid)
  rw [tokenize_of_not_blank notBlank]
  exact congrArg (fun tokens => { Line.fresh number text with tokens := some tokens }) cut

def Line.carrying (number : Nat) (text : String) (order : Order) : Line :=
  { Line.fresh number text with tokens := some order.tokens, order := some order }

theorem onValid_resolved_cut {tokens : List String} {order : Order}
    (ordered : orderOf tokens = .ok order) {number : Nat} {text : String} :
    onValid Line.resolved (Line.cut number text tokens) = Line.carrying number text order := by
  have taking : (Line.cut number text tokens).valid = true := rfl
  have carries : orderOf (Line.cut number text tokens).tokenList = .ok order := ordered
  rw [onValid_of_valid _ taking, Line.resolved_of_order carries]
  rfl

/-! ## Entries of a written text -/

theorem Entry.ofSource?_of_tokens {text : String} {tokens : List String}
    (cut : tokensOf (clean text) = tokens) (solid : tokens ≠ []) (number : Nat) :
    Entry.ofSource? (text.toList, number) = some ⟨number, tokens⟩ := by
  have notBlank := not_blank_of_tokensOf_clean (cut ▸ solid)
  simp [Entry.ofSource?, notBlank, cut]

/-- A text whose lines were written row by row has one entry for each row. -/
theorem sourceEntries_of_rows {Row : Type} {rows : List Row} (write : Row -> String)
    (tokens : Row -> List String)
    (reads : forall row, row ∈ rows -> tokensOf (clean (write row)) = tokens row)
    (solid : forall row, row ∈ rows -> tokens row ≠ []) {text : String}
    (lines : Text.lines text.toList = rows.map fun row => (write row).toList) :
    sourceEntries text = (rows.zipIdx 1).map fun numbered => ⟨numbered.2, tokens numbered.1⟩ := by
  have numbered : forall next,
      ((rows.map fun row => (write row).toList).zipIdx next).filterMap Entry.ofSource? =
        (rows.zipIdx next).map fun numbered => ⟨numbered.2, tokens numbered.1⟩ := by
    clear lines
    induction rows with
    | nil => exact fun _ => rfl
    | cons row rest inductionHypothesis =>
        intro next
        have here := Entry.ofSource?_of_tokens (reads row List.mem_cons_self)
          (solid row List.mem_cons_self) next
        rw [List.map_cons, List.zipIdx_cons, List.filterMap_cons_some here, List.zipIdx_cons,
          List.map_cons, inductionHypothesis]
        · exact fun other member => reads other (List.mem_cons_of_mem row member)
        · exact fun other member => solid other (List.mem_cons_of_mem row member)
  rw [sourceEntries, lines]
  exact numbered 1

section

variable {text : String}
  (unopened : forall directive : Directive, forall entry, entry ∈ sourceEntries text ->
    directive.opens entry.tokens = false)

include unopened

theorem definedEntries_of_unopened : definedEntries text = sourceEntries text :=
  Directive.define.remaining_of_unopened (unopened .define)

/-- In a text without directives nothing is taken off and nothing replaced. -/
theorem commandEntries_of_unopened : commandEntries text = sourceEntries text := by
  rw [commandEntries, definedEntries_of_unopened unopened]
  exact Directive.label.remaining_of_unopened (unopened .label)

/-- An assembly of a text without directives is without findings when every entry
has an order with a clear encoding and the entries fit into the image. -/
theorem findings_eq_nil_iff_of_unopened {assembly : Assembly}
    (returned : assemble text = .ok assembly) :
    assembly.findings = [] <->
      (forall entry, entry ∈ sourceEntries text ->
        Exists fun order => Exists fun encoding =>
          orderOf entry.tokens = .ok order ∧ ClearEncoding (placedLines text) order encoding) ∧
        (sourceEntries text).length ≤ 256 := by
  have unlike : forall (directive : Directive) (entry : Entry), entry ∈ sourceEntries text ->
      entry.tokens.head? ≠ some directive.keyword := by
    intro directive entry member opened
    have closed := unopened directive entry member
    simp [Directive.opens, opened] at closed
  rw [findings_eq_nil_iff returned, definedEntries_of_unopened unopened,
    commandEntries_of_unopened unopened]
  constructor
  · rintro ⟨-, -, commands, short⟩
    exact ⟨commands, short⟩
  · rintro ⟨commands, short⟩
    refine ⟨?_, ?_, commands, short⟩
    · exact fun entry member opened => absurd opened (unlike .define entry member)
    · exact fun entry member opened => absurd opened (unlike .label entry member)

end

/-! ## Orders written one to a line -/

def Order.text (order : Order) : String :=
  String.intercalate " " order.tokens

/-- The text with the lines of some orders. -/
def programText (orders : List Order) : String :=
  String.intercalate "\n" (orders.map Order.text)

def Order.IsClean (order : Order) : Prop :=
  forall token, token ∈ order.tokens -> IsCleanToken token

theorem Order.opens_tokens (order : Order) (directive : Directive) :
    directive.opens order.tokens = false := by
  have different := Command.mnemonic_ne_keyword order.command directive
  simp [Directive.opens, Order.tokens, different]

theorem Order.IsClean.solid_text {order : Order} (cleaned : order.IsClean) :
    order.text.toList ≠ [] ∧ forall c, c ∈ order.text.toList -> c ≠ '\r' ∧ c ≠ '\n' := by
  constructor
  · -- without characters there would be no tokens
    intro empty
    have cut := tokensOf_joined fun token member => (cleaned token member).isSolidToken
    rw [tokensOf, show (String.intercalate " " order.tokens).toList = [] from empty] at cut
    cases cut
  · exact fun c member => unbroken_joined cleaned member

section

variable {orders : List Order} (cleaned : forall order, order ∈ orders -> order.IsClean)

include cleaned

theorem lines_programText :
    Text.lines (programText orders).toList = orders.map fun order => order.text.toList := by
  have separator : "\n".toList = ['\n'] := by decide
  rw [programText, String.toList_intercalate, separator, List.map_map]
  apply Text.lines_intercalate
  intro text member
  rcases List.mem_map.mp member with ⟨order, listed, rfl⟩
  exact (cleaned order listed).solid_text

theorem sourceEntries_programText :
    sourceEntries (programText orders) =
      (orders.zipIdx 1).map fun numbered => ⟨numbered.2, numbered.1.tokens⟩ := by
  apply sourceEntries_of_rows Order.text Order.tokens _ _ (lines_programText cleaned)
  · exact fun order listed => tokensOf_clean_joined (cleaned order listed)
  · exact fun order _ => List.cons_ne_nil _ _

theorem unopened_programText (directive : Directive) (entry : Entry)
    (member : entry ∈ sourceEntries (programText orders)) :
    directive.opens entry.tokens = false := by
  rw [sourceEntries_programText cleaned] at member
  rcases List.mem_map.mp member with ⟨numbered, -, rfl⟩
  exact numbered.1.opens_tokens directive

/-- A program has the orders it was written from, numbered from one. -/
theorem numberedOrders_programText :
    numberedOrders (programText orders) = (orders.zipIdx 1).map Prod.swap := by
  rw [numberedOrders, commandEntries_of_unopened (unopened_programText cleaned),
    sourceEntries_programText cleaned, List.filterMap_map]
  have own : Entry.numberedOrder? ∘
      (fun numbered : Order × Nat => ⟨numbered.2, numbered.1.tokens⟩) =
        some ∘ Prod.swap := by
    funext numbered
    exact Entry.numberedOrder?_of_order (orderOf_tokens numbered.1)
  rw [own, List.filterMap_eq_map]

theorem commandOrders_programText : commandOrders (programText orders) = orders := by
  rw [← map_snd_numberedOrders, numberedOrders_programText cleaned, List.map_map]
  exact List.zipIdx_map_fst 1 orders

/-- The numbers of the lines of a program count from one. -/
theorem map_fst_numberedOrders_programText :
    (numberedOrders (programText orders)).map Prod.fst = List.range' 1 orders.length := by
  rw [numberedOrders_programText cleaned, List.map_map]
  exact List.zipIdx_map_snd 1 orders

/-- A program is assembled when each of its orders can be encoded. -/
theorem exists_assembly_programText
    (encodes : forall order, order ∈ orders ->
      Exists fun encoding => encodeOrder (placedLines (programText orders)) order = .ok encoding) :
    Exists fun assembly => assemble (programText orders) = .ok assembly := by
  apply (exists_assembly_iff _).mpr
  intro entry order member ordered
  apply encodes
  have listed := (mem_numberedOrders_iff _ _ _).mpr ⟨entry, member, rfl, ordered⟩
  have inOrders := List.mem_map_of_mem (f := Prod.snd) listed
  rwa [map_snd_numberedOrders, commandOrders_programText cleaned] at inOrders

/-- A program is assembled without findings when each of its orders is encoded
without a problem and the orders fit into the image. -/
theorem findings_programText_eq_nil_iff {assembly : Assembly}
    (returned : assemble (programText orders) = .ok assembly) :
    assembly.findings = [] <->
      (forall order, order ∈ orders ->
        Exists fun encoding => ClearEncoding (placedLines (programText orders)) order encoding) ∧
        orders.length ≤ 256 := by
  rw [findings_eq_nil_iff_of_unopened (unopened_programText cleaned) returned,
    sourceEntries_programText cleaned, List.length_map, List.length_zipIdx]
  apply and_congr_left
  intro _
  constructor
  · intro clear order member
    rcases List.mem_iff_getElem?.mp member with ⟨index, found⟩
    have listed : (order, 1 + index) ∈ orders.zipIdx 1 :=
      List.mk_add_mem_zipIdx_iff_getElem?.mpr found
    rcases clear _ (List.mem_map_of_mem listed) with ⟨other, encoding, ordered, isClear⟩
    rw [orderOf_tokens] at ordered
    cases ordered
    exact ⟨encoding, isClear⟩
  · intro clear entry member
    rcases List.mem_map.mp member with ⟨numbered, listed, rfl⟩
    rcases clear numbered.1 (List.fst_mem_of_mem_zipIdx listed) with ⟨encoding, isClear⟩
    exact ⟨numbered.1, encoding, orderOf_tokens numbered.1, isClear⟩

end

end NibbleMachine
