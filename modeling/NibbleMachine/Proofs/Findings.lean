import NibbleMachine.Proofs.Image
import Mathlib.Data.List.Nodup

namespace NibbleMachine

/-!
# The findings of an assembly

Every pass reports in the order of the lines, and the findings of an assembly
are those of the passes one after the other.  The statements here give them in
terms of the entries and orders of the text: the lines as they were passed from
one pass to the next do not occur any more, except that the target of an address
load is looked for among them.

Line numbers grow from entry to entry, so no two entries share one.  What is
recorded for the line of an order is therefore what encoding that order records.
-/

/-! ## Findings by entries and orders -/

def Entry.resolveFindings (entry : Entry) : List Finding :=
  match orderOf entry.tokens with
  | .ok _ => []
  | .error problem => [.atLine entry.number problem]

/-- The problems that encoding an order records. -/
def orderProblems (lines : List Line) (order : Order) : List Problem :=
  match encodeOrder lines order with
  | .ok encoding => encoding.problems
  | .error _ => []

/-- The findings of encoding orders at the lines of their numbers. -/
def encodeFindings (lines : List Line) (orders : List (Nat × Order)) : List Finding :=
  orders.flatMap fun placed => (orderProblems lines placed.2).map (Finding.atLine placed.1)

theorem orderProblems_of_ok {lines : List Line} {order : Order} {encoding : Encoding}
    (encoded : encodeOrder lines order = .ok encoding) :
    orderProblems lines order = encoding.problems := by
  simp [orderProblems, encoded]

theorem resolveFindings_labelledLines (text : String) :
    (validLines (labelledLines text)).flatMap Line.resolveFindings =
      (commandEntries text).flatMap Entry.resolveFindings := by
  rw [← entries_labelledLines, entries, List.flatMap_map]
  rfl

theorem encodeFindings_of_steps {text : String} {steps : List (Line × List Finding)}
    (taken : StepsAt (encodeLine (placedLines text)) (placedLines text) steps) :
    steps.flatMap Prod.snd = encodeFindings (placedLines text) (numberedOrders text) := by
  let note (numbered : Nat × Option Order) : List Finding :=
    ((numbered.2.map (orderProblems (placedLines text))).getD []).map
      (Finding.atLine numbered.1)
  have noted : forall line step, line ∈ placedLines text -> line.valid = true ->
      encodeLine (placedLines text) line = .ok step -> step.2 = note line.numbered := by
    intro line step _ _ stepped
    rcases (encodeLine_eq_ok_iff _ _ _).mp stepped with
      ⟨order, encoding, _, ordered, encoded, _, rfl⟩
    simp only [note, Line.numbered, ordered, Option.map_some, Option.getD_some,
      orderProblems_of_ok encoded]
  calc
    steps.flatMap Prod.snd
        = (validLines (placedLines text)).flatMap fun line => note line.numbered :=
      taken.flatMap_notes _ _ noted
    _ = ((validLines (placedLines text)).map Line.numbered).flatMap note := by
      rw [List.flatMap_map]
    _ = encodeFindings (placedLines text) (numberedOrders text) := by
      rw [numbered_placedLines_orders, List.flatMap_map]
      rfl

/-- The findings of an assembly: malformed defines, malformed labels, lines
without an order, problems with operands, and a program that is too long. -/
theorem findings_eq {text : String} {assembly : Assembly}
    (returned : assemble text = .ok assembly) :
    assembly.findings =
      findingsOf (Directive.define.declarations (sourceEntries text)) ++
        findingsOf (Directive.label.declarations (definedEntries text)) ++
        (commandEntries text).flatMap Entry.resolveFindings ++
        encodeFindings (placedLines text) (numberedOrders text) ++
        imageFindings assembly.lines := by
  rcases (assemble_eq_ok_iff text assembly).mp returned with ⟨steps, taken, rfl⟩
  rw [← encodeFindings_of_steps taken, ← resolveFindings_labelledLines]
  rfl

/-- The valid lines of an assembly carry the orders of its text. -/
theorem numbered_lines_orders {text : String} {assembly : Assembly}
    (returned : assemble text = .ok assembly) :
    (validLines assembly.lines).map Line.numbered =
      (numberedOrders text).map fun placed => (placed.1, some placed.2) :=
  (map_validLines_lines returned Line.numbered fun _ => rfl).trans
    (numbered_placedLines_orders text)

/-- In an assembly that returned, every order was encoded. -/
theorem exists_encoding_of_mem_numberedOrders {text : String} {assembly : Assembly}
    (returned : assemble text = .ok assembly) {placed : Nat × Order}
    (member : placed ∈ numberedOrders text) :
    Exists fun encoding => encodeOrder (placedLines text) placed.2 = .ok encoding := by
  rcases (mem_numberedOrders_iff _ _ _).mp member with ⟨entry, listed, -, ordered⟩
  exact (exists_assembly_iff text).mp ⟨assembly, returned⟩ entry placed.2 listed ordered

/-! ## Numbers that do not repeat -/

theorem number_increases_of_numbered {lines : List Line} (numbered : Numbered lines) :
    ((validLines lines).map Line.number).Pairwise fun first second => first < second := by
  have all : (lines.map Line.number).Pairwise fun first second => first < second := by
    rw [numbered]
    exact List.pairwise_lt_range'
  have part : ((validLines lines).map Line.number).Sublist (lines.map Line.number) :=
    List.filter_sublist.map Line.number
  exact all.sublist part

theorem map_fst_numberedOrders (text : String) :
    (numberedOrders text).map Prod.fst = (validLines (placedLines text)).map Line.number := by
  have both := congrArg (List.map Prod.fst) (numbered_placedLines_orders text)
  rw [List.map_map, List.map_map] at both
  exact both.symm

theorem number_increases_numberedOrders (text : String) :
    ((numberedOrders text).map Prod.fst).Pairwise fun first second => first < second := by
  rw [map_fst_numberedOrders]
  exact number_increases_of_numbered (numbered_placedLines text)

/-- The lines that are not blank have growing numbers. -/
theorem number_increases_sourceEntries (text : String) :
    ((sourceEntries text).map Entry.number).Pairwise fun first second => first < second := by
  rw [← entries_preparedLines, entries, List.map_map]
  exact number_increases_of_numbered (numbered_preparedLines text)

/-- Lines are numbered from one to the number of lines. -/
theorem number_bounds_sourceEntries {text : String} {number : Nat}
    (member : number ∈ (sourceEntries text).map Entry.number) :
    1 ≤ number ∧ number ≤ (Text.lines text.toList).length := by
  rw [← entries_preparedLines, entries, List.map_map] at member
  have listed : number ∈ (preparedLines text).map Line.number :=
    (List.filter_sublist.map Line.number).subset member
  have counted : number ∈ List.range' 1 (Text.lines text.toList).length := by
    rwa [map_number_preparedLines, loadLines, map_number_numberLines] at listed
  have within := List.mem_range'_1.mp counted
  exact ⟨within.1, by omega⟩

/-- A directive keeps the numbers of the entries it leaves. -/
theorem number_sublist_remaining (directive : Directive) (entries : List Entry) :
    ((directive.remaining entries).map Entry.number).Sublist (entries.map Entry.number) := by
  rw [Directive.remaining, List.map_map]
  exact List.filter_sublist.map Entry.number

theorem number_increases_definedEntries (text : String) :
    ((definedEntries text).map Entry.number).Pairwise fun first second => first < second :=
  (number_increases_sourceEntries text).sublist (number_sublist_remaining .define _)

/-- Entries with growing numbers are told apart by them. -/
theorem eq_of_number_eq {entries : List Entry}
    (increases : (entries.map Entry.number).Pairwise fun first second => first < second)
    {first second : Entry} (inFirst : first ∈ entries) (inSecond : second ∈ entries)
    (same : first.number = second.number) : first = second := by
  have nodup : (entries.map Entry.number).Nodup := increases.imp Nat.ne_of_lt
  exact List.inj_on_of_nodup_map nodup inFirst inSecond same

/-! ## What is recorded for a line -/

def Finding.problemAt? (number : Nat) : Finding -> Option Problem
  | .atLine line problem => if line = number then some problem else none
  | .programTooLong => none

def Assembly.problemsAt (assembly : Assembly) (number : Nat) : List Problem :=
  assembly.findings.filterMap (Finding.problemAt? number)

def Finding.isAt (number : Nat) : Finding -> Bool
  | .atLine line _ => line == number
  | .programTooLong => false

def Assembly.messagesAt (assembly : Assembly) (number : Nat) : List String :=
  (assembly.findings.filter (Finding.isAt number)).map Finding.message

/-- The messages for a line are the texts of its problems behind its number. -/
theorem messagesAt_eq (assembly : Assembly) (number : Nat) :
    assembly.messagesAt number = (assembly.problemsAt number).map fun problem =>
      "ERROR in Line " ++ Numeral.decimal number ++ ": " ++ problem.message := by
  unfold Assembly.messagesAt Assembly.problemsAt
  induction assembly.findings with
  | nil => rfl
  | cons finding rest inductionHypothesis =>
      cases finding with
      | programTooLong => exact inductionHypothesis
      | atLine line problem =>
          by_cases here : line = number
          · have found : Finding.problemAt? number (.atLine line problem) = some problem :=
              if_pos here
            rw [List.filter_cons_of_pos (by simp [Finding.isAt, here]), List.map_cons,
              inductionHypothesis, List.filterMap_cons_some found, here]
            rfl
          · rw [List.filter_cons_of_neg (by simp [Finding.isAt, here]), inductionHypothesis,
              List.filterMap_cons_none (by simp [Finding.problemAt?, here])]

theorem filterMap_problemAt?_map (number line : Nat) (problems : List Problem) :
    (problems.map (Finding.atLine line)).filterMap (Finding.problemAt? number) =
      if line = number then problems else [] := by
  rw [List.filterMap_map]
  by_cases here : line = number
  · have found : Finding.problemAt? number ∘ Finding.atLine line = some := by
      funext problem
      simp [Finding.problemAt?, here]
    rw [found, List.filterMap_some, if_pos here]
  · have missed : Finding.problemAt? number ∘ Finding.atLine line = fun _ => none := by
      funext problem
      simp [Finding.problemAt?, here]
    rw [missed, List.filterMap_none, if_neg here]

section

variable {Item : Type} (number : Item -> Nat) (problems : Item -> List Problem)

/-- What is found at the items of a list, each at the line of its number. -/
def locatedFindings (items : List Item) : List Finding :=
  items.flatMap fun item => (problems item).map (Finding.atLine (number item))

theorem problemsAt_locatedFindings_of_not_mem {items : List Item} {line : Nat}
    (elsewhere : line ∉ items.map number) :
    (locatedFindings number problems items).filterMap (Finding.problemAt? line) = [] := by
  rw [List.filterMap_eq_nil_iff]
  intro finding found
  rcases List.mem_flatMap.mp found with ⟨item, listed, inItem⟩
  rcases List.mem_map.mp inItem with ⟨problem, -, rfl⟩
  apply if_neg
  rintro rfl
  exact elsewhere (List.mem_map_of_mem listed)

/-- Among items whose numbers do not repeat, the problems at a number are those of
its item. -/
theorem problemsAt_locatedFindings {items : List Item} (nodup : (items.map number).Nodup)
    {item : Item} (member : item ∈ items) :
    (locatedFindings number problems items).filterMap (Finding.problemAt? (number item)) =
      problems item := by
  induction items with
  | nil => cases member
  | cons first rest inductionHypothesis =>
      rw [List.map_cons, List.nodup_cons] at nodup
      have split : (locatedFindings number problems (first :: rest)).filterMap
          (Finding.problemAt? (number item)) =
            (if number first = number item then problems first else []) ++
              (locatedFindings number problems rest).filterMap
                (Finding.problemAt? (number item)) := by
        rw [locatedFindings, List.flatMap_cons, List.filterMap_append, filterMap_problemAt?_map]
        rfl
      rw [split]
      rcases List.mem_cons.mp member with rfl | later
      · rw [if_pos rfl, problemsAt_locatedFindings_of_not_mem number problems nodup.1,
          List.append_nil]
      · have different : number first ≠ number item := by
          intro same
          exact nodup.1 (same ▸ List.mem_map_of_mem later)
        rw [if_neg different, List.nil_append, inductionHypothesis nodup.2 later]

end

/-- Among numbered orders whose numbers do not repeat, the problems at a number are
those of its order. -/
theorem problemsAt_encodeFindings (lines : List Line) {orders : List (Nat × Order)}
    (increases : (orders.map Prod.fst).Pairwise fun first second => first < second)
    {number : Nat} {order : Order} (member : (number, order) ∈ orders) :
    (encodeFindings lines orders).filterMap (Finding.problemAt? number) =
      orderProblems lines order :=
  problemsAt_locatedFindings Prod.fst (fun placed => orderProblems lines placed.2)
    (increases.imp Nat.ne_of_lt) member

end NibbleMachine
