import NibbleMachine.Proofs.Findings
import NibbleMachine.Proofs.DigitLimit

namespace NibbleMachine

/-!
# Where an address load leads

The operand of an address load names a source line, and the load is encoded with
a position in the image.  Between the two stands a search: from the named line
on, the first valid line is taken, with the position it was laid out at.  The
search has a closed form.  The line found is the first of the valid lines that
are not before the named one, so its position is the number of valid lines that
are.

An operand that does not lead anywhere leads to position zero, for reasons that
differ: a malformed or non-positive number is replaced by line one, from which
the search always finds the first valid line, and a number behind all valid
lines falls back to the first line of the text, which is at position zero or
has none.  In each case exactly one problem is recorded.
-/

/-! ## The search for a valid line -/

/-- Laying out goes on behind some lines where it stood. -/
theorem drop_layoutFrom (next count : Nat) (lines : List Line) :
    (layoutFrom next lines).drop count =
      layoutFrom (next + (validLines (lines.take count)).length) (lines.drop count) := by
  induction lines generalizing next count with
  | nil => simp [layoutFrom]
  | cons line rest inductionHypothesis =>
      cases count with
      | zero => rfl
      | succ smaller =>
          have later := fun start => inductionHypothesis start smaller
          unfold validLines at later ⊢
          rw [List.take_succ_cons, List.drop_succ_cons]
          cases valid : line.valid with
          | false =>
              rw [layoutFrom, if_neg (by simp [valid]), List.drop_succ_cons, later,
                List.filter_cons_of_neg (by simp [valid])]
          | true =>
              rw [layoutFrom, if_pos valid, List.drop_succ_cons, later,
                List.filter_cons_of_pos valid, List.length_cons, Nat.add_assoc, Nat.add_comm 1]

theorem find?_layoutFrom (next : Nat) (lines : List Line) :
    (layoutFrom next lines).find? Line.valid =
      (lines.find? Line.valid).map fun line => { line with position := some next } := by
  induction lines with
  | nil => rfl
  | cons line rest inductionHypothesis =>
      cases valid : line.valid with
      | false =>
          rw [layoutFrom, if_neg (by simp [valid]), List.find?_cons_of_neg (by simp [valid]),
            List.find?_cons_of_neg (by simp [valid]), inductionHypothesis]
      | true =>
          have laidOut : ({ line with position := some next } : Line).valid = true := valid
          rw [layoutFrom, if_pos valid, List.find?_cons_of_pos laidOut,
            List.find?_cons_of_pos valid]
          rfl

theorem start_le_of_mem {start : Nat} {lines : List Line}
    (numbers : lines.map Line.number = List.range' start lines.length) {line : Line}
    (member : line ∈ lines) : start ≤ line.number := by
  have listed : line.number ∈ List.range' start lines.length := by
    rw [← numbers]
    exact List.mem_map_of_mem member
  exact (List.mem_range'_1.mp listed).1

/-- Of the first lines of a numbered list, those are valid that are valid and have
a small number. -/
theorem length_validLines_take {start : Nat} {lines : List Line}
    (numbers : lines.map Line.number = List.range' start lines.length) (count : Nat) :
    (validLines (lines.take count)).length =
      (validLines lines).countP fun line => line.number < start + count := by
  induction lines generalizing start count with
  | nil => simp [validLines]
  | cons first rest inductionHypothesis =>
      have all : forall line, line ∈ first :: rest -> start ≤ line.number :=
        fun _ member => start_le_of_mem numbers member
      rw [List.map_cons, List.length_cons, List.range'_succ, List.cons.injEq] at numbers
      cases count with
      | zero =>
          rw [List.take_zero]
          symm
          apply List.countP_eq_zero.mpr
          intro line member
          have least := all line (List.mem_filter.mp member).1
          simpa using least
      | succ smaller =>
          have later := inductionHypothesis numbers.2 smaller
          have shifted : start + 1 + smaller = start + (smaller + 1) := by omega
          rw [shifted] at later
          unfold validLines at later ⊢
          rw [List.take_succ_cons]
          cases valid : first.valid with
          | false =>
              rw [List.filter_cons_of_neg (by simp [valid]),
                List.filter_cons_of_neg (by simp [valid]), later]
          | true =>
              have small : first.number < start + (smaller + 1) := by omega
              rw [List.filter_cons_of_pos valid, List.filter_cons_of_pos valid,
                List.length_cons, later, List.countP_cons_of_pos]
              exact decide_eq_true small

/-- Where a line number leads among valid lines of given numbers: to the place
behind the lines before it, unless no line is left. -/
def landing (numbers : List Nat) (number : Int) : Nat × List Problem :=
  if numbers.any fun other : Nat => number ≤ (other : Int) then
    (numbers.countP fun other : Nat => (other : Int) < number, [])
  else (0, [.noLineLeft])

/-- Without positions before, the first line laid out is at position zero or has
none. -/
theorem head_position_layout {lines : List Line} (occupied : lines ≠ [])
    (fresh : forall line, line ∈ lines -> line.position = none) :
    Exists fun first => Exists fun rest =>
      layout lines = first :: rest ∧ first.position.getD 0 = 0 := by
  unfold layout
  cases lines with
  | nil => exact absurd rfl occupied
  | cons line rest =>
      unfold layoutFrom
      split
      · exact ⟨_, _, rfl, rfl⟩
      · exact ⟨_, _, rfl, by simp [fresh line List.mem_cons_self]⟩

theorem nextValid?_layout (lines : List Line) {number : Int} (positive : 0 < number) :
    nextValid? (layout lines) number =
      ((lines.drop (number - 1).toNat).find? Line.valid).map fun line =>
        { line with position := some (validLines (lines.take (number - 1).toNat)).length } := by
  have start : ¬ number - 1 < 0 := by omega
  rw [nextValid?, fromIndex, if_neg start, layout, drop_layoutFrom, find?_layoutFrom,
    Nat.zero_add]

section

variable {lines : List Line} (numbered : Numbered lines) {number : Int} (positive : 0 < number)

include numbered positive

/-- The lines are numbered without gaps, so those from the named line on are the ones that
are left when the lines before it are left out. -/
theorem landing_of_found {line : Line}
    (found : (lines.drop (number - 1).toNat).find? Line.valid = some line) :
    landing ((validLines lines).map Line.number) number =
      ((validLines (lines.take (number - 1).toNat)).length, []) := by
  have valid := List.find?_some found
  have reached := (mem_drop_iff_of_numbers numbered (number - 1).toNat line).mp
    (List.mem_of_find?_eq_some found)
  have some : ((validLines lines).map Line.number).any
      (fun other : Nat => number ≤ (other : Int)) = true := by
    apply List.any_eq_true.mpr
    refine ⟨line.number, List.mem_map_of_mem (List.mem_filter.mpr ⟨reached.1, valid⟩), ?_⟩
    apply decide_eq_true
    omega
  have place : (validLines (lines.take (number - 1).toNat)).length =
      ((validLines lines).map Line.number).countP fun other : Nat => (other : Int) < number := by
    rw [length_validLines_take numbered, List.countP_map]
    apply List.countP_congr
    intro other _
    simp only [Function.comp, decide_eq_true_eq]
    omega
  rw [landing, some, if_pos rfl, place]

theorem landing_of_not_found
    (missed : (lines.drop (number - 1).toNat).find? Line.valid = none) :
    landing ((validLines lines).map Line.number) number = (0, [.noLineLeft]) := by
  have none : ((validLines lines).map Line.number).any
      (fun other : Nat => number ≤ (other : Int)) = false := by
    apply List.any_eq_false.mpr
    intro other listed
    rcases List.mem_map.mp listed with ⟨line, member, rfl⟩
    have inLines := List.mem_filter.mp member
    intro reached
    have above := of_decide_eq_true reached
    have dropped := (mem_drop_iff_of_numbers numbered (number - 1).toNat line).mpr
      ⟨inLines.1, by omega⟩
    exact List.find?_eq_none.mp missed line dropped inLines.2
  rw [landing, none, if_neg Bool.false_ne_true]

/-- The position that a positive line number stands for, in closed form. -/
theorem targetPosition_layout (occupied : lines ≠ [])
    (fresh : forall line, line ∈ lines -> line.position = none) :
    targetPosition (layout lines) number =
      .ok (landing ((validLines lines).map Line.number) number) := by
  unfold targetPosition
  rw [nextValid?_layout lines positive]
  cases found : (lines.drop (number - 1).toNat).find? Line.valid with
  | some line =>
      rw [landing_of_found numbered positive found]
      rfl
  | none =>
      rcases head_position_layout occupied fresh with ⟨first, rest, shape, start⟩
      rw [landing_of_not_found numbered positive found, shape]
      simp only [Option.map_none, start]

end

/-- A text with orders has lines. -/
theorem placedLines_ne_nil {text : String} (occupied : numberedOrders text ≠ []) :
    placedLines text ≠ [] := by
  intro empty
  have none := map_fst_numberedOrders text
  rw [empty] at none
  exact occupied (List.map_eq_nil_iff.mp none)

theorem numberedOrders_ne_nil {text : String} {line : Line}
    (member : line ∈ validLines (placedLines text)) : numberedOrders text ≠ [] := by
  intro empty
  have numbers := map_fst_numberedOrders text
  rw [empty] at numbers
  exact List.ne_nil_of_mem member (List.map_eq_nil_iff.mp numbers.symm)

/-- The position that a line number stands for in a text. -/
theorem targetPosition_placedLines {text : String} (occupied : numberedOrders text ≠ [])
    {number : Int} (positive : 0 < number) :
    targetPosition (placedLines text) number =
      .ok (landing ((numberedOrders text).map Prod.fst) number) := by
  have numbered : Numbered (resolvedLines text) :=
    numbered_of_map_number (map_number_resolvedLines text)
  have numbers : (validLines (resolvedLines text)).map Line.number =
      (numberedOrders text).map Prod.fst := by
    rw [map_fst_numberedOrders,
      ← map_validLines_erased Line.unplaced (fun _ => rfl) Line.number (fun _ => rfl),
      ← map_unplaced_placedLines,
      map_validLines_erased Line.unplaced (fun _ => rfl) Line.number (fun _ => rfl)]
  have resolved : resolvedLines text ≠ [] := by
    intro empty
    apply placedLines_ne_nil occupied
    rw [placedLines, empty]
    rfl
  rw [placedLines, targetPosition_layout numbered positive resolved _, numbers]
  intro line member
  exact (fresh_of_mem_resolvedLines member).1

/-! ## What an operand resolves to -/

/-- What the operand of an address load resolves to among valid lines of given
numbers: a position, and the problems on the way. -/
inductive TargetOutcome (numbers : List Nat) (operand : String) : Nat -> List Problem -> Prop
  | form (malformed : forall numeral, ¬ Numeral.SignedDigits operand.toList numeral) :
      TargetOutcome numbers operand 0 [.lineNumberForm]
  | sign (numeral : Numeral.Decimal) (written : Numeral.SignedDigits operand.toList numeral)
      (low : numeral.value ≤ 0) :
      TargetOutcome numbers operand 0 [.lineNumberSign]
  | past (numeral : Numeral.Decimal) (written : Numeral.SignedDigits operand.toList numeral)
      (positive : 0 < numeral.value)
      (behind : forall other : Nat, other ∈ numbers -> (other : Int) < numeral.value) :
      TargetOutcome numbers operand 0 [.noLineLeft]
  | found (numeral : Numeral.Decimal) (written : Numeral.SignedDigits operand.toList numeral)
      (positive : 0 < numeral.value)
      (ahead : Exists fun other : Nat => other ∈ numbers ∧ numeral.value ≤ (other : Int))
      (position : Nat)
      (place : position = numbers.countP fun other : Nat => (other : Int) < numeral.value) :
      TargetOutcome numbers operand position
        (if position ≤ 255 then [] else [.positionRange position])

/-- What reading a line number gives. -/
theorem targetLine_eq_ok {operand : String} {number : Int} {problems : List Problem}
    (named : targetLine operand = .ok (number, problems)) :
    ((forall numeral, ¬ Numeral.SignedDigits operand.toList numeral) ∧
        number = 1 ∧ problems = [.lineNumberForm]) ∨
      Exists fun numeral : Numeral.Decimal =>
        Numeral.SignedDigits operand.toList numeral ∧
          (numeral.value ≤ 0 ∧ number = 1 ∧ problems = [.lineNumberSign] ∨
            0 < numeral.value ∧ number = numeral.value ∧ problems = []) := by
  unfold targetLine at named
  cases recognised : Numeral.Decimal.ofText? operand.toList with
  | none =>
      simp only [recognised, Except.ok.injEq, Prod.mk.injEq] at named
      refine Or.inl ⟨?_, named.1.symm, named.2.symm⟩
      intro numeral written
      rw [(Numeral.ofText?_eq_some_iff _ numeral).mpr written] at recognised
      cases recognised
  | some numeral =>
      refine Or.inr ⟨numeral, (Numeral.ofText?_eq_some_iff _ numeral).mp recognised, ?_⟩
      simp only [recognised] at named
      split at named
      · cases named
      · split at named
        · next low =>
            cases named
            exact Or.inl ⟨low, rfl, rfl⟩
        · next positive =>
            cases named
            exact Or.inr ⟨Int.lt_of_not_ge positive, rfl, rfl⟩

/-- From a number that is not behind any of the lines, the first of them is found. -/
theorem landing_of_le {numbers : List Nat} (occupied : numbers ≠ []) {number : Int}
    (least : forall other : Nat, other ∈ numbers -> number ≤ (other : Int)) :
    landing numbers number = (0, []) := by
  rcases List.exists_mem_of_ne_nil numbers occupied with ⟨some, listed⟩
  have reached : numbers.any (fun other : Nat => number ≤ (other : Int)) = true :=
    List.any_eq_true.mpr ⟨some, listed, decide_eq_true (least some listed)⟩
  have nothing : (numbers.countP fun other : Nat => (other : Int) < number) = 0 := by
    apply List.countP_eq_zero.mpr
    intro other member before
    exact Int.not_lt.mpr (least other member) (of_decide_eq_true before)
  rw [landing, reached, if_pos rfl, nothing]

theorem landing_eq (numbers : List Nat) (number : Int) :
    (forall other : Nat, other ∈ numbers -> (other : Int) < number) ∧
        landing numbers number = (0, [.noLineLeft]) ∨
      (Exists fun other : Nat => other ∈ numbers ∧ number ≤ (other : Int)) ∧
        landing numbers number =
          (numbers.countP fun other : Nat => (other : Int) < number, []) := by
  cases reached : numbers.any fun other : Nat => number ≤ (other : Int) with
  | false =>
      refine Or.inl ⟨?_, by rw [landing, reached, if_neg Bool.false_ne_true]⟩
      intro other member
      have short := List.any_eq_false.mp reached other member
      exact Int.lt_of_not_ge fun above => short (decide_eq_true above)
  | true =>
      rcases List.any_eq_true.mp reached with ⟨other, member, above⟩
      exact Or.inr ⟨⟨other, member, of_decide_eq_true above⟩,
        by rw [landing, reached, if_pos rfl]⟩

theorem resolveTarget_of_landing {lines : List Line} {operand : String} {number : Int}
    {lineProblems positionProblems : List Problem} {position : Nat}
    (named : targetLine operand = .ok (number, lineProblems))
    (lands : targetPosition lines number = .ok (position, positionProblems)) :
    resolveTarget lines operand = .ok (signedByte position,
      lineProblems ++ positionProblems ++
        if position ≤ 255 then [] else [.positionRange position]) := by
  have within : position < imageSize <-> position ≤ 255 := Nat.lt_succ_iff
  simp only [resolveTarget, named, lands, bind, Except.bind, pure, Except.pure, within]

/-- From line one the search finds the first order of a text. -/
theorem targetPosition_one {text : String} (occupied : numberedOrders text ≠ []) :
    targetPosition (placedLines text) 1 = .ok (0, []) := by
  rw [targetPosition_placedLines occupied (by decide)]
  apply congrArg Except.ok
  apply landing_of_le (by simpa using occupied)
  intro other listed
  rw [map_fst_numberedOrders] at listed
  rcases List.mem_map.mp listed with ⟨line, member, rfl⟩
  have least := start_le_of_mem (numbered_placedLines text) (List.mem_filter.mp member).1
  omega

/-- A target in a text with orders resolves to one of the outcomes. -/
theorem outcome_of_resolveTarget {text : String} (occupied : numberedOrders text ≠ [])
    {operand : String} {value : Int} {problems : List Problem}
    (resolves : resolveTarget (placedLines text) operand = .ok (value, problems)) :
    Exists fun position : Nat =>
      TargetOutcome ((numberedOrders text).map Prod.fst) operand position problems ∧
        value = signedByte position := by
  have first := targetPosition_one occupied
  cases named : targetLine operand with
  | error fault =>
      rw [(resolveTarget_eq_error_iff (placedLines_ne_nil occupied) _ _).mpr named] at resolves
      cases resolves
  | ok result =>
      rcases result with ⟨number, lineProblems⟩
      rcases targetLine_eq_ok named with
        ⟨malformed, rfl, rfl⟩ | ⟨numeral, written, ⟨low, rfl, rfl⟩ | ⟨positive, rfl, rfl⟩⟩
      · rw [resolveTarget_of_landing named first] at resolves
        cases resolves
        exact ⟨0, .form malformed, rfl⟩
      · rw [resolveTarget_of_landing named first] at resolves
        cases resolves
        exact ⟨0, .sign numeral written low, rfl⟩
      · have lands := targetPosition_placedLines occupied positive
        rcases landing_eq ((numberedOrders text).map Prod.fst) numeral.value with
          ⟨behind, nothing⟩ | ⟨ahead, place⟩
        · rw [nothing] at lands
          rw [resolveTarget_of_landing named lands] at resolves
          cases resolves
          exact ⟨0, .past numeral written positive behind, rfl⟩
        · rw [place] at lands
          rw [resolveTarget_of_landing named lands] at resolves
          simp only [List.nil_append, Except.ok.injEq, Prod.mk.injEq] at resolves
          rcases resolves with ⟨rfl, rfl⟩
          exact ⟨_, .found numeral written positive ahead _ rfl, rfl⟩

/-! ## The line of an address load -/

/-- Whether a problem is one of the target of an address load. -/
def Problem.isTarget : Problem -> Bool
  | .lineNumberForm | .lineNumberSign | .noLineLeft | .positionRange _ => true
  | _ => false

/-- The problems recorded for the target of the address load on a line. -/
def Assembly.targetProblemsAt (assembly : Assembly) (number : Nat) : List Problem :=
  (assembly.problemsAt number).filter Problem.isTarget

/-- The byte in the last two nibbles. -/
def Nibbles.lastByte (nibbles : Nibbles) : Nat :=
  16 * nibbles.third.val + nibbles.fourth.val

theorem signedByte_mod (position : Nat) :
    signedByte ((position % 256 : Nat) : Int) = signedByte position := by
  have lastByte : ((position % 256 : Nat) : Int) % 256 = (position : Int) % 256 := by omega
  rw [signedByte, signedByte, lastByte]

theorem lastByte_byteCommand (opcode target : Nibble) (position : Nat) :
    (byteCommand opcode target (signedByte position)).lastByte = position % 256 := by
  rw [byteCommand, byteNibbles_signedByte]
  simp only [Nibbles.lastByte, byteNibbles, nibbleAt]
  omega

theorem isTarget_of_outcome {numbers : List Nat} {operand : String} {position : Nat}
    {problems : List Problem} (outcome : TargetOutcome numbers operand position problems) :
    problems.filter Problem.isTarget = problems := by
  cases outcome with
  | form => rfl
  | sign => rfl
  | past => rfl
  | found =>
      split
      · rfl
      · rfl

theorem not_isTarget_registerOperand (operand : String) :
    (registerOperand operand).2.filter Problem.isTarget = [] := by
  unfold registerOperand
  split
  · rfl
  · rfl

theorem not_isTarget_of_orderOf {tokens : List String} {problem : Problem}
    (refused : orderOf tokens = .error problem) : problem.isTarget = false := by
  have named : forall other, namedOrder other = .error problem -> problem.isTarget = false := by
    intro other unnamed
    unfold namedOrder at unnamed
    split at unnamed
    · cases unnamed
      rfl
    · split at unnamed
      · cases unnamed
      · cases unnamed
        rfl
  unfold orderOf at refused
  split at refused
  · cases refused
    rfl
  · split at refused
    · exact named _ refused
    · split at refused
      · cases refused
        rfl
      · exact named _ refused

/-- Findings that concern no target leave no target problem at a line. -/
theorem filter_problemAt?_eq_nil (number : Nat) {findings : List Finding}
    (others : forall line problem, Finding.atLine line problem ∈ findings ->
      problem.isTarget = false) :
    (findings.filterMap (Finding.problemAt? number)).filter Problem.isTarget = [] := by
  apply List.filter_eq_nil_iff.mpr
  intro problem member
  rcases List.mem_filterMap.mp member with ⟨finding, listed, found⟩
  cases finding with
  | programTooLong => cases found
  | atLine line other =>
      rcases Option.ite_none_right_eq_some.mp found with ⟨-, same⟩
      cases same
      rw [others line problem listed]
      exact Bool.false_ne_true

section

variable {text : String} {assembly : Assembly}

/-- The target problems at the line of an order are those of encoding it. -/
theorem targetProblemsAt_eq (returned : assemble text = .ok assembly) {number : Nat}
    {order : Order} (member : (number, order) ∈ numberedOrders text) :
    assembly.targetProblemsAt number =
      (orderProblems (placedLines text) order).filter Problem.isTarget := by
  have declared : forall directive entries,
      ((findingsOf (Directive.declarations directive entries)).filterMap
        (Finding.problemAt? number)).filter Problem.isTarget = [] := by
    intro directive entries
    apply filter_problemAt?_eq_nil
    intro line problem listed
    rcases atLine_of_mem_findingsOf listed with ⟨_, same⟩
    cases same
    cases directive <;> rfl
  have resolved : (((commandEntries text).flatMap Entry.resolveFindings).filterMap
      (Finding.problemAt? number)).filter Problem.isTarget = [] := by
    apply filter_problemAt?_eq_nil
    intro line problem listed
    rcases List.mem_flatMap.mp listed with ⟨entry, -, found⟩
    unfold Entry.resolveFindings at found
    split at found
    · cases found
    · next refused =>
        cases List.mem_singleton.mp found
        exact not_isTarget_of_orderOf refused
  have whole : ((imageFindings assembly.lines).filterMap
      (Finding.problemAt? number)).filter Problem.isTarget = [] := by
    apply filter_problemAt?_eq_nil
    intro line problem listed
    rw [imageFindings_eq] at listed
    split at listed
    · cases listed
    · cases List.mem_singleton.mp listed
  rw [Assembly.targetProblemsAt, Assembly.problemsAt, findings_eq returned]
  simp only [List.filterMap_append, List.filter_append, declared, resolved, whole,
    List.nil_append, List.append_nil]
  rw [problemsAt_encodeFindings _ (number_increases_numberedOrders text) member]

theorem map_number_lines (returned : assemble text = .ok assembly) :
    (validLines assembly.lines).map Line.number = (numberedOrders text).map Prod.fst := by
  rw [map_validLines_lines returned Line.number fun _ => rfl, map_fst_numberedOrders]

theorem mem_numberedOrders_of_line (returned : assemble text = .ok assembly) {line : Line}
    {order : Order} (member : line ∈ validLines assembly.lines)
    (ordered : line.order = some order) : (line.number, order) ∈ numberedOrders text := by
  have listed : line.numbered ∈ (validLines assembly.lines).map Line.numbered :=
    List.mem_map_of_mem member
  rw [numbered_lines_orders returned, Line.numbered, ordered] at listed
  rcases List.mem_map.mp listed with ⟨⟨number, carried⟩, inOrders, same⟩
  simp only [Prod.mk.injEq, Option.some.injEq] at same
  rw [← same.1, ← same.2]
  exact inOrders

/-- The line of an address load is encoded with the position that its operand
resolves to. -/
theorem encoded_addressLoad (returned : assemble text = .ok assembly) {line : Line}
    {target operand : String} (member : line ∈ validLines assembly.lines)
    (ordered : line.order = some ⟨.loadAddress, [target, operand]⟩) :
    Exists fun position : Nat => Exists fun problems : List Problem =>
      TargetOutcome ((validLines assembly.lines).map Line.number) operand position problems ∧
        assembly.targetProblemsAt line.number = problems ∧
        line.nibbles = some (byteCommand ImmOp.li.opcode (registerOperand target).1
          (signedByte position)) ∧
        line.tokens = some ["la", target, Numeral.decimal (signedByte position)] := by
  have numbered := mem_numberedOrders_of_line returned member ordered
  have recorded := targetProblemsAt_eq returned numbered
  rw [map_number_lines returned]
  rcases encoded_of_mem_lines returned member ordered with ⟨encoding, encoded, shown, nibbles⟩
  rw [orderProblems_of_ok encoded] at recorded
  rw [encodeOrder_loadAddress] at encoded
  rcases exists_of_map_eq_ok encoded with ⟨⟨value, problems⟩, resolves, rfl⟩
  rcases outcome_of_resolveTarget (List.ne_nil_of_mem numbered) resolves with
    ⟨position, outcome, rfl⟩
  refine ⟨position, problems, outcome, ?_, nibbles, (Except.ok.inj shown).symm⟩
  rw [recorded, List.filter_append, not_isTarget_registerOperand,
    isTarget_of_outcome outcome, List.nil_append]

end

/-- A line that was resolved to an address load. -/
def Line.LoadsAddress (line : Line) : Prop :=
  line.order.map Order.command = some .loadAddress

instance (line : Line) : Decidable line.LoadsAddress :=
  inferInstanceAs (Decidable (_ = _))

/-- The lines of an assembly load no address exactly when no order of its text
does. -/
theorem not_loadsAddress_iff {text : String} {assembly : Assembly}
    (returned : assemble text = .ok assembly) :
    (forall line, line ∈ validLines assembly.lines -> ¬ line.LoadsAddress) <->
      forall order, order ∈ commandOrders text -> order.command ≠ .loadAddress := by
  have orders : (validLines assembly.lines).map Line.order = (commandOrders text).map some :=
    map_lines_of_orders returned Line.order some fun _ _ _ ordered => ordered
  constructor
  · intro none order member loads
    have carried : some order ∈ (validLines assembly.lines).map Line.order := by
      rw [orders]
      exact List.mem_map_of_mem member
    rcases List.mem_map.mp carried with ⟨line, listed, ordered⟩
    apply none line listed
    rw [Line.LoadsAddress, ordered, Option.map_some, loads]
  · intro none line member loads
    have carried : line.order ∈ (commandOrders text).map some := by
      rw [← orders]
      exact List.mem_map_of_mem member
    rcases List.mem_map.mp carried with ⟨order, listed, ordered⟩
    rw [Line.LoadsAddress, ← ordered] at loads
    exact none order listed (Option.some.inj loads)

/-- Only the tokens of an address load stand for one. -/
theorem tokens_of_loadAddress {tokens : List String} {target operand : String}
    (ordered : orderOf tokens = .ok ⟨.loadAddress, [target, operand]⟩) :
    tokens = ["la", target, operand] := by
  rcases (orderOf_eq_ok_iff _ _).mp ordered with own | ⟨abbreviation, operands, -, expands⟩
  · exact own
  · rcases Abbreviation.expand?_eq_some expands with ⟨op, first, second, third, same⟩
    have count := congrArg List.length same
    cases count

/-- An address load with two operands is encoded with the byte of a position.  Its
second operand decides the position and the one problem with its target, if
any: a number that is malformed, not positive or behind all valid lines leads to
position zero, and any other to the number of valid lines before it, which is a
problem when it is no position of the image.  The tokens show the byte as a
signed integer, and the operand is kept. -/
theorem address_load_outcome (text : String) (assembly : Assembly)
    (returned : assemble text = .ok assembly) (line : Line) (member : line ∈ assembly.lines)
    (valid : line.valid = true) (target operand : String)
    (ordered : line.order = some ⟨.loadAddress, [target, operand]⟩) :
    (Exists fun entry : Entry =>
      entry ∈ commandEntries text ∧ entry.number = line.number ∧
        entry.tokens = ["la", target, operand]) ∧
      (Exists fun position : Nat => Exists fun problems : List Problem =>
        TargetOutcome ((validLines assembly.lines).map Line.number) operand position problems ∧
          assembly.targetProblemsAt line.number = problems ∧
          line.nibbles.map Nibbles.lastByte = some (position % 256) ∧
          line.tokens = some ["la", target,
            Numeral.decimal (signedByte ((position % 256 : Nat) : Int))]) ∧
      line.operands = [target, operand] := by
  have taking : line ∈ validLines assembly.lines := List.mem_filter.mpr ⟨member, valid⟩
  refine ⟨?_, ?_, ?_⟩
  · have numbered := mem_numberedOrders_of_line returned taking ordered
    rcases (mem_numberedOrders_iff _ _ _).mp numbered with ⟨entry, listed, number, resolves⟩
    exact ⟨entry, listed, number, tokens_of_loadAddress resolves⟩
  · rcases encoded_addressLoad returned taking ordered with
      ⟨position, problems, outcome, recorded, nibbles, tokens⟩
    refine ⟨position, problems, outcome, recorded, ?_, ?_⟩
    · rw [nibbles, Option.map_some, lastByte_byteCommand]
    · rw [tokens, signedByte_mod]
  · rw [Line.operands, ordered]

/-- The first line loads the address of the third, behind one that is dropped. -/
theorem address_load_outcome_of_sample :
    Exists fun assembly => Exists fun line => Exists fun position : Nat =>
      assemble "la r1, 3\nx\nli r2, 7" = .ok assembly ∧ line ∈ assembly.lines ∧
        line.valid = true ∧ line.order = some ⟨.loadAddress, ["r1", "3"]⟩ ∧
        TargetOutcome [1, 3] "3" position (assembly.targetProblemsAt line.number) ∧
        line.nibbles.map Nibbles.lastByte = some (position % 256) := by
  rcases exists_assembly_of_map "la r1, 3\nx\nli r2, 7"
    (fun assembly => (assembly.lines.head?.map fun line => (line.valid, line.order),
      (validLines assembly.lines).map Line.number))
    (show _ = some (some (true, some ⟨.loadAddress, ["r1", "3"]⟩), [1, 3]) by decide +kernel)
    with ⟨assembly, returned, read⟩
  simp only [Prod.mk.injEq, Option.map_eq_some_iff] at read
  rcases read with ⟨⟨line, first, valid, ordered⟩, numbers⟩
  have member := List.mem_of_mem_head? first
  have loaded := address_load_outcome _ assembly returned line member valid "r1" "3" ordered
  rcases loaded.2.1 with ⟨position, problems, outcome, recorded, byte, -⟩
  rw [numbers, ← recorded] at outcome
  exact ⟨assembly, line, position, returned, member, valid, ordered, outcome, byte⟩

end NibbleMachine
