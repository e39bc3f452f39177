import NibbleMachine.Proofs.Layout
import NibbleMachine.Proofs.Operand

namespace NibbleMachine

/-!
# The encoding step

Encoding a line reads its order and nothing else of it: the nibbles and the
problems come from the order and from the laid out lines, and the tokens change
only where an address load shows the value it resolved to.  The statements here
open that step once.  What follows for a whole assembly is that encoding keeps
numbers, validity, orders and positions, and that the findings of a line are
its own: line numbers do not repeat, so a finding at a number was made when the
line of that number was encoded.
-/

/-! ## One step -/

/-- What encoding a line does. -/
theorem encodeLine_eq_ok_iff (lines : List Line) (line : Line) (step : Line × List Finding) :
    encodeLine lines line = .ok step <->
      Exists fun order => Exists fun encoding => Exists fun tokens =>
        line.order = some order ∧ encodeOrder lines order = .ok encoding ∧
          showResolved line.tokens encoding.resolved = .ok tokens ∧
          step = ({ line with tokens := tokens }.store encoding.nibbles,
            encoding.problems.map (Finding.atLine line.number)) := by
  unfold encodeLine
  cases ordered : line.order with
  | none => simp
  | some order =>
      cases encoded : encodeOrder lines order with
      | error fault => simp [encoded, bind, Except.bind]
      | ok encoding =>
          cases shown : showResolved line.tokens encoding.resolved with
          | error fault => simp [encoded, shown, bind, Except.bind]
          | ok tokens =>
              simp only [encoded, shown, bind, Except.bind, pure, Except.pure, Except.ok.injEq]
              constructor
              · rintro rfl
                exact ⟨order, encoding, tokens, rfl, encoded, shown, rfl⟩
              · rintro ⟨sameOrder, sameEncoding, sameTokens, named, alsoEncoded, alsoShown, rfl⟩
                cases named
                rw [encoded] at alsoEncoded
                cases alsoEncoded
                rw [shown] at alsoShown
                cases alsoShown
                rfl

/-- A step of the encoding sweep keeps all but tokens, nibbles and word. -/
theorem unencoded_step {lines : List Line} {line : Line} {step : Line × List Finding}
    (stepped : visitOrKeep (encodeLine lines) line = .ok step) :
    step.1.unencoded = line.unencoded := by
  cases valid : line.valid with
  | false =>
      rw [visitOrKeep_of_invalid _ valid] at stepped
      cases stepped
      rfl
  | true =>
      rw [visitOrKeep_of_valid _ valid] at stepped
      rcases (encodeLine_eq_ok_iff _ _ _).mp stepped with ⟨_, _, _, _, _, _, rfl⟩
      rfl

/-- Encoding stores the word together with the nibbles. -/
theorem packed_step {lines : List Line} {line : Line} {step : Line × List Finding}
    (packed : line.Packed) (stepped : visitOrKeep (encodeLine lines) line = .ok step) :
    step.1.Packed := by
  cases valid : line.valid with
  | false =>
      rw [visitOrKeep_of_invalid _ valid] at stepped
      cases stepped
      exact packed
  | true =>
      rw [visitOrKeep_of_valid _ valid] at stepped
      rcases (encodeLine_eq_ok_iff _ _ _).mp stepped with ⟨_, _, _, _, _, _, rfl⟩
      rfl

/-- The findings of a step stand at the number of its line. -/
theorem number_of_mem_step {lines : List Line} {line : Line} {step : Line × List Finding}
    (stepped : visitOrKeep (encodeLine lines) line = .ok step) {finding : Finding}
    (member : finding ∈ step.2) :
    Exists fun problem => finding = .atLine line.number problem := by
  cases valid : line.valid with
  | false =>
      rw [visitOrKeep_of_invalid _ valid] at stepped
      cases stepped
      cases member
  | true =>
      rw [visitOrKeep_of_valid _ valid] at stepped
      rcases (encodeLine_eq_ok_iff _ _ _).mp stepped with ⟨_, _, _, _, _, _, rfl⟩
      rcases List.mem_map.mp member with ⟨problem, -, rfl⟩
      exact ⟨problem, rfl⟩

/-! ## All steps -/

section

variable {text : String} {steps : List (Line × List Finding)}

theorem map_unencoded_steps
    (taken : StepsAt (encodeLine (placedLines text)) (placedLines text) steps) :
    (steps.map Prod.fst).map Line.unencoded = (placedLines text).map Line.unencoded :=
  taken.map_eq _ Line.unencoded fun _ _ stepped => unencoded_step stepped

/-- The step at an invalid line keeps it and finds nothing. -/
theorem kept_of_mem_steps
    (taken : StepsAt (encodeLine (placedLines text)) (placedLines text) steps)
    {step : Line × List Finding} (member : step ∈ steps) (invalid : step.1.valid = false) :
    step.1 ∈ placedLines text ∧ step.2 = [] := by
  rcases taken.exists_line _ member with ⟨source, inPlaced, stepped⟩
  have sourceInvalid : source.valid = false :=
    (congrArg Line.valid (unencoded_step stepped)).symm.trans invalid
  rw [visitOrKeep_of_invalid _ sourceInvalid] at stepped
  cases stepped
  exact ⟨inPlaced, rfl⟩

/-- The step at a valid line encodes the order that the line was resolved to. -/
theorem encoded_of_mem_steps
    (taken : StepsAt (encodeLine (placedLines text)) (placedLines text) steps)
    {step : Line × List Finding} (member : step ∈ steps) (valid : step.1.valid = true) :
    Exists fun order => Exists fun encoding =>
      (Exists fun entry => entry ∈ commandEntries text ∧ orderOf entry.tokens = .ok order) ∧
        encodeOrder (placedLines text) order = .ok encoding ∧
        showResolved (some order.tokens) encoding.resolved = .ok step.1.tokens ∧
        step.1.order = some order ∧ step.1.nibbles = encoding.nibbles ∧
        step.2 = encoding.problems.map (Finding.atLine step.1.number) := by
  rcases taken.exists_line _ member with ⟨source, inPlaced, stepped⟩
  have sourceValid : source.valid = true :=
    (congrArg Line.valid (unencoded_step stepped)).symm.trans valid
  rcases entry_of_mem_placedLines (List.mem_filter.mpr ⟨inPlaced, sourceValid⟩) with
    ⟨entry, order, listed, resolves, -, ordered, tokens⟩
  rw [visitOrKeep_of_valid _ sourceValid] at stepped
  rcases (encodeLine_eq_ok_iff _ _ _).mp stepped with
    ⟨sameOrder, encoding, shownTokens, alsoOrdered, encoded, shown, rfl⟩
  rw [ordered] at alsoOrdered
  cases alsoOrdered
  rw [tokens] at shown
  exact ⟨order, encoding, ⟨entry, listed, resolves⟩, encoded, shown, ordered, rfl, rfl⟩

/-- A step encodes the order of every entry that has one. -/
theorem step_of_mem_commandEntries
    (taken : StepsAt (encodeLine (placedLines text)) (placedLines text) steps) {entry : Entry}
    {order : Order} (member : entry ∈ commandEntries text)
    (ordered : orderOf entry.tokens = .ok order) :
    Exists fun step => Exists fun encoding =>
      step ∈ steps ∧ encodeOrder (placedLines text) order = .ok encoding ∧
        step.2 = encoding.problems.map (Finding.atLine entry.number) := by
  rcases placed_of_mem_commandEntries member ordered with ⟨line, placed, number, carries⟩
  have listed := List.mem_filter.mp placed
  rcases taken.exists_step _ listed.1 with ⟨step, inSteps, stepped⟩
  rw [visitOrKeep_of_valid _ listed.2] at stepped
  rcases (encodeLine_eq_ok_iff _ _ _).mp stepped with
    ⟨sameOrder, encoding, _, alsoCarries, encoded, _, rfl⟩
  rw [carries] at alsoCarries
  cases alsoCarries
  refine ⟨_, encoding, inSteps, encoded, ?_⟩
  rw [number]

end

/-- A resolved value finds a third token to be shown in. -/
theorem exists_showResolved {lines : List Line} {order : Order} {encoding : Encoding}
    (encoded : encodeOrder lines order = .ok encoding) :
    Exists fun tokens => showResolved (some order.tokens) encoding.resolved = .ok tokens := by
  cases resolved : encoding.resolved with
  | none => exact ⟨_, rfl⟩
  | some value =>
      rcases loadAddress_of_resolved encoded resolved with ⟨target, operand, rfl⟩
      exact ⟨_, rfl⟩

/-- Showing a resolved value leaves the number of tokens. -/
theorem length_of_showResolved {tokens shown : Option (List String)} {resolved : Option Int}
    (shows : showResolved tokens resolved = .ok shown) :
    shown.map List.length = tokens.map List.length := by
  unfold showResolved at shows
  split at shows
  · rw [Except.ok.inj shows]
  · split at shows
    · cases shows
    · split at shows
      · rw [← Except.ok.inj shows]
        simp
      · cases shows

/-- Showing a value again changes nothing. -/
theorem showResolved_again {tokens shown : Option (List String)} {resolved : Option Int}
    (shows : showResolved tokens resolved = .ok shown) :
    showResolved shown resolved = .ok shown := by
  cases resolved with
  | none => rfl
  | some value =>
      unfold showResolved at shows
      dsimp only at shows
      split at shows
      · cases shows
      · next listed =>
          split at shows
          · next enough =>
              cases shows
              simp [showResolved, enough]
          · cases shows

/-- An assembly returns exactly when every order of the text can be encoded. -/
theorem exists_assembly_iff (text : String) :
    (Exists fun assembly => assemble text = .ok assembly) <->
      forall entry order, entry ∈ commandEntries text -> orderOf entry.tokens = .ok order ->
        Exists fun encoding => encodeOrder (placedLines text) order = .ok encoding := by
  constructor
  · rintro ⟨assembly, returned⟩ entry order member ordered
    rcases (assemble_eq_ok_iff text assembly).mp returned with ⟨steps, taken, -⟩
    rcases step_of_mem_commandEntries taken member ordered with ⟨_, encoding, -, encoded, -⟩
    exact ⟨encoding, encoded⟩
  · intro encodes
    have visits : forall line, line ∈ placedLines text ->
        Exists fun step => visitOrKeep (encodeLine (placedLines text)) line = .ok step := by
      intro line member
      cases valid : line.valid with
      | false => exact ⟨_, visitOrKeep_of_invalid _ valid⟩
      | true =>
          rcases entry_of_mem_placedLines (List.mem_filter.mpr ⟨member, valid⟩) with
            ⟨entry, order, listed, resolves, -, carries, tokens⟩
          rcases encodes entry order listed resolves with ⟨encoding, encoded⟩
          rcases exists_showResolved encoded with ⟨shown, shows⟩
          rw [← tokens] at shows
          rw [visitOrKeep_of_valid _ valid]
          exact ⟨_, (encodeLine_eq_ok_iff _ _ _).mpr
            ⟨order, encoding, shown, carries, encoded, shows, rfl⟩⟩
    rcases exists_stepsAt _ visits with ⟨steps, taken⟩
    exact ⟨_, (assemble_eq_ok_iff text _).mpr ⟨steps, taken, rfl⟩⟩

/-- The lines of an assembly have the words of their nibbles. -/
theorem packed_of_mem_lines {text : String} {assembly : Assembly}
    (returned : assemble text = .ok assembly) {line : Line} (member : line ∈ assembly.lines) :
    line.Packed := by
  rcases (assemble_eq_ok_iff text assembly).mp returned with ⟨steps, taken, rfl⟩
  rcases List.mem_map.mp member with ⟨step, listed, rfl⟩
  rcases taken.exists_line _ listed with ⟨source, inPlaced, stepped⟩
  exact packed_step (packed_of_mem_placedLines inPlaced) stepped

/-- A valid line without a finding was encoded without a problem. -/
theorem clear_of_unreported {text : String} {assembly : Assembly}
    (returned : assemble text = .ok assembly) {line : Line} (member : line ∈ assembly.lines)
    (valid : line.valid = true)
    (unreported : forall problem, Finding.atLine line.number problem ∉ assembly.findings) :
    Exists fun order => Exists fun encoding =>
      ClearEncoding (placedLines text) order encoding ∧
        showResolved (some order.tokens) encoding.resolved = .ok line.tokens ∧
        line.order = some order ∧ line.nibbles = encoding.nibbles := by
  rcases (assemble_eq_ok_iff text assembly).mp returned with ⟨steps, taken, rfl⟩
  rcases List.mem_map.mp member with ⟨step, listed, rfl⟩
  rcases encoded_of_mem_steps taken listed valid with
    ⟨order, encoding, -, encoded, shown, ordered, nibbles, findings⟩
  have clear : encoding.problems = [] := by
    apply List.eq_nil_iff_forall_not_mem.mpr
    intro problem reported
    apply unreported problem
    have found : Finding.atLine step.1.number problem ∈ step.2 := by
      rw [findings]
      exact List.mem_map_of_mem reported
    exact List.mem_append_left _ (List.mem_append_right _
      (List.mem_flatMap.mpr ⟨step, listed, found⟩))
  exact ⟨order, encoding, clear_of_encodeOrder encoded clear, shown, ordered, nibbles⟩

end NibbleMachine
