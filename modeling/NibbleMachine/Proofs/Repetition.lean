import NibbleMachine.Proofs.History
import NibbleMachine.Proofs.SourceText

namespace NibbleMachine

/-!
# Repeated passes

A pass that went through leaves lines on which it has nothing more to do.  Cutting reads
the text of a line, which no pass changes.  A collection leaves no line that opens with
its keyword.  Resolving leaves the tokens of orders, and these are not abbreviations, so
an expansion is never expanded again.  Encoding reads the operands that were recorded with
the command and not the tokens in which it shows the values it found.

Each of these is a fact about one line.  A sweep that went through has visited every valid
line, so visiting what it left once more leaves it, and only the notes have to be looked
at: resolving and collecting find nothing, and encoding finds the same again.
-/

/-! ## Sweeps -/

/-- When a valid line that was visited is left alone by the next visit, lines that were
swept are left alone by the next sweep.  Its notes are given by the steps of the first;
lines that are not visited give none. -/
theorem sweep_again {Note : Type} {visit again : Line -> Except Fault (Line × List Note)}
    {lines : List Line} {steps : List (Line × List Note)} (taken : StepsAt visit lines steps)
    (note : Line × List Note -> List Note) (silent : forall line, note (line, []) = [])
    (revisits : forall line step, line.valid = true -> visit line = .ok step ->
      visitOrKeep again step.1 = .ok (step.1, note step)) :
    sweep again (steps.map Prod.fst) = ⟨steps.map Prod.fst, .ok (steps.flatMap note)⟩ := by
  apply Swept.eq_of_complete
  apply (complete_sweep_eq_ok_iff again _ _ _).mpr
  refine ⟨steps.map fun step => (step.1, note step), ?_, ?_, ?_⟩
  · apply List.forall₂_map_left_iff.mpr
    apply List.forall₂_map_right_iff.mpr
    apply List.forall₂_same.mpr
    intro step member
    rcases taken.exists_line visit member with ⟨line, -, stepped⟩
    cases valid : line.valid with
    | false =>
        rw [visitOrKeep_of_invalid visit valid] at stepped
        cases stepped
        rw [silent, visitOrKeep_of_invalid again valid]
    | true =>
        rw [visitOrKeep_of_valid visit valid] at stepped
        exact revisits line step valid stepped
  · rw [List.map_map]
    rfl
  · rw [List.flatMap_map]

/-- The steps of a sweep that went through. -/
theorem exists_stepsAt_of_outcome {Note : Type}
    {visit : Line -> Except Fault (Line × List Note)} {lines : List Line} {notes : List Note}
    (outcome : (sweep visit lines).outcome = .ok notes) :
    Exists fun steps => StepsAt visit lines steps ∧
      sweep visit lines = ⟨steps.map Prod.fst, .ok (steps.flatMap Prod.snd)⟩ := by
  have complete := (Swept.complete_eq_ok_iff (sweep visit lines) _ notes).mpr ⟨rfl, outcome⟩
  rcases (complete_sweep_eq_ok_iff visit lines _ notes).mp complete with
    ⟨steps, taken, sameLines, sameNotes⟩
  rw [sameLines, sameNotes] at complete
  exact ⟨steps, taken, Swept.eq_of_complete complete⟩

/-! ## Lines that were visited -/

theorem tokenize_tokenize (line : Line) : line.tokenize.tokenize = line.tokenize := by
  cases blank : (clean line.text).isEmpty with
  | true => simp [Line.tokenize, Line.withdraw, blank]
  | false => simp [Line.tokenize, blank]

theorem prepare_prepare (lines : List Line) : prepare (prepare lines) = prepare lines := by
  unfold prepare
  rw [List.map_map]
  apply List.map_congr_left
  intro line _
  rw [Function.comp_apply, tokenize_tokenize]

theorem layoutFrom_layoutFrom (next : Nat) (lines : List Line) :
    layoutFrom next (layoutFrom next lines) = layoutFrom next lines := by
  induction lines generalizing next with
  | nil => rfl
  | cons line rest inductionHypothesis =>
      cases valid : line.valid <;> simp [layoutFrom, valid, inductionHypothesis]

/-- A directive finds nothing on a line that it has visited. -/
theorem revisit_collected (directive : Directive) {line : Line} {step : Line × List Declaration}
    (valid : line.valid = true) (visited : directive.visit line = .ok step) :
    visitOrKeep directive.visit step.1 = .ok (step.1, []) := by
  rcases (directive.visit_eq_ok_iff line step).mp visited with ⟨tokenized, rfl⟩
  cases opened : directive.opens line.tokenList with
  | true =>
      rw [directive.strip_of_opens opened]
      exact visitOrKeep_of_invalid _ rfl
  | false =>
      rw [directive.strip_of_not_opens opened, visitOrKeep_of_valid _ valid]
      exact directive.visit_of_not_opens tokenized opened

/-- A resolved line stands for its own order. -/
theorem revisit_resolved {line : Line} {step : Line × List Finding} (valid : line.valid = true)
    (visited : resolveLine line = .ok step) :
    visitOrKeep resolveLine step.1 = .ok (step.1, []) := by
  rcases (resolveLine_eq_ok_iff line step).mp visited with ⟨-, rfl⟩
  cases ordered : orderOf line.tokenList with
  | error problem =>
      rw [line.resolved_of_problem ordered]
      exact visitOrKeep_of_invalid _ rfl
  | ok order =>
      have stays : line.resolved.valid = true := by
        rw [line.resolved_of_order ordered]
        exact valid
      have own : orderOf line.resolved.tokenList = .ok order := by
        rw [line.resolved_of_order ordered]
        exact orderOf_tokens order
      have again : line.resolved.resolved = line.resolved := by
        rw [line.resolved.resolved_of_order own, line.resolved_of_order ordered]
      rw [visitOrKeep_of_valid _ stays]
      apply (resolveLine_eq_ok_iff _ _).mpr
      rw [again, (line.resolved.resolveFindings_eq_nil_iff).mpr ⟨order, own⟩,
        line.resolved_of_order ordered]
      exact ⟨⟨_, _, rfl⟩, rfl⟩

/-- Encoding an encoded line gives the line and its findings again, also among other lines
as long as orders are encoded alike among them. -/
theorem revisit_encoded {lines others : List Line}
    (alike : forall order, encodeOrder others order = encodeOrder lines order) {line : Line}
    {step : Line × List Finding} (valid : line.valid = true)
    (visited : encodeLine lines line = .ok step) :
    visitOrKeep (encodeLine others) step.1 = .ok (step.1, step.2) := by
  rcases (encodeLine_eq_ok_iff lines line step).mp visited with
    ⟨order, encoding, tokens, ordered, encodes, shows, same⟩
  have stays : step.1.valid = true := by
    rw [same]
    exact valid
  rw [visitOrKeep_of_valid _ stays, same]
  apply (encodeLine_eq_ok_iff others _ _).mpr
  exact ⟨order, encoding, tokens, ordered, (alike order).trans encodes, showResolved_again shows,
    rfl⟩

/-- Encoded lines encode every order as the lines they come from. -/
theorem encodeOrder_of_stepsAt {lines : List Line} {steps : List (Line × List Finding)}
    (taken : StepsAt (encodeLine lines) lines steps) (order : Order) :
    encodeOrder (steps.map Prod.fst) order = encodeOrder lines order := by
  have erased := taken.map_eq _ Line.unencoded fun _ _ stepped => unencoded_step stepped
  rw [← encodeOrder_erased Line.unencoded (fun _ => rfl) (fun _ => rfl) (steps.map Prod.fst),
    erased, encodeOrder_erased Line.unencoded (fun _ => rfl) (fun _ => rfl) lines]

/-! ## Passes -/

namespace Session

variable {session : Session} {report : Report}

theorem run_collect_again {directive : Directive}
    (ran : (session.run (.collect directive)).2 = .ok report) :
    (session.run (.collect directive)).1.run (.collect directive) =
      ((session.run (.collect directive)).1.keep directive .empty, .ok (.symbols .empty [])) := by
  cases outcome : (directive.collect session.lines).outcome with
  | error fault => simp [run, outcome] at ran
  | ok declarations =>
      rcases exists_stepsAt_of_outcome outcome with ⟨steps, taken, swept⟩
      have again : sweep directive.visit (steps.map Prod.fst) = _ :=
        sweep_again taken (fun _ => []) (fun _ => rfl)
          fun _ _ valid visited => revisit_collected directive valid visited
      rw [List.flatMap_eq_nil_iff.mpr fun _ _ => rfl] at again
      have first : session.run (.collect directive) = _ := run_collect_of_ok swept
      generalize symbolsOf (steps.flatMap Prod.snd) = table at first
      have kept : (keep { session with lines := steps.map Prod.fst } directive table).lines =
          steps.map Prod.fst := lines_keep _ _ _
      rw [← kept] at again
      rw [first, run_collect_of_ok again]
      rfl

theorem run_resolve_again (ran : (session.run .resolve).2 = .ok report) :
    (session.run .resolve).1.run .resolve = ((session.run .resolve).1, .ok (.findings [])) := by
  rcases exists_of_map_eq_ok ran with ⟨findings, outcome, -⟩
  rcases exists_stepsAt_of_outcome outcome with ⟨steps, taken, swept⟩
  have again : sweep resolveLine (steps.map Prod.fst) = _ :=
    sweep_again taken (fun _ => []) (fun _ => rfl) fun _ _ => revisit_resolved
  rw [List.flatMap_eq_nil_iff.mpr fun _ _ => rfl] at again
  have first : session.run .resolve = ({ session with lines := steps.map Prod.fst }, _) :=
    run_resolve_eq swept
  have second : Session.run { session with lines := steps.map Prod.fst } .resolve = _ :=
    run_resolve_eq again
  rw [first, second]
  rfl

theorem run_encode_again (ran : (session.run .encode).2 = .ok report) :
    (session.run .encode).1.run .encode = ((session.run .encode).1, .ok report) := by
  rcases exists_of_map_eq_ok ran with ⟨findings, outcome, -⟩
  rcases exists_stepsAt_of_outcome outcome with ⟨steps, taken, swept⟩
  have again : sweep (encodeLine (steps.map Prod.fst)) (steps.map Prod.fst) = _ :=
    sweep_again taken Prod.snd (fun _ => rfl)
      fun _ _ => revisit_encoded (encodeOrder_of_stepsAt taken)
  have first : session.run .encode = ({ session with lines := steps.map Prod.fst }, _) :=
    run_encode_eq swept
  have second : Session.run { session with lines := steps.map Prod.fst } .encode = _ :=
    run_encode_eq again
  rw [first] at ran ⊢
  rw [second]
  exact Prod.ext rfl ran

end Session

/-- A pass that went through changes nothing when it is run again, whatever session it was
run on.  Resolving then finds nothing, and encoding finds what it found before.  A second
collection declares nothing and leaves every line as it was. -/
theorem repeated_pass_changes_nothing (session : Session) :
    (session.run .prepare).1.run .prepare = ((session.run .prepare).1, .ok .silent) ∧
      (session.run .layout).1.run .layout = ((session.run .layout).1, .ok .silent) ∧
      (forall report, (session.run .resolve).2 = .ok report ->
        (session.run .resolve).1.run .resolve =
          ((session.run .resolve).1, .ok (.findings []))) ∧
      (forall report, (session.run .encode).2 = .ok report ->
        (session.run .encode).1.run .encode = ((session.run .encode).1, .ok report)) ∧
      (forall directive report, (session.run (.collect directive)).2 = .ok report ->
        ((session.run (.collect directive)).1.run (.collect directive)).1.lines =
            (session.run (.collect directive)).1.lines ∧
          ((session.run (.collect directive)).1.run (.collect directive)).2 =
            .ok (.symbols .empty [])) := by
  refine ⟨?_, ?_, fun _ => Session.run_resolve_again, fun _ => Session.run_encode_again, ?_⟩
  · have again := prepare_prepare session.lines
    simp only [Session.run, again]
  · have again : layout (layout session.lines) = layout session.lines :=
      layoutFrom_layoutFrom 0 session.lines
    simp only [Session.run, again]
  · intro directive report ran
    rw [Session.run_collect_again ran]
    exact ⟨lines_keep _ _ _, rfl⟩

/-- The expansion of an abbreviation is not expanded again, a load that leads nowhere is
reported again, and a define is taken off only once. -/
theorem repeated_pass_changes_nothing_of_sample :
    Exists fun session => Exists fun encoded =>
      session = (Session.start "#define n 1\nneg r1, r2\nla rn, 9").after
          [.prepare, .collect .define, .substitute .define, .resolve, .layout] ∧
        (session.run .resolve).1.run .resolve =
          ((session.run .resolve).1, .ok (.findings [])) ∧
        (session.run .encode).1.run .encode = (encoded, .ok (.findings [.atLine 3 .noLineLeft])) ∧
        ((session.run (.collect .define)).1.run (.collect .define)).2 =
          .ok (.symbols .empty []) := by
  have told : forall session, session = (Session.start "#define n 1\nneg r1, r2\nla rn, 9").after
      [.prepare, .collect .define, .substitute .define, .resolve, .layout] ->
        (session.run .resolve).2 = .ok (.findings []) ∧
          (session.run .encode).2 = .ok (.findings [.atLine 3 .noLineLeft]) ∧
          (session.run (.collect .define)).2 = .ok (.symbols .empty []) := by
    rintro session rfl
    decide +kernel
  generalize (Session.start "#define n 1\nneg r1, r2\nla rn, 9").after
    [.prepare, .collect .define, .substitute .define, .resolve, .layout] = session at told ⊢
  have repeats := repeated_pass_changes_nothing session
  rcases told session rfl with ⟨resolved, encoded, collected⟩
  exact ⟨session, _, rfl, repeats.2.2.1 _ resolved, repeats.2.2.2.1 _ encoded,
    (repeats.2.2.2.2 .define _ collected).2⟩

end NibbleMachine
