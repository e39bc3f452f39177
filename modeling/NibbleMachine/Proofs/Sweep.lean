import NibbleMachine.Source.Sweep
import Mathlib.Data.List.Forall2

namespace NibbleMachine

/-!
# What a sweep did

A sweep is written as a recursion that stops at the first fault and keeps the
changes made before it.  An assembly only goes on after a complete sweep: such a
sweep has taken one step at every line, in order, and its notes are the notes of
these steps one after the other.  An invalid line takes the step that keeps it
and notes nothing.  Of a sweep that stopped, only the fault matters: it is the
one of the first line at which no step could be taken.

A visit that never faults on the lines at hand is given by two functions, and
its sweep is a map over the lines.  Any other complete sweep is described by
the relation between the lines and the steps taken at them.  Both inductions
are done here; later modules argue about a single step.
-/

/-! ## Outcomes -/

/-- The steps of a check that passes all pass. -/
theorem exists_of_bind_eq_ok {Cause First Second : Type} {first : Except Cause First}
    {next : First -> Except Cause Second} {result : Second}
    (passed : (first >>= next) = .ok result) :
    Exists fun value => first = .ok value ∧ next value = .ok result := by
  cases first with
  | error cause => cases passed
  | ok value => exact ⟨value, rfl, passed⟩

theorem exists_of_map_eq_ok {Cause Value Result : Type} {outcome : Except Cause Value}
    {view : Value -> Result} {result : Result} (mapped : outcome.map view = .ok result) :
    Exists fun value => outcome = .ok value ∧ view value = result := by
  cases outcome with
  | error cause => cases mapped
  | ok value => exact ⟨value, rfl, Except.ok.inj mapped⟩

theorem map_eq_error_iff {Cause Value Result : Type} (outcome : Except Cause Value)
    (view : Value -> Result) (cause : Cause) :
    outcome.map view = .error cause <-> outcome = .error cause := by
  cases outcome with
  | error other => simp [Except.map]
  | ok value => simp [Except.map]

/-! ## Steps -/

/-- The step of a sweep at one line. -/
def visitOrKeep {Note : Type} (visit : Line -> Except Fault (Line × List Note))
    (line : Line) : Except Fault (Line × List Note) :=
  if line.valid then visit line else .ok (line, [])

/-- Change a line that still takes part, and keep any other. -/
def onValid (change : Line -> Line) (line : Line) : Line :=
  if line.valid then change line else line

theorem onValid_of_valid (change : Line -> Line) {line : Line} (valid : line.valid = true) :
    onValid change line = change line := by
  simp [onValid, valid]

theorem onValid_of_invalid (change : Line -> Line) {line : Line} (invalid : line.valid = false) :
    onValid change line = line := by
  simp [onValid, invalid]

/-- The steps that a complete sweep takes at the lines. -/
def StepsAt {Note : Type} (visit : Line -> Except Fault (Line × List Note)) :
    List Line -> List (Line × List Note) -> Prop :=
  List.Forall₂ fun line step => visitOrKeep visit line = .ok step

section

variable {Note : Type} (visit : Line -> Except Fault (Line × List Note))

theorem visitOrKeep_of_valid {line : Line} (valid : line.valid = true) :
    visitOrKeep visit line = visit line := by
  simp [visitOrKeep, valid]

theorem visitOrKeep_of_invalid {line : Line} (invalid : line.valid = false) :
    visitOrKeep visit line = .ok (line, []) := by
  simp [visitOrKeep, invalid]

theorem sweep_cons (line : Line) (rest : List Line) :
    (sweep visit (line :: rest)).complete =
      match visitOrKeep visit line with
      | .error fault => .error fault
      | .ok step => (sweep visit rest).complete.map fun later =>
          (step.1 :: later.1, step.2 ++ later.2) := by
  cases valid : line.valid with
  | false =>
      rw [visitOrKeep_of_invalid visit valid]
      simp only [sweep, valid, Swept.complete, Bool.false_eq_true, if_false]
      cases (sweep visit rest).outcome <;> rfl
  | true =>
      rw [visitOrKeep_of_valid visit valid]
      cases visited : visit line with
      | error fault => simp [sweep, valid, visited, Swept.complete, Except.map]
      | ok step =>
          simp only [sweep, valid, visited, Swept.complete, if_true]
          cases (sweep visit rest).outcome <;> rfl

/-- A sweep completes exactly when it takes a step at every line, and its result
is made of these steps. -/
theorem complete_sweep_eq_ok_iff (lines after : List Line) (notes : List Note) :
    (sweep visit lines).complete = .ok (after, notes) <->
      Exists fun steps : List (Line × List Note) =>
        StepsAt visit lines steps ∧ after = steps.map Prod.fst ∧
          notes = steps.flatMap Prod.snd := by
  induction lines generalizing after notes with
  | nil =>
      constructor
      · intro complete
        cases complete
        exact ⟨[], List.Forall₂.nil, rfl, rfl⟩
      · rintro ⟨steps, taken, rfl, rfl⟩
        cases taken
        rfl
  | cons line rest inductionHypothesis =>
      rw [sweep_cons]
      constructor
      · intro complete
        cases stepped : visitOrKeep visit line with
        | error fault => simp [stepped] at complete
        | ok step =>
            cases later : (sweep visit rest).complete with
            | error fault => simp [stepped, later, Except.map] at complete
            | ok result =>
                rcases (inductionHypothesis result.1 result.2).mp later with
                  ⟨steps, taken, linesEq, notesEq⟩
                simp only [stepped, later, Except.map, Except.ok.injEq, Prod.mk.injEq] at complete
                refine ⟨step :: steps, List.Forall₂.cons stepped taken, ?_, ?_⟩
                · rw [← complete.1, linesEq, List.map_cons]
                · rw [← complete.2, notesEq, List.flatMap_cons]
      · rintro ⟨steps, taken, rfl, rfl⟩
        cases taken with
        | cons stepped later =>
            have result := (inductionHypothesis _ _).mpr ⟨_, later, rfl, rfl⟩
            rw [stepped, result]
            rfl

/-- A sweep stops with a fault exactly when some line faults and every line before
it takes a step.  The lines behind the fault are not visited. -/
theorem complete_sweep_eq_error_iff (lines : List Line) (fault : Fault) :
    (sweep visit lines).complete = .error fault <->
      Exists fun before => Exists fun line => Exists fun after =>
        lines = before ++ line :: after ∧ visitOrKeep visit line = .error fault ∧
          forall other, other ∈ before ->
            Exists fun step => visitOrKeep visit other = .ok step := by
  induction lines with
  | nil =>
      constructor
      · intro complete
        cases complete
      · rintro ⟨before, line, after, split, -⟩
        cases before <;> cases split
  | cons first rest inductionHypothesis =>
      rw [sweep_cons]
      cases stepped : visitOrKeep visit first with
      | error early =>
          simp only [Except.error.injEq]
          constructor
          · rintro rfl
            refine ⟨[], first, rest, rfl, stepped, ?_⟩
            intro other member
            cases member
          · rintro ⟨before, line, after, split, faults, steps⟩
            rcases List.cons_eq_append_iff.mp split with ⟨-, here⟩ | ⟨tail, rfl, -⟩
            · rw [(List.cons.inj here).1, stepped] at faults
              exact Except.error.inj faults
            · rcases steps first List.mem_cons_self with ⟨step, taken⟩
              rw [stepped] at taken
              cases taken
      | ok step =>
          have passedOn : ((sweep visit rest).complete.map fun later =>
              (step.1 :: later.1, step.2 ++ later.2)) = .error fault <->
                (sweep visit rest).complete = .error fault := by
            cases (sweep visit rest).complete <;> simp [Except.map]
          rw [passedOn, inductionHypothesis]
          constructor
          · rintro ⟨before, line, after, rfl, faults, steps⟩
            refine ⟨first :: before, line, after, rfl, faults, ?_⟩
            intro other member
            rcases List.mem_cons.mp member with rfl | later
            · exact ⟨step, stepped⟩
            · exact steps other later
          · rintro ⟨before, line, after, split, faults, steps⟩
            rcases List.cons_eq_append_iff.mp split with ⟨-, here⟩ | ⟨tail, rfl, same⟩
            · rw [(List.cons.inj here).1, stepped] at faults
              cases faults
            · exact ⟨tail, line, after, same, faults, fun other member =>
                steps other (List.mem_cons_of_mem first member)⟩

/-- A sweep that stops has taken the steps before the fault, and leaves the line at
fault and all behind it as they were. -/
theorem sweep_of_fault {before after : List Line} {line : Line} {fault : Fault}
    {steps : List (Line × List Note)} (taken : StepsAt visit before steps)
    (faults : visitOrKeep visit line = .error fault) :
    sweep visit (before ++ line :: after) =
      ⟨steps.map Prod.fst ++ line :: after, .error fault⟩ := by
  induction taken with
  | nil =>
      cases valid : line.valid with
      | false =>
          rw [visitOrKeep_of_invalid visit valid] at faults
          cases faults
      | true =>
          rw [visitOrKeep_of_valid visit valid] at faults
          simp [sweep, valid, faults]
  | @cons first step rest others stepped _ inductionHypothesis =>
      cases valid : first.valid with
      | false =>
          rw [visitOrKeep_of_invalid visit valid] at stepped
          cases stepped
          simp [sweep, valid, inductionHypothesis]
      | true =>
          rw [visitOrKeep_of_valid visit valid] at stepped
          simp [sweep, valid, stepped, inductionHypothesis, Except.map]

/-- A sweep over lines that all fault in one way changes nothing, and stops unless
there are no lines. -/
theorem sweep_of_all_fault {lines : List Line} {fault : Fault}
    (faults : forall line, line ∈ lines -> visitOrKeep visit line = .error fault) :
    sweep visit lines = ⟨lines, if lines = [] then .ok [] else .error fault⟩ := by
  cases lines with
  | nil => rfl
  | cons line rest =>
      have atOnce : StepsAt visit [] [] := List.Forall₂.nil
      rw [if_neg (List.cons_ne_nil line rest)]
      exact sweep_of_fault visit atOnce (faults line List.mem_cons_self)

/-- What every visit keeps of its line, a sweep keeps of all lines, also when it
stops. -/
theorem forall_mem_sweep {Kept : Line -> Prop} {lines : List Line}
    (keeps : forall line step, line ∈ lines -> line.valid = true -> Kept line ->
      visit line = .ok step -> Kept step.1)
    (kept : forall line, line ∈ lines -> Kept line) :
    forall line, line ∈ (sweep visit lines).lines -> Kept line := by
  induction lines with
  | nil => exact kept
  | cons first rest inductionHypothesis =>
      have keptRest := inductionHypothesis
        (fun line step member => keeps line step (List.mem_cons_of_mem first member))
        (fun line member => kept line (List.mem_cons_of_mem first member))
      unfold sweep
      split
      · next valid =>
          split
          · exact kept
          · next changed notes visited =>
              exact List.forall_mem_cons.mpr ⟨keeps first _ List.mem_cons_self valid
                (kept first List.mem_cons_self) visited, keptRest⟩
      · exact List.forall_mem_cons.mpr ⟨kept first List.mem_cons_self, keptRest⟩

/-- What no visit changes, a sweep leaves on all lines, also when it stops. -/
theorem map_lines_sweep {Kept : Type} (keep : Line -> Kept)
    (keeps : forall line step, visit line = .ok step -> keep step.1 = keep line)
    (lines : List Line) : (sweep visit lines).lines.map keep = lines.map keep := by
  induction lines with
  | nil => rfl
  | cons first rest inductionHypothesis =>
      unfold sweep
      split
      · split
        · rfl
        · next changed notes visited =>
            rw [List.map_cons, List.map_cons, inductionHypothesis, keeps first _ visited]
      · rw [List.map_cons, List.map_cons, inductionHypothesis]

theorem exists_stepsAt {lines : List Line}
    (visits : forall line, line ∈ lines -> Exists fun step => visitOrKeep visit line = .ok step) :
    Exists fun steps => StepsAt visit lines steps := by
  induction lines with
  | nil => exact ⟨[], List.Forall₂.nil⟩
  | cons line rest inductionHypothesis =>
      rcases visits line List.mem_cons_self with ⟨step, stepped⟩
      rcases inductionHypothesis fun other member =>
        visits other (List.mem_cons_of_mem line member) with ⟨steps, taken⟩
      exact ⟨step :: steps, List.Forall₂.cons stepped taken⟩

theorem StepsAt.exists_step {lines : List Line} {steps : List (Line × List Note)}
    (taken : StepsAt visit lines steps) {line : Line} (member : line ∈ lines) :
    Exists fun step => step ∈ steps ∧ visitOrKeep visit line = .ok step := by
  induction taken with
  | nil => cases member
  | cons stepped _ inductionHypothesis =>
      rcases List.mem_cons.mp member with rfl | later
      · exact ⟨_, List.mem_cons_self, stepped⟩
      · rcases inductionHypothesis later with ⟨step, listed, found⟩
        exact ⟨step, List.mem_cons_of_mem _ listed, found⟩

theorem StepsAt.exists_line {lines : List Line} {steps : List (Line × List Note)}
    (taken : StepsAt visit lines steps) {step : Line × List Note} (member : step ∈ steps) :
    Exists fun line => line ∈ lines ∧ visitOrKeep visit line = .ok step := by
  induction taken with
  | nil => cases member
  | cons stepped _ inductionHypothesis =>
      rcases List.mem_cons.mp member with rfl | later
      · exact ⟨_, List.mem_cons_self, stepped⟩
      · rcases inductionHypothesis later with ⟨line, listed, found⟩
        exact ⟨line, List.mem_cons_of_mem _ listed, found⟩

/-- What every step keeps of its line, a complete sweep keeps of all lines. -/
theorem StepsAt.map_eq {Kept : Type} (keep : Line -> Kept) {lines : List Line}
    {steps : List (Line × List Note)} (taken : StepsAt visit lines steps)
    (keeps : forall line step, visitOrKeep visit line = .ok step -> keep step.1 = keep line) :
    (steps.map Prod.fst).map keep = lines.map keep := by
  induction taken with
  | nil => rfl
  | cons stepped _ inductionHypothesis =>
      rw [List.map_cons, List.map_cons, List.map_cons, inductionHypothesis, keeps _ _ stepped]

/-- A complete sweep whose notes are given by a function collects them from the
valid lines. -/
theorem StepsAt.flatMap_notes (note : Line -> List Note) {lines : List Line}
    {steps : List (Line × List Note)} (taken : StepsAt visit lines steps)
    (noted : forall line step, line ∈ lines -> line.valid = true -> visit line = .ok step ->
      step.2 = note line) :
    steps.flatMap Prod.snd = (validLines lines).flatMap note := by
  induction taken with
  | nil => rfl
  | @cons line step rest others stepped _ inductionHypothesis =>
      have later := inductionHypothesis fun other step member =>
        noted other step (List.mem_cons_of_mem line member)
      unfold validLines at later ⊢
      rw [List.flatMap_cons, later]
      cases valid : line.valid with
      | false =>
          rw [visitOrKeep_of_invalid visit valid] at stepped
          cases stepped
          rw [List.filter_cons_of_neg (by simp [valid])]
          rfl
      | true =>
          rw [visitOrKeep_of_valid visit valid] at stepped
          rw [List.filter_cons_of_pos valid, List.flatMap_cons,
            noted line step List.mem_cons_self valid stepped]

/-- A sweep whose visits are given by two functions maps the valid lines and
collects the notes on them. -/
theorem complete_sweep_of_total (change : Line -> Line) (note : Line -> List Note)
    (lines : List Line)
    (visits : forall line, line ∈ lines -> line.valid = true ->
      visit line = .ok (change line, note line)) :
    (sweep visit lines).complete =
      .ok (lines.map (onValid change), (validLines lines).flatMap note) := by
  induction lines with
  | nil => rfl
  | cons line rest inductionHypothesis =>
      have later := inductionHypothesis fun other member =>
        visits other (List.mem_cons_of_mem line member)
      rw [sweep_cons, later]
      cases valid : line.valid with
      | false =>
          rw [visitOrKeep_of_invalid visit valid, List.map_cons, onValid_of_invalid change valid]
          simp [Except.map, validLines, valid]
      | true =>
          rw [visitOrKeep_of_valid visit valid, visits line List.mem_cons_self valid,
            List.map_cons, onValid_of_valid change valid]
          simp [Except.map, validLines, valid]

end

end NibbleMachine
