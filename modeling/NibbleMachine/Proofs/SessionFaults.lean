import NibbleMachine.Proofs.DigitLimit
import NibbleMachine.Proofs.History
import NibbleMachine.Proofs.Listing

namespace NibbleMachine

/-!
# What can stop a pass of a session

Passes that read tokens stop when lines have not been cut, and encoding stops at a line
without a command.  The order of the passes is free, so both depend on the history of the
session.  Three facts about histories are enough.  As long as the lines have not been cut,
no pass but encoding changes anything that another pass reads.  Once they have been cut,
every valid line has a first token for good.  And throughout, the number of tokens on a
line is that of its text or that of an expansion, and so was the number of tokens when
its command was resolved.

The last fact keeps encoding safe.  An address load shows its value in the third token,
which may have been cut anew since the command was resolved.  A command with two operands
had three tokens, an expansion has four, so the text has three and the third is there.
-/

/-! ## What no pass breaks -/

/-- A property of lines that survives whatever a visit may do to a line, as long as only
admitted symbols are replaced. -/
structure KeptByVisits (Admitted : String × String -> Prop) (Kept : Line -> Prop) : Prop where
  tokenize : forall line, Kept line -> Kept line.tokenize
  withdraw : forall line, Kept line -> Kept line.withdraw
  replace : forall line tokens symbol, Admitted symbol -> line.tokens = some tokens ->
    Kept line ->
      Kept { line with tokens := some (tokens.map (replaceInToken symbol.1 symbol.2)) }
  resolve : forall line order, line.Tokenized -> orderOf line.tokenList = .ok order ->
    Kept line -> Kept { line with tokens := some order.tokens, order := some order }
  place : forall line position, Kept line -> Kept { line with position := some position }
  encode : forall line nibbles tokens resolved, showResolved line.tokens resolved = .ok tokens ->
    Kept line -> Kept ({ line with tokens := tokens }.store nibbles)

namespace KeptByVisits

variable {Admitted : String × String -> Prop} {Kept : Line -> Prop}

theorem collect (kept : KeptByVisits Admitted Kept) (directive : Directive) {lines : List Line}
    (holds : forall line, line ∈ lines -> Kept line) :
    forall line, line ∈ (directive.collect lines).lines -> Kept line := by
  refine forall_mem_sweep _ ?_ holds
  intro line step _ _ own visited
  rcases (directive.visit_eq_ok_iff line step).mp visited with ⟨-, rfl⟩
  dsimp only [Directive.strip]
  split
  · exact kept.withdraw line own
  · exact own

theorem substitute (kept : KeptByVisits Admitted Kept) {symbols : List (String × String)}
    (admitted : forall symbol, symbol ∈ symbols -> Admitted symbol) {lines : List Line}
    (holds : forall line, line ∈ lines -> Kept line) :
    forall line, line ∈ (substitute symbols lines).lines -> Kept line := by
  refine substitute_keeps (fun lines => forall line, line ∈ lines -> Kept line) ?_ holds
  intro symbol listed lines holds
  refine forall_mem_sweep _ ?_ holds
  intro line step _ _ own visited
  rcases (replaceInLine_eq_ok_iff _ _ line step).mp visited with ⟨tokens, shape, rfl⟩
  exact kept.replace line tokens symbol (admitted symbol listed) shape own

theorem resolveCommands (kept : KeptByVisits Admitted Kept) {lines : List Line}
    (holds : forall line, line ∈ lines -> Kept line) :
    forall line, line ∈ (resolveCommands lines).lines -> Kept line := by
  refine forall_mem_sweep _ ?_ holds
  intro line step _ _ own visited
  rcases (resolveLine_eq_ok_iff line step).mp visited with ⟨tokenized, rfl⟩
  cases ordered : orderOf line.tokenList with
  | ok order =>
      rw [line.resolved_of_order ordered]
      exact kept.resolve line order tokenized ordered own
  | error problem =>
      rw [line.resolved_of_problem ordered]
      exact kept.withdraw line own

theorem layoutFrom (kept : KeptByVisits Admitted Kept) (next : Nat) {lines : List Line}
    (holds : forall line, line ∈ lines -> Kept line) :
    forall line, line ∈ layoutFrom next lines -> Kept line := by
  induction lines generalizing next with
  | nil => exact holds
  | cons first rest inductionHypothesis =>
      rcases List.forall_mem_cons.mp holds with ⟨own, others⟩
      unfold NibbleMachine.layoutFrom
      split
      · exact List.forall_mem_cons.mpr
          ⟨kept.place first next own, inductionHypothesis (next + 1) others⟩
      · exact List.forall_mem_cons.mpr ⟨own, inductionHypothesis next others⟩

theorem encodeLines (kept : KeptByVisits Admitted Kept) {lines : List Line}
    (holds : forall line, line ∈ lines -> Kept line) :
    forall line, line ∈ (encodeLines lines).lines -> Kept line := by
  refine forall_mem_sweep _ ?_ holds
  intro line step _ _ own visited
  rcases (encodeLine_eq_ok_iff lines line step).mp visited with
    ⟨order, encoding, tokens, -, -, shown, rfl⟩
  exact kept.encode line encoding.nibbles tokens encoding.resolved shown own

/-- What no visit breaks holds after a pass if it held before, also when the pass
stopped. -/
theorem run (kept : KeptByVisits Admitted Kept) (session : Session) (pass : Pass)
    (admitted : forall directive symbol, symbol ∈ (session.table directive).entries ->
      Admitted symbol)
    (holds : forall line, line ∈ session.lines -> Kept line) :
    forall line, line ∈ (session.run pass).1.lines -> Kept line := by
  cases pass with
  | prepare =>
      intro line member
      rcases List.mem_map.mp member with ⟨source, listed, rfl⟩
      exact kept.tokenize source (holds source listed)
  | collect directive =>
      unfold Session.run
      dsimp only
      split
      · exact kept.collect directive holds
      · rw [lines_keep]
        exact kept.collect directive holds
  | substitute directive => exact kept.substitute (admitted directive) holds
  | resolve => exact kept.resolveCommands holds
  | layout => exact kept.layoutFrom 0 holds
  | encode => exact kept.encodeLines holds
  | listing => exact holds
  | image => exact holds

/-- What no visit breaks whatever symbols are replaced holds throughout a session. -/
theorem after (kept : KeptByVisits (fun _ => True) Kept) (session : Session) (passes : List Pass)
    (holds : forall line, line ∈ session.lines -> Kept line) :
    forall line, line ∈ (session.after passes).lines -> Kept line := by
  induction passes generalizing session with
  | nil => exact holds
  | cons pass rest inductionHypothesis =>
      exact inductionHypothesis _ (kept.run session pass (fun _ _ _ => trivial) holds)

end KeptByVisits

/-! ## The number of tokens -/

namespace Line

/-- The number of tokens that a line may have: as many as its text, or four as an
expansion has. -/
def MayHave (line : Line) (count : Nat) : Prop :=
  count = (tokensOf (clean line.text)).length ∨ count = 4

/-- A line with as many tokens as it may have, whose command was resolved from as many
tokens as it may have. -/
structure Counted (line : Line) : Prop where
  tokens : forall count, line.tokens.map List.length = some count -> line.MayHave count
  order : forall order, line.order = some order -> line.MayHave order.tokens.length
  cut : forall order, line.order = some order -> Exists fun tokens => line.tokens = some tokens

theorem tokenized_iff_length (line : Line) :
    line.Tokenized <-> Exists fun count => line.tokens.map List.length = some (count + 1) := by
  constructor
  · rintro ⟨name, operands, shape⟩
    exact ⟨operands.length, by rw [shape]; rfl⟩
  · rintro ⟨count, length⟩
    rcases Option.map_eq_some_iff.mp length with ⟨tokens, shape, counted⟩
    rcases List.exists_cons_of_length_eq_add_one counted with ⟨name, operands, rfl⟩
    exact ⟨name, operands, shape⟩

end Line

/-- An order has the tokens it was resolved from, or the four of an expansion. -/
theorem length_of_orderOf {tokens : List String} {order : Order}
    (ordered : orderOf tokens = .ok order) :
    order.tokens.length = tokens.length ∨ order.tokens.length = 4 := by
  rcases (orderOf_eq_ok_iff tokens order).mp ordered with written | ⟨_, _, -, expands⟩
  · exact Or.inl (congrArg List.length written.symm)
  · rcases Abbreviation.expand?_eq_some expands with ⟨op, first, second, third, expanded⟩
    rw [expanded]
    exact Or.inr rfl

theorem counted_keptByVisits : KeptByVisits (fun _ => True) Line.Counted where
  tokenize line counted := by
    cases blank : (clean line.text).isEmpty with
    | true =>
        rw [tokenize_of_blank blank]
        exact ⟨counted.tokens, counted.order, counted.cut⟩
    | false =>
        rw [tokenize_of_not_blank blank]
        exact ⟨fun _ length => Or.inl (Option.some.inj length).symm, counted.order,
          fun _ _ => ⟨_, rfl⟩⟩
  withdraw line counted := ⟨counted.tokens, counted.order, counted.cut⟩
  replace line tokens symbol _ shape counted := by
    refine ⟨?_, counted.order, fun _ _ => ⟨_, rfl⟩⟩
    intro count length
    apply counted.tokens
    rw [shape, ← length]
    simp
  resolve line order tokenized ordered counted := by
    have mayHave : line.MayHave order.tokens.length := by
      rcases length_of_orderOf ordered with same | four
      · rcases tokenized with ⟨name, operands, shape⟩
        apply counted.tokens
        rw [same, Line.tokenList, shape]
        rfl
      · exact Or.inr four
    refine ⟨?_, ?_, fun _ _ => ⟨_, rfl⟩⟩
    · intro count length
      rw [← Option.some.inj length]
      exact mayHave
    · intro other same
      rw [← Option.some.inj same]
      exact mayHave
  place line position counted := ⟨counted.tokens, counted.order, counted.cut⟩
  encode line nibbles tokens resolved shown counted := by
    have length := length_of_showResolved shown
    refine ⟨fun count found => counted.tokens count (length.symm.trans found), counted.order, ?_⟩
    intro order ordered
    rcases counted.cut order ordered with ⟨earlier, shape⟩
    rw [shape] at length
    rcases Option.map_eq_some_iff.mp length with ⟨shownTokens, shownShape, -⟩
    exact ⟨shownTokens, shownShape⟩

/-- A valid line with a first token keeps one.  Stated of every line, it says that the
lines are tokenized. -/
theorem tokenized_keptByVisits :
    KeptByVisits (fun _ => True) fun line => line.valid = true -> line.Tokenized where
  tokenize line _ := Line.tokenized_tokenize
  withdraw line _ := by
    intro valid
    cases valid
  replace line tokens symbol _ shape tokenized := by
    intro valid
    rcases tokenized valid with ⟨first, operands, cut⟩
    rw [shape] at cut
    cases cut
    exact ⟨_, _, rfl⟩
  resolve line order _ _ _ := fun _ => ⟨_, _, rfl⟩
  place line position tokenized := tokenized
  encode line nibbles tokens resolved shown tokenized := by
    intro valid
    rcases (Line.tokenized_iff_length line).mp (tokenized valid) with ⟨count, length⟩
    exact (Line.tokenized_iff_length _).mpr ⟨count, (length_of_showResolved shown).trans length⟩

/-! ## Before the lines are cut -/

/-- A line that has not been cut, dropped or given a command. -/
structure Line.Untouched (line : Line) : Prop where
  valid : line.valid = true
  tokens : line.tokens = none
  order : line.order = none

namespace Line.Untouched

variable {line : Line} (untouched : line.Untouched)

include untouched

theorem visit (directive : Directive) :
    visitOrKeep directive.visit line = .error .untokenized := by
  rw [visitOrKeep_of_valid _ untouched.valid, Directive.visit, untouched.tokens]

theorem resolveLine : visitOrKeep resolveLine line = .error .untokenized := by
  rw [visitOrKeep_of_valid _ untouched.valid, NibbleMachine.resolveLine, untouched.tokens]

theorem encodeLine (lines : List Line) :
    visitOrKeep (encodeLine lines) line = .error .unresolved := by
  rw [visitOrKeep_of_valid _ untouched.valid, NibbleMachine.encodeLine, untouched.order]

end Line.Untouched

namespace Session

/-- A session whose lines have not been cut, and that knows no symbol. -/
structure Unprepared (session : Session) : Prop where
  lines : forall line, line ∈ session.lines -> line.Untouched
  table : forall directive, session.table directive = .empty

theorem unprepared_start (text : String) : (start text).Unprepared where
  lines line member := by
    rcases exists_fresh_of_mem_numberLines member with ⟨number, source, rfl⟩
    exact ⟨rfl, rfl, rfl⟩
  table directive := by cases directive <;> rfl

theorem keep_table (session : Session) (directive : Directive) :
    session.keep directive (session.table directive) = session := by
  cases directive <;> rfl

/-- The passes that read the tokens of lines. -/
def readingPasses : List Pass :=
  [.listing, .collect .define, .collect .label, .resolve]

def safePasses : List Pass :=
  [.prepare, .substitute .define, .substitute .label, .layout, .image]

namespace Unprepared

variable {session : Session} (unprepared : session.Unprepared)

include unprepared

theorem run_collect (directive : Directive) :
    (session.run (.collect directive)).1 = session ∧
      forall fault, (session.run (.collect directive)).2 = .error fault <->
        fault = .untokenized ∧ session.lines ≠ [] := by
  have swept : directive.collect session.lines = _ := sweep_of_all_fault directive.visit
    fun line member => (unprepared.lines line member).visit directive
  by_cases empty : session.lines = []
  · have known : symbolsOf [] = session.table directive := (unprepared.table directive).symm
    rw [if_pos empty] at swept
    rw [run_collect_of_ok swept, known, keep_table]
    exact ⟨rfl, by simp [empty]⟩
  · rw [if_neg empty] at swept
    rw [run_collect_of_fault swept]
    exact ⟨rfl, by simp [empty, eq_comm]⟩

theorem run_resolve :
    (session.run .resolve).1 = session ∧
      forall fault, (session.run .resolve).2 = .error fault <->
        fault = .untokenized ∧ session.lines ≠ [] := by
  have swept : resolveCommands session.lines = _ := sweep_of_all_fault resolveLine
    fun line member => (unprepared.lines line member).resolveLine
  rw [run_resolve_eq swept]
  refine ⟨rfl, ?_⟩
  by_cases empty : session.lines = [] <;> simp [empty, Except.map, eq_comm]

theorem run_listing (fault : Fault) :
    (session.run .listing).2 = .error fault <-> fault = .untokenized ∧ session.lines ≠ [] := by
  unfold run NibbleMachine.listing
  cases shape : session.lines with
  | nil => simp [validLines, pure, Except.pure, Except.map]
  | cons first rest =>
      have untouched := unprepared.lines first (by rw [shape]; exact List.mem_cons_self)
      rw [validLines, List.filter_cons_of_pos untouched.valid, List.mapM_cons, untouched.tokens]
      simp [bind, Except.bind, Except.map, eq_comm]

theorem run_substitute (directive : Directive) :
    session.run (.substitute directive) = (session, .ok .silent) := by
  simp only [run, unprepared.table directive]
  rfl

theorem lines_run_encode : (session.run .encode).1 = session := by
  have swept : encodeLines session.lines = _ := sweep_of_all_fault (encodeLine session.lines)
    fun line member => (unprepared.lines line member).encodeLine session.lines
  rw [run_encode_eq swept]

theorem run_layout : (session.run .layout).1.Unprepared where
  lines line member := by
    have erased : line.unplaced ∈ session.lines.map Line.unplaced := by
      rw [← map_unplaced_layoutFrom 0]
      exact List.mem_map_of_mem member
    rcases List.mem_map.mp erased with ⟨source, listed, same⟩
    have untouched := unprepared.lines source listed
    exact ⟨(congrArg Line.valid same).symm.trans untouched.valid,
      (congrArg Line.tokens same).symm.trans untouched.tokens,
      (congrArg Line.order same).symm.trans untouched.order⟩
  table := unprepared.table

/-- Only cutting the lines ends this state. -/
theorem run {pass : Pass} (other : pass ≠ .prepare) : (session.run pass).1.Unprepared := by
  cases pass with
  | prepare => exact absurd rfl other
  | collect directive =>
      rw [(unprepared.run_collect directive).1]
      exact unprepared
  | substitute directive =>
      rw [unprepared.run_substitute directive]
      exact unprepared
  | resolve =>
      rw [unprepared.run_resolve.1]
      exact unprepared
  | layout => exact unprepared.run_layout
  | encode =>
      rw [unprepared.lines_run_encode]
      exact unprepared
  | listing => exact unprepared
  | image => exact unprepared

theorem after {passes : List Pass} (uncut : .prepare ∉ passes) :
    (session.after passes).Unprepared := by
  induction passes generalizing session with
  | nil => exact unprepared
  | cons pass rest inductionHypothesis =>
      rw [List.mem_cons, not_or] at uncut
      exact inductionHypothesis (unprepared.run fun same => uncut.1 same.symm) uncut.2

end Unprepared

end Session

/-! ## After the lines were cut -/

theorem tokenized_after (session : Session) {passes : List Pass} (cut : .prepare ∈ passes) :
    Tokenized (session.after passes).lines := by
  rcases List.append_of_mem cut with ⟨earlier, later, rfl⟩
  rw [Session.after_append]
  exact tokenized_keptByVisits.after _ later (tokenized_prepare _)

theorem listing_of_tokenized {lines : List Line} (tokenized : Tokenized lines) :
    listing lines = .ok ((validLines lines).map fun line =>
      String.intercalate " " line.tokenList) := by
  have tokens : (validLines lines).map Line.tokens =
      ((validLines lines).map Line.tokenList).map some := by
    rw [List.map_map]
    apply List.map_congr_left
    intro line member
    have listed := List.mem_filter.mp member
    rcases tokenized line listed.1 listed.2 with ⟨name, operands, shape⟩
    simp [Line.tokenList, shape]
  rw [listing_of_tokens tokens, List.map_map]
  rfl

/-- Lines that have been cut stop no pass but encoding. -/
theorem exists_report_of_tokenized {session : Session} (tokenized : Tokenized session.lines)
    {pass : Pass} (other : pass ≠ .encode) :
    Exists fun report => (session.run pass).2 = .ok report := by
  cases pass with
  | prepare | layout | image => exact ⟨_, rfl⟩
  | encode => exact absurd rfl other
  | collect directive =>
      rcases (Swept.complete_eq_ok_iff _ _ _).mp (directive.complete_collect tokenized) with
        ⟨-, outcome⟩
      simp [Session.run, outcome]
  | substitute directive =>
      rcases (Swept.complete_eq_ok_iff _ _ _).mp
        (complete_substitute (session.table directive).entries tokenized) with ⟨-, outcome⟩
      simp [Session.run, outcome, Except.map]
  | resolve =>
      rcases (Swept.complete_eq_ok_iff _ _ _).mp (complete_resolveCommands tokenized) with
        ⟨-, outcome⟩
      simp [Session.run, outcome, Except.map]
  | listing => simp [Session.run, listing_of_tokenized tokenized, Except.map]

/-! ## Encoding -/

/-- A valid line at which encoding stops: it has no command, or its order is beyond the
limit on digits. -/
def Line.Stops (line : Line) (fault : Fault) : Prop :=
  line.valid = true ∧ (line.order = none ∧ fault = .unresolved ∨ line.Exceeds fault)

/-- A line at which encoding stops, behind lines at which it does not. -/
def FirstStop (before : List Line) (line : Line) (fault : Fault) : Prop :=
  line.Stops fault ∧ forall other earlier, other ∈ before -> ¬ other.Stops earlier

/-- A line and what encoding it leaves: the nibbles of its order with their word, and the
value in its tokens that an address load resolved to.  An invalid line is left as it was. -/
inductive Line.EncodedTo (lines : List Line) (line : Line) : Line -> Prop
  | kept (invalid : line.valid = false) : Line.EncodedTo lines line line
  | encoded (order : Order) (encoding : Encoding) (tokens : Option (List String))
      (valid : line.valid = true) (ordered : line.order = some order)
      (encodes : encodeOrder lines order = .ok encoding)
      (shows : showResolved line.tokens encoding.resolved = .ok tokens) :
      Line.EncodedTo lines line ({ line with tokens := tokens }.store encoding.nibbles)

/-- The third token of an address load is there, however the line was cut since its
command was resolved. -/
theorem Line.Counted.exists_showResolved {line : Line} (counted : line.Counted) {order : Order}
    (ordered : line.order = some order) {lines : List Line} {encoding : Encoding}
    (encodes : encodeOrder lines order = .ok encoding) :
    Exists fun tokens => showResolved line.tokens encoding.resolved = .ok tokens := by
  cases resolved : encoding.resolved with
  | none => exact ⟨_, rfl⟩
  | some value =>
      rcases loadAddress_of_resolved encodes resolved with ⟨target, operand, rfl⟩
      rcases counted.cut _ ordered with ⟨tokens, shape⟩
      have three : (tokensOf (clean line.text)).length = 3 := by
        rcases counted.order _ ordered with own | four
        · exact own.symm
        · cases four
      have third : 2 < tokens.length := by
        rcases counted.tokens tokens.length (by rw [shape]; rfl) with own | four
        · rw [own, three]
          decide
        · rw [four]
          decide
      rw [shape]
      exact ⟨some (tokens.set 2 (Numeral.decimal value)), if_pos third⟩

theorem Line.Counted.visitOrKeep_eq_error_iff {line : Line} (counted : line.Counted)
    {lines : List Line} (occupied : lines ≠ []) (fault : Fault) :
    visitOrKeep (encodeLine lines) line = .error fault <-> line.Stops fault := by
  cases valid : line.valid with
  | false => simp [visitOrKeep_of_invalid _ valid, Line.Stops, valid]
  | true =>
      rw [visitOrKeep_of_valid _ valid, encodeLine_eq_error_iff occupied
        fun order encoding ordered encodes => counted.exists_showResolved ordered encodes]
      simp [Line.Stops, valid]

theorem Line.Counted.exists_step {line : Line} (counted : line.Counted) {lines : List Line}
    (occupied : lines ≠ []) (passes : forall fault, ¬ line.Stops fault) :
    Exists fun step => visitOrKeep (encodeLine lines) line = .ok step := by
  cases stepped : visitOrKeep (encodeLine lines) line with
  | ok step => exact ⟨step, rfl⟩
  | error fault =>
      exact absurd ((counted.visitOrKeep_eq_error_iff occupied fault).mp stepped) (passes fault)

theorem encodedTo_of_step {lines : List Line} {line : Line} {step : Line × List Finding}
    (stepped : visitOrKeep (encodeLine lines) line = .ok step) :
    line.EncodedTo lines step.1 := by
  cases valid : line.valid with
  | false =>
      rw [visitOrKeep_of_invalid _ valid] at stepped
      cases stepped
      exact .kept valid
  | true =>
      rw [visitOrKeep_of_valid _ valid] at stepped
      rcases (encodeLine_eq_ok_iff _ _ _).mp stepped with
        ⟨order, encoding, tokens, ordered, encodes, shows, rfl⟩
      exact .encoded order encoding tokens valid ordered encodes shows

/-- Encoding stops at the first line that makes it stop, and at no other. -/
theorem encodeLines_eq_error_iff {lines : List Line}
    (counted : forall line, line ∈ lines -> line.Counted) (fault : Fault) :
    (encodeLines lines).outcome = .error fault <->
      Exists fun before => Exists fun line => Exists fun after =>
        lines = before ++ line :: after ∧ FirstStop before line fault := by
  rw [← Swept.complete_eq_error_iff, encodeLines, complete_sweep_eq_error_iff]
  constructor
  · rintro ⟨before, line, after, split, faults, steps⟩
    have occupied : lines ≠ [] := by simp [split]
    rw [split, List.forall_mem_append, List.forall_mem_cons] at counted
    refine ⟨before, line, after, split,
      (counted.2.1.visitOrKeep_eq_error_iff occupied fault).mp faults, ?_⟩
    intro other earlier member stops
    rcases steps other member with ⟨step, stepped⟩
    rw [((counted.1 other member).visitOrKeep_eq_error_iff occupied earlier).mpr stops] at stepped
    cases stepped
  · rintro ⟨before, line, after, split, stops, passed⟩
    have occupied : lines ≠ [] := by simp [split]
    rw [split, List.forall_mem_append, List.forall_mem_cons] at counted
    refine ⟨before, line, after, split,
      (counted.2.1.visitOrKeep_eq_error_iff occupied fault).mpr stops, ?_⟩
    intro other member
    exact (counted.1 other member).exists_step occupied fun earlier => passed other earlier member

/-- When encoding stops, the lines before are encoded and the others as they were. -/
theorem lines_encodeLines_of_stop {lines before after : List Line} {line : Line} {fault : Fault}
    (counted : forall line, line ∈ lines -> line.Counted) (split : lines = before ++ line :: after)
    (first : FirstStop before line fault) :
    Exists fun encoded => List.Forall₂ (Line.EncodedTo lines) before encoded ∧
      (encodeLines lines).lines = encoded ++ line :: after := by
  have occupied : lines ≠ [] := by simp [split]
  rw [split, List.forall_mem_append, List.forall_mem_cons] at counted
  rcases exists_stepsAt (encodeLine lines) fun other member =>
    (counted.1 other member).exists_step occupied fun earlier => first.2 other earlier member with
    ⟨steps, taken⟩
  have faults := (counted.2.1.visitOrKeep_eq_error_iff occupied fault).mpr first.1
  refine ⟨steps.map Prod.fst, ?_, ?_⟩
  · exact List.forall₂_map_right_iff.mpr
      (List.Forall₂.imp (fun _ _ stepped => encodedTo_of_step stepped) taken)
  · have stopped : sweep (encodeLine lines) (before ++ line :: after) = _ :=
      sweep_of_fault (encodeLine lines) taken faults
    rw [← split] at stopped
    rw [encodeLines, stopped]

/-! ## Sessions -/

theorem counted_after (text : String) (passes : List Pass) :
    forall line, line ∈ ((Session.start text).after passes).lines -> line.Counted := by
  apply counted_keptByVisits.after
  intro line member
  rcases exists_fresh_of_mem_numberLines member with ⟨number, source, rfl⟩
  refine ⟨?_, ?_, ?_⟩
  · intro count length
    cases length
  · intro order ordered
    cases ordered
  · intro order ordered
    cases ordered

theorem lines_after_ne_nil_iff (text : String) (passes : List Pass) :
    ((Session.start text).after passes).lines ≠ [] <-> Text.lines text.toList ≠ [] := by
  have numbers := ((Session.start text).linesFollow_after passes).map_eq Line.number
    fun follows => follows.number
  rw [show (Session.start text).lines.map Line.number = _ from map_number_numberLines 1 _]
    at numbers
  have lengths := congrArg List.length numbers
  rw [List.length_map, List.length_range'] at lengths
  rw [← List.length_pos_iff, ← List.length_pos_iff, lengths]

/-- A pass that reads tokens stops exactly when there are lines and they have never been
cut, and then it leaves the session as it was. -/
theorem run_readingPass (text : String) (passes : List Pass) {pass : Pass}
    (reads : pass ∈ Session.readingPasses) (fault : Fault) :
    ((((Session.start text).after passes).run pass).2 = .error fault <->
        fault = .untokenized ∧ Text.lines text.toList ≠ [] ∧ .prepare ∉ passes) ∧
      ((((Session.start text).after passes).run pass).2 = .error fault ->
        (((Session.start text).after passes).run pass).1 =
          (Session.start text).after passes) := by
  by_cases cut : .prepare ∈ passes
  · have notEncode : pass ≠ .encode := by
      rintro rfl
      simp [Session.readingPasses] at reads
    rcases exists_report_of_tokenized (tokenized_after (Session.start text) cut) notEncode with
      ⟨report, told⟩
    simp [told, cut]
  · have unprepared := (Session.unprepared_start text).after cut
    have stops : (((Session.start text).after passes).run pass).1 =
          (Session.start text).after passes ∧
        ((((Session.start text).after passes).run pass).2 = .error fault <->
          fault = .untokenized ∧ ((Session.start text).after passes).lines ≠ []) := by
      simp only [Session.readingPasses, List.mem_cons, List.not_mem_nil, or_false] at reads
      rcases reads with rfl | rfl | rfl | rfl
      · exact ⟨rfl, unprepared.run_listing fault⟩
      · exact ⟨(unprepared.run_collect .define).1, (unprepared.run_collect .define).2 fault⟩
      · exact ⟨(unprepared.run_collect .label).1, (unprepared.run_collect .label).2 fault⟩
      · exact ⟨unprepared.run_resolve.1, unprepared.run_resolve.2 fault⟩
    rw [stops.2, lines_after_ne_nil_iff]
    exact ⟨by simp [cut], fun _ => stops.1⟩

theorem run_safePass (text : String) (passes : List Pass) {pass : Pass}
    (safe : pass ∈ Session.safePasses) :
    Exists fun report => (((Session.start text).after passes).run pass).2 = .ok report := by
  by_cases cut : .prepare ∈ passes
  · apply exists_report_of_tokenized (tokenized_after (Session.start text) cut)
    rintro rfl
    simp [Session.safePasses] at safe
  · have unprepared := (Session.unprepared_start text).after cut
    simp only [Session.safePasses, List.mem_cons, List.not_mem_nil, or_false] at safe
    rcases safe with rfl | rfl | rfl | rfl | rfl
    · exact ⟨_, rfl⟩
    · exact ⟨_, congrArg Prod.snd (unprepared.run_substitute .define)⟩
    · exact ⟨_, congrArg Prod.snd (unprepared.run_substitute .label)⟩
    · exact ⟨_, rfl⟩
    · exact ⟨_, rfl⟩

/-- A pass reads tokens, never stops, or encodes. -/
theorem Session.pass_cases (pass : Pass) :
    pass ∈ readingPasses ∨ pass ∈ safePasses ∨ pass = .encode := by
  rcases pass with _ | (_ | _) | (_ | _) | _ | _ | _ | _ | _ <;> decide

theorem run_encode_eq_error_iff (session : Session) (fault : Fault) :
    (session.run .encode).2 = .error fault <->
      (encodeLines session.lines).outcome = .error fault :=
  map_eq_error_iff (encodeLines session.lines).outcome Report.findings fault

/-- Whatever passes were run on a text before: a listing, a collection and the resolving
of commands stop exactly when the text has a line and the lines have never been cut, and
then they change nothing.  Cutting, replacing symbols, the layout and the image never
stop.  Encoding stops exactly when a valid line has no command or is beyond the limit on
digits, in the way of the first such line; the lines before it are encoded, and the line
and those behind it are as they were.  No pass ever misses a token. -/
theorem session_faults_in_any_order (text : String) (passes : List Pass) :
    (forall pass, pass ∈ [Pass.listing, .collect .define, .collect .label, .resolve] ->
      forall fault,
        ((((Session.start text).after passes).run pass).2 = .error fault <->
          fault = .untokenized ∧ Text.lines text.toList ≠ [] ∧ .prepare ∉ passes) ∧
        ((((Session.start text).after passes).run pass).2 = .error fault ->
          (((Session.start text).after passes).run pass).1 =
            (Session.start text).after passes)) ∧
      (forall pass, pass ∈ [Pass.prepare, .substitute .define, .substitute .label, .layout,
          .image] ->
        Exists fun report => (((Session.start text).after passes).run pass).2 = .ok report) ∧
      (forall fault, (((Session.start text).after passes).run .encode).2 = .error fault <->
        Exists fun before => Exists fun line => Exists fun after =>
          ((Session.start text).after passes).lines = before ++ line :: after ∧
            FirstStop before line fault) ∧
      (forall before line after fault,
        ((Session.start text).after passes).lines = before ++ line :: after ->
          FirstStop before line fault ->
            Exists fun encoded =>
              List.Forall₂ (Line.EncodedTo ((Session.start text).after passes).lines)
                before encoded ∧
              (((Session.start text).after passes).run .encode).1.lines =
                encoded ++ line :: after) ∧
      (forall pass, (((Session.start text).after passes).run pass).2 ≠ .error .missingToken) := by
  have counted := counted_after text passes
  have encodes : forall fault,
      (((Session.start text).after passes).run .encode).2 = .error fault <->
        Exists fun before => Exists fun line => Exists fun after =>
          ((Session.start text).after passes).lines = before ++ line :: after ∧
            FirstStop before line fault := by
    intro fault
    rw [run_encode_eq_error_iff]
    exact encodeLines_eq_error_iff counted fault
  refine ⟨fun _ reads => run_readingPass text passes reads, fun _ => run_safePass text passes,
    encodes, ?_, ?_⟩
  · intro before line after fault split first
    exact lines_encodeLines_of_stop counted split first
  · intro pass missing
    rcases Session.pass_cases pass with reads | safe | rfl
    · cases ((run_readingPass text passes reads _).1.mp missing).1
    · rcases run_safePass text passes safe with ⟨report, told⟩
      rw [told] at missing
      cases missing
    · rcases (encodes _).mp missing with ⟨before, line, after, -, ⟨-, stops⟩, -⟩
      rcases stops with ⟨-, unresolved⟩ | ⟨order, -, exceeds⟩
      · cases unresolved
      · cases exceeds

/-- The lines of a program that was cut and resolved carry its orders. -/
theorem lines_after_resolve_programText {orders : List Order}
    (cleaned : forall order, order ∈ orders -> order.IsClean) :
    ((Session.start (programText orders)).after [.prepare, .resolve]).lines =
      (orders.zipIdx 1).map fun numbered =>
        Line.carrying numbered.2 numbered.1.text numbered.1 := by
  have resolves := ((Swept.complete_eq_ok_iff _ _ _).mp
    (complete_resolveCommands (tokenized_prepare (loadLines (programText orders))))).1
  change (resolveCommands (prepare (loadLines (programText orders)))).lines = _
  rw [resolves, prepare, loadLines, lines_programText cleaned]
  clear resolves
  generalize 1 = next
  induction orders generalizing next with
  | nil => rfl
  | cons order rest inductionHypothesis =>
      rcases List.forall_mem_cons.mp cleaned with ⟨own, others⟩
      have cut : tokensOf (clean order.text) = order.tokens := tokensOf_clean_joined own
      rw [List.map_cons, numberLines, List.map_cons, List.map_cons, String.ofList_toList,
        tokenize_fresh cut (List.cons_ne_nil _ _),
        onValid_resolved_cut (orderOf_tokens order), inductionHypothesis others,
        List.zipIdx_cons, List.map_cons]

def shortLoad : Order :=
  ⟨.immediate .li, ["r1", "5"]⟩

/-- An address load with too many ones for a line number. -/
def longLoad : Order :=
  ⟨.loadAddress, ["r2", String.ofList (List.replicate 4301 '1')]⟩

theorem isClean_loads : forall order, order ∈ [shortLoad, longLoad] -> order.IsClean := by
  have ones : IsPlainToken (String.ofList (List.replicate 4301 '1')) := by
    apply isPlainToken_of_all
    · rw [String.toList_ofList]
      exact List.cons_ne_nil _ _
    · rw [String.toList_ofList, List.all_replicate]
      decide
  intro order member
  apply Order.isClean_of_operands
  intro operand inOperands
  simp only [List.mem_cons, List.not_mem_nil, or_false] at member
  rcases member with rfl | rfl
  · simp only [shortLoad, List.mem_cons, List.not_mem_nil, or_false] at inOperands
    rcases inOperands with rfl | rfl
    · exact isPlainToken_of_all (by decide) (by decide)
    · exact isPlainToken_of_all (by decide) (by decide)
  · simp only [longLoad, List.mem_cons, List.not_mem_nil, or_false] at inOperands
    rcases inOperands with rfl | rfl
    · exact isPlainToken_of_all (by decide) (by decide)
    · exact ones

theorem encodeOrder_shortLoad (lines : List Line) :
    encodeOrder lines shortLoad = .ok ⟨some ⟨0xA, 1, 0, 5⟩, [], none⟩ := by
  have alone : encodeOrder [] shortLoad = .ok ⟨some ⟨0xA, 1, 0, 5⟩, [], none⟩ := by
    decide +kernel
  exact alone

theorem firstStop_longLoad (text longText : String) :
    FirstStop [Line.carrying 1 text shortLoad] (Line.carrying 2 longText longLoad)
      (.unreadable 4301) := by
  have written : Numeral.SignedDigits (String.ofList (List.replicate 4301 '1')).toList
      ⟨false, List.replicate 4301 '1'⟩ := by
    rw [String.toList_ofList]
    refine .unsigned _ ⟨List.cons_ne_nil _ _, ?_⟩
    intro c member
    rw [List.eq_of_mem_replicate member]
    decide
  have exceeds := Order.Exceeds.target "r2" _ _ written
    (by rw [List.length_replicate]; decide)
  rw [List.length_replicate] at exceeds
  refine ⟨⟨rfl, Or.inr ⟨longLoad, rfl, exceeds⟩⟩, ?_⟩
  intro other earlier member stops
  rw [List.mem_singleton.mp member] at stops
  rcases stops.2 with ⟨none, -⟩ | ⟨order, carries, exceeds⟩
  · cases none
  · cases carries
    cases exceeds with
    | immediate _ _ _ digits written => simp at written

/-- A listing stops before the lines are cut, whatever was tried before.  Encoding passes
over a blank line and stops at the first one without a command.  It also stops at an address
load with too many digits, and then the line before has its nibbles and its word.  An address
load that was cut anew after its command was resolved still has its third token. -/
theorem session_faults_in_any_order_of_sample :
    (((Session.start "\nx").after [.layout, .encode, .resolve]).run .listing).2 =
        .error .untokenized ∧
      (((Session.start "\nx").after [.prepare]).run .encode).2 = .error .unresolved ∧
      (((Session.start (programText [shortLoad, longLoad])).after [.prepare, .resolve]).run
          .encode).2 = .error (.unreadable 4301) ∧
      ((((Session.start (programText [shortLoad, longLoad])).after [.prepare, .resolve]).run
          .encode).1.lines.map fun line => (line.nibbles, line.word)) =
        [(some ⟨0xA, 1, 0, 5⟩, 0xA105), (none, 0)] ∧
      (((Session.start "la r1, 1").after [.prepare, .resolve, .prepare]).run .encode).2 ≠
        .error .missingToken := by
  have uncut := session_faults_in_any_order "\nx" [.layout, .encode, .resolve]
  have unresolved := session_faults_in_any_order "\nx" [.prepare]
  have long := session_faults_in_any_order (programText [shortLoad, longLoad]) [.prepare, .resolve]
  have lines := lines_after_resolve_programText isClean_loads
  have first := firstStop_longLoad shortLoad.text longLoad.text
  have cutAnew := session_faults_in_any_order "la r1, 1" [.prepare, .resolve, .prepare]
  refine ⟨?_, ?_, (long.2.2.1 _).mpr ⟨_, _, [], lines, first⟩, ?_, cutAnew.2.2.2.2 .encode⟩
  · exact (uncut.1 .listing (by decide) .untokenized).1.mpr ⟨rfl, by decide, by decide⟩
  · refine (unresolved.2.2.1 .unresolved).mpr ⟨[⟨1, "", false, none, none, none, none, 0⟩],
      ⟨2, "x", true, some ["x"], none, none, none, 0⟩, [], by decide +kernel,
      ⟨rfl, Or.inl ⟨rfl, rfl⟩⟩, ?_⟩
    intro other earlier member stops
    rw [List.mem_singleton.mp member] at stops
    cases stops.1
  · rcases long.2.2.2.1 _ _ [] _ lines first with ⟨encoded, each, left⟩
    rw [left]
    rcases List.forall₂_cons_left_iff.mp each with ⟨line, rest, own, none, rfl⟩
    cases none
    cases own with
    | kept invalid => cases invalid
    | encoded order encoding tokens _ ordered encodes =>
        cases ordered
        cases (encodeOrder_shortLoad _).symm.trans encodes
        rfl

end NibbleMachine
