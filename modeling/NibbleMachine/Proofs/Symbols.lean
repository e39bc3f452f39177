import NibbleMachine.Assembly
import NibbleMachine.Proofs.Sweep
import NibbleMachine.Proofs.Text

namespace NibbleMachine

/-!
# Entries, directives and substitution

For the passes before encoding, a program is the list of its entries: the number
and the tokens of every line that still takes part.  The first of them is the
list of the lines that are not blank.  Applying a directive takes the entries
that start with its keyword out of the list, reads a table of symbols off them,
and replaces the symbols in the tokens of the others.

The passes work on lines, most of whose fields they do not touch.  The
statements here give each pass as a map over the lines and say what it does to
the entries.  No pass before encoding can fault, because the lines that take
part always have a first token: this is `Tokenized`, which every pass keeps.
-/

/-! ## Entries -/

/-- A line that takes part in the assembly: its number and its tokens. -/
structure Entry where
  number : Nat
  tokens : List String
deriving DecidableEq, Repr

namespace Line

/-- The tokens of a line; a line that has not been cut has none. -/
def tokenList (line : Line) : List String :=
  line.tokens.getD []

def entry (line : Line) : Entry :=
  ⟨line.number, line.tokenList⟩

/-- A line with a first token. -/
def Tokenized (line : Line) : Prop :=
  Exists fun name => Exists fun operands => line.tokens = some (name :: operands)

end Line

/-- The entries of the lines that still take part. -/
def entries (lines : List Line) : List Entry :=
  (validLines lines).map Line.entry

theorem entries_cons_of_valid {line : Line} (rest : List Line) (valid : line.valid = true) :
    entries (line :: rest) = line.entry :: entries rest := by
  simp [entries, validLines, valid]

theorem entries_cons_of_invalid {line : Line} (rest : List Line) (invalid : line.valid = false) :
    entries (line :: rest) = entries rest := by
  simp [entries, validLines, invalid]

/-- Every line that still takes part has a first token. -/
def Tokenized (lines : List Line) : Prop :=
  forall line, line ∈ lines -> line.valid = true -> line.Tokenized

/-- The entry of a source line; a blank line has none. -/
def Entry.ofSource? (numbered : List Char × Nat) : Option Entry :=
  let cleaned := clean (String.ofList numbered.1)
  if cleaned.isEmpty then none else some ⟨numbered.2, tokensOf cleaned⟩

/-- The lines of a source text that are not blank, numbered from one. -/
def sourceEntries (text : String) : List Entry :=
  ((Text.lines text.toList).zipIdx 1).filterMap Entry.ofSource?

theorem tokenize_of_blank {line : Line} (blank : (clean line.text).isEmpty = true) :
    line.tokenize = line.withdraw := by
  simp [Line.tokenize, blank]

theorem tokenize_of_not_blank {line : Line} (solid : (clean line.text).isEmpty = false) :
    line.tokenize = { line with tokens := some (tokensOf (clean line.text)) } := by
  simp [Line.tokenize, solid]

theorem entries_prepare_numberLines (next : Nat) (texts : List (List Char)) :
    entries (prepare (numberLines next texts)) = (texts.zipIdx next).filterMap Entry.ofSource? := by
  induction texts generalizing next with
  | nil => rfl
  | cons text rest inductionHypothesis =>
      have later : entries ((numberLines (next + 1) rest).map Line.tokenize) = _ :=
        inductionHypothesis (next + 1)
      rw [prepare, numberLines, List.map_cons, List.zipIdx_cons, List.filterMap_cons]
      cases blank : (clean (String.ofList text)).isEmpty with
      | true =>
          have cut : (Line.fresh next (String.ofList text)).tokenize = _ :=
            tokenize_of_blank blank
          rw [cut, entries_cons_of_invalid _ rfl, later]
          simp [Entry.ofSource?, blank]
      | false =>
          have cut : (Line.fresh next (String.ofList text)).tokenize = _ :=
            tokenize_of_not_blank blank
          rw [cut, entries_cons_of_valid _ rfl, later]
          simp [Entry.ofSource?, blank, Line.entry, Line.tokenList, Line.fresh]

/-- Cutting the lines leaves the entries of the source text. -/
theorem entries_preparedLines (text : String) :
    entries (preparedLines text) = sourceEntries text :=
  entries_prepare_numberLines 1 (Text.lines text.toList)

/-- A line that is still valid after it was cut has a first token. -/
theorem Line.tokenized_tokenize {line : Line} (valid : line.tokenize.valid = true) :
    line.tokenize.Tokenized := by
  cases blank : (clean line.text).isEmpty with
  | true =>
      rw [tokenize_of_blank blank] at valid
      exact Bool.noConfusion valid
  | false =>
      rw [tokenize_of_not_blank blank]
      rcases List.exists_cons_of_ne_nil (tokensOf_clean_ne_nil blank) with
        ⟨name, operands, shape⟩
      exact ⟨name, operands, congrArg some shape⟩

theorem tokenized_prepare (lines : List Line) : Tokenized (prepare lines) := by
  intro line member valid
  rcases List.mem_map.mp member with ⟨source, -, rfl⟩
  exact Line.tokenized_tokenize valid

theorem tokenized_preparedLines (text : String) : Tokenized (preparedLines text) :=
  tokenized_prepare (loadLines text)

/-- A pass over the valid lines that gives every line a first token keeps one on
all of them. -/
theorem Tokenized.map {lines : List Line} (tokenized : Tokenized lines) (change : Line -> Line)
    (keeps : forall line, line.valid = true -> line.Tokenized ->
      (change line).valid = true -> (change line).Tokenized) :
    Tokenized (lines.map (onValid change)) := by
  intro line member valid
  rcases List.mem_map.mp member with ⟨source, listed, rfl⟩
  cases taking : source.valid with
  | false =>
      rw [onValid_of_invalid change taking, taking] at valid
      exact Bool.noConfusion valid
  | true =>
      rw [onValid_of_valid change taking] at valid ⊢
      exact keeps source taking (tokenized source listed taking) valid

/-! ## Substitution -/

/-- Replace symbols in a token, one after the other. -/
def substituteToken (symbols : List (String × String)) (token : String) : String :=
  symbols.foldl (fun token symbol => replaceInToken symbol.1 symbol.2 token) token

def Line.substituted (symbols : List (String × String)) (line : Line) : Line :=
  { line with tokens := line.tokens.map (List.map (substituteToken symbols)) }

def Entry.substituted (symbols : List (String × String)) (entry : Entry) : Entry :=
  { entry with tokens := entry.tokens.map (substituteToken symbols) }

theorem Line.entry_substituted (symbols : List (String × String)) (line : Line) :
    (line.substituted symbols).entry = line.entry.substituted symbols := by
  unfold Line.entry Line.tokenList Line.substituted Entry.substituted
  cases line.tokens <;> rfl

theorem Line.Tokenized.substituted {line : Line} (tokenized : line.Tokenized)
    (symbols : List (String × String)) : (line.substituted symbols).Tokenized := by
  rcases tokenized with ⟨name, operands, shape⟩
  refine ⟨substituteToken symbols name, operands.map (substituteToken symbols), ?_⟩
  rw [Line.substituted, shape]
  rfl

theorem Line.substituted_nil (line : Line) : line.substituted [] = line := by
  have own : substituteToken [] = id := rfl
  rw [Line.substituted, own, List.map_id_fun, Option.map_id_fun]
  rfl

theorem onValid_substituted_cons (name value : String) (rest : List (String × String))
    (line : Line) :
    onValid (Line.substituted rest) (onValid (Line.substituted [(name, value)]) line) =
      onValid (Line.substituted ((name, value) :: rest)) line := by
  cases valid : line.valid with
  | false => simp only [onValid_of_invalid _ valid]
  | true =>
      have kept : (line.substituted [(name, value)]).valid = true := valid
      rw [onValid_of_valid _ valid, onValid_of_valid _ kept, onValid_of_valid _ valid]
      unfold Line.substituted
      cases line.tokens with
      | none => rfl
      | some tokens => simp [substituteToken]

theorem Tokenized.substituted {lines : List Line} (tokenized : Tokenized lines)
    (symbols : List (String × String)) :
    Tokenized (lines.map (onValid (Line.substituted symbols))) :=
  tokenized.map _ fun _ _ cut _ => cut.substituted symbols

theorem replaceInLine_eq_ok_iff (name value : String) (line : Line)
    (step : Line × List Finding) :
    replaceInLine name value line = .ok step <-> Exists fun tokens => line.tokens = some tokens ∧
      step = ({ line with tokens := some (tokens.map (replaceInToken name value)) }, []) := by
  unfold replaceInLine
  cases line.tokens with
  | none => simp
  | some tokens => simp [eq_comm]

theorem replaceInLine_eq_error_iff (name value : String) (line : Line) (fault : Fault) :
    replaceInLine name value line = .error fault <->
      line.tokens = none ∧ fault = .untokenized := by
  unfold replaceInLine
  cases line.tokens with
  | none => simp [eq_comm]
  | some tokens => simp

/-- Whatever each of the symbols keeps when it is replaced, the whole table keeps, also when
a replacement stops on the way. -/
theorem substitute_keeps (Holds : List Line -> Prop) {symbols : List (String × String)}
    (keeps : forall symbol, symbol ∈ symbols -> forall lines, Holds lines ->
      Holds (sweep (replaceInLine symbol.1 symbol.2) lines).lines)
    {lines : List Line} (holds : Holds lines) : Holds (substitute symbols lines).lines := by
  induction symbols generalizing lines with
  | nil => exact holds
  | cons symbol rest inductionHypothesis =>
      have swept := keeps symbol List.mem_cons_self lines holds
      unfold substitute
      dsimp only
      split
      · exact swept
      · exact inductionHypothesis
          (fun other member => keeps other (List.mem_cons_of_mem symbol member)) swept

theorem Swept.complete_eq_ok_iff {Note : Type} (swept : Swept Note) (lines : List Line)
    (notes : List Note) :
    swept.complete = .ok (lines, notes) <-> swept.lines = lines ∧ swept.outcome = .ok notes := by
  unfold Swept.complete
  cases swept.outcome <;> simp [Except.map]

theorem Swept.eq_of_complete {Note : Type} {swept : Swept Note} {lines : List Line}
    {notes : List Note} (complete : swept.complete = .ok (lines, notes)) :
    swept = ⟨lines, .ok notes⟩ := by
  rcases (Swept.complete_eq_ok_iff swept lines notes).mp complete with ⟨sameLines, outcome⟩
  cases swept
  rw [Swept.mk.injEq]
  exact ⟨sameLines, outcome⟩

theorem Swept.complete_eq_error_iff {Note : Type} (swept : Swept Note) (fault : Fault) :
    swept.complete = .error fault <-> swept.outcome = .error fault :=
  map_eq_error_iff swept.outcome _ fault

/-- Every line that still takes part has been cut, even if no token was found on it. -/
def LinesCut (lines : List Line) : Prop :=
  forall line, line ∈ lines -> line.valid = true -> Exists fun tokens => line.tokens = some tokens

theorem Tokenized.linesCut {lines : List Line} (tokenized : Tokenized lines) : LinesCut lines := by
  intro line member valid
  rcases tokenized line member valid with ⟨name, operands, shape⟩
  exact ⟨name :: operands, shape⟩

theorem LinesCut.substituted {lines : List Line} (cut : LinesCut lines)
    (symbols : List (String × String)) :
    LinesCut (lines.map (onValid (Line.substituted symbols))) := by
  intro line member valid
  rcases List.mem_map.mp member with ⟨source, listed, rfl⟩
  cases taking : source.valid with
  | false =>
      rw [onValid_of_invalid _ taking, taking] at valid
      exact Bool.noConfusion valid
  | true =>
      rcases cut source listed taking with ⟨tokens, shape⟩
      rw [onValid_of_valid _ taking, Line.substituted, shape]
      exact ⟨_, rfl⟩

/-- Replacing symbols goes through lines that have been cut, and replaces them in every
token of every line that takes part. -/
theorem complete_substitute_of_cut (symbols : List (String × String)) {lines : List Line}
    (cut : LinesCut lines) :
    (substitute symbols lines).complete =
      .ok (lines.map (onValid (Line.substituted symbols)), []) := by
  induction symbols generalizing lines with
  | nil =>
      have own : onValid (Line.substituted []) = id := by
        funext line
        simp [onValid, Line.substituted_nil]
      rw [own, List.map_id_fun]
      rfl
  | cons symbol rest inductionHypothesis =>
      rcases symbol with ⟨name, value⟩
      have visits : forall line, line ∈ lines -> line.valid = true ->
          replaceInLine name value line = .ok (line.substituted [(name, value)], []) := by
        intro line member valid
        rcases cut line member valid with ⟨tokens, shape⟩
        rw [replaceInLine, Line.substituted, shape]
        rfl
      have first := complete_sweep_of_total (replaceInLine name value)
        (Line.substituted [(name, value)]) (fun _ => []) lines visits
      rcases (Swept.complete_eq_ok_iff _ _ _).mp first with ⟨sweptLines, outcome⟩
      rw [substitute, outcome, sweptLines]
      rw [inductionHypothesis (cut.substituted [(name, value)]), List.map_map]
      congr 3
      funext line
      exact onValid_substituted_cons name value rest line

theorem complete_substitute (symbols : List (String × String)) {lines : List Line}
    (tokenized : Tokenized lines) :
    (substitute symbols lines).complete =
      .ok (lines.map (onValid (Line.substituted symbols)), []) :=
  complete_substitute_of_cut symbols tokenized.linesCut

/-! ## Directives -/

namespace Directive

/-- Whether tokens start with the keyword of a directive. -/
def opens (directive : Directive) (tokens : List String) : Bool :=
  tokens.head? == some directive.keyword

def declarations (directive : Directive) (entries : List Entry) : List Declaration :=
  (entries.filter fun entry => directive.opens entry.tokens).map fun entry =>
    directive.declare entry.number entry.tokens.tail

def table (directive : Directive) (entries : List Entry) : SymbolTable :=
  symbolsOf (directive.declarations entries)

/-- The entries that a directive leaves: those it does not open, with its symbols
replaced. -/
def remaining (directive : Directive) (entries : List Entry) : List Entry :=
  (entries.filter fun entry => !directive.opens entry.tokens).map
    (Entry.substituted (directive.table entries).entries)

/-- What a directive with given symbols does to a line that takes part. -/
def settle (directive : Directive) (symbols : List (String × String)) (line : Line) : Line :=
  if directive.opens line.tokenList then line.withdraw else line.substituted symbols

/-- A directive that no entry opens leaves the entries as they are. -/
theorem remaining_of_unopened (directive : Directive) {entries : List Entry}
    (unopened : forall entry, entry ∈ entries -> directive.opens entry.tokens = false) :
    directive.remaining entries = entries := by
  have noDeclarations : directive.declarations entries = [] := by
    rw [declarations, List.map_eq_nil_iff, List.filter_eq_nil_iff]
    intro entry member
    rw [unopened entry member]
    exact Bool.false_ne_true
  have kept : (entries.filter fun entry => !directive.opens entry.tokens) = entries := by
    apply List.filter_eq_self.mpr
    intro entry member
    rw [unopened entry member]
    rfl
  have own : Entry.substituted [] = id := by
    funext entry
    rw [Entry.substituted, show substituteToken [] = id from rfl, List.map_id]
    rfl
  rw [remaining, table, noDeclarations, kept]
  change entries.map (Entry.substituted []) = entries
  rw [own, List.map_id]

theorem visit_of_opens (directive : Directive) {line : Line} (tokenized : line.Tokenized)
    (opened : directive.opens line.tokenList = true) :
    directive.visit line =
      .ok (line.withdraw, [directive.declare line.number line.tokenList.tail]) := by
  rcases tokenized with ⟨name, operands, shape⟩
  have keyword : name = directive.keyword := by
    simpa [opens, Line.tokenList, shape] using opened
  simp [visit, shape, keyword, Line.tokenList]

theorem visit_of_not_opens (directive : Directive) {line : Line} (tokenized : line.Tokenized)
    (closed : directive.opens line.tokenList = false) :
    directive.visit line = .ok (line, []) := by
  rcases tokenized with ⟨name, operands, shape⟩
  have keyword : name ≠ directive.keyword := by
    simpa [opens, Line.tokenList, shape] using closed
  simp [visit, shape, keyword]

/-- Take a line that a directive opens out of the assembly. -/
def strip (directive : Directive) (line : Line) : Line :=
  if directive.opens line.tokenList then line.withdraw else line

theorem strip_of_opens (directive : Directive) {line : Line}
    (opened : directive.opens line.tokenList = true) : directive.strip line = line.withdraw := by
  simp [strip, opened]

theorem strip_of_not_opens (directive : Directive) {line : Line}
    (closed : directive.opens line.tokenList = false) : directive.strip line = line := by
  simp [strip, closed]

/-- A visit goes through on a line with a first token, and strips it. -/
theorem visit_eq_ok_iff (directive : Directive) (line : Line) (step : Line × List Declaration) :
    directive.visit line = .ok step <->
      line.Tokenized ∧ step = (directive.strip line,
        if directive.opens line.tokenList then
          [directive.declare line.number line.tokenList.tail] else []) := by
  have visits : line.Tokenized -> directive.visit line = .ok (directive.strip line,
      if directive.opens line.tokenList then
        [directive.declare line.number line.tokenList.tail] else []) := by
    intro tokenized
    cases opened : directive.opens line.tokenList with
    | false =>
        rw [visit_of_not_opens directive tokenized opened, strip_of_not_opens directive opened]
        rfl
    | true =>
        rw [visit_of_opens directive tokenized opened, strip_of_opens directive opened]
        rfl
  constructor
  · intro visited
    have tokenized : line.Tokenized := by
      unfold visit at visited
      split at visited
      · cases visited
      · cases visited
      · next first operands shape => exact ⟨first, operands, shape⟩
    rw [visits tokenized] at visited
    exact ⟨tokenized, (Except.ok.inj visited).symm⟩
  · rintro ⟨tokenized, rfl⟩
    exact visits tokenized

theorem declarations_entries_cons (directive : Directive) (line : Line) (rest : List Line) :
    directive.declarations (entries (line :: rest)) =
      (if line.valid && directive.opens line.tokenList then
        [directive.declare line.number line.tokenList.tail] else []) ++
        directive.declarations (entries rest) := by
  cases valid : line.valid with
  | false =>
      rw [entries_cons_of_invalid rest valid]
      rfl
  | true =>
      rw [entries_cons_of_valid rest valid]
      unfold declarations
      cases opened : directive.opens line.tokenList <;> simp [Line.entry, opened]

/-- Collecting goes through and takes the opened lines out. -/
theorem complete_collect (directive : Directive) {lines : List Line}
    (tokenized : Tokenized lines) :
    (directive.collect lines).complete =
      .ok (lines.map (onValid directive.strip), directive.declarations (entries lines)) := by
  let declared (line : Line) : List Declaration :=
    if directive.opens line.tokenList then
      [directive.declare line.number line.tokenList.tail] else []
  have visits : forall line, line ∈ lines -> line.valid = true ->
      directive.visit line = .ok (directive.strip line, declared line) := by
    intro line member valid
    exact (visit_eq_ok_iff directive line _).mpr ⟨tokenized line member valid, rfl⟩
  have collected : (validLines lines).flatMap declared =
      directive.declarations (entries lines) := by
    clear visits tokenized
    induction lines with
    | nil => rfl
    | cons line rest inductionHypothesis =>
        rw [declarations_entries_cons, ← inductionHypothesis]
        cases valid : line.valid <;> simp [validLines, valid, declared]
  rw [← collected]
  exact complete_sweep_of_total directive.visit directive.strip declared lines visits

theorem onValid_substituted_strip (directive : Directive) (symbols : List (String × String))
    (line : Line) :
    onValid (Line.substituted symbols) (onValid directive.strip line) =
      onValid (directive.settle symbols) line := by
  cases valid : line.valid with
  | false => simp only [onValid_of_invalid _ valid]
  | true =>
      rw [onValid_of_valid _ valid, onValid_of_valid _ valid]
      cases opened : directive.opens line.tokenList with
      | false =>
          rw [strip_of_not_opens directive opened, onValid_of_valid _ valid]
          simp [settle, opened]
      | true =>
          rw [strip_of_opens directive opened, onValid_of_invalid _ rfl]
          simp [settle, opened]

end Directive

theorem Tokenized.strip {lines : List Line} (tokenized : Tokenized lines)
    (directive : Directive) : Tokenized (lines.map (onValid directive.strip)) := by
  refine tokenized.map _ fun line _ cut valid => ?_
  cases opened : directive.opens line.tokenList with
  | false =>
      rw [directive.strip_of_not_opens opened]
      exact cut
  | true =>
      rw [directive.strip_of_opens opened] at valid
      exact Bool.noConfusion valid

theorem Tokenized.settle {lines : List Line} (tokenized : Tokenized lines)
    (directive : Directive) (symbols : List (String × String)) :
    Tokenized (lines.map (onValid (directive.settle symbols))) := by
  have both := (tokenized.strip directive).substituted symbols
  rw [List.map_map] at both
  have same : onValid (Line.substituted symbols) ∘ onValid directive.strip =
      onValid (directive.settle symbols) :=
    funext (directive.onValid_substituted_strip symbols)
  rwa [same] at both

/-- Applying a directive goes through; the lines, the symbols and the findings it
leaves are those of its entries. -/
theorem applyDirective_eq (directive : Directive) {lines : List Line}
    (tokenized : Tokenized lines) :
    applyDirective directive lines = .ok
      { lines := lines.map (onValid
          (directive.settle (directive.table (entries lines)).entries))
        symbols := directive.table (entries lines)
        findings := findingsOf (directive.declarations (entries lines)) } := by
  have collected := directive.complete_collect tokenized
  have substituted := complete_substitute (directive.table (entries lines)).entries
    (tokenized.strip directive)
  have same : onValid (Line.substituted (directive.table (entries lines)).entries) ∘
      onValid directive.strip =
        onValid (directive.settle (directive.table (entries lines)).entries) :=
    funext (directive.onValid_substituted_strip _)
  rw [List.map_map, same] at substituted
  unfold Directive.table at substituted ⊢
  simp only [applyDirective, collected, substituted, bind, Except.bind, pure, Except.pure]

/-- The entries after a directive are the ones it does not open, with its symbols
replaced. -/
theorem entries_settle (directive : Directive) (symbols : List (String × String))
    (lines : List Line) :
    entries (lines.map (onValid (directive.settle symbols))) =
      ((entries lines).filter fun entry => !directive.opens entry.tokens).map
        (Entry.substituted symbols) := by
  induction lines with
  | nil => rfl
  | cons line rest inductionHypothesis =>
      rw [List.map_cons]
      cases valid : line.valid with
      | false =>
          rw [onValid_of_invalid _ valid, entries_cons_of_invalid _ valid,
            entries_cons_of_invalid _ valid, inductionHypothesis]
      | true =>
          rw [onValid_of_valid _ valid, entries_cons_of_valid rest valid]
          cases opened : directive.opens line.tokenList with
          | false =>
              have kept : directive.settle symbols line = line.substituted symbols := by
                simp [Directive.settle, opened]
              have taking : (line.substituted symbols).valid = true := valid
              rw [kept, entries_cons_of_valid _ taking, inductionHypothesis,
                List.filter_cons_of_pos (by simp [Line.entry, opened]), List.map_cons,
                Line.entry_substituted]
          | true =>
              have taken : directive.settle symbols line = line.withdraw := by
                simp [Directive.settle, opened]
              rw [taken, entries_cons_of_invalid _ rfl, inductionHypothesis,
                List.filter_cons_of_neg (by simp [Line.entry, opened])]

end NibbleMachine
