import NibbleMachine.Proofs.Command
import NibbleMachine.Proofs.Symbols

namespace NibbleMachine

/-!
# Resolving tokens into orders

Resolving a line reads an order, a command with its operands, from the tokens,
or finds the one problem for which the line is dropped.  Whether the name is an
abbreviation or a command is seen in the tokens only: afterwards a line that
was kept shows the tokens of its order, and nothing tells how it was written.

The second half puts the passes before encoding together.  None of them faults,
so an assembly is decided by the encoding of the laid out lines alone, and the
lines that reach it are described by the entries that both directives leave.
-/

/-! ## Orders -/

def Order.tokens (order : Order) : List String :=
  order.command.mnemonic :: order.operands

/-- The order that starts with the name of a command. -/
def namedOrder : List String -> Except Problem Order
  | [] => .error .unknownCommand
  | name :: operands =>
      match Command.ofMnemonic? name with
      | some command => .ok ⟨command, operands⟩
      | none => .error .unknownCommand

/-- The order that tokens stand for, or the problem with them. -/
def orderOf : List String -> Except Problem Order
  | [] => .error .unknownCommand
  | name :: operands =>
      match Abbreviation.ofMnemonic? name with
      | none => namedOrder (name :: operands)
      | some abbreviation =>
          match abbreviation.expand? operands with
          | none => .error (.abbreviationArity abbreviation.arity operands.length)
          | some expanded => namedOrder expanded

theorem namedOrder_tokens (order : Order) : namedOrder order.tokens = .ok order := by
  simp [namedOrder, Order.tokens, Command.ofMnemonic?_mnemonic]

theorem namedOrder_eq_ok_iff (tokens : List String) (order : Order) :
    namedOrder tokens = .ok order <-> tokens = order.tokens := by
  constructor
  · intro named
    cases tokens with
    | nil => cases named
    | cons name operands =>
        cases found : Command.ofMnemonic? name with
        | none => simp [namedOrder, found] at named
        | some command =>
            have written := (Command.ofMnemonic?_eq_some_iff name command).mp found
            simp only [namedOrder, found, Except.ok.injEq] at named
            rw [← named, Order.tokens, written]
  · rintro rfl
    exact namedOrder_tokens order

/-- An expansion is the order of a calculation. -/
theorem Abbreviation.expand?_eq_some {abbreviation : Abbreviation}
    {operands expanded : List String} (expands : abbreviation.expand? operands = some expanded) :
    Exists fun op : CalcOp => Exists fun first => Exists fun second => Exists fun third =>
      expanded = (Order.mk (.calculate op) [first, second, third]).tokens := by
  unfold Abbreviation.expand? at expands
  split at expands
  · exact ⟨.add, _, _, _, (Option.some.inj expands).symm⟩
  · exact ⟨.bgt, _, _, _, (Option.some.inj expands).symm⟩
  · exact ⟨.bge, _, _, _, (Option.some.inj expands).symm⟩
  · exact ⟨.beq, _, _, _, (Option.some.inj expands).symm⟩
  · exact ⟨.add, _, _, _, (Option.some.inj expands).symm⟩
  · exact ⟨.bge, _, _, _, (Option.some.inj expands).symm⟩
  · exact ⟨.bgt, _, _, _, (Option.some.inj expands).symm⟩
  · exact ⟨.bge, _, _, _, (Option.some.inj expands).symm⟩
  · exact ⟨.bgt, _, _, _, (Option.some.inj expands).symm⟩
  · exact ⟨.sub, _, _, _, (Option.some.inj expands).symm⟩
  · cases expands

/-- Tokens stand for an order when they are its own tokens or an abbreviation
that expands to them. -/
theorem orderOf_eq_ok_iff (tokens : List String) (order : Order) :
    orderOf tokens = .ok order <->
      tokens = order.tokens ∨
        Exists fun abbreviation : Abbreviation => Exists fun operands =>
          tokens = abbreviation.mnemonic :: operands ∧
            abbreviation.expand? operands = some order.tokens := by
  constructor
  · intro ordered
    cases tokens with
    | nil => cases ordered
    | cons name operands =>
        cases found : Abbreviation.ofMnemonic? name with
        | none =>
            simp only [orderOf, found] at ordered
            exact Or.inl ((namedOrder_eq_ok_iff _ _).mp ordered)
        | some abbreviation =>
            cases expands : abbreviation.expand? operands with
            | none => simp [orderOf, found, expands] at ordered
            | some expanded =>
                simp only [orderOf, found, expands] at ordered
                refine Or.inr ⟨abbreviation, operands, ?_, ?_⟩
                · rw [(Abbreviation.ofMnemonic?_eq_some_iff name abbreviation).mp found]
                · rw [expands, (namedOrder_eq_ok_iff _ _).mp ordered]
  · intro written
    rcases written with rfl | ⟨abbreviation, operands, rfl, expands⟩
    · rw [Order.tokens, orderOf, Abbreviation.ofMnemonic?_command]
      exact namedOrder_tokens order
    · simp only [orderOf, Abbreviation.ofMnemonic?_mnemonic, expands]
      exact namedOrder_tokens order

/-- An abbreviation with the right number of operands stands for the calculation
that it expands to. -/
theorem Abbreviation.exists_order {abbreviation : Abbreviation} {operands : List String}
    (count : operands.length = abbreviation.arity) :
    Exists fun op : CalcOp => Exists fun first => Exists fun second => Exists fun third =>
      abbreviation.expand? operands =
          some (Order.mk (.calculate op) [first, second, third]).tokens ∧
        orderOf (abbreviation.mnemonic :: operands) =
          .ok ⟨.calculate op, [first, second, third]⟩ := by
  have isSome := (abbreviation.expand?_isSome_iff operands).mpr count
  rcases Option.isSome_iff_exists.mp isSome with ⟨expanded, expands⟩
  rcases Abbreviation.expand?_eq_some expands with ⟨op, first, second, third, rfl⟩
  refine ⟨op, first, second, third, expands, ?_⟩
  exact (orderOf_eq_ok_iff _ _).mpr (Or.inr ⟨abbreviation, operands, rfl, expands⟩)

theorem orderOf_tokens (order : Order) : orderOf order.tokens = .ok order :=
  (orderOf_eq_ok_iff _ _).mpr (Or.inl rfl)

/-! ## Resolving lines -/

namespace Line

def resolved (line : Line) : Line :=
  match orderOf line.tokenList with
  | .ok order => { line with tokens := some order.tokens, order := some order }
  | .error _ => line.withdraw

def resolveFindings (line : Line) : List Finding :=
  match orderOf line.tokenList with
  | .ok _ => []
  | .error problem => [.atLine line.number problem]

theorem resolved_of_order {line : Line} {order : Order}
    (ordered : orderOf line.tokenList = .ok order) :
    line.resolved = { line with tokens := some order.tokens, order := some order } := by
  simp [resolved, ordered]

theorem resolved_of_problem {line : Line} {problem : Problem}
    (refused : orderOf line.tokenList = .error problem) : line.resolved = line.withdraw := by
  simp [resolved, refused]

theorem resolveFindings_eq_nil_iff (line : Line) :
    line.resolveFindings = [] <-> Exists fun order => orderOf line.tokenList = .ok order := by
  unfold resolveFindings
  cases orderOf line.tokenList <;> simp

end Line

theorem resolveTokens_eq (line : Line) (tokens : List String) :
    resolveTokens line tokens =
      match namedOrder tokens with
      | .ok order => ({ line with order := some order }, [])
      | .error problem => (line.withdraw, [.atLine line.number problem]) := by
  cases tokens with
  | nil => rfl
  | cons name operands =>
      cases found : Command.ofMnemonic? name <;>
        simp [resolveTokens, namedOrder, found]

theorem resolveLine_eq {line : Line} (tokenized : line.Tokenized) :
    resolveLine line = .ok (line.resolved, line.resolveFindings) := by
  rcases tokenized with ⟨name, operands, shape⟩
  have list : line.tokenList = name :: operands := by simp [Line.tokenList, shape]
  unfold resolveLine Line.resolved Line.resolveFindings
  rw [shape, list]
  cases found : Abbreviation.ofMnemonic? name with
  | none =>
      simp only [orderOf, found, resolveTokens_eq]
      cases named : namedOrder (name :: operands) with
      | error problem => rfl
      | ok order =>
          -- the tokens are already those of the order
          have written := (namedOrder_eq_ok_iff _ _).mp named
          simp only [← written, ← shape]
  | some abbreviation =>
      cases expands : abbreviation.expand? operands with
      | none => simp [orderOf, found, expands]
      | some expanded =>
          rcases Abbreviation.expand?_eq_some expands with ⟨op, first, second, third, rfl⟩
          simp only [orderOf, found, expands, resolveTokens_eq, namedOrder_tokens]

/-- Resolving goes through on a line with a first token. -/
theorem resolveLine_eq_ok_iff (line : Line) (step : Line × List Finding) :
    resolveLine line = .ok step <->
      line.Tokenized ∧ step = (line.resolved, line.resolveFindings) := by
  constructor
  · intro visited
    have tokenized : line.Tokenized := by
      unfold resolveLine at visited
      split at visited
      · cases visited
      · cases visited
      · next name operands shape => exact ⟨name, operands, shape⟩
    rw [resolveLine_eq tokenized] at visited
    exact ⟨tokenized, (Except.ok.inj visited).symm⟩
  · rintro ⟨tokenized, rfl⟩
    exact resolveLine_eq tokenized

/-- Resolving goes through; it drops the lines without an order. -/
theorem complete_resolveCommands {lines : List Line} (tokenized : Tokenized lines) :
    (resolveCommands lines).complete =
      .ok (lines.map (onValid Line.resolved),
        (validLines lines).flatMap Line.resolveFindings) :=
  complete_sweep_of_total resolveLine Line.resolved Line.resolveFindings lines
    fun line member valid => resolveLine_eq (tokenized line member valid)

/-! ## The passes before encoding -/

/-- The entries that the defines of a text leave. -/
def definedEntries (text : String) : List Entry :=
  Directive.define.remaining (sourceEntries text)

/-- The entries that both directives of a text leave. -/
def commandEntries (text : String) : List Entry :=
  Directive.label.remaining (definedEntries text)

def definedLines (text : String) : List Line :=
  (preparedLines text).map (onValid
    (Directive.define.settle (Directive.define.table (sourceEntries text)).entries))

def labelledLines (text : String) : List Line :=
  (definedLines text).map (onValid
    (Directive.label.settle (Directive.label.table (definedEntries text)).entries))

def resolvedLines (text : String) : List Line :=
  (labelledLines text).map (onValid Line.resolved)

/-- The lines of a text as they are encoded. -/
def placedLines (text : String) : List Line :=
  layout (resolvedLines text)

/-- The findings on a text before encoding. -/
def earlyFindings (text : String) : List Finding :=
  findingsOf (Directive.define.declarations (sourceEntries text)) ++
    findingsOf (Directive.label.declarations (definedEntries text)) ++
    (validLines (labelledLines text)).flatMap Line.resolveFindings

/-- The assembly of a text, given its encoded lines and the findings on them. -/
def encodedAssembly (text : String) (lines : List Line) (findings : List Finding) : Assembly where
  lines := lines
  defines := Directive.define.table (sourceEntries text)
  labels := Directive.label.table (definedEntries text)
  image := buildImage lines
  findings := earlyFindings text ++ findings ++ imageFindings lines

theorem tokenized_definedLines (text : String) : Tokenized (definedLines text) :=
  (tokenized_preparedLines text).settle _ _

theorem tokenized_labelledLines (text : String) : Tokenized (labelledLines text) :=
  (tokenized_definedLines text).settle _ _

theorem entries_definedLines (text : String) :
    entries (definedLines text) = definedEntries text := by
  rw [definedLines, entries_settle, entries_preparedLines]
  rfl

theorem entries_labelledLines (text : String) :
    entries (labelledLines text) = commandEntries text := by
  rw [labelledLines, entries_settle, entries_definedLines]
  rfl

/-- An assembly is decided by the encoding of the laid out lines. -/
theorem assemble_eq (text : String) :
    assemble text = (encodeLines (placedLines text)).complete.map fun encoded =>
      encodedAssembly text encoded.1 encoded.2 := by
  have defined : applyDirective .define (preparedLines text) =
      .ok ⟨definedLines text, Directive.define.table (sourceEntries text),
        findingsOf (Directive.define.declarations (sourceEntries text))⟩ := by
    rw [applyDirective_eq .define (tokenized_preparedLines text), entries_preparedLines]
    rfl
  have labelled : applyDirective .label (definedLines text) =
      .ok ⟨labelledLines text, Directive.label.table (definedEntries text),
        findingsOf (Directive.label.declarations (definedEntries text))⟩ := by
    rw [applyDirective_eq .label (tokenized_definedLines text), entries_definedLines]
    rfl
  have resolved : (resolveCommands (labelledLines text)).complete =
      .ok (resolvedLines text,
        (validLines (labelledLines text)).flatMap Line.resolveFindings) :=
    complete_resolveCommands (tokenized_labelledLines text)
  unfold placedLines
  simp only [assemble, defined, labelled, resolved, bind, Except.bind]
  cases (encodeLines (layout (resolvedLines text))).complete with
  | error fault => rfl
  | ok encoded => rfl

theorem exists_assembly_of_map {Reading : Type} (text : String) (read : Assembly -> Reading)
    {reading : Reading} (computed : (assemble text).toOption.map read = some reading) :
    Exists fun assembly => assemble text = .ok assembly ∧ read assembly = reading := by
  cases result : assemble text with
  | error fault =>
      rw [result] at computed
      cases computed
  | ok assembly =>
      rw [result] at computed
      exact ⟨assembly, rfl, Option.some.inj computed⟩

/-- An assembly that returns has taken an encoding step at every laid out line. -/
theorem assemble_eq_ok_iff (text : String) (assembly : Assembly) :
    assemble text = .ok assembly <->
      Exists fun steps : List (Line × List Finding) =>
        StepsAt (encodeLine (placedLines text)) (placedLines text) steps ∧
          assembly = encodedAssembly text (steps.map Prod.fst) (steps.flatMap Prod.snd) := by
  rw [assemble_eq, encodeLines]
  constructor
  · intro returned
    cases complete : (sweep (encodeLine (placedLines text)) (placedLines text)).complete with
    | error fault => simp [complete, Except.map] at returned
    | ok encoded =>
        rcases (complete_sweep_eq_ok_iff _ _ _ _).mp complete with ⟨steps, taken, lines, notes⟩
        refine ⟨steps, taken, ?_⟩
        rw [← lines, ← notes]
        simpa [complete, Except.map] using returned.symm
  · rintro ⟨steps, taken, rfl⟩
    have complete := (complete_sweep_eq_ok_iff (encodeLine (placedLines text))
      (placedLines text) _ _).mpr ⟨steps, taken, rfl, rfl⟩
    rw [complete]
    rfl

end NibbleMachine
