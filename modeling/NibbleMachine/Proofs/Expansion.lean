import NibbleMachine.Proofs.Labels
import NibbleMachine.Proofs.Program
import NibbleMachine.Proofs.SourceText

namespace NibbleMachine

/-!
# Abbreviations and their expansions

An abbreviation may be written out.  Replacing a line that uses one by the line
of its expansion leaves everything as it was but the text of that line.

An abbreviation is expanded after the symbols have been replaced, and written
out it is expanded before.  The two agree because expansion only rearranges the
operands and adds tokens of its own, so it commutes with any replacement that
leaves those alone.  These are the name of the abbreviation, the name of the
command it stands for and register zero.

The argument follows the line through the passes.  Neither version of it opens a
directive, so both texts have the same tables of symbols, and the other lines go
the same way; the two versions meet when they are resolved.
-/

/-! ## Lists that differ at one place -/

/-- Two lists that differ at one place only. -/
def Replaced {Item : Type} (first second : Item) (items others : List Item) : Prop :=
  Exists fun front => Exists fun back =>
    items = front ++ first :: back ∧ others = front ++ second :: back

namespace Replaced

variable {Item Other : Type} {first second : Item} {items others : List Item}

theorem map (change : Item -> Other) (replaced : Replaced first second items others) :
    Replaced (change first) (change second) (items.map change) (others.map change) := by
  rcases replaced with ⟨front, back, rfl, rfl⟩
  refine ⟨front.map change, back.map change, ?_, ?_⟩
  · rw [List.map_append, List.map_cons]
  · rw [List.map_append, List.map_cons]

theorem filter (keep : Item -> Bool) (replaced : Replaced first second items others)
    (kept : keep first = true) (alsoKept : keep second = true) :
    Replaced first second (items.filter keep) (others.filter keep) := by
  rcases replaced with ⟨front, back, rfl, rfl⟩
  refine ⟨front.filter keep, back.filter keep, ?_, ?_⟩
  · rw [List.filter_append, List.filter_cons_of_pos kept]
  · rw [List.filter_append, List.filter_cons_of_pos alsoKept]

theorem map_eq {read : Item -> Other} (replaced : Replaced first second items others)
    (same : read second = read first) : others.map read = items.map read := by
  rcases replaced with ⟨front, back, rfl, rfl⟩
  rw [List.map_append, List.map_cons, List.map_append, List.map_cons, same]

theorem flatMap_eq {read : Item -> List Other} (replaced : Replaced first second items others)
    (same : read second = read first) : others.flatMap read = items.flatMap read := by
  rcases replaced with ⟨front, back, rfl, rfl⟩
  rw [List.flatMap_append, List.flatMap_cons, List.flatMap_append, List.flatMap_cons, same]

end Replaced

/-! ## A line on its way -/

theorem numberLines_append (next : Nat) (front back : List (List Char)) :
    numberLines next (front ++ back) =
      numberLines next front ++ numberLines (next + front.length) back := by
  induction front generalizing next with
  | nil => rfl
  | cons text rest inductionHypothesis =>
      have shifted : next + 1 + rest.length = next + (rest.length + 1) := by omega
      rw [List.cons_append, numberLines, numberLines, inductionHypothesis, List.length_cons,
        List.cons_append, shifted]

section

variable {before after : String}

/-- Texts that differ in one line that is not blank are cut alike but for that
line. -/
theorem replaced_preparedLines {line other : List Char}
    (replaced : Replaced line other (Text.lines before.toList) (Text.lines after.toList))
    {tokens otherTokens : List String}
    (cut : tokensOf (clean (String.ofList line)) = tokens) (solid : tokens ≠ [])
    (otherCut : tokensOf (clean (String.ofList other)) = otherTokens)
    (otherSolid : otherTokens ≠ []) :
    Exists fun number =>
      Replaced (Line.cut number (String.ofList line) tokens)
        (Line.cut number (String.ofList other) otherTokens) (preparedLines before)
        (preparedLines after) := by
  rcases replaced with ⟨front, back, split, otherSplit⟩
  refine ⟨1 + front.length, prepare (numberLines 1 front),
    prepare (numberLines (1 + front.length + 1) back), ?_, ?_⟩
  · rw [preparedLines, loadLines, split, numberLines_append, numberLines, prepare,
      List.map_append, List.map_cons, tokenize_fresh cut solid]
    rfl
  · rw [preparedLines, loadLines, otherSplit, numberLines_append, numberLines, prepare,
      List.map_append, List.map_cons, tokenize_fresh otherCut otherSolid]
    rfl

end

section

variable {lines others : List Line} {number : Nat} {text other : String}
  {tokens otherTokens : List String}

theorem Replaced.map_entry
    (replaced : Replaced (Line.cut number text tokens) (Line.cut number other otherTokens) lines
      others) :
    Replaced ⟨number, tokens⟩ ⟨number, otherTokens⟩ (entries lines) (entries others) :=
  (replaced.filter Line.valid rfl rfl).map Line.entry

/-- A directive that neither version opens declares the same in both. -/
theorem Replaced.declarations {first second : Entry} {entries others : List Entry}
    (replaced : Replaced first second entries others) (directive : Directive)
    (closed : directive.opens first.tokens = false)
    (alsoClosed : directive.opens second.tokens = false) :
    directive.declarations others = directive.declarations entries := by
  rcases replaced with ⟨front, back, rfl, rfl⟩
  simp [Directive.declarations, closed, alsoClosed]

theorem settle_cut (directive : Directive) (symbols : List (String × String))
    (closed : directive.opens tokens = false) :
    onValid (directive.settle symbols) (Line.cut number text tokens) =
      Line.cut number text (tokens.map (substituteToken symbols)) := by
  have taking : (Line.cut number text tokens).valid = true := rfl
  have unopened : directive.opens (Line.cut number text tokens).tokenList = false := closed
  rw [onValid_of_valid _ taking, Directive.settle, unopened, if_neg Bool.false_ne_true]
  rfl

/-- A directive that neither version opens replaces the same symbols in both. -/
theorem Replaced.settle
    (replaced : Replaced (Line.cut number text tokens) (Line.cut number other otherTokens) lines
      others)
    (directive : Directive) (symbols : List (String × String))
    (closed : directive.opens tokens = false) (alsoClosed : directive.opens otherTokens = false) :
    Replaced (Line.cut number text (tokens.map (substituteToken symbols)))
      (Line.cut number other (otherTokens.map (substituteToken symbols)))
      (lines.map (onValid (directive.settle symbols)))
      (others.map (onValid (directive.settle symbols))) := by
  rw [← settle_cut directive symbols closed, ← settle_cut directive symbols alsoClosed]
  exact replaced.map _

theorem resolved_cut {order : Order} (ordered : orderOf tokens = .ok order) :
    (onValid Line.resolved (Line.cut number text tokens)).withoutText =
      { Line.fresh number "" with tokens := some order.tokens, order := some order } := by
  rw [onValid_resolved_cut ordered]
  rfl

theorem resolveFindings_cut {order : Order} (ordered : orderOf tokens = .ok order) :
    (Line.cut number text tokens).resolveFindings = [] :=
  (Line.resolveFindings_eq_nil_iff _).mpr ⟨order, ordered⟩

end

/-! ## Expansion and replacement -/

/-- Expanding rearranges operands, so it commutes with replacing something in them,
unless that touches the tokens that the expansion adds. -/
theorem Abbreviation.expand?_map {abbreviation : Abbreviation} {operands rest : List String}
    {real : String} (expands : abbreviation.expand? operands = some (real :: rest))
    (replace : String -> String) (keepsReal : replace real = real)
    (keepsZero : replace "r0" = "r0") :
    abbreviation.expand? (operands.map replace) = some ((real :: rest).map replace) := by
  unfold Abbreviation.expand? at expands
  split at expands
  all_goals cases expands
  all_goals simp only [List.map_cons, List.map_nil, Abbreviation.expand?, keepsReal, keepsZero]

theorem orderOf_expansion {abbreviation : Abbreviation} {operands expanded : List String}
    (expands : abbreviation.expand? operands = some expanded) :
    Exists fun order =>
      orderOf (abbreviation.mnemonic :: operands) = .ok order ∧ orderOf expanded = .ok order := by
  rcases Abbreviation.expand?_eq_some expands with ⟨op, first, second, third, rfl⟩
  refine ⟨⟨.calculate op, [first, second, third]⟩, ?_, orderOf_tokens _⟩
  exact (orderOf_eq_ok_iff _ _).mpr (Or.inr ⟨abbreviation, operands, rfl, expands⟩)

theorem Abbreviation.opens_eq_false (abbreviation : Abbreviation) (operands : List String)
    (directive : Directive) : directive.opens (abbreviation.mnemonic :: operands) = false := by
  cases abbreviation <;> cases directive <;> rfl

/-- The expansion of an abbreviation opens no directive. -/
theorem opens_expansion {abbreviation : Abbreviation} {operands expanded : List String}
    (expands : abbreviation.expand? operands = some expanded) (directive : Directive) :
    directive.opens expanded = false := by
  rcases Abbreviation.expand?_eq_some expands with ⟨op, first, second, third, rfl⟩
  exact Order.opens_tokens ⟨.calculate op, [first, second, third]⟩ directive

/-- Behind the name of its command, an expansion has operands of the abbreviation
and register zero. -/
theorem Abbreviation.mem_of_mem_expansion {abbreviation : Abbreviation}
    {operands rest : List String} {real : String}
    (expands : abbreviation.expand? operands = some (real :: rest)) {token : String}
    (member : token ∈ rest) : token ∈ operands ∨ token = "r0" := by
  unfold Abbreviation.expand? at expands
  split at expands
  all_goals cases expands
  all_goals
    simp only [List.mem_cons, List.not_mem_nil, or_false] at member ⊢
    grind

/-- A directive whose names leave an expansion alone declares the same in both
texts, and the line is again an abbreviation in one and its expansion in the
other. -/
theorem Replaced.settle_expansion {lines others : List Line} {number : Nat} {text other : String}
    {abbreviation : Abbreviation} {operands rest : List String} {real : String}
    (replaced : Replaced (Line.cut number text (abbreviation.mnemonic :: operands))
      (Line.cut number other (real :: rest)) lines others)
    (expands : abbreviation.expand? operands = some (real :: rest)) (directive : Directive)
    (free : forall name, name ∈ (directive.table (entries lines)).entries.map Prod.fst ->
      ¬ Occurs name abbreviation.mnemonic ∧ ¬ Occurs name real ∧ ¬ Occurs name "r0") :
    directive.declarations (entries others) = directive.declarations (entries lines) ∧
      Exists fun replacedOperands => Exists fun replacedRest =>
        abbreviation.expand? replacedOperands = some (real :: replacedRest) ∧
          Replaced (Line.cut number text (abbreviation.mnemonic :: replacedOperands))
            (Line.cut number other (real :: replacedRest))
            (lines.map (onValid
              (directive.settle (directive.table (entries lines)).entries)))
            (others.map (onValid
              (directive.settle (directive.table (entries others)).entries))) := by
  have closed := abbreviation.opens_eq_false operands directive
  have alsoClosed := opens_expansion expands directive
  have declarations := replaced.map_entry.declarations directive closed alsoClosed
  have table : directive.table (entries others) = directive.table (entries lines) :=
    congrArg symbolsOf declarations
  have name := substituteToken_of_not_occurs fun name listed => (free name listed).1
  have command := substituteToken_of_not_occurs fun name listed => (free name listed).2.1
  have zero := substituteToken_of_not_occurs fun name listed => (free name listed).2.2
  have settled := replaced.settle directive (directive.table (entries lines)).entries closed
    alsoClosed
  rw [List.map_cons, List.map_cons, name, command] at settled
  rw [table]
  refine ⟨declarations, _, _, ?_, settled⟩
  rw [Abbreviation.expand?_map expands _ command zero, List.map_cons, command]

/-! ## Writing an abbreviation out -/

def symbolNames (text : String) : List String :=
  (Directive.define.table (sourceEntries text)).entries.map Prod.fst ++
    (Directive.label.table (definedEntries text)).entries.map Prod.fst

theorem assemble_of_replaced_expansion {before after : String} {number : Nat}
    {text other : String} {abbreviation : Abbreviation} {operands rest : List String}
    {real : String}
    (prepared : Replaced (Line.cut number text (abbreviation.mnemonic :: operands))
      (Line.cut number other (real :: rest)) (preparedLines before) (preparedLines after))
    (expands : abbreviation.expand? operands = some (real :: rest))
    (free : forall name, name ∈ symbolNames before ->
      ¬ Occurs name abbreviation.mnemonic ∧ ¬ Occurs name real ∧ ¬ Occurs name "r0") :
    (assemble after).map Assembly.withoutTexts = (assemble before).map Assembly.withoutTexts := by
  have afterDefines := prepared.settle_expansion expands .define
  rw [entries_preparedLines, entries_preparedLines] at afterDefines
  rcases afterDefines fun name listed => free name (List.mem_append_left _ listed) with
    ⟨defines, definedOperands, definedRest, definedExpands, defined⟩
  have definedReplaced : Replaced _ _ (definedLines before) (definedLines after) := defined
  have afterLabels := definedReplaced.settle_expansion definedExpands .label
  rw [entries_definedLines, entries_definedLines] at afterLabels
  rcases afterLabels fun name listed => free name (List.mem_append_right _ listed) with
    ⟨labels, _, _, labelledExpands, labelled⟩
  rcases orderOf_expansion labelledExpands with ⟨order, ordered, alsoOrdered⟩
  apply assemble_withoutTexts_congr
  · rw [resolvedLines, resolvedLines, List.map_map, List.map_map]
    apply labelled.map_eq
    exact (resolved_cut alsoOrdered).trans (resolved_cut ordered).symm
  · exact congrArg symbolsOf defines
  · exact congrArg symbolsOf labels
  · have unresolved := (labelled.filter Line.valid rfl rfl).flatMap_eq
      ((resolveFindings_cut alsoOrdered).trans (resolveFindings_cut ordered).symm)
    unfold earlyFindings
    rw [defines, labels]
    exact congrArg _ unresolved

/-- The expansion of an abbreviation of clean tokens is cut from its line. -/
theorem tokensOf_clean_expansion {line : String} {abbreviation : Abbreviation}
    {operands rest : List String} {op : CalcOp}
    (cut : tokensOf (clean line) = abbreviation.mnemonic :: operands)
    (expands : abbreviation.expand? operands = some (op.mnemonic :: rest)) :
    tokensOf (clean (String.intercalate " " (op.mnemonic :: rest))) = op.mnemonic :: rest := by
  apply tokensOf_clean_joined
  intro token member
  rcases List.mem_cons.mp member with rfl | behind
  · exact op.isPlainToken_mnemonic.isCleanToken
  · rcases Abbreviation.mem_of_mem_expansion expands behind with operand | rfl
    · apply isCleanToken_of_mem
      rw [cut]
      exact List.mem_cons_of_mem _ operand
    · exact (isPlainToken_registerText Nibble.zero).isCleanToken

/-- A line that uses an abbreviation with the right number of operands may be
replaced by the line of its expansion.  When no symbol touches the name of the
abbreviation, that of the command or register zero, the whole outcome is the
same: the fault, or the image, the findings, the symbols and everything about
every line but its text. -/
theorem abbreviation_is_its_expansion (before : String) (line : List Char)
    (abbreviation : Abbreviation) (operands : List String)
    (cut : tokensOf (clean (String.ofList line)) = abbreviation.mnemonic :: operands)
    (count : operands.length = abbreviation.arity) :
    Exists fun real => Exists fun rest =>
      Abbreviation.expandTokens (abbreviation.mnemonic :: operands) = .ok (some (real :: rest)) ∧
        ((forall name, name ∈ symbolNames before ->
            ¬ Occurs name abbreviation.mnemonic ∧ ¬ Occurs name real ∧ ¬ Occurs name "r0") ->
          forall after,
            Replaced line (String.intercalate " " (real :: rest)).toList
                (Text.lines before.toList) (Text.lines after.toList) ->
              (assemble after).map Assembly.withoutTexts =
                (assemble before).map Assembly.withoutTexts) := by
  rcases Abbreviation.exists_order count with ⟨op, first, second, third, expands, -⟩
  refine ⟨op.mnemonic, [first, second, third], ?_, ?_⟩
  · rw [Abbreviation.expandTokens, Abbreviation.ofMnemonic?_mnemonic]
    exact congrArg Except.ok expands
  · intro free after replaced
    have otherCut := tokensOf_clean_expansion cut expands
    rw [← String.ofList_toList (s := String.intercalate " " _)] at otherCut
    rcases replaced_preparedLines replaced cut (List.cons_ne_nil _ _) otherCut
      (List.cons_ne_nil _ _) with ⟨number, prepared⟩
    exact assemble_of_replaced_expansion prepared expands free

/-- A defined operand, a register that does not exist and is written twice by the
expansion, and a label before the line. -/
theorem abbreviation_is_its_expansion_of_sample :
    Exists fun assembly => Exists fun changed =>
      assemble "#define t r3\n#label e9\nSLL t, R9 // c\nla r2, e9" = .ok assembly ∧
        assembly.findings = [.atLine 3 (.register .number), .atLine 3 (.register .number)] ∧
        assemble "#define t r3\n#label e9\nadd t r9 r9\nla r2, e9" = .ok changed ∧
        changed.withoutTexts = assembly.withoutTexts := by
  have names : symbolNames "#define t r3\n#label e9\nSLL t, R9 // c\nla r2, e9" = ["t", "e9"] := by
    decide +kernel
  rcases exists_assembly_of_map "#define t r3\n#label e9\nSLL t, R9 // c\nla r2, e9"
    Assembly.findings
    (show _ = some [.atLine 3 (.register .number), .atLine 3 (.register .number)] by
      decide +kernel) with ⟨assembly, returned, findings⟩
  rcases abbreviation_is_its_expansion
    "#define t r3\n#label e9\nSLL t, R9 // c\nla r2, e9" "SLL t, R9 // c".toList .sll ["t", "r9"]
    (by decide +kernel) rfl with ⟨real, rest, expands, same⟩
  cases expands
  have alike := same (by rw [names]; decide) "#define t r3\n#label e9\nadd t r9 r9\nla r2, e9"
    ⟨["#define t r3".toList, "#label e9".toList], ["la r2, e9".toList], by decide +kernel,
      by decide +kernel⟩
  rw [returned] at alike
  cases changedReturned : assemble "#define t r3\n#label e9\nadd t r9 r9\nla r2, e9" with
  | error fault =>
      rw [changedReturned] at alike
      cases alike
  | ok changed =>
      rw [changedReturned] at alike
      exact ⟨assembly, changed, returned, findings, rfl, Except.ok.inj alike⟩

end NibbleMachine
