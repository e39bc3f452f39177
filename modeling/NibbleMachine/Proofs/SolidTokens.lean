import NibbleMachine.Proofs.Expansion
import NibbleMachine.Proofs.SessionFaults
import NibbleMachine.Proofs.SubstitutionOrder

namespace NibbleMachine

/-!
# Tokens throughout a session

Cutting a line gives tokens that are solid: they are not empty and hold neither blank nor
comma.  Later passes put other texts into tokens.  The values of symbols come from the
source itself, expansions bring names of commands and registers, and an encoded address load
shows a number.  Each of these is solid again, in whatever order the passes are run, and a
replacement of a name that is not empty by a value that is not empty keeps a token solid.

The values of symbols make the invariant one of lines and tables together: what is collected
from solid lines is solid, and lines stay solid when what is replaced in them is.  Before the
lines are first cut nothing can be collected, so the tables are empty then.
-/

/-! ## Replacement in a token -/

namespace Text

/-- A replacement brings no characters but those of the value. -/
theorem mem_of_mem_replaceFrom {name value : List Char} {inside : Nat} {text : List Char} {c : Char}
    (member : c ∈ replaceFrom name value inside text) : c ∈ value ∨ c ∈ text := by
  fun_induction replaceFrom name value inside text with
  | case1 => exact Or.inr member
  | case2 inside first rest inductionHypothesis =>
      exact (inductionHypothesis member).imp_right (List.mem_cons_of_mem first)
  | case3 first rest here inductionHypothesis =>
      rcases List.mem_append.mp member with inValue | later
      · exact Or.inl inValue
      · exact (inductionHypothesis later).imp_right (List.mem_cons_of_mem first)
  | case4 first rest elsewhere inductionHypothesis =>
      rcases List.mem_cons.mp member with rfl | later
      · exact Or.inr List.mem_cons_self
      · exact (inductionHypothesis later).imp_right (List.mem_cons_of_mem first)

theorem replaceFrom_ne_nil (name : List Char) {value text : List Char} (filled : value ≠ [])
    (nonempty : text ≠ []) : replaceFrom name value 0 text ≠ [] := by
  rcases List.exists_cons_of_ne_nil nonempty with ⟨c, rest, rfl⟩
  rw [replaceFrom]
  split
  · simp [filled]
  · exact List.cons_ne_nil _ _

end Text

/-- A symbol that keeps tokens solid. -/
def IsSolidSymbol (symbol : String × String) : Prop :=
  IsSolidToken symbol.1 ∧ IsSolidToken symbol.2

theorem IsPlainToken.isSolidToken {token : String} (plain : IsPlainToken token) :
    IsSolidToken token :=
  plain.isCleanToken.isSolidToken

theorem IsSolidToken.replaceInToken {token : String} (solid : IsSolidToken token)
    {symbol : String × String} (admitted : IsSolidSymbol symbol) :
    IsSolidToken (replaceInToken symbol.1 symbol.2 token) := by
  rcases admitted with ⟨name, value⟩
  have characters : (NibbleMachine.replaceInToken symbol.1 symbol.2 token).toList =
      Text.replaceFrom symbol.1.toList symbol.2.toList 0 token.toList := by
    rw [NibbleMachine.replaceInToken, String.toList_ofList,
      Text.replace_eq_replaceFrom name.nonempty]
  have sources : forall c, c ∈ (NibbleMachine.replaceInToken symbol.1 symbol.2 token).toList ->
      c ∈ symbol.2.toList ∨ c ∈ token.toList := by
    intro c member
    rw [characters] at member
    exact Text.mem_of_mem_replaceFrom member
  constructor
  · rw [characters]
    exact Text.replaceFrom_ne_nil _ value.nonempty solid.nonempty
  · exact fun c member => (sources c member).elim (value.solid c) (solid.solid c)
  · exact fun c member => (sources c member).elim (value.commaFree c) (solid.commaFree c)

/-! ## Lines -/

/-- A list of tokens of a line: there is one, and all are solid. -/
def SolidTokens (tokens : List String) : Prop :=
  tokens ≠ [] ∧ forall token, token ∈ tokens -> IsSolidToken token

/-- A line that has been cut into solid tokens. -/
def Line.Solid (line : Line) : Prop :=
  Exists fun tokens => line.tokens = some tokens ∧ SolidTokens tokens

theorem Line.Solid.tokenized {line : Line} (solid : line.Solid) : line.Tokenized := by
  rcases solid with ⟨tokens, shape, nonempty, -⟩
  rcases List.exists_cons_of_ne_nil nonempty with ⟨name, operands, rfl⟩
  exact ⟨name, operands, shape⟩

theorem Line.Solid.tokenList {line : Line} (solid : line.Solid) : SolidTokens line.tokenList := by
  rcases solid with ⟨tokens, shape, all⟩
  rw [Line.tokenList, shape]
  exact all

/-- The tokens of an order that solid tokens stand for are solid. -/
theorem solidTokens_of_orderOf {tokens : List String} {order : Order} (solid : SolidTokens tokens)
    (ordered : orderOf tokens = .ok order) : SolidTokens order.tokens := by
  rcases (orderOf_eq_ok_iff tokens order).mp ordered with written | ⟨_, operands, rfl, expands⟩
  · exact written ▸ solid
  · refine ⟨List.cons_ne_nil _ _, ?_⟩
    intro token member
    rcases List.mem_cons.mp member with rfl | behind
    · exact order.command.isPlainToken_mnemonic.isSolidToken
    · rcases Abbreviation.mem_of_mem_expansion expands behind with operand | rfl
      · exact solid.2 token (List.mem_cons_of_mem _ operand)
      · exact (isPlainToken_registerText Nibble.zero).isSolidToken

/-- A shown value is a solid token among the others. -/
theorem solidTokens_of_showResolved {tokens : List String} {shown : Option (List String)}
    {resolved : Option Int} (solid : SolidTokens tokens)
    (shows : showResolved (some tokens) resolved = .ok shown) :
    Exists fun others => shown = some others ∧ SolidTokens others := by
  unfold showResolved at shows
  split at shows
  · exact ⟨tokens, (Except.ok.inj shows).symm, solid⟩
  · next value =>
      dsimp only at shows
      split at shows
      · refine ⟨_, (Except.ok.inj shows).symm, by simpa using solid.1, ?_⟩
        intro token member
        rcases List.mem_or_eq_of_mem_set member with old | rfl
        · exact solid.2 token old
        · exact (isPlainToken_decimal value).isSolidToken
      · cases shows

/-- A line that is still valid after it was cut is in solid tokens. -/
theorem Line.solid_tokenize {line : Line} (valid : line.tokenize.valid = true) :
    line.tokenize.Solid := by
  cases blank : (clean line.text).isEmpty with
  | true =>
      rw [tokenize_of_blank blank] at valid
      cases valid
  | false =>
      rw [tokenize_of_not_blank blank]
      exact ⟨_, rfl, tokensOf_clean_ne_nil blank, fun token member =>
        (isCleanToken_of_mem member).isSolidToken⟩

/-- A valid line in solid tokens stays so, as long as the symbols replaced are solid. -/
theorem solid_keptByVisits :
    KeptByVisits IsSolidSymbol fun line => line.valid = true -> line.Solid where
  tokenize line _ := Line.solid_tokenize
  withdraw line _ := by
    intro valid
    cases valid
  replace line tokens symbol admitted shape solid := by
    intro valid
    rcases solid valid with ⟨own, ownShape, nonempty, all⟩
    rw [shape] at ownShape
    cases ownShape
    refine ⟨_, rfl, by simpa using nonempty, ?_⟩
    intro token member
    rcases List.mem_map.mp member with ⟨source, listed, rfl⟩
    exact (all source listed).replaceInToken admitted
  resolve line order _ ordered solid := fun valid =>
    ⟨_, rfl, solidTokens_of_orderOf (solid valid).tokenList ordered⟩
  place line position solid := solid
  encode line nibbles tokens resolved shown solid := by
    intro valid
    rcases solid valid with ⟨own, shape, all⟩
    rw [shape] at shown
    exact solidTokens_of_showResolved all shown

/-! ## Lines and tables -/

theorem isSolidSymbol_of_declare {directive : Directive} {number : Nat} {operands : List String}
    (solid : forall token, token ∈ operands -> IsSolidToken token) {symbol : String × String}
    (declared : (directive.declare number operands).symbol? = some symbol) :
    IsSolidSymbol symbol := by
  unfold Directive.declare at declared
  split at declared
  · next name value =>
      cases declared
      exact ⟨solid name (by simp), solid value (by simp)⟩
  · next name =>
      cases declared
      exact ⟨solid name (by simp), (isPlainToken_decimal number).isSolidToken⟩
  · cases declared

/-- What solid lines declare is solid. -/
theorem isSolidSymbol_of_mem_table (directive : Directive) {lines : List Line}
    (solid : forall line, line ∈ lines -> line.valid = true -> line.Solid)
    {symbol : String × String} (member : symbol ∈ (directive.table (entries lines)).entries) :
    IsSolidSymbol symbol := by
  rcases (SymbolTable.mem_ofList_iff _ symbol).mp member with ⟨before, after, split, -⟩
  have listed : symbol ∈ (directive.declarations (entries lines)).filterMap
      Declaration.symbol? := by
    rw [split]
    exact List.mem_append_right before List.mem_cons_self
  rcases List.mem_filterMap.mp listed with ⟨declaration, inDeclarations, declared⟩
  rcases List.mem_map.mp inDeclarations with ⟨entry, inEntries, rfl⟩
  rcases List.mem_map.mp (List.mem_filter.mp inEntries).1 with ⟨line, inLines, rfl⟩
  rcases List.mem_filter.mp inLines with ⟨isLine, valid⟩
  refine isSolidSymbol_of_declare ?_ declared
  intro token inTail
  exact (solid line isLine valid).tokenList.2 token (List.mem_of_mem_tail inTail)

namespace Session

/-- A session whose valid lines are in solid tokens and whose symbols are solid. -/
structure Solid (session : Session) : Prop where
  lines : forall line, line ∈ session.lines -> line.valid = true -> line.Solid
  tables : forall directive symbol, symbol ∈ (session.table directive).entries ->
    IsSolidSymbol symbol

theorem mem_table_keep {session : Session} {kept directive : Directive} {table : SymbolTable}
    {symbol : String × String}
    (member : symbol ∈ ((session.keep kept table).table directive).entries) :
    symbol ∈ table.entries ∨ symbol ∈ (session.table directive).entries := by
  cases kept <;> cases directive
  · exact Or.inl member
  · exact Or.inr member
  · exact Or.inr member
  · exact Or.inl member

namespace Solid

variable {session : Session} (solid : session.Solid)

include solid

theorem tokenized : Tokenized session.lines :=
  fun line member valid => (solid.lines line member valid).tokenized

/-- The tables after a pass hold what they held, or what the lines declared. -/
theorem tables_run (pass : Pass) : forall directive symbol,
    symbol ∈ ((session.run pass).1.table directive).entries -> IsSolidSymbol symbol := by
  cases pass with
  | collect kept =>
      rw [run_collect_of_ok (Swept.eq_of_complete (kept.complete_collect solid.tokenized))]
      intro directive symbol member
      rcases mem_table_keep member with declared | old
      · exact isSolidSymbol_of_mem_table kept solid.lines declared
      · exact solid.tables directive symbol old
  | prepare | substitute | resolve | layout | encode | listing | image => exact solid.tables

theorem run (pass : Pass) : (session.run pass).1.Solid where
  lines := solid_keptByVisits.run session pass solid.tables solid.lines
  tables := solid.tables_run pass

theorem after (passes : List Pass) : (session.after passes).Solid := by
  induction passes generalizing session with
  | nil => exact solid
  | cons pass rest inductionHypothesis => exact inductionHypothesis (solid.run pass)

end Solid

/-- Cutting the lines for the first time makes a session solid. -/
theorem Unprepared.solid_run_prepare {session : Session} (unprepared : session.Unprepared) :
    (session.run .prepare).1.Solid where
  lines line member := by
    rcases List.mem_map.mp member with ⟨source, -, rfl⟩
    exact Line.solid_tokenize
  tables directive symbol member := by
    have unchanged : symbol ∈ (session.table directive).entries := member
    rw [unprepared.table directive] at unchanged
    cases unchanged

/-- A session is solid from the first time on that the lines are cut. -/
theorem solid_after (text : String) {passes : List Pass} (cut : .prepare ∈ passes) :
    ((start text).after passes).Solid := by
  rcases List.eq_append_cons_of_mem cut with ⟨earlier, later, rfl, uncut⟩
  rw [after_append]
  exact ((unprepared_start text).after uncut).solid_run_prepare.after later

end Session

/-! ## The number of tokens -/

/-- The number of tokens on a line, if it has been cut. -/
def Line.tokenCount? (line : Line) : Option Nat :=
  line.tokens.map List.length

/-- A replacement of symbols leaves the number of tokens on every line. -/
theorem tokenCount?_substitute (symbols : List (String × String)) (lines : List Line) :
    (substitute symbols lines).lines.map Line.tokenCount? = lines.map Line.tokenCount? := by
  refine substitute_keeps
    (fun later => later.map Line.tokenCount? = lines.map Line.tokenCount?) ?_ rfl
  intro symbol _ later counted
  refine (map_lines_sweep _ Line.tokenCount? ?_ later).trans counted
  intro line step visited
  rcases (replaceInLine_eq_ok_iff _ _ line step).mp visited with ⟨tokens, shape, rfl⟩
  simp [Line.tokenCount?, shape]

/-- Whatever passes are run on a text, in any order and however often, once the lines have
been cut every valid line has at least one token, and no token is empty or holds a blank or a
comma.  Replacing symbols leaves the number of tokens on every line.  And a listing can be
made, from every entry of which the tokens of its line are cut again. -/
theorem tokens_are_solid_in_any_order (text : String) (passes : List Pass)
    (cut : .prepare ∈ passes) :
    (forall line, line ∈ ((Session.start text).after passes).lines -> line.valid = true ->
      Exists fun tokens => line.tokens = some tokens ∧ tokens ≠ [] ∧
        forall token, token ∈ tokens ->
          token ≠ "" ∧ forall c, c ∈ token.toList -> c ≠ ',' ∧ Text.isBlank c = false) ∧
      (forall directive,
        (((Session.start text).after passes).run (.substitute directive)).1.lines.map
            Line.tokenCount? =
          ((Session.start text).after passes).lines.map Line.tokenCount?) ∧
      Exists fun entries =>
        (((Session.start text).after passes).run .listing).2 = .ok (.listing entries) ∧
          entries.map (fun entry => some (tokensOf entry)) =
            (validLines ((Session.start text).after passes).lines).map Line.tokens := by
  have solid := Session.solid_after text cut
  refine ⟨?_, fun directive => tokenCount?_substitute _ _, ?_⟩
  · intro line member valid
    rcases solid.lines line member valid with ⟨tokens, shape, nonempty, all⟩
    refine ⟨tokens, shape, nonempty, ?_⟩
    intro token listed
    have own := all token listed
    exact ⟨by simpa using own.nonempty, fun c inToken =>
      ⟨own.commaFree c inToken, own.solid c inToken⟩⟩
  · refine ⟨_, congrArg (Except.map Report.listing) (listing_of_tokenized solid.tokenized), ?_⟩
    rw [List.map_map]
    apply List.map_congr_left
    intro line member
    rcases List.mem_filter.mp member with ⟨listed, valid⟩
    rcases solid.lines line listed valid with ⟨tokens, shape, -, all⟩
    have own : line.tokenList = tokens := by
      rw [Line.tokenList, shape]
      rfl
    rw [Function.comp_apply, own, tokensOf_joined all, shape]

/-- Two slashes that a define puts together start no comment any more, and they are one token
of the listing.  A pass was tried before the lines were cut. -/
theorem tokens_are_solid_in_any_order_of_sample :
    Exists fun entries =>
      (((Session.start "#define s /\nss, s").after
          [.resolve, .prepare, .collect .define, .substitute .define]).run .listing).2 =
        .ok (.listing entries) ∧
        entries.map (fun entry => some (tokensOf entry)) = [some ["//", "/"]] := by
  rcases (tokens_are_solid_in_any_order "#define s /\nss, s"
    [.resolve, .prepare, .collect .define, .substitute .define] (by decide)).2.2 with
    ⟨entries, listed, tokens⟩
  refine ⟨entries, listed, tokens.trans ?_⟩
  decide +kernel

end NibbleMachine
