import NibbleMachine.Abbreviation
import NibbleMachine.Source.Sweep

namespace NibbleMachine

/-!
# Resolving commands

The first token of a line names an abbreviation or a command.  Abbreviations
are expanded, and the expansion replaces the tokens of the line.  The number of
operands of an abbreviation is checked here because it cannot be expanded
otherwise; that of a command is checked when the line is encoded.
-/

/-- Give a line the command that its tokens name, or withdraw it. -/
def resolveTokens (line : Line) (tokens : List String) : Line × List Finding :=
  match tokens.head?.bind Command.ofMnemonic? with
  | some command => ({ line with order := some ⟨command, tokens.tail⟩ }, [])
  | none => (line.withdraw, [.atLine line.number .unknownCommand])

/-- Expand the abbreviation on a line, if any, and resolve its command. -/
def resolveLine (line : Line) : Except Fault (Line × List Finding) :=
  match line.tokens with
  | none => .error .untokenized
  | some [] => .error .missingToken
  | some (name :: operands) =>
      match Abbreviation.ofMnemonic? name with
      | none => .ok (resolveTokens line (name :: operands))
      | some abbreviation =>
          match abbreviation.expand? operands with
          | none =>
              .ok (line.withdraw,
                [.atLine line.number
                  (.abbreviationArity abbreviation.arity operands.length)])
          | some expanded =>
              .ok (resolveTokens { line with tokens := some expanded } expanded)

def resolveCommands (lines : List Line) : Swept Finding :=
  sweep resolveLine lines

end NibbleMachine
