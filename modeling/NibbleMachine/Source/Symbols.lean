import NibbleMachine.Source.Sweep
import NibbleMachine.Text.Replace

namespace NibbleMachine

/-!
# Symbols

A symbol is a name with a replacement text.  `#define` gives a name a value;
`#label` gives a name the number of its own source line.  Symbols act on the
whole program wherever they are declared, and they replace any part of a token,
not only whole tokens.  A later declaration of a name replaces the value but
keeps the place of the first, and the place decides the order of replacement.
-/

/-- Names and values in order of first declaration. -/
structure SymbolTable where
  entries : List (String × String)
deriving DecidableEq, Repr

namespace SymbolTable

def empty : SymbolTable := ⟨[]⟩

/-- Give a name its value among the entries. -/
def insertEntry (name value : String) : List (String × String) -> List (String × String)
  | [] => [(name, value)]
  | entry :: rest =>
      if entry.1 = name then (name, value) :: rest
      else entry :: insertEntry name value rest

/-- Give a name its value, at its old place if it has one. -/
def insert (table : SymbolTable) (name value : String) : SymbolTable :=
  ⟨insertEntry name value table.entries⟩

def ofList (declarations : List (String × String)) : SymbolTable :=
  declarations.foldl (fun table entry => table.insert entry.1 entry.2) empty

end SymbolTable

/-- The two directives that declare a symbol. -/
inductive Directive where
  | define
  | label
deriving DecidableEq, Repr

/-- What a directive line amounts to. -/
inductive Declaration where
  | symbol (name value : String)
  | malformed (finding : Finding)
deriving DecidableEq, Repr

namespace Declaration

def symbol? : Declaration -> Option (String × String)
  | .symbol name value => some (name, value)
  | .malformed _ => none

def finding? : Declaration -> Option Finding
  | .symbol _ _ => none
  | .malformed finding => some finding

end Declaration

namespace Directive

/-- The token that starts a directive line. -/
def keyword : Directive -> String
  | .define => "#define"
  | .label => "#label"

/-- The problem of a directive line with the wrong number of tokens. -/
def problem : Directive -> Problem
  | .define => .malformedDefine
  | .label => .malformedLabel

/-- What a directive with the given operands on a given line declares. -/
def declare (directive : Directive) (number : Nat) (operands : List String) : Declaration :=
  match directive, operands with
  | .define, [name, value] => .symbol name value
  | .label, [name] => .symbol name (Numeral.decimal number)
  | _, _ => .malformed (.atLine number directive.problem)

/-- Take the declaration off a line that starts with the directive.  Such a line
is used up, well-formed or not. -/
def visit (directive : Directive) (line : Line) : Except Fault (Line × List Declaration) :=
  match line.tokens with
  | none => .error .untokenized
  | some [] => .error .missingToken
  | some (first :: operands) =>
      if first = directive.keyword then
        .ok (line.withdraw, [directive.declare line.number operands])
      else .ok (line, [])

/-- Take all declarations of a directive off the lines. -/
def collect (directive : Directive) (lines : List Line) : Swept Declaration :=
  sweep directive.visit lines

end Directive

def symbolsOf (declarations : List Declaration) : SymbolTable :=
  SymbolTable.ofList (declarations.filterMap Declaration.symbol?)

def findingsOf (declarations : List Declaration) : List Finding :=
  declarations.filterMap Declaration.finding?

def replaceInToken (name value token : String) : String :=
  String.ofList (Text.replace name.toList value.toList token.toList)

/-- Replace a name by a value in the tokens of a line. -/
def replaceInLine (name value : String) (line : Line) : Except Fault (Line × List Finding) :=
  match line.tokens with
  | none => .error .untokenized
  | some tokens =>
      .ok ({ line with tokens := some (tokens.map (replaceInToken name value)) }, [])

/-- Replace the symbols in the tokens of all valid lines, one symbol after the
other. -/
def substitute : List (String × String) -> List Line -> Swept Finding
  | [], lines => ⟨lines, .ok []⟩
  | (name, value) :: rest, lines =>
      let swept := sweep (replaceInLine name value) lines
      match swept.outcome with
      | .error fault => ⟨swept.lines, .error fault⟩
      | .ok _ => substitute rest swept.lines

end NibbleMachine
