import NibbleMachine.Diagnostics
import NibbleMachine.Image
import NibbleMachine.Source.Clean
import NibbleMachine.Source.Encode
import NibbleMachine.Source.Layout
import NibbleMachine.Source.Resolve
import NibbleMachine.Source.Symbols

namespace NibbleMachine

/-!
# Assembly

The passes in their order: cut the lines into tokens, take off and replace the
defines, then the labels, resolve the commands, lay out the valid lines, and
encode them.  Findings are kept in the order of the passes.
-/

/-- The result of an assembly: the lines as the passes left them, the symbols of
both directives, the image and the findings. -/
structure Assembly where
  lines : List Line
  defines : SymbolTable
  labels : SymbolTable
  image : List Int
  findings : List Finding
deriving DecidableEq, Repr

/-- The lines of a source text cut into tokens. -/
def preparedLines (text : String) : List Line :=
  prepare (loadLines text)

/-- What applying a directive leaves: the lines without its declarations, with
its symbols replaced. -/
structure Applied where
  lines : List Line
  symbols : SymbolTable
  findings : List Finding
deriving DecidableEq, Repr

/-- Take off the declarations of a directive and replace their symbols. -/
def applyDirective (directive : Directive) (lines : List Line) : Except Fault Applied := do
  let (collected, declarations) ← (directive.collect lines).complete
  let symbols := symbolsOf declarations
  let (substituted, _) ← (substitute symbols.entries collected).complete
  return ⟨substituted, symbols, findingsOf declarations⟩

def assemble (text : String) : Except Fault Assembly := do
  let defined ← applyDirective .define (preparedLines text)
  let labelled ← applyDirective .label defined.lines
  let (resolved, resolveFindings) ← (resolveCommands labelled.lines).complete
  let (encoded, encodeFindings) ← (encodeLines (layout resolved)).complete
  return {
    lines := encoded
    defines := defined.symbols
    labels := labelled.symbols
    image := buildImage encoded
    findings := defined.findings ++ labelled.findings ++ resolveFindings ++ encodeFindings
      ++ imageFindings encoded }

def Assembly.diagnostics (assembly : Assembly) : Diagnostics :=
  Diagnostics.ofFindings assembly.findings

/-- A titled listing, closed by an empty line. -/
def listingSection (title : String) (lines : List Line) : Except Fault (List String) := do
  return title :: (← listing lines) ++ [""]

/-- The listing shown before symbols are replaced. -/
def cleanedSection (text : String) : Except Fault (List String) :=
  listingSection "Cleaned Assembly:" (preparedLines text)

/-- The listing shown after encoding. -/
def Assembly.resolvedSection (assembly : Assembly) : Except Fault (List String) :=
  listingSection "Fully Resolved Assembly:" assembly.lines

def assembleTraced (text : String) : Except Fault (Assembly × List String) := do
  let cleaned ← cleanedSection text
  let assembly ← assemble text
  let resolved ← assembly.resolvedSection
  return (assembly, cleaned ++ resolved)

end NibbleMachine
