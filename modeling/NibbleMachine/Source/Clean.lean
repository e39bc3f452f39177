import NibbleMachine.Source.Line
import NibbleMachine.Text.Blank
import NibbleMachine.Text.Lower

namespace NibbleMachine

/-!
# Cleaning and cutting a line

Case does not matter, a comma counts as a blank, and a comment runs from `//`
to the end of its line.  What remains is cut into tokens at blanks.  Lowering
comes first and sees the whole line, comment included.
-/

def blankComma (c : Char) : Char :=
  if c = ',' then ' ' else c

/-- The text before the first `//`. -/
def beforeComment : List Char -> List Char
  | [] => []
  | '/' :: '/' :: _ => []
  | c :: rest => c :: beforeComment rest

/-- The characters of a line without case, commas, comment and outer blanks. -/
def cleanChars (text : List Char) : List Char :=
  Text.trim (beforeComment ((Text.lower text).map blankComma))

/-- A line without case, commas, comment and outer blanks. -/
def clean (text : String) : String :=
  String.ofList (cleanChars text.toList)

/-- Cut a text into tokens at blanks. -/
def tokensOf (text : String) : List String :=
  (Text.fields text.toList).map String.ofList

/-- Cut a line into tokens.  A line with nothing on it is withdrawn. -/
def Line.tokenize (line : Line) : Line :=
  let cleaned := clean line.text
  if cleaned.isEmpty then line.withdraw else { line with tokens := some (tokensOf cleaned) }

/-- Cut all lines into tokens.  Invalid lines are cut again as well, and stay
invalid. -/
def prepare (lines : List Line) : List Line :=
  lines.map Line.tokenize

/-- The valid lines as text, tokens joined by one space. -/
def listing (lines : List Line) : Except Fault (List String) :=
  (validLines lines).mapM fun line =>
    match line.tokens with
    | some tokens => .ok (String.intercalate " " tokens)
    | none => .error .untokenized

end NibbleMachine
