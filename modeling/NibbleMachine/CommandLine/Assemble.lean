import NibbleMachine.Assembly
import NibbleMachine.CommandLine.Outcome

namespace NibbleMachine
namespace CommandLine

/-!
# The assembling command

The command reads a source file, assembles it and writes the image, whether or
not problems were found.  It may print the listings of the assembly and a table
of the encoded lines.  Problems are printed as errors, one on a line, and make
the command end with one.
-/

def assembleParameters : List Parameter :=
  [.argument "src" (.file true),
   .option "out" ["-o", "--out"] (.file false)
     "куда писать образ (по умолчанию out/<имя>_out.txt)",
   .flag "test" ["--test"] "печатать слова по командам",
   .flag "verbose" ["-v", "--verbose"] "печатать очищенный и разрешённый ассемблер"]

structure AssembleRequest where
  source : String
  output : Path
  table : Bool
  listings : Bool
deriving DecidableEq, Repr

/-- The request that the values of the parameters make.  An empty output counts as none. -/
def assembleRequest (values : Values) : Except Failure AssembleRequest :=
  let source := values.argument "src"
  if !source.endsWith ".txt" then .error (.value "SRC" "Can only read .txt Files!")
  else
    let output := match values.option "out" with
      | none => defaultOutput source
      | some path => if path.isEmpty then defaultOutput source else Path.ofString path
    .ok {
      source := source
      output := output
      table := values.flag "test"
      listings := values.flag "verbose" }

/-- Fill a text with blanks on the left up to a width. -/
def alignRight (width : Nat) (text : String) : String :=
  String.ofList (List.replicate (width - text.length) ' ') ++ text

/-- Fill a text with blanks on the right up to a width. -/
def alignLeft (width : Nat) (text : String) : String :=
  text ++ String.ofList (List.replicate (width - text.length) ' ')

/-- The row of an encoded line: position, tokens and bits. -/
def encodedRow (line : Line) : String :=
  alignRight 3 (Numeral.decimal (line.position.getD 0)) ++ "  "
    ++ alignLeft 24 (String.intercalate " " (line.tokens.getD [])) ++ " "
    ++ nibbleText line.word

/-- The rows of the encoded lines that have a place in the image. -/
def encodedRows (lines : List Line) : List String :=
  ((validLines lines).takeWhile fun line => line.position.getD 0 < imageSize).map encodedRow

/-- The last line that the command prints. -/
def summary (name : String) (problems : Nat) (output : String) : String :=
  if problems = 0 then
    name ++ " was successfully compiled and saved in \"" ++ output ++ "\"."
  else
    name ++ " was compiled with " ++ Numeral.decimal problems ++ " Problems and saved in \""
      ++ output ++ "\"."

/-- The lines of a listing, if the listing is wanted. -/
def listed (wanted : Bool) (entries : Except Fault (List String)) : List String :=
  match wanted, entries with
  | true, .ok entries => entries
  | _, _ => []

/-- Write the image of an assembly and report on it. -/
def finishAssembly (workspace : Workspace) (request : AssembleRequest) (printed : List String)
    (assembly : Assembly) : Outcome :=
  match workspace.writeWithDirectories request.output (renderWords assembly.image).toUTF8 with
  | (changed, some error) =>
      .failed changed printed
        (fileFailure "An Error occurred while writing the compiled Program!" error)
  | (changed, none) =>
      let messages := assembly.diagnostics.messages
      let rows := if request.table then encodedRows assembly.lines else []
      let name := (Path.ofString request.source).stem
      { ending := if messages.isEmpty then .returned else .exited 1
        output := printed ++ rows ++ [summary name messages.length request.output.toString]
        errors := messages
        workspace := changed }

def performAssemble (workspace : Workspace) (request : AssembleRequest) : Outcome :=
  match readText workspace request.source with
  | .error error =>
      .failed workspace [] (fileFailure "An Error occurred while reading the File!" error)
  | .ok text =>
      let cleaned := listed request.listings (cleanedSection text)
      match assemble text with
      | .error fault => .failed workspace cleaned (.fault fault)
      | .ok assembly =>
          let resolved := listed request.listings assembly.resolvedSection
          finishAssembly workspace request (cleaned ++ resolved) assembly

def assembleCommand (frontend : Frontend) (workspace : Workspace) (words : List String) :
    Outcome :=
  runCommand frontend assembleParameters
    (fun values =>
      match assembleRequest values with
      | .error failure => .failed workspace [] failure
      | .ok request => performAssemble workspace request)
    workspace words

end CommandLine
end NibbleMachine
