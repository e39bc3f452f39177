import NibbleMachine.CommandLine.Outcome
import NibbleMachine.Image.Reader
import NibbleMachine.Image.Table
import NibbleMachine.Numeral.Literal

namespace NibbleMachine
namespace CommandLine

/-!
# The dumping command

The command reads an image file and writes a table of a range of its words.
The range is two numerals with a colon between them; both ends are included and
must be positions of the image, in order.  Since the range is checked before
the table file is touched, a table is written whole or not at all.
-/

def dumpParameters : List Parameter :=
  [.argument "image" (.file true), .argument "dump_csv" (.file false),
   .argument "mem_range" .text]

structure DumpRequest where
  image : String
  table : String
  range : String
deriving DecidableEq, Repr

/-- The request that the values of the parameters make. -/
def dumpRequest (values : Values) : DumpRequest where
  image := values.argument "image"
  table := values.argument "dump_csv"
  range := values.argument "mem_range"

/-- The ends of a written range. -/
def range? (text : String) : Option (Int × Int) :=
  match text.toList.splitOn ':' with
  | [first, last] => do
      let first ← Numeral.literal? first
      let last ← Numeral.literal? last
      return (first, last)
  | _ => none

/-- The failure of a range that is not one, or not one of the image. -/
def rangeFailure (reason : String) : Failure :=
  .value "MEM_RANGE" reason

def readImage (workspace : Workspace) (path : String) : Except Failure (List Int) :=
  match readText workspace path with
  | .error error => .error (fileFailure "An Error occurred while reading the Image!" error)
  | .ok text =>
      match loadImage text with
      | .ok words => .ok words
      | .error error => .error (.aborted error.message)

/-- The words and the checked range that a table is asked for. -/
def checkedRange (workspace : Workspace) (request : DumpRequest) :
    Except Failure (List Int × Int × Int) :=
  match range? request.range with
  | none => .error (rangeFailure "expected START:END")
  | some (first, last) => do
      let words ← readImage workspace request.image
      if 0 ≤ first ∧ first ≤ last ∧ last < words.length then .ok (words, first, last)
      else
        .error (rangeFailure
          ("range must lie within 0:" ++ Numeral.decimal ((words.length : Int) - 1)))

/-- Do what the dumping command is asked to do.  The table is written row by row,
so one that breaks off at a position without a word stays as far as it got. -/
def performDump (workspace : Workspace) (request : DumpRequest) : Outcome :=
  match checkedRange workspace request with
  | .error failure => .failed workspace [] failure
  | .ok (words, first, last) =>
      let table := imageTable words first last
      match workspace.write request.table table.text.toUTF8 with
      | .error error => .failed workspace [] (.file error)
      | .ok written =>
          if table.complete then
            { ending := .returned
              output := ["Dumped " ++ Numeral.decimal (last - first + 1) ++ " words to "
                ++ request.table]
              errors := []
              workspace := written }
          else .failed written [] .missingWord

def dumpCommand (frontend : Frontend) (workspace : Workspace) (words : List String) : Outcome :=
  runCommand frontend dumpParameters (fun values => performDump workspace (dumpRequest values))
    workspace words

end CommandLine
end NibbleMachine
