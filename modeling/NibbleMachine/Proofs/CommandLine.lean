import NibbleMachine.CommandLine.Assemble
import NibbleMachine.CommandLine.Dump
import NibbleMachine.Proofs.Frontend
import NibbleMachine.Proofs.ImageText
import NibbleMachine.Proofs.Literal
import NibbleMachine.Proofs.Workspace

namespace NibbleMachine

/-!
# The commands one after the other

The assembling command writes an image file and the dumping command reads it.
They meet only in the workspace, so the statements here follow a text through
both: the source is read with its line ends unified, which no line notices; the
image is written whether or not problems were found; it has the size of an
image and words of sixteen bits, so it is read back as it was; and every
position of a range inside it has a word, so the table is complete.

Each command is described by one equation for files of the working directory, under
any front end that does what is documented of it.  The equation gives the whole
outcome, and what two commands do in a row is read off from it.
-/

/-! ## Tables inside an image -/

/-- The rows of positions that all have a word. -/
theorem tableRows_within {words : List Int} {count : Nat} (position : Nat)
    (within : position + count ≤ words.length) :
    tableRows words position count =
      ⟨(List.range' position count).map fun place : Nat => wordRow place (words.getD place 0),
        true⟩ := by
  induction count generalizing position with
  | zero => rfl
  | succ count inductionHypothesis =>
      have inside : position < words.length := by omega
      have later := inductionHypothesis (position + 1) (by omega)
      have found : wordAt? words position = some (words.getD position 0) := by
        rw [wordAt?, if_pos (Int.natCast_nonneg position), Int.toNat_natCast,
          List.getD_eq_getElem?_getD, List.getElem?_eq_getElem inside, Option.getD_some]
      rw [Int.natCast_add, Int.natCast_one] at later
      simp only [tableRows, found, later, List.range'_succ, List.map_cons]

/-- The table of a range inside an image is complete. -/
theorem imageTable_within {words : List Int} {first last : Nat} (ordered : first ≤ last)
    (within : last < words.length) :
    imageTable words first last =
      ⟨tableHeader :: (List.range' first (last + 1 - first)).map
        fun position : Nat => wordRow position (words.getD position 0), true⟩ := by
  have count : ((last : Int) + 1 - first).toNat = last + 1 - first := by omega
  rw [imageTable, count, tableRows_within first (by omega)]

namespace CommandLine

open Workspace (IsFileName)

variable {frontend : Frontend} {workspace : Workspace}

/-! ## Files by their arguments -/

/-- A file of the working directory as an argument: its name is not taken for an option. -/
structure IsFileArgument (name : String) : Prop where
  plain : IsFileName name
  argument : IsArgument name

instance decidableIsFileArgument (name : String) : Decidable (IsFileArgument name) :=
  decidable_of_iff (IsFileName name ∧ name.toList.head? ≠ some '-')
    ⟨fun ⟨plain, argument⟩ => ⟨plain, argument⟩, fun ⟨plain, argument⟩ => ⟨plain, argument⟩⟩

theorem fromUTF8?_toUTF8 (text : String) : String.fromUTF8? text.toUTF8 = some text := by
  have valid : text.toUTF8.IsValidUTF8 := text.isValidUTF8
  rw [String.fromUTF8?, dif_pos valid]
  rfl

theorem readText_name {name stored : String} (plain : IsFileName name)
    (present : workspace.node? (name :: workspace.home) = some (.file stored.toUTF8)) :
    readText workspace name = .ok (String.ofList (Text.unifyLineEnds stored.toList)) := by
  simp only [readText, Workspace.read_name plain present, bind, Except.bind, fromUTF8?_toUTF8]
  rfl

theorem takes_of_file {name : String} {content : ByteArray} (plain : IsFileName name)
    (present : workspace.node? (name :: workspace.home) = some (.file content))
    (mustExist : Bool) : (Kind.file mustExist).Takes workspace name := by
  refine ⟨plain.noNull, ?_⟩
  rw [Workspace.lookup_name plain, present]
  trivial

/-- A file that is to be written need not exist. -/
theorem takes_of_free {name : String} (plain : IsFileName name)
    (free : workspace.node? (name :: workspace.home) ≠ some .directory) :
    (Kind.file false).Takes workspace name := by
  refine ⟨plain.noNull, ?_⟩
  rw [Workspace.lookup_name plain]
  cases held : workspace.node? (name :: workspace.home) with
  | none => rfl
  | some node =>
      cases node with
      | directory => exact absurd held free
      | file content => trivial

/-! ## Assembling a file -/

/-- Problems are not a failure. -/
theorem failure?_of_messages (messages output errors : List String) (changed : Workspace) :
    Outcome.failure? {
      ending := if messages.isEmpty then .returned else .exited 1
      output := output
      errors := errors
      workspace := changed } = none := by
  cases messages with
  | nil => rfl
  | cons first rest => rfl

theorem exitCode_of_messages (documented : frontend.Documented) (messages : List String) :
    frontend.exitCode (if messages.isEmpty then .returned else .exited 1) =
      if messages.length = 0 then 0 else 1 := by
  cases messages with
  | nil => exact documented.returned
  | cons first rest => exact documented.exited 1 (by decide)

theorem wellDeclared_assembleParameters : WellDeclared assembleParameters :=
  ⟨by decide, by decide, by decide +kernel⟩

theorem exists_assembleRequest_of_names (documented : frontend.Documented)
    {source output : String} {content : ByteArray}
    (sourceName : IsFileArgument source) (outputName : IsFileArgument output)
    (extension : source.endsWith ".txt" = true)
    (present : workspace.node? (source :: workspace.home) = some (.file content))
    (free : workspace.node? (output :: workspace.home) ≠ some .directory) :
    Exists fun values =>
      frontend.read assembleParameters workspace [source, "-o", output] = .values values ∧
        assembleRequest values = .ok ⟨source, Path.ofString output, false, false⟩ := by
  have tells : Tells assembleParameters [source, "-o", output] [source] [("out", some output)] :=
    .argument source sourceName.argument
      (.option "out" _ _ _ "-o" output (.tail _ (.head _)) (.head _) outputName.argument .nothing)
  have taken : Taken assembleParameters workspace [source] [("out", some output)] := by
    constructor
    · exact .cons (takes_of_file sourceName.plain present true) .nil
    · intro name spellings kind help value declared given
      cases List.mem_singleton.mp given
      simp only [assembleParameters, List.mem_cons, Parameter.option.injEq, reduceCtorEq,
        List.not_mem_nil, or_false, false_or, true_and] at declared
      rw [declared.2.1]
      exact takes_of_free outputName.plain free
  rcases documented.reads _ _ _ _ _ wellDeclared_assembleParameters tells taken with
    ⟨values, reading, follow⟩
  have sourceValue : values.argument "src" = source :=
    (Option.some.inj (follow.argument 0 "src" (.file true) rfl)).symm
  have outputValue : values.option "out" = some output :=
    follow.option_given "out" _ _ _ output [] [] (.tail _ (.head _)) rfl fun _ => List.not_mem_nil
  have tableValue : values.flag "test" = false :=
    follow.flag_eq_false (.tail _ (.tail _ (.head _))) (by simp)
  have listingsValue : values.flag "verbose" = false :=
    follow.flag_eq_false (.tail _ (.tail _ (.tail _ (.head _)))) (by simp)
  have filled : output.isEmpty = false := by simpa using outputName.plain.nonempty
  refine ⟨values, reading, ?_⟩
  simp only [assembleRequest, sourceValue, outputValue, tableValue, listingsValue, extension,
    filled]
  rfl

theorem performAssemble_of_names {source output text stored : String} {assembly : Assembly}
    (sourceName : IsFileName source) (outputName : IsFileName output)
    (present : workspace.node? (source :: workspace.home) = some (.file stored.toUTF8))
    (free : workspace.node? (output :: workspace.home) ≠ some .directory)
    (sameText : Text.unifyLineEnds stored.toList = Text.unifyLineEnds text.toList)
    (returned : assemble text = .ok assembly) :
    performAssemble workspace ⟨source, Path.ofString output, false, false⟩ =
      { ending := if assembly.diagnostics.messages.isEmpty then .returned else .exited 1
        output := [summary (Path.ofString source).stem assembly.diagnostics.messages.length output]
        errors := assembly.diagnostics.messages
        workspace := workspace.put (output :: workspace.home)
          (.file (renderWords assembly.image).toUTF8) } := by
  have read : assemble (String.ofList (Text.unifyLineEnds stored.toList)) = .ok assembly := by
    rw [← returned]
    apply assemble_of_lines
    rw [String.toList_ofList, sameText, Text.lines_unifyLineEnds]
  rw [performAssemble, readText_name sourceName present]
  simp only [read, listed, List.append_nil]
  rw [finishAssembly, Workspace.writeWithDirectories_name outputName free]
  simp only [outputName.toString_eq]
  rfl

theorem assembleCommand_of_names (documented : frontend.Documented)
    {source output text stored : String} {assembly : Assembly}
    (sourceName : IsFileArgument source) (outputName : IsFileArgument output)
    (extension : source.endsWith ".txt" = true)
    (present : workspace.node? (source :: workspace.home) = some (.file stored.toUTF8))
    (free : workspace.node? (output :: workspace.home) ≠ some .directory)
    (sameText : Text.unifyLineEnds stored.toList = Text.unifyLineEnds text.toList)
    (returned : assemble text = .ok assembly) :
    assembleCommand frontend workspace [source, "-o", output] =
      { ending := if assembly.diagnostics.messages.isEmpty then .returned else .exited 1
        output := [summary (Path.ofString source).stem assembly.diagnostics.messages.length output]
        errors := assembly.diagnostics.messages
        workspace := workspace.put (output :: workspace.home)
          (.file (renderWords assembly.image).toUTF8) } := by
  rcases exists_assembleRequest_of_names documented sourceName outputName extension present free
    with ⟨values, reading, request⟩
  rw [assembleCommand, runCommand, reading]
  simp only [request]
  exact performAssemble_of_names sourceName.plain outputName.plain present free sameText returned

/-! ## Dumping a file -/

/-- A range of two numbers as it is written. -/
def rangeText (first last : Nat) : String :=
  Numeral.decimal first ++ ":" ++ Numeral.decimal last

theorem toList_decimal (number : Nat) :
    (Numeral.decimal number).toList = Nat.toDigits 10 number := by
  rw [Numeral.decimal, String.toList_ofList]
  rfl

theorem toList_rangeText (first last : Nat) :
    (rangeText first last).toList = Nat.toDigits 10 first ++ ':' :: Nat.toDigits 10 last := by
  rw [rangeText, String.toList_append, String.toList_append, toList_decimal, toList_decimal]
  simp

/-- A range starts with a digit, so it is not taken for an option. -/
theorem head?_rangeText (first last : Nat) : (rangeText first last).toList.head? ≠ some '-' := by
  rcases Numeral.isDigits_toDigits first with ⟨nonempty, all⟩
  rw [toList_rangeText]
  cases shape : Nat.toDigits 10 first with
  | nil => exact absurd shape nonempty
  | cons c rest =>
      intro dash
      rw [List.cons_append, List.head?_cons, Option.some.injEq] at dash
      subst dash
      exact absurd (all '-' (by simp [shape])) (by decide)

theorem range?_rangeText {first last : Nat} (ordered : first ≤ last)
    (short : last < Nat.pow 10 Numeral.digitLimit) :
    range? (rangeText first last) = some ((first : Int), (last : Int)) := by
  have noColon : forall number, ':' ∉ Nat.toDigits 10 number := by
    intro number member
    exact absurd ((Numeral.isDigits_toDigits number).2 ':' member) (by decide)
  have split : (rangeText first last).toList.splitOn ':' =
      [Nat.toDigits 10 first, Nat.toDigits 10 last] := by
    rw [toList_rangeText, List.splitOn_append_cons_self_of_not_mem (noColon first),
      List.splitOn_eq_singleton (noColon last)]
  rw [range?, split]
  simp only [Numeral.literal?_toDigits (Nat.lt_of_le_of_lt ordered short),
    Numeral.literal?_toDigits short]
  rfl

theorem readImage_name {name : String} {words : List Int} (plain : IsFileName name)
    (inRange : forall word, word ∈ words -> 0 ≤ word ∧ word ≤ 65535)
    (present : workspace.node? (name :: workspace.home) =
      some (.file (renderWords words).toUTF8)) :
    readImage workspace name = .ok words := by
  have read : loadImage (String.ofList (Text.unifyLineEnds (renderWords words).toList)) =
      .ok words := by
    rw [← loadImage_renderWords inRange, loadImage, loadImage, String.toList_ofList,
      Text.lines_unifyLineEnds]
  rw [readImage, readText_name plain present]
  simp only [read]

theorem wellDeclared_dumpParameters : WellDeclared dumpParameters :=
  ⟨by decide, by decide, by decide⟩

theorem exists_dumpRequest_of_names (documented : frontend.Documented) {image table : String}
    {content : ByteArray} (imageName : IsFileArgument image) (tableName : IsFileArgument table)
    (present : workspace.node? (image :: workspace.home) = some (.file content))
    (free : workspace.node? (table :: workspace.home) ≠ some .directory) (first last : Nat) :
    Exists fun values =>
      frontend.read dumpParameters workspace [image, table, rangeText first last] =
          .values values ∧
        dumpRequest values = ⟨image, table, rangeText first last⟩ := by
  have tells : Tells dumpParameters [image, table, rangeText first last]
      [image, table, rangeText first last] [] :=
    .argument image imageName.argument (.argument table tableName.argument
      (.argument _ (head?_rangeText first last) .nothing))
  have taken : Taken dumpParameters workspace [image, table, rangeText first last] [] := by
    constructor
    · exact .cons (takes_of_file imageName.plain present true)
        (.cons (takes_of_free tableName.plain free) (.cons trivial .nil))
    · intro name spellings kind help value _ given
      cases given
  rcases documented.reads _ _ _ _ _ wellDeclared_dumpParameters tells taken with
    ⟨values, reading, follow⟩
  refine ⟨values, reading, ?_⟩
  rw [dumpRequest, ← Option.some.inj (follow.argument 0 "image" (.file true) rfl),
    ← Option.some.inj (follow.argument 1 "dump_csv" (.file false) rfl),
    ← Option.some.inj (follow.argument 2 "mem_range" .text rfl)]

theorem performDump_of_names {image table : String} {words : List Int} {first last : Nat}
    (imageName : IsFileName image) (tableName : IsFileName table)
    (inRange : forall word, word ∈ words -> 0 ≤ word ∧ word ≤ 65535)
    (present : workspace.node? (image :: workspace.home) =
      some (.file (renderWords words).toUTF8))
    (free : workspace.node? (table :: workspace.home) ≠ some .directory)
    (ordered : first ≤ last) (within : last < words.length)
    (short : last < Nat.pow 10 Numeral.digitLimit) :
    performDump workspace ⟨image, table, rangeText first last⟩ =
      { ending := .returned
        output := ["Dumped " ++ Numeral.decimal ((last : Int) - first + 1) ++ " words to " ++ table]
        errors := []
        workspace := workspace.put (table :: workspace.home) (.file (String.join (tableHeader ::
          (List.range' first (last + 1 - first)).map fun position : Nat =>
            wordRow position (words.getD position 0))).toUTF8) } := by
  have checked : checkedRange workspace ⟨image, table, rangeText first last⟩ =
      .ok (words, (first : Int), (last : Int)) := by
    have inside : (0 : Int) ≤ first ∧ (first : Int) ≤ last ∧ (last : Int) < words.length := by
      omega
    rw [checkedRange, range?_rangeText ordered short]
    simp only [readImage_name imageName inRange present, bind, Except.bind, if_pos inside]
  rw [performDump, checked]
  simp only
  rw [imageTable_within ordered within, Workspace.write_name tableName free]
  rfl

theorem dumpCommand_of_names (documented : frontend.Documented) {image table : String}
    {words : List Int} {first last : Nat}
    (imageName : IsFileArgument image) (tableName : IsFileArgument table)
    (inRange : forall word, word ∈ words -> 0 ≤ word ∧ word ≤ 65535)
    (present : workspace.node? (image :: workspace.home) =
      some (.file (renderWords words).toUTF8))
    (free : workspace.node? (table :: workspace.home) ≠ some .directory)
    (ordered : first ≤ last) (within : last < words.length)
    (short : last < Nat.pow 10 Numeral.digitLimit) :
    dumpCommand frontend workspace [image, table, rangeText first last] =
      { ending := .returned
        output := ["Dumped " ++ Numeral.decimal ((last : Int) - first + 1) ++ " words to " ++ table]
        errors := []
        workspace := workspace.put (table :: workspace.home) (.file (String.join (tableHeader ::
          (List.range' first (last + 1 - first)).map fun position : Nat =>
            wordRow position (words.getD position 0))).toUTF8) } := by
  rcases exists_dumpRequest_of_names documented imageName tableName present free first last with
    ⟨values, reading, request⟩
  rw [dumpCommand, runCommand, reading]
  simp only [request]
  exact performDump_of_names imageName.plain tableName.plain inRange present free ordered within
    short

/-! ## Assembling and dumping -/

/-- A source text that assembles is stored in a file of the working directory, with any line
ends.  Under any front end that does what is documented of it, assembling the file writes the
image of the text as an image file, whether or not problems were found.  The command ends with
zero when there are none and with one otherwise, and prints their messages as errors, one on a
line.  Dumping any range of positions of the image file then ends with zero and writes a table
of exactly these positions: each row holds the position, the word of the image in binary, and
its reading. -/
theorem commands_agree (frontend : Frontend) (documented : frontend.Documented)
    (text stored : String) (assembly : Assembly) (workspace : Workspace)
    (first last : Nat) (assembled dumped : Outcome)
    (returned : assemble text = .ok assembly)
    (sameText : Text.unifyLineEnds stored.toList = Text.unifyLineEnds text.toList)
    (present : workspace.node? ("prog.txt" :: workspace.home) = some (.file stored.toUTF8))
    (imageFree : workspace.node? ("img.txt" :: workspace.home) ≠ some .directory)
    (tableFree : workspace.node? ("d.csv" :: workspace.home) ≠ some .directory)
    (ordered : first ≤ last) (within : last ≤ 255)
    (assembling :
      assembleCommand frontend workspace ["prog.txt", "-o", "img.txt"] = assembled)
    (dumping : dumpCommand frontend assembled.workspace
      ["img.txt", "d.csv", Numeral.decimal first ++ ":" ++ Numeral.decimal last] = dumped) :
    (assembled.workspace.node? ("img.txt" :: workspace.home) =
        some (.file (renderWords assembly.image).toUTF8) ∧
      frontend.exitCode assembled.ending = (if assembly.diagnostics.count = 0 then 0 else 1) ∧
      assembled.failure? = none ∧
      assembled.errors = assembly.diagnostics.messages ∧
      linesText assembled.errors =
        String.join (assembly.diagnostics.messages.map fun message => message ++ "\n")) ∧
      assembly.image.length = 256 ∧
      frontend.exitCode dumped.ending = 0 ∧ dumped.failure? = none ∧
      dumped.workspace.node? ("d.csv" :: workspace.home) =
        some (.file (String.join ("position,word,instruction\r\n" ::
          (List.range' first (last + 1 - first)).map fun position : Nat =>
            tableRow [Numeral.decimal position, wordText (assembly.image.getD position 0),
              (Instruction.decode (assembly.image.getD position 0)).text])).toUTF8) := by
  have length : assembly.image.length = 256 := by
    rw [image_eq_buildImage returned]
    exact length_buildImage _
  have inRange : forall word, word ∈ assembly.image -> 0 ≤ word ∧ word ≤ 65535 := by
    intro word member
    have bounds := image_bounds returned member
    omega
  have small : last < 1000 := by omega
  have limit : 3 ≤ Numeral.digitLimit := by decide
  have short : last < Nat.pow 10 Numeral.digitLimit :=
    Nat.lt_of_lt_of_le small (Numeral.pow_ten_le limit)
  have header : tableHeader = "position,word,instruction\r\n" := by decide +kernel
  have sourceName : IsFileArgument "prog.txt" := by decide +kernel
  have imageName : IsFileArgument "img.txt" := by decide +kernel
  have tableName : IsFileArgument "d.csv" := by decide +kernel
  rw [assembleCommand_of_names documented sourceName imageName (by decide +kernel) present
    imageFree sameText returned] at assembling
  subst assembling
  have placed := Workspace.node?_put_self (workspace.not_suffix_home "img.txt")
    (.file (renderWords assembly.image).toUTF8)
  have otherFree : (workspace.put ("img.txt" :: workspace.home)
      (.file (renderWords assembly.image).toUTF8)).node? ("d.csv" :: workspace.home) ≠
        some .directory := by
    rwa [Workspace.node?_put_of_ne _ (by simp)]
  rw [← rangeText, dumpCommand_of_names documented imageName tableName inRange placed otherFree
    ordered (by omega) short, header] at dumping
  subst dumping
  refine ⟨⟨placed, ?_, ?_, rfl, rfl⟩, length, documented.returned, rfl,
    Workspace.node?_put_self (Workspace.not_suffix_home _ "d.csv") _⟩
  · exact exitCode_of_messages documented _
  · exact failure?_of_messages _ _ _ _

/-- A working directory below the root that holds one source file. -/
def sourceWorkspace : Workspace :=
  ⟨["work"], usualLimits, [(["prog.txt", "work"], .file "x\r\nli r1, 5".toUTF8)]⟩

/-- A source with another style of line ends and an unknown command on its first line. -/
theorem commands_agree_of_sample :
    conventional.Documented ∧
      Exists fun assembled : Outcome => Exists fun dumped : Outcome =>
        assembleCommand conventional sourceWorkspace ["prog.txt", "-o", "img.txt"] = assembled ∧
          dumpCommand conventional assembled.workspace ["img.txt", "d.csv", "0:0"] = dumped ∧
          conventional.exitCode assembled.ending = 1 ∧
          linesText assembled.errors = "ERROR in Line 1: No Matching Command found!\n" ∧
          conventional.exitCode dumped.ending = 0 ∧
          dumped.workspace.node? ["d.csv", "work"] =
            some (.file ("position,word,instruction\r\n" ++
              "0,1010000100000101,\"li r1, 5\"\r\n").toUTF8) := by
  rcases exists_assembly_of_map "x\nli r1, 5"
    (fun assembly => (assembly.diagnostics.messages, assembly.image.getD 0 0))
    (show _ = some (["ERROR in Line 1: No Matching Command found!"], 41221) by decide +kernel)
    with ⟨assembly, returned, read⟩
  rcases Prod.mk.inj read with ⟨messages, word⟩
  have range : Numeral.decimal (0 : Nat) ++ ":" ++ Numeral.decimal (0 : Nat) = "0:0" := by
    decide +kernel
  have agree := commands_agree conventional documented_conventional "x\nli r1, 5"
    "x\r\nli r1, 5" assembly sourceWorkspace 0 0 _ _ returned (by decide +kernel) rfl
    (fun held => nomatch held) (fun held => nomatch held) (by decide) (by decide) rfl rfl
  rw [range] at agree
  rcases agree with ⟨⟨-, exit, -, -, printed⟩, -, success, -, table⟩
  refine ⟨documented_conventional, _, _, rfl, rfl, ?_, ?_, success, ?_⟩
  · rw [exit, Diagnostics.count, messages]
    rfl
  · rw [printed, messages]
    rfl
  · exact table.trans (by rw [List.range'_one, List.map_singleton, word]; rfl)

end CommandLine
end NibbleMachine
