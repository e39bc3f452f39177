import NibbleMachine.Proofs.CommandLine

namespace NibbleMachine

/-!
# What the commands write

A command may fail at many places: its front end may refuse the words, or its own
checks the values, and then there is reading, the work, and at last writing.  Wherever
that is, the files of the workspace are as they were before.  Directories made for a
file that is then refused may stay, but no file is made or changed.  This holds for
every front end, as none of them sees more than the words and what is there.

Both commands open their output after everything else that can fail.  What could
still go wrong is a table that breaks off between its rows, which would leave a part
of it behind.  It does not happen, since a range that passes its check lies inside
the image, where every position has a word.

So a command without a failure has written one file, the whole of it, at the location
that its output path leads to, and no other.
-/

namespace Workspace

/-- The location that a path leads to. -/
def target (workspace : Workspace) (path : Path) : Location :=
  path.parts.foldl step (workspace.origin path.isRooted)

variable {before after : Workspace}

/-! ## Files -/

def file? (workspace : Workspace) (location : Location) : Option ByteArray :=
  match workspace.node? location with
  | some (.file content) => some content
  | _ => none

/-- No file was made, changed or removed. -/
def SameFiles (before after : Workspace) : Prop :=
  forall location, after.file? location = before.file? location

/-- The file at one location has been given a content, and no other file was made,
changed or removed. -/
structure Wrote (before after : Workspace) (location : Location) (content : ByteArray) : Prop where
  written : after.file? location = some content
  others : forall other, other ≠ location -> after.file? other = before.file? other

theorem file?_of_node?_eq {location : Location}
    (same : after.node? location = before.node? location) :
    after.file? location = before.file? location := by
  rw [file?, file?, same]

theorem node?_add (workspace : Workspace) (location : Location) (node : Node) (other : Location) :
    (workspace.add location node).node? other =
      (workspace.node? other).or (if location = other then some node else none) := by
  have home : (workspace.add location node).home = workspace.home := rfl
  rw [node?, node?, home]
  by_cases around : other <:+ workspace.home
  · rw [if_pos around, if_pos around]
    rfl
  · rw [if_neg around, if_neg around, add, List.find?_append, Option.map_or]
    by_cases same : location = other
    · simp [same]
    · simp [same]

/-- A new directory is not a file. -/
theorem sameFiles_add_directory (workspace : Workspace) (location : Location) :
    SameFiles workspace (workspace.add location .directory) := by
  intro other
  rw [file?, file?, node?_add]
  cases workspace.node? other with
  | some node => rfl
  | none => by_cases same : location = other <;> simp [same]

theorem wrote_put {workspace : Workspace} {location : Location}
    (outside : ¬ location <:+ workspace.home) (content : ByteArray) :
    Wrote workspace (workspace.put location (.file content)) location content where
  written := by rw [file?, node?_put_self outside]
  others := fun _ different => file?_of_node?_eq (node?_put_of_ne workspace different _)

theorem Wrote.of_sameFiles {middle : Workspace} {location : Location} {content : ByteArray}
    (same : SameFiles before middle) (wrote : Wrote middle after location content) :
    Wrote before after location content where
  written := wrote.written
  others := fun other different => (wrote.others other different).trans (same other)

/-! ## Locations of paths -/

theorem step_of_plain {component : String} (nonempty : component ≠ "") (notHere : component ≠ ".")
    (notAbove : component ≠ "..") (location : Location) :
    step location component = component :: location := by
  simp [step, nonempty, notHere, notAbove]

/-- Following components leads where they point, if it leads anywhere. -/
theorem walk_eq_ok {workspace : Workspace} {location reached : Location} {components : List String}
    (followed : workspace.walk location components = .ok reached) :
    reached = components.foldl step location := by
  induction components generalizing location with
  | nil => exact (Except.ok.inj followed).symm
  | cons component rest inductionHypothesis =>
      rw [walk] at followed
      split at followed
      · cases followed
      · cases followed
      · split at followed
        · cases followed
        · exact inductionHypothesis followed

theorem directory_eq_ok {workspace : Workspace} {start location : Location}
    {components : List String} (found : workspace.directory start components = .ok location) :
    location = components.foldl step start := by
  rcases exists_of_bind_eq_ok found with ⟨⟨reached, node⟩, leads, isDirectory⟩
  rcases exists_of_bind_eq_ok leads with ⟨walked, followed, held⟩
  cases node with
  | file content => cases isDirectory
  | directory =>
      cases isDirectory
      split at held
      · cases held
        exact walk_eq_ok followed
      · cases held

/-! ## Writing -/

/-- A file is put under a plain name. -/
theorem placeFile_eq_ok {workspace changed : Workspace} {parent : Location} {name : String}
    {content : ByteArray} (placed : workspace.placeFile parent name content = .ok changed) :
    name ≠ "." ∧ name ≠ ".." ∧ Wrote workspace changed (name :: parent) content := by
  unfold placeFile at placed
  split at placed
  · cases placed
  · next plain =>
      rw [not_or] at plain
      refine ⟨plain.1, plain.2, ?_⟩
      split at placed
      · cases placed
      · split at placed
        · cases placed
        · next notDirectory =>
            rw [← Except.ok.inj placed]
            exact wrote_put (fun around => notDirectory (if_pos around)) content

/-- The last component of a path that does not end with a slash. -/
theorem components_of_filled {components outer : List String} {last : String}
    (filled : components.getLast? ≠ some "")
    (trimmed : (components.reverse.dropWhile fun component => component == "") = last :: outer) :
    components = outer.reverse ++ [last] ∧ last ≠ "" := by
  have whole : components.reverse = last :: outer := by
    rw [← trimmed]
    cases shape : components.reverse with
    | nil => rfl
    | cons first rest =>
        have nonempty : first ≠ "" := by
          rintro rfl
          apply filled
          rw [← List.head?_reverse, shape]
          rfl
        rw [List.dropWhile_cons_of_neg (by simpa using nonempty)]
  have split : components = outer.reverse ++ [last] := by
    rw [← List.reverse_reverse components, whole, List.reverse_cons]
  refine ⟨split, ?_⟩
  rintro rfl
  apply filled
  rw [split, List.getLast?_concat]

theorem follow_eq_ok {workspace : Workspace} {path : String} {start : Location}
    {components : List String} (followed : workspace.follow path = .ok (start, components)) :
    start = workspace.origin (path.startsWith "/") ∧ components = pathComponents path := by
  rcases exists_of_bind_eq_ok followed with ⟨_, -, filled⟩
  split at filled
  · cases filled
  · cases filled
    exact ⟨rfl, rfl⟩

theorem write_eq_ok {workspace changed : Workspace} {path : String} {content : ByteArray}
    (written : workspace.write path content = .ok changed) :
    Exists fun outer => Exists fun last => Exists fun parent =>
      pathComponents path = outer ++ [last] ∧ last ≠ "" ∧
        workspace.directory (workspace.origin (path.startsWith "/")) outer = .ok parent ∧
        workspace.placeFile parent last content = .ok changed := by
  rcases exists_of_bind_eq_ok written with ⟨⟨start, components⟩, followed, around⟩
  rcases follow_eq_ok followed with ⟨rfl, rfl⟩
  dsimp only at around
  split at around
  · cases around
  · next last outer trimmed =>
      rcases exists_of_bind_eq_ok around with ⟨parent, found, placed⟩
      split at placed
      · cases placed
      · next filled =>
          rcases components_of_filled filled trimmed with ⟨split, nonempty⟩
          exact ⟨outer.reverse, last, parent, split, nonempty, found, placed⟩

/-- Writing a file gives it its content at the location of its path. -/
theorem wrote_of_write {workspace changed : Workspace} {path : String} {content : ByteArray}
    (written : workspace.write path content = .ok changed) :
    Wrote workspace changed (workspace.locate path) content := by
  rcases write_eq_ok written with ⟨outer, last, parent, split, nonempty, found, placed⟩
  rcases placeFile_eq_ok placed with ⟨notHere, notAbove, wrote⟩
  rw [locate, split, List.foldl_append, ← directory_eq_ok found, List.foldl_cons, List.foldl_nil,
    step_of_plain nonempty notHere notAbove]
  exact wrote

/-! ## Making directories -/

theorem sameFiles_makeMissing (workspace : Workspace) (location : Location)
    (components : List String) :
    SameFiles workspace (workspace.makeMissing location components).1 := by
  induction components generalizing workspace location with
  | nil => exact fun _ => rfl
  | cons component rest inductionHypothesis =>
      simp only [makeMissing]
      split
      · exact inductionHypothesis workspace _
      · exact fun _ => rfl
      · split
        · exact fun _ => rfl
        · split
          · exact fun _ => rfl
          · intro other
            rw [inductionHypothesis _ _ other, sameFiles_add_directory workspace _ other]

theorem makeMissing_eq_ok {workspace : Workspace} {location reached : Location}
    {components : List String}
    (made : (workspace.makeMissing location components).2 = .ok reached) :
    reached = components.foldl step location := by
  induction components generalizing workspace location with
  | nil => exact (Except.ok.inj made).symm
  | cons component rest inductionHypothesis =>
      simp only [makeMissing] at made
      split at made
      · exact inductionHypothesis made
      · cases made
      · split at made
        · cases made
        · split at made
          · cases made
          · exact inductionHypothesis made

theorem sameFiles_makeDirectories (workspace : Workspace) (path : Path) :
    SameFiles workspace (workspace.makeDirectories path).1 := by
  unfold makeDirectories
  split
  · exact fun _ => rfl
  · exact sameFiles_makeMissing workspace _ path.parts

theorem makeDirectories_eq_ok {workspace : Workspace} {path : Path} {location : Location}
    (made : (workspace.makeDirectories path).2 = .ok location) :
    location = workspace.target path := by
  unfold makeDirectories at made
  split at made
  · cases made
  · exact makeMissing_eq_ok made

theorem target_of_getLastD (workspace : Workspace) {path : Path} (filled : "" ∉ path.parts)
    (notHere : path.parts.getLastD "." ≠ ".") (notAbove : path.parts.getLastD "." ≠ "..") :
    workspace.target path = path.parts.getLastD "." :: workspace.target path.parent := by
  rcases path with ⟨root, parts⟩
  rcases List.eq_nil_or_concat parts with rfl | ⟨outer, last, rfl⟩
  · exact absurd rfl notHere
  · rw [List.concat_eq_append] at filled notHere notAbove ⊢
    rw [List.getLastD_concat] at notHere notAbove ⊢
    have nonempty : last ≠ "" := by
      rintro rfl
      exact filled (List.mem_append_right outer List.mem_cons_self)
    have sameRoot : (Path.mk root outer).isRooted = (Path.mk root (outer ++ [last])).isRooted := rfl
    rw [target, target, Path.parent, List.dropLast_concat, sameRoot, List.foldl_append,
      List.foldl_cons, List.foldl_nil, step_of_plain nonempty notHere notAbove]

/-- Writing a file, with directories made around it, either leaves all files alone or gives
the file its content at the location of its path. -/
theorem writeWithDirectories_cases (workspace : Workspace) {path : Path} (filled : "" ∉ path.parts)
    (content : ByteArray) :
    (Exists fun error => (workspace.writeWithDirectories path content).2 = some error ∧
        SameFiles workspace (workspace.writeWithDirectories path content).1) ∨
      (workspace.writeWithDirectories path content).2 = none ∧
        Wrote workspace (workspace.writeWithDirectories path content).1 (workspace.target path)
          content := by
  have same := sameFiles_makeDirectories workspace path.parent
  unfold writeWithDirectories
  cases made : workspace.makeDirectories path.parent with
  | mk around reached =>
      rw [made] at same
      cases reached with
      | error error => exact Or.inl ⟨error, rfl, same⟩
      | ok parent =>
          have location := makeDirectories_eq_ok (congrArg Prod.snd made)
          dsimp only at same ⊢
          split
          · next changed written =>
              rcases exists_of_bind_eq_ok written with ⟨_, -, placed⟩
              rcases placeFile_eq_ok placed with ⟨notHere, notAbove, wrote⟩
              rw [workspace.target_of_getLastD filled notHere notAbove, ← location]
              exact Or.inr ⟨rfl, wrote.of_sameFiles same⟩
          · next error _ => exact Or.inl ⟨error, rfl, same⟩

end Workspace

namespace CommandLine

open Workspace (SameFiles Wrote)

variable {workspace : Workspace}

/-! ## Outcomes -/

/-- A command that failed and left all files alone. -/
structure Outcome.Refused (workspace : Workspace) (outcome : Outcome) : Prop where
  failed : outcome.failure? ≠ none
  same : SameFiles workspace outcome.workspace

/-- A command that succeeded and wrote one file. -/
structure Outcome.Finished (workspace : Workspace) (outcome : Outcome) (location : Location)
    (content : ByteArray) : Prop where
  succeeded : outcome.failure? = none
  wrote : Wrote workspace outcome.workspace location content

theorem refused_failed (workspace : Workspace) (output : List String) (failure : Failure) :
    (Outcome.failed workspace output failure).Refused workspace where
  failed := Option.some_ne_none failure
  same := fun _ => rfl

/-- A command is refused, or it describes itself, or it does its work on values. -/
theorem runCommand_cases (frontend : Frontend) (parameters : List Parameter)
    (perform : Values -> Outcome) (workspace : Workspace) (words : List String) :
    (runCommand frontend parameters perform workspace words).Refused workspace ∨
      (Exists fun lines => frontend.read parameters workspace words = .described lines ∧
        (runCommand frontend parameters perform workspace words).failure? = none ∧
        (runCommand frontend parameters perform workspace words).workspace = workspace) ∨
      Exists fun values => frontend.read parameters workspace words = .values values ∧
        runCommand frontend parameters perform workspace words = perform values := by
  unfold runCommand
  cases frontend.read parameters workspace words with
  | refused refusal => exact Or.inl (refused_failed workspace _ _)
  | described lines => exact Or.inr (Or.inl ⟨lines, rfl, rfl, rfl⟩)
  | values values => exact Or.inr (Or.inr ⟨values, rfl, rfl⟩)

/-! ## The assembling command -/

/-- The image file is the one asked for, or that of the source when none was named. -/
theorem assembleRequest_output {values : Values} {request : AssembleRequest}
    (asked : assembleRequest values = .ok request) :
    request.output = defaultOutput request.source ∨
      Exists fun path => values.option "out" = some path ∧
        request.output = Path.ofString path := by
  unfold assembleRequest at asked
  by_cases text : (!(values.argument "src").endsWith ".txt") = true
  · rw [if_pos text] at asked
    cases asked
  · rw [if_neg text] at asked
    cases given : values.option "out" with
    | none =>
        rw [given] at asked
        cases asked
        exact Or.inl rfl
    | some path =>
        rw [given] at asked
        cases asked
        by_cases empty : path.isEmpty = true
        · exact Or.inl (if_pos empty)
        · exact Or.inr ⟨path, rfl, if_neg empty⟩

/-- Every part of an image path is a name or leads up. -/
theorem filled_output {values : Values} {request : AssembleRequest}
    (asked : assembleRequest values = .ok request) : "" ∉ request.output.parts := by
  rcases assembleRequest_output asked with default | ⟨path, -, given⟩
  · rw [default, defaultOutput]
    intro member
    simp only [List.mem_cons, List.not_mem_nil, or_false] at member
    rcases member with out | named
    · exact absurd out (by decide)
    · have ending : "_out.txt".length = 8 := by decide
      have length := congrArg String.length named
      rw [String.length_append, ending, String.length_empty] at length
      omega
  · rw [given, Path.ofString]
    intro member
    have kept := (List.mem_filter.mp member).2
    exact absurd kept (by decide)

theorem finishAssembly_cases {request : AssembleRequest} (filled : "" ∉ request.output.parts)
    (printed : List String) (assembly : Assembly) :
    (finishAssembly workspace request printed assembly).Refused workspace ∨
      (finishAssembly workspace request printed assembly).Finished workspace
        (workspace.target request.output) (renderWords assembly.image).toUTF8 := by
  have written := Workspace.writeWithDirectories_cases workspace filled
    (renderWords assembly.image).toUTF8
  unfold finishAssembly
  generalize workspace.writeWithDirectories request.output (renderWords assembly.image).toUTF8 =
    result at written
  rcases result with ⟨changed, error⟩
  rcases written with ⟨cause, rfl, same⟩ | ⟨rfl, wrote⟩
  · exact Or.inl ⟨Option.some_ne_none _, same⟩
  · exact Or.inr ⟨failure?_of_messages _ _ _ _, wrote⟩

theorem performAssemble_cases {request : AssembleRequest} (filled : "" ∉ request.output.parts) :
    (performAssemble workspace request).Refused workspace ∨
      Exists fun text => Exists fun assembly =>
        readText workspace request.source = .ok text ∧ assemble text = .ok assembly ∧
          (performAssemble workspace request).Finished workspace
            (workspace.target request.output) (renderWords assembly.image).toUTF8 := by
  unfold performAssemble
  cases read : readText workspace request.source with
  | error error => exact Or.inl (refused_failed workspace _ _)
  | ok text =>
      dsimp only
      cases assembled : assemble text with
      | error fault => exact Or.inl (refused_failed workspace _ _)
      | ok assembly =>
          rcases finishAssembly_cases filled _ assembly with refused | finished
          · exact Or.inl refused
          · exact Or.inr ⟨text, assembly, rfl, assembled, finished⟩

theorem assembleCommand_cases (frontend : Frontend) (workspace : Workspace)
    (words : List String) :
    (assembleCommand frontend workspace words).Refused workspace ∨
      (assembleCommand frontend workspace words).failure? = none ∧
        ((Exists fun lines =>
            frontend.read assembleParameters workspace words = .described lines ∧
              (assembleCommand frontend workspace words).workspace = workspace) ∨
          Exists fun values => Exists fun request => Exists fun text => Exists fun assembly =>
            frontend.read assembleParameters workspace words = .values values ∧
              assembleRequest values = .ok request ∧
              readText workspace request.source = .ok text ∧ assemble text = .ok assembly ∧
              Wrote workspace (assembleCommand frontend workspace words).workspace
                (workspace.target request.output) (renderWords assembly.image).toUTF8) := by
  unfold assembleCommand
  rcases runCommand_cases frontend assembleParameters _ workspace words with
    refused | ⟨lines, described, succeeded, same⟩ | ⟨values, read, performed⟩
  · exact Or.inl refused
  · exact Or.inr ⟨succeeded, Or.inl ⟨lines, described, same⟩⟩
  · rw [performed]
    cases asked : assembleRequest values with
    | error failure => exact Or.inl (refused_failed workspace _ _)
    | ok request =>
        rcases performAssemble_cases (filled_output asked) with
          refused | ⟨text, assembly, source, assembled, finished⟩
        · exact Or.inl refused
        · exact Or.inr ⟨finished.succeeded, Or.inr
            ⟨values, request, text, assembly, read, asked, source, assembled, finished.wrote⟩⟩

/-! ## The dumping command -/

/-- A range that passes its check lies inside the image. -/
theorem checkedRange_eq_ok {request : DumpRequest} {words : List Int} {first last : Int}
    (checked : checkedRange workspace request = .ok (words, first, last)) :
    0 ≤ first ∧ first ≤ last ∧ last < words.length := by
  unfold checkedRange at checked
  split at checked
  · cases checked
  · rcases exists_of_bind_eq_ok checked with ⟨read, -, afterReading⟩
    split at afterReading
    · next inside =>
        cases afterReading
        exact inside
    · cases afterReading

/-- The table of a checked range does not break off. -/
theorem complete_of_checkedRange {request : DumpRequest} {words : List Int} {first last : Int}
    (checked : checkedRange workspace request = .ok (words, first, last)) :
    (imageTable words first last).complete = true := by
  rcases checkedRange_eq_ok checked with ⟨least, ordered, within⟩
  rcases Int.eq_ofNat_of_zero_le least with ⟨start, rfl⟩
  rcases Int.eq_ofNat_of_zero_le (Int.le_trans least ordered) with ⟨stop, rfl⟩
  rw [imageTable_within (by omega) (by omega)]

theorem performDump_cases (workspace : Workspace) (request : DumpRequest) :
    (performDump workspace request).Refused workspace ∨
      Exists fun words => Exists fun first => Exists fun last =>
        checkedRange workspace request = .ok (words, first, last) ∧
          (performDump workspace request).Finished workspace (workspace.locate request.table)
            (imageTable words first last).text.toUTF8 := by
  unfold performDump
  cases checked : checkedRange workspace request with
  | error failure => exact Or.inl (refused_failed workspace _ _)
  | ok range =>
      rcases range with ⟨words, first, last⟩
      dsimp only
      cases written : workspace.write request.table (imageTable words first last).text.toUTF8 with
      | error error => exact Or.inl (refused_failed workspace _ _)
      | ok changed =>
          simp only [if_pos (complete_of_checkedRange checked)]
          exact Or.inr ⟨words, first, last, rfl, rfl, Workspace.wrote_of_write written⟩

theorem dumpCommand_cases (frontend : Frontend) (workspace : Workspace) (words : List String) :
    (dumpCommand frontend workspace words).Refused workspace ∨
      (dumpCommand frontend workspace words).failure? = none ∧
        ((Exists fun lines => frontend.read dumpParameters workspace words = .described lines ∧
            (dumpCommand frontend workspace words).workspace = workspace) ∨
          Exists fun values => Exists fun image => Exists fun first => Exists fun last =>
            frontend.read dumpParameters workspace words = .values values ∧
              checkedRange workspace (dumpRequest values) = .ok (image, first, last) ∧
              Wrote workspace (dumpCommand frontend workspace words).workspace
                (workspace.locate (dumpRequest values).table)
                (imageTable image first last).text.toUTF8) := by
  unfold dumpCommand
  rcases runCommand_cases frontend dumpParameters _ workspace words with
    refused | ⟨lines, described, succeeded, same⟩ | ⟨values, read, performed⟩
  · exact Or.inl refused
  · exact Or.inr ⟨succeeded, Or.inl ⟨lines, described, same⟩⟩
  · rw [performed]
    rcases performDump_cases workspace (dumpRequest values) with
      refused | ⟨image, first, last, inside, finished⟩
    · exact Or.inl refused
    · exact Or.inr ⟨finished.succeeded, Or.inr
        ⟨values, image, first, last, read, inside, finished.wrote⟩⟩

/-! ## Both commands -/

/-- Whatever the front end and the command line: a command that fails, wherever that is,
leaves every file as it was; a table whose range has passed its check is complete, so none is
left in parts.  A command that does not fail was asked for its description and changes
nothing, or it has written its output, the whole of it, at the location that its path leads
to from the working directory or from the root, and no other file was made or changed. -/
theorem commands_write_their_output_or_nothing (frontend : Frontend) (workspace : Workspace)
    (words : List String) :
    ((assembleCommand frontend workspace words).failure? ≠ none ->
        SameFiles workspace (assembleCommand frontend workspace words).workspace) ∧
      ((dumpCommand frontend workspace words).failure? ≠ none ->
        SameFiles workspace (dumpCommand frontend workspace words).workspace) ∧
      (forall (request : DumpRequest) (image : List Int) (first last : Int),
        checkedRange workspace request = .ok (image, first, last) ->
        (imageTable image first last).complete = true) ∧
      ((assembleCommand frontend workspace words).failure? = none ->
        (Exists fun lines =>
          frontend.read assembleParameters workspace words = .described lines ∧
            (assembleCommand frontend workspace words).workspace = workspace) ∨
        Exists fun values => Exists fun request => Exists fun text => Exists fun assembly =>
          frontend.read assembleParameters workspace words = .values values ∧
            assembleRequest values = .ok request ∧
            readText workspace request.source = .ok text ∧ assemble text = .ok assembly ∧
            Wrote workspace (assembleCommand frontend workspace words).workspace
              (workspace.target request.output) (renderWords assembly.image).toUTF8) ∧
      ((dumpCommand frontend workspace words).failure? = none ->
        (Exists fun lines => frontend.read dumpParameters workspace words = .described lines ∧
          (dumpCommand frontend workspace words).workspace = workspace) ∨
        Exists fun values => Exists fun image => Exists fun first => Exists fun last =>
          frontend.read dumpParameters workspace words = .values values ∧
            checkedRange workspace (dumpRequest values) = .ok (image, first, last) ∧
            Wrote workspace (dumpCommand frontend workspace words).workspace
              (workspace.locate (dumpRequest values).table)
              (imageTable image first last).text.toUTF8) := by
  refine ⟨?_, ?_, fun _ _ _ _ => complete_of_checkedRange, ?_, ?_⟩
  · intro failed
    rcases assembleCommand_cases frontend workspace words with refused | ⟨succeeded, -⟩
    · exact refused.same
    · exact absurd succeeded failed
  · intro failed
    rcases dumpCommand_cases frontend workspace words with refused | ⟨succeeded, -⟩
    · exact refused.same
    · exact absurd succeeded failed
  · intro succeeded
    rcases assembleCommand_cases frontend workspace words with refused | ⟨-, done⟩
    · exact absurd succeeded refused.failed
    · exact done
  · intro succeeded
    rcases dumpCommand_cases frontend workspace words with refused | ⟨-, done⟩
    · exact absurd succeeded refused.failed
    · exact done

/-- A workspace with a source and an image of one word. -/
def sampleWorkspace : Workspace :=
  ⟨["work"], usualLimits,
    [(["prog.txt", "work"], .file "x\r\nli r1, 5".toUTF8),
     (["img.txt", "work"], .file "0000000000000101".toUTF8)]⟩

/-- An image cannot be written below a file, and a range must lie inside an image.  With a
path from the root the image is written into directories made for it, although the source
has a problem. -/
theorem commands_write_their_output_or_nothing_of_samples :
    ((assembleCommand conventional sampleWorkspace
          ["prog.txt", "-o", "img.txt/sub/i.txt"]).failure? =
          some (.aborted "An Error occurred while writing the compiled Program!") ∧
        SameFiles sampleWorkspace (assembleCommand conventional sampleWorkspace
          ["prog.txt", "-o", "img.txt/sub/i.txt"]).workspace) ∧
      ((dumpCommand conventional sampleWorkspace ["img.txt", "d.csv", "0:1"]).failure? =
          some (rangeFailure "range must lie within 0:0") ∧
        SameFiles sampleWorkspace
          (dumpCommand conventional sampleWorkspace ["img.txt", "d.csv", "0:1"]).workspace) ∧
      Exists fun content =>
        Wrote sampleWorkspace
          (assembleCommand conventional sampleWorkspace
            ["prog.txt", "-o", "/tmp/x/i.txt"]).workspace
          ["i.txt", "x", "tmp"] content := by
  have below : (assembleCommand conventional sampleWorkspace
      ["prog.txt", "-o", "img.txt/sub/i.txt"]).failure? =
      some (.aborted "An Error occurred while writing the compiled Program!") := by decide +kernel
  have outside : (dumpCommand conventional sampleWorkspace ["img.txt", "d.csv", "0:1"]).failure? =
      some (rangeFailure "range must lie within 0:0") := by decide +kernel
  refine ⟨⟨below, ?_⟩, ⟨outside, ?_⟩, ?_⟩
  · apply (commands_write_their_output_or_nothing conventional sampleWorkspace _).1
    rw [below]
    exact Option.some_ne_none _
  · apply (commands_write_their_output_or_nothing conventional sampleWorkspace _).2.1
    rw [outside]
    exact Option.some_ne_none _
  · have output : (match conventional.read assembleParameters sampleWorkspace
          ["prog.txt", "-o", "/tmp/x/i.txt"] with
        | .values values => (assembleRequest values).toOption.map AssembleRequest.output
        | _ => none) = some ⟨"/", ["tmp", "x", "i.txt"]⟩ := by decide +kernel
    rcases (commands_write_their_output_or_nothing conventional sampleWorkspace
        ["prog.txt", "-o", "/tmp/x/i.txt"]).2.2.2.1 (by decide +kernel) with
      ⟨lines, described, -⟩ | ⟨values, request, text, assembly, read, asked, -, -, wrote⟩
    · rw [described] at output
      cases output
    · rw [read] at output
      simp only [asked] at output
      rw [Option.some.inj output] at wrote
      exact ⟨_, wrote⟩

end CommandLine

end NibbleMachine
