import NibbleMachine.Workspace

namespace NibbleMachine

/-!
# Files of the working directory

Most paths that a command is given are plain names of files in the working
directory.  Following such a path is one step, so every operation on files
comes down to what the workspace holds at one location: reading gives the
content found there, and writing, whether or not it would make directories,
puts a content there.  Writing is refused only where a directory stands.  A
name of at most fourteen bytes is within the limits of every workspace.

A written file is found again with the content it was given, and no other
location is touched.
-/

namespace Workspace

/-! ## Entries -/

theorem find?_putEntry_self (location : Location) (node : Node)
    (entries : List (Location × Node)) :
    (putEntry location node entries).find? (fun entry => entry.1 == location) =
      some (location, node) := by
  induction entries with
  | nil => simp [putEntry]
  | cons entry rest inductionHypothesis =>
      by_cases same : entry.1 = location
      · simp [putEntry, same]
      · rw [putEntry, if_neg same, List.find?_cons_of_neg (by simpa using same)]
        exact inductionHypothesis

theorem find?_putEntry_of_ne {location other : Location} (different : other ≠ location)
    (node : Node) (entries : List (Location × Node)) :
    (putEntry location node entries).find? (fun entry => entry.1 == other) =
      entries.find? (fun entry => entry.1 == other) := by
  induction entries with
  | nil => simp [putEntry, different.symm]
  | cons entry rest inductionHypothesis =>
      by_cases same : entry.1 = location
      · rw [putEntry, if_pos same, List.find?_cons_of_neg (by simpa using different.symm),
          List.find?_cons_of_neg (by simpa [same] using different.symm)]
      · rw [putEntry, if_neg same, List.find?_cons, List.find?_cons, inductionHypothesis]

theorem node?_home (workspace : Workspace) : workspace.node? workspace.home = some .directory :=
  if_pos (List.suffix_refl _)

/-- A location inside the working directory is not one around it. -/
theorem not_suffix_home (workspace : Workspace) (name : String) :
    ¬ name :: workspace.home <:+ workspace.home := by
  intro around
  have length := around.length_le
  rw [List.length_cons] at length
  omega

/-- A workspace holds what was put last.  The working directory and those around it cannot
be replaced. -/
theorem node?_put_self {workspace : Workspace} {location : Location}
    (outside : ¬ location <:+ workspace.home) (node : Node) :
    (workspace.put location node).node? location = some node := by
  have alsoOutside : ¬ location <:+ (workspace.put location node).home := outside
  rw [node?, if_neg alsoOutside, put, find?_putEntry_self]
  rfl

/-- Putting a node changes one location only. -/
theorem node?_put_of_ne (workspace : Workspace) {location other : Location}
    (different : other ≠ location) (node : Node) :
    (workspace.put location node).node? other = workspace.node? other := by
  rw [node?, node?, put, find?_putEntry_of_ne different]

/-! ## Names -/

/-- Every file system allows short paths. -/
theorem checkText_of_short (workspace : Workspace) {path : String}
    (noNull : Char.ofNat 0 ∉ path.toList) (short : path.utf8ByteSize ≤ 14) :
    workspace.checkText path = .ok () := by
  have fits : ¬ workspace.limits.path ≤ path.utf8ByteSize := by
    have names := workspace.limits.names_allowed
    have paths := workspace.limits.paths_allowed
    omega
  rw [checkText, if_neg (by simpa using noNull), if_neg fits]

/-- The name of a file in the working directory: a path of one component that is neither
empty nor made of dots, and that every file system allows. -/
structure IsFileName (name : String) : Prop where
  single : '/' ∉ name.toList
  nonempty : name ≠ ""
  notHere : name ≠ "."
  notAbove : name ≠ ".."
  noNull : Char.ofNat 0 ∉ name.toList
  short : name.utf8ByteSize ≤ 14

instance decidableIsFileName (name : String) : Decidable (IsFileName name) :=
  decidable_of_iff ('/' ∉ name.toList ∧ name ≠ "" ∧ name ≠ "." ∧ name ≠ ".." ∧
      Char.ofNat 0 ∉ name.toList ∧ name.utf8ByteSize ≤ 14)
    ⟨fun ⟨single, nonempty, notHere, notAbove, noNull, short⟩ =>
        ⟨single, nonempty, notHere, notAbove, noNull, short⟩,
      fun ⟨single, nonempty, notHere, notAbove, noNull, short⟩ =>
        ⟨single, nonempty, notHere, notAbove, noNull, short⟩⟩

namespace IsFileName

variable {name : String}

theorem pathComponents_eq (plain : IsFileName name) : pathComponents name = [name] := by
  rw [pathComponents, List.splitOn_eq_singleton plain.single, List.map_singleton,
    String.ofList_toList]

theorem not_startsWith (plain : IsFileName name) : name.startsWith "/" = false := by
  rw [String.startsWith_string_eq_false_iff]
  intro rooted
  exact plain.single (rooted.subset (by decide))

theorem not_limit_lt (plain : IsFileName name) (limits : Limits) :
    ¬ limits.name < name.utf8ByteSize :=
  Nat.not_lt.mpr (Nat.le_trans plain.short limits.names_allowed)

theorem checkText_eq (plain : IsFileName name) (workspace : Workspace) :
    workspace.checkText name = .ok () :=
  workspace.checkText_of_short plain.noNull plain.short

theorem follow_eq (plain : IsFileName name) (workspace : Workspace) :
    workspace.follow name = .ok (workspace.home, [name]) := by
  have filled : name.isEmpty = false := by simpa using plain.nonempty
  simp only [follow, plain.checkText_eq, bind, Except.bind, filled, Bool.false_eq_true, if_false,
    plain.not_startsWith, plain.pathComponents_eq]
  rfl

theorem ofString_eq (plain : IsFileName name) : Path.ofString name = ⟨"", [name]⟩ := by
  have root : Path.rootOf name.toList = "" := by
    have relative : name.toList.takeWhile (fun c => c == '/') = [] := by
      cases shape : name.toList with
      | nil => rfl
      | cons c rest =>
          have other : c ≠ '/' := by
            rintro rfl
            exact plain.single (by simp [shape])
          simp [other]
    rw [Path.rootOf, relative]
    rfl
  have kept : ([name].filter fun part => !(part == "" || part == ".")) = [name] := by
    simp [plain.nonempty, plain.notHere]
  rw [Path.ofString, root, plain.pathComponents_eq, kept]

theorem toString_eq (plain : IsFileName name) : (Path.ofString name).toString = name := by
  rw [plain.ofString_eq, Path.toString, if_neg (by simp)]
  rfl

theorem step_eq (plain : IsFileName name) (location : Location) :
    step location name = name :: location := by
  simp [step, plain.nonempty, plain.notHere, plain.notAbove]

end IsFileName

/-! ## Operations on named files -/

variable {workspace : Workspace} {name : String}

theorem walk_name (plain : IsFileName name) :
    workspace.walk workspace.home [name] = .ok (name :: workspace.home) := by
  rw [walk, node?_home]
  simp only
  rw [if_neg (plain.not_limit_lt workspace.limits), plain.step_eq, walk]

/-- What a name leads to is what the workspace holds at its location. -/
theorem lookup_name (plain : IsFileName name) :
    workspace.lookup name =
      match workspace.node? (name :: workspace.home) with
      | some node => .ok node
      | none => .error .notFound := by
  rw [lookup, plain.follow_eq]
  simp only [bind, Except.bind, find, walk_name plain]
  cases workspace.node? (name :: workspace.home) <;> rfl

theorem read_name (plain : IsFileName name) {content : ByteArray}
    (present : workspace.node? (name :: workspace.home) = some (.file content)) :
    workspace.read name = .ok content := by
  rw [read, lookup_name plain, present]
  rfl

theorem directory_home (workspace : Workspace) :
    workspace.directory workspace.home [] = .ok workspace.home := by
  simp only [directory, find, walk, bind, Except.bind, node?_home]
  rfl

theorem placeFile_name (plain : IsFileName name)
    (free : workspace.node? (name :: workspace.home) ≠ some .directory) (content : ByteArray) :
    workspace.placeFile workspace.home name content =
      .ok (workspace.put (name :: workspace.home) (.file content)) := by
  rw [placeFile, if_neg (by simp [plain.notHere, plain.notAbove]),
    if_neg (plain.not_limit_lt workspace.limits)]
  cases held : workspace.node? (name :: workspace.home) with
  | none => rfl
  | some node =>
      cases node with
      | directory => exact absurd held free
      | file earlier => rfl

theorem write_name (plain : IsFileName name)
    (free : workspace.node? (name :: workspace.home) ≠ some .directory) (content : ByteArray) :
    workspace.write name content =
      .ok (workspace.put (name :: workspace.home) (.file content)) := by
  have shape : ([name].reverse.dropWhile fun component => component == "") = [name] := by
    simp [plain.nonempty]
  have filled : ([name] : List String).getLast? ≠ some "" := by simp [plain.nonempty]
  rw [write, plain.follow_eq]
  simp only [bind, Except.bind, shape, List.reverse_nil, directory_home]
  rw [if_neg filled, placeFile_name plain free]

/-- No directory is missing around a file of the working directory. -/
theorem writeWithDirectories_name (plain : IsFileName name)
    (free : workspace.node? (name :: workspace.home) ≠ some .directory) (content : ByteArray) :
    workspace.writeWithDirectories (Path.ofString name) content =
      (workspace.put (name :: workspace.home) (.file content), none) := by
  have around : workspace.makeDirectories (Path.ofString name).parent =
      (workspace, .ok workspace.home) := by
    have here : workspace.checkText (Path.toString ⟨"", []⟩) = .ok () :=
      workspace.checkText_of_short (by decide) (by decide)
    rw [plain.ofString_eq, makeDirectories, Path.parent, List.dropLast_singleton, here]
    rfl
  have last : (Path.ofString name).parts.getLastD "." = name := by
    rw [plain.ofString_eq]
    rfl
  simp only [writeWithDirectories, around, plain.toString_eq, plain.checkText_eq, last,
    placeFile_name plain free, bind, Except.bind]

end Workspace

end NibbleMachine
