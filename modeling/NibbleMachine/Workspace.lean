import NibbleMachine.Path

namespace NibbleMachine

/-!
# Workspaces

A workspace is a file system as a command sees it: directories and files, and
the working directory from which written paths start unless they start with a
slash.  A location lists the names on the way from the root, innermost first, so
the root is the empty list, and two dots lead from the root to the root.  The
working directory and those around it always exist.  There are no links, and
every file may be read and written.

A written path is followed component by component.  Every component but the
last must be a directory, and so must the last when a slash or a dot follows.
How long names and paths may be, and how many directories may be made for one
path, differs from system to system; a workspace carries these limits.
-/

/-- The way from the root, innermost name first. -/
abbrev Location := List String

/-- What a location may hold. -/
inductive Node where
  | directory
  | file (content : ByteArray)

inductive FileError where
  | notFound
  | notDirectory
  | isDirectory
  | nameTooLong
  | tooDeep
  | nullCharacter
  | notText
deriving DecidableEq, Repr

/-- The limits of a file system: the greatest number of bytes of a name, the number of
bytes from which on a path is refused, and the greatest number of components that may
be missing from a path when directories are made for it.  Every system allows names of
fourteen bytes, and each of its names as a path. -/
structure Limits where
  name : Nat
  path : Nat
  depth : Nat
  names_allowed : 14 ≤ name
  paths_allowed : name < path

/-- A working directory, the limits, and the locations that hold something. -/
structure Workspace where
  home : Location
  limits : Limits
  nodes : List (Location × Node)

namespace Workspace

def node? (workspace : Workspace) (location : Location) : Option Node :=
  if location <:+ workspace.home then some .directory
  else (workspace.nodes.find? fun entry => entry.1 == location).map Prod.snd

/-- Put a node among the entries, in the place of an earlier one. -/
def putEntry (location : Location) (node : Node) :
    List (Location × Node) -> List (Location × Node)
  | [] => [(location, node)]
  | entry :: rest =>
      if entry.1 = location then (location, node) :: rest
      else entry :: putEntry location node rest

def put (workspace : Workspace) (location : Location) (node : Node) : Workspace :=
  { workspace with nodes := putEntry location node workspace.nodes }

/-- Put a node at a location that holds nothing. -/
def add (workspace : Workspace) (location : Location) (node : Node) : Workspace :=
  { workspace with nodes := workspace.nodes ++ [(location, node)] }

/-- The location that a component leads to from a directory. -/
def step (location : Location) (component : String) : Location :=
  if component = "" ∨ component = "." then location
  else if component = ".." then location.tail
  else component :: location

/-- The location that a path starts from. -/
def origin (workspace : Workspace) (rooted : Bool) : Location :=
  if rooted then [] else workspace.home

/-- Check a written path before it is followed. -/
def checkText (workspace : Workspace) (path : String) : Except FileError Unit :=
  if path.toList.contains (Char.ofNat 0) then .error .nullCharacter
  else if workspace.limits.path ≤ path.utf8ByteSize then .error .nameTooLong
  else .ok ()

/-- Follow components from a location, each from a directory. -/
def walk (workspace : Workspace) : Location -> List String -> Except FileError Location
  | location, [] => .ok location
  | location, component :: rest =>
      match workspace.node? location with
      | none => .error .notFound
      | some (.file _) => .error .notDirectory
      | some .directory =>
          if workspace.limits.name < component.utf8ByteSize then .error .nameTooLong
          else walk workspace (step location component) rest

/-- What components lead to from a location. -/
def find (workspace : Workspace) (start : Location) (components : List String) :
    Except FileError (Location × Node) := do
  let location ← workspace.walk start components
  match workspace.node? location with
  | some node => return (location, node)
  | none => .error .notFound

/-- The location of the directory that components lead to. -/
def directory (workspace : Workspace) (start : Location) (components : List String) :
    Except FileError Location := do
  match ← workspace.find start components with
  | (location, .directory) => return location
  | (_, .file _) => .error .notDirectory

/-- A written path cut into its components, with the location that it starts from. -/
def follow (workspace : Workspace) (path : String) :
    Except FileError (Location × List String) := do
  workspace.checkText path
  if path.isEmpty then .error .notFound
  else return (workspace.origin (path.startsWith "/"), pathComponents path)

def lookup (workspace : Workspace) (path : String) : Except FileError Node := do
  let (start, components) ← workspace.follow path
  return (← workspace.find start components).2

def read (workspace : Workspace) (path : String) : Except FileError ByteArray := do
  match ← workspace.lookup path with
  | .file content => return content
  | .directory => .error .isDirectory

/-- Give the file of a name in a directory a new content, or make it. -/
def placeFile (workspace : Workspace) (parent : Location) (name : String)
    (content : ByteArray) : Except FileError Workspace :=
  if name = "." ∨ name = ".." then .error .isDirectory
  else if workspace.limits.name < name.utf8ByteSize then .error .nameTooLong
  else
    match workspace.node? (name :: parent) with
    | some .directory => .error .isDirectory
    | _ => .ok (workspace.put (name :: parent) (.file content))

/-- Give the file that a written path leads to a new content, or make it.  The
directory around it must exist. -/
def write (workspace : Workspace) (path : String) (content : ByteArray) :
    Except FileError Workspace := do
  let (start, components) ← workspace.follow path
  match components.reverse.dropWhile fun component => component == "" with
  | [] => .error .isDirectory
  | last :: outer =>
      let parent ← workspace.directory start outer.reverse
      if components.getLast? = some "" then .error .isDirectory
      else workspace.placeFile parent last content

/-- Follow components from a directory and make the directories that are missing.
What was made before an error stays. -/
def makeMissing (workspace : Workspace) (location : Location) :
    List String -> Workspace × Except FileError Location
  | [] => (workspace, .ok location)
  | component :: rest =>
      let next := step location component
      match workspace.node? next with
      | some .directory => makeMissing workspace next rest
      | some (.file _) => (workspace, .error .notDirectory)
      | none =>
          if workspace.limits.name < component.utf8ByteSize then (workspace, .error .nameTooLong)
          else if workspace.limits.depth < rest.length + 1 then (workspace, .error .tooDeep)
          else makeMissing (workspace.add next .directory) next rest

/-- Make a directory and all that are missing around it. -/
def makeDirectories (workspace : Workspace) (path : Path) :
    Workspace × Except FileError Location :=
  match workspace.checkText path.toString with
  | .error error => (workspace, .error error)
  | .ok _ => makeMissing workspace (workspace.origin path.isRooted) path.parts

/-- Write a file, making the directories that are missing around it. -/
def writeWithDirectories (workspace : Workspace) (path : Path) (content : ByteArray) :
    Workspace × Option FileError :=
  match workspace.makeDirectories path.parent with
  | (around, .error error) => (around, some error)
  | (around, .ok parent) =>
      let written := do
        around.checkText path.toString
        around.placeFile parent (path.parts.getLastD ".") content
      match written with
      | .ok changed => (changed, none)
      | .error error => (around, some error)

/-- The files whose content differs from an earlier workspace, or that were not
there. -/
def changedFiles (before after : Workspace) : List (Location × ByteArray) :=
  after.nodes.filterMap fun entry =>
    match entry.2, before.node? entry.1 with
    | .directory, _ => none
    | .file content, some (.file earlier) =>
        if content.data = earlier.data then none else some (entry.1, content)
    | .file content, _ => some (entry.1, content)

/-- Add directories at a location and around it. -/
def addDirectories (workspace : Workspace) : Location -> Workspace
  | [] => workspace
  | name :: outer =>
      let around := workspace.addDirectories outer
      match around.node? (name :: outer) with
      | some _ => around
      | none => around.add (name :: outer) .directory

def locate (workspace : Workspace) (path : String) : Location :=
  (pathComponents path).foldl step (workspace.origin (path.startsWith "/"))

def withDirectory (workspace : Workspace) (path : String) : Workspace :=
  workspace.addDirectories (workspace.locate path)

def withFile (workspace : Workspace) (path : String) (content : ByteArray) : Workspace :=
  let location := workspace.locate path
  (workspace.addDirectories location.tail).put location (.file content)

end Workspace

end NibbleMachine
