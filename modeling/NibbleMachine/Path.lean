namespace NibbleMachine

/-!
# Paths

A path is cut at slashes.  Empty components and single dots do not count; two
dots are kept, because only the file system knows what they lead to.  A path
that starts with a slash keeps its root, which is doubled exactly when two
slashes were written.
-/

/-- Cut a text at slashes, keeping the empty components. -/
def pathComponents (text : String) : List String :=
  (text.toList.splitOn '/').map String.ofList

/-- A path in normal form. -/
structure Path where
  root : String
  parts : List String
deriving DecidableEq, Repr

namespace Path

/-- The root of a path with the given characters. -/
def rootOf (text : List Char) : String :=
  match (text.takeWhile fun c => c == '/').length with
  | 0 => ""
  | 2 => "//"
  | _ => "/"

/-- The normal form of a written path. -/
def ofString (text : String) : Path where
  root := rootOf text.toList
  parts := (pathComponents text).filter fun part => !(part == "" || part == ".")

/-- A path as text; a path without root and parts is a single dot. -/
def toString (path : Path) : String :=
  if path.root = "" ∧ path.parts = [] then "."
  else path.root ++ String.intercalate "/" path.parts

def isRooted (path : Path) : Bool :=
  !path.root.isEmpty

/-- The last part, or nothing. -/
def name (path : Path) : String :=
  path.parts.getLastD ""

def parent (path : Path) : Path :=
  { path with parts := path.parts.dropLast }

/-- The part of a name before its last dot.  A dot at either end of the name
does not count. -/
def stemOf (name : List Char) : List Char :=
  let extension := (name.reverse.takeWhile fun c => c != '.').length
  let cut := name.length - extension - 1
  if 0 < cut && 0 < extension && extension < name.length then name.take cut else name

def stem (path : Path) : String :=
  String.ofList (stemOf path.name.toList)

end Path

/-- Where the image of a source file is written unless said otherwise. -/
def defaultOutput (source : String) : Path where
  root := ""
  parts := ["out", (Path.ofString source).stem ++ "_out.txt"]

end NibbleMachine
