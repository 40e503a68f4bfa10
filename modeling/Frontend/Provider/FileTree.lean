import Frontend.Provider.Basic
import Frontend.Provider.Path

/-!
# Files of a directory tree

A tree is a directory with the directories and files below it. Writing a file makes the
directories that its path goes through, also those that the path leaves again by going back, and
replaces a file that stands there. Paths are followed component by component: every component but
the last has to be a directory, also where the next one goes back. What stands outside the tree is
not known, so no name is found there, but a path may lead out of the tree and end at a directory.
-/

namespace Frontend

/-- Why a file cannot be read. -/
inductive FileError where
  | notFound
  | notADirectory
  | isADirectory
  | nameTooLong
  /-- A path with a character that no path may hold. -/
  | nulInPath
  /-- The bytes were asked for as text and are not UTF-8. -/
  | notText
  /-- Any other reason, in words. -/
  | other (reason : String)
  deriving DecidableEq, Repr

/-- The text of an error. -/
def FileError.message : FileError → String
  | notFound => "No such file or directory (os error 2)"
  | notADirectory => "Not a directory (os error 20)"
  | isADirectory => "Is a directory (os error 21)"
  | nameTooLong => "File name too long (os error 36)"
  | nulInPath => "file name contained an unexpected NUL byte"
  | notText => "stream did not contain valid UTF-8"
  | other reason => reason

/-- The error of a file that cannot be read. -/
def FileError.toError (e : FileError) : Error :=
  .unreadable e.message

/-- The provider of the files that a function reads. -/
def Provider.ofFiles (read : String → Except FileError Bytes) : Provider where
  readBytes path := (read path).mapError FileError.toError
  readText path := (do
    let bytes ← read path
    match Utf8.decode bytes with
    | .ok t => .ok t
    | .error _ => .error .notText : Except FileError Text).mapError FileError.toError

/-- The directory that paths start from. -/
def Path.working : String := "."

/-- A path seen from a directory; an absolute path is the same from everywhere. -/
def Path.under (directory path : String) : String :=
  if path.toList.head? = some '/' then path else directory ++ "/" ++ path

/-- What stands below a directory, under the components of the paths. -/
structure FileTree where
  directories : List (List Text)
  /-- The files, of those with one path the one written last first. -/
  files : List (List Text × Bytes)

namespace FileTree

/-- A place that a path leads to. -/
inductive Place where
  /-- A directory of the tree. -/
  | directory (components : List Text)
  /-- A file of the tree. -/
  | file (content : Bytes)
  /-- A directory outside the tree. -/
  | outside

/-- The tree with nothing below the directory. -/
def empty : FileTree := ⟨[], []⟩

/-- Goes from a directory along a component to a directory, which is made if it is not there. -/
def enter (tree : FileTree) (directory : List Text) (component : Text) : FileTree × List Text :=
  if component = Path.back then (tree, directory.dropLast)
  else if Path.isOrdinary component then
    let inner := directory ++ [component]
    if inner ∈ tree.directories then (tree, inner)
    else ({ tree with directories := inner :: tree.directories }, inner)
  else (tree, directory)

/-- Writes a file under a path whose last component is its name. -/
def write (tree : FileTree) (path : String) (content : Bytes) : FileTree :=
  let components := Path.components path.toList
  let (tree, directory) := components.dropLast.foldl
    (fun (place : FileTree × List Text) component => place.1.enter place.2 component) (tree, [])
  { tree with files := (directory ++ [components.getLastD []], content) :: tree.files }

/-- The tree of files written one after the other under their paths. -/
def ofFiles (files : List (String × Bytes)) : FileTree :=
  files.foldl (fun tree file => tree.write file.1 file.2) empty

/-- The number of bytes that a name may have. -/
def maxNameSize : Nat := 255

/-- The number of bytes that a path may have. -/
def maxPathSize : Nat := 4095

/-- Where a name of a directory of the tree leads. -/
def entry (tree : FileTree) (directory : List Text) (name : Text) : Except FileError Place :=
  let path := directory ++ [name]
  match tree.files.lookup path with
  | some content => .ok (.file content)
  | none =>
    if path ∈ tree.directories then .ok (.directory path) else .error .notFound

/-- Follows one component of a path. -/
def follow (tree : FileTree) (place : Place) (component : Text) : Except FileError Place :=
  match place with
  | .file _ => .error .notADirectory
  | .directory components =>
    if component = [] ∨ component = Path.here then .ok place
    else if component = Path.back then
      .ok (if components.isEmpty then .outside else .directory components.dropLast)
    else if maxNameSize < Text.size component then .error .nameTooLong
    else tree.entry components component
  | .outside =>
    if ¬Path.isOrdinary component then .ok .outside
    else if maxNameSize < Text.size component then .error .nameTooLong
    else .error .notFound

/-- Reads a file. -/
def read (tree : FileTree) (path : String) : Except FileError Bytes := do
  let text := path.toList
  if '\x00' ∈ text then throw .nulInPath
  if maxPathSize < Text.size text then throw .nameTooLong
  let start := if text.head? = some '/' then Place.outside else .directory []
  match ← (Path.components text).foldlM tree.follow start with
  | .file content => return content
  | .directory _ | .outside => throw .isADirectory

/-- The provider of the files seen from a directory, which is itself seen from the top of the
tree. -/
def provider (tree : FileTree) (directory : String) : Provider :=
  .ofFiles fun path => tree.read (Path.under (Path.under Path.working directory) path)

end FileTree

end Frontend
