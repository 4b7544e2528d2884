import QuantizedConv.Document.Reader

/-!
# Files

The files and directories that a command sees, from the directory it works in. Every file and every
directory has one place, the names that lead to it from the root, however it is named. A path is
followed name by name, through directories only; its last name is what is read or written.
-/

set_option autoImplicit false

namespace QuantizedConv

open Document

/-- Why a file cannot be read or written. -/
inductive FileProblem where
  /-- There is no such file, or no directory for it. -/
  | notFound
  /-- A directory on the way is a file. -/
  | notDirectory
  /-- The file is a directory. -/
  | isDirectory
  /-- The path or a name along it is too long. -/
  | nameTooLong
  /-- The path holds the character that ends names. -/
  | zeroInName
deriving DecidableEq, Repr

/-- The wording of a file problem. -/
def FileProblem.message : FileProblem → String
  | .notFound => "No such file or directory (os error 2)"
  | .notDirectory => "Not a directory (os error 20)"
  | .isDirectory => "Is a directory (os error 21)"
  | .nameTooLong => "File name too long (os error 36)"
  | .zeroInName => "file name contained an unexpected NUL byte"

/-- A path, taken apart. -/
structure Path where
  /-- Whether it starts at the root. -/
  absolute : Bool
  /-- The names along it. -/
  names : List String
  /-- Whether a slash ends it. -/
  slashed : Bool
deriving DecidableEq, Repr

namespace Path

/-- The least number of bytes that a path cannot have. -/
def lengthLimit : Nat := 4096

/-- The greatest number of bytes of a name. -/
def nameLimit : Nat := 255

/-- The names, the start and the end of a path. -/
def ofText (text : String) : Path :=
  let pieces := (text.toList.splitOn '/').map String.ofList
  { absolute := text.toList.head? = some '/'
    names := pieces.filter fun name => name ≠ ""
    slashed := pieces.getLast? = some "" }

/-- A path that can be followed. -/
def ofText? (text : String) : Except FileProblem Path :=
  if text.toList.contains '\x00' then .error .zeroInName
  else if text = "" then .error .notFound
  else if lengthLimit ≤ text.utf8ByteSize then .error .nameTooLong
  else .ok (ofText text)

/-- Whether a directory is asked for by a dot or two. -/
def isDots (name : String) : Bool := name = "." || name = ".."

/-- Whether a name is too long for a directory. -/
def tooLong (name : String) : Bool := nameLimit < name.utf8ByteSize

end Path

/-- A place among the files: the names that lead to it from the root. -/
abbrev Place := List String

/-- The directory in which a path starts: the root, or the directory that a command works in. -/
def Path.start (path : Path) (workingDirectory : Place) : Place :=
  if path.absolute then [] else workingDirectory

namespace Place

/-- The directory above a place; above the root there is none but the root. -/
def up (place : Place) : Place := place.dropLast

/-- The place that a name leads to. -/
def step (place : Place) (name : String) : Place :=
  if name = "." then place else if name = ".." then up place else place ++ [name]

/-- The place that the text of a path leads to, from the directory that a command works in. -/
def ofText (workingDirectory : Place) (text : String) : Place :=
  let path := Path.ofText text
  path.names.foldl step (path.start workingDirectory)

end Place

/-- The files and directories of a machine, with the directory that a command works in. -/
structure FileTree where
  /-- The directory in which relative paths start. -/
  workingDirectory : Place
  /-- The directories that are there even where nothing lies in them. -/
  directories : List Place
  /-- The place and the content of each file. -/
  entries : List (Place × Bytes)

/-- Files by their names in one directory. -/
structure Files where
  /-- The path and the content of each file. -/
  entries : List (String × Bytes)

/-- The tree that holds nothing but files of one directory, for a command that works there. -/
def Files.tree (files : Files) (directory : Place) : FileTree where
  workingDirectory := directory
  directories := []
  entries := files.entries.map fun (name, content) => (Place.ofText directory name, content)

/-- Where no directory is given for them, files lie in one of their own below the root. -/
instance : Coe Files FileTree := ⟨fun files => files.tree ["home"]⟩

namespace FileTree

/-- The place that the text of a path leads to. -/
def placeOf (files : FileTree) (text : String) : Place :=
  Place.ofText files.workingDirectory text

/-- The content of the file at a place. -/
def find? (files : FileTree) (place : Place) : Option Bytes :=
  (files.entries.find? fun entry => entry.1 = place).map fun entry => entry.2

/-- Whether a place is a directory: a listed one, the one that a command works in, one in which a file
lies, or one above these. -/
def isDirectory (files : FileTree) (place : Place) : Bool :=
  place.isPrefixOf files.workingDirectory || files.directories.any place.isPrefixOf ||
    files.entries.any fun entry => place.length < entry.1.length && place.isPrefixOf entry.1

/-- Goes on from a directory to the one with a name. -/
def enter (files : FileTree) (place : Place) (name : String) : Except FileProblem Place :=
  if Path.isDots name then .ok (place.step name)
  else if Path.tooLong name then .error .nameTooLong
  else
    let next := place.step name
    if files.isDirectory next then .ok next
    else if (files.find? next).isSome then .error .notDirectory
    else .error .notFound

/-- The directory that a path leads to and its last name in it. -/
def locate (files : FileTree) (path : Path) : Except FileProblem (Place × String) :=
  match path.names.getLast? with
  | none => .ok (path.start files.workingDirectory, ".")
  | some last => do
    let directory ← path.names.dropLast.foldlM files.enter (path.start files.workingDirectory)
    .ok (directory, last)

/-- The content of a file. -/
def read (files : FileTree) (text : String) : Except FileProblem Bytes := do
  let path ← Path.ofText? text
  let (directory, last) ← files.locate path
  if Path.isDots last then .error .isDirectory
  else if Path.tooLong last then .error .nameTooLong
  else
    let place := directory.step last
    match files.find? place with
    | some content => if path.slashed then .error .notDirectory else .ok content
    | none => if files.isDirectory place then .error .isDirectory else .error .notFound

/-- The files with new content at a place. -/
def store (files : FileTree) (place : Place) (content : Bytes) : FileTree :=
  if (files.find? place).isSome then
    { files with entries := files.entries.map fun entry =>
        if entry.1 = place then (place, content) else entry }
  else { files with entries := files.entries ++ [(place, content)] }

/-- The files after a file was written. -/
def write (files : FileTree) (text : String) (content : Bytes) : Except FileProblem FileTree := do
  let path ← Path.ofText? text
  let (directory, last) ← files.locate path
  if Path.isDots last ∨ path.slashed then .error .isDirectory
  else if Path.tooLong last then .error .nameTooLong
  else
    let place := directory.step last
    if files.isDirectory place then .error .isDirectory
    else .ok (files.store place content)

end FileTree

end QuantizedConv
