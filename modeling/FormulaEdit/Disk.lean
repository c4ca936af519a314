import FormulaEdit.Disk.Path
import FormulaEdit.Failure

/-!
# Disks

A disk holds text files and directories by their places, which are lists of
names.  It is the part of the world that commands read and write.  A file can
only be refused for where it is: once writing has started it succeeds, as the
disk has room for every text, grants every access and encodes every character.
-/

namespace FormulaEdit

/-- A place on a disk: the names on the way to it, without steps upwards
except at the front. -/
abbrev Place := List String

/-- Text files and directories. -/
structure Disk where
  files : List (Place × String) := []
  directories : List Place := []
deriving DecidableEq, Repr, Inhabited

namespace Disk

/-- The place that a path starts from. -/
def origin (path : Path) : Place := if path.absolute then ["/"] else []

/-- Whether a place is a directory.  The places above all known ones are. -/
def isDirectory (disk : Disk) (place : Place) : Bool :=
  place.all (fun name => name == "/" || name == "..") || disk.directories.contains place

/-- The content of the file at a place. -/
def file? (disk : Disk) (place : Place) : Option String := disk.files.lookup place

/-- The place above another one. -/
def above (place : Place) : Place :=
  match place.getLast? with
  | none => [".."]
  | some "/" => place
  | some ".." => place ++ [".."]
  | some _ => place.dropLast

/-- Follow names from a place; all but the last must be directories. -/
def follow (disk : Disk) : Place → List String → Except FileFault Place
  | place, [] => .ok place
  | place, name :: rest =>
      if disk.isDirectory place then
        disk.follow (if name = ".." then above place else place ++ [name]) rest
      else if (disk.file? place).isSome then .error .notDirectory
      else .error .missing

/-- The place that a path leads to. -/
def locate (disk : Disk) (path : Path) : Except FileFault Place :=
  disk.follow (origin path) path.parts

/-- Whether something is at the end of a path. -/
def has (disk : Disk) (path : Path) : Bool :=
  match disk.locate path with
  | .ok place => disk.isDirectory place || (disk.file? place).isSome
  | .error _ => false

/-- Whether a directory is at the end of a path. -/
def hasDirectory (disk : Disk) (path : Path) : Bool :=
  match disk.locate path with
  | .ok place => disk.isDirectory place
  | .error _ => false

/-- Line ends of all kinds become line feeds. -/
def unifyLineEnds : List Char → List Char
  | [] => []
  | '\r' :: '\n' :: rest => '\n' :: unifyLineEnds rest
  | '\r' :: rest => '\n' :: unifyLineEnds rest
  | c :: rest => c :: unifyLineEnds rest

/-- Read the file at the end of a path, with its line ends unified. -/
def read (disk : Disk) (path : Path) : Except FileFault String := do
  let place ← disk.locate path
  if disk.isDirectory place then .error .isDirectory
  else
    match disk.file? place with
    | some content => .ok (String.ofList (unifyLineEnds content.toList))
    | none => .error .missing

/-- Give the file at a place a content. -/
def put (disk : Disk) (place : Place) (content : String) : Disk :=
  { disk with files := (place, content) :: disk.files.filter (·.1 != place) }

/-- Write a file at the end of a path, as it is. -/
def write (disk : Disk) (path : Path) (content : String) : Except FileFault Disk := do
  let place ← disk.locate path
  if disk.isDirectory place then .error .isDirectory else .ok (disk.put place content)

/-- Make the directory at the end of a path; the one above it must be there. -/
def makeDirectory (disk : Disk) (path : Path) : Except FileFault Disk := do
  let place ← disk.locate path
  if disk.isDirectory place || (disk.file? place).isSome then .error .exists
  else .ok { disk with directories := disk.directories ++ [place] }

/-- Make a directory that may be there already. -/
def ensureDirectory (disk : Disk) (path : Path) : Disk × Except (FileFault × Path) Unit :=
  match disk.makeDirectory path with
  | .ok disk => (disk, .ok ())
  | .error fault => (disk, if disk.hasDirectory path then .ok () else .error (fault, path))

/-- Make a directory and those above it that are missing.  The names of the
path are given the last one first; what was made before a failure stays. -/
def ensureAbove (absolute : Bool) :
    (names : List String) → Disk → Disk × Except (FileFault × Path) Unit
  | [], disk => disk.ensureDirectory ⟨[], absolute⟩
  | name :: names, disk =>
      let path : Path := ⟨(name :: names).reverse, absolute⟩
      match disk.makeDirectory path with
      | .error .missing =>
          match ensureAbove absolute names disk with
          | (disk, .ok ()) => disk.ensureDirectory path
          | failed => failed
      | _ => disk.ensureDirectory path

/-- Make a directory and those above it that are missing. -/
def ensureDirectories (disk : Disk) (path : Path) : Disk × Except (FileFault × Path) Unit :=
  ensureAbove path.absolute path.parts.reverse disk

/-- Read a text file. -/
def readText (disk : Disk) (path : Path) : Result String :=
  match disk.read path with
  | .ok text => .ok text
  | .error fault => .error (.file fault path.text)

/-- Write a text file. -/
def writeText (disk : Disk) (path : Path) (content : String) : Disk × Result Unit :=
  match disk.write path content with
  | .ok disk => (disk, .ok ())
  | .error fault => (disk, .error (.file fault path.text))

/-- Make the directory that is to hold a path. -/
def makeRoom (disk : Disk) (path : Path) : Disk × Result Unit :=
  match disk.ensureDirectories path.parent with
  | (disk, .ok ()) => (disk, .ok ())
  | (disk, .error (fault, failed)) => (disk, .error (.file fault failed.text))

/-- Write a text file with room made for it.  What was made before a failure
stays. -/
def deliver (disk : Disk) (path : Path) (content : String) : Disk × Result Unit :=
  match disk.makeRoom path with
  | (disk, .ok ()) => disk.writeText path content
  | failed => failed

end Disk

end FormulaEdit
