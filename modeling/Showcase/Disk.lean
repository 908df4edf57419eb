import Showcase.Config
import Showcase.Tree.Decode

/-!
# Files on disk

A disk holds files and directories by their place, which is counted from the working directory or
from the top. A path is walked segment by segment: an empty segment and `.` stay, `..` goes up, and
each of them, like a name, needs a directory to stand in. Writing a file makes every directory that
its path passes.

Configurations and trees are loaded from such files. A relative tree path counts from the
directory of its configuration.
-/

namespace Showcase

/-- Why a file could not be read. -/
inductive DiskError where
  | notFound
  | isDirectory
  | notDirectory
  /-- The bytes are not UTF-8. -/
  | notText
  deriving DecidableEq, Repr

def DiskError.message : DiskError → Text
  | .notFound => "I/O error: No such file or directory (os error 2)"
  | .isDirectory => "I/O error: Is a directory (os error 21)"
  | .notDirectory => "I/O error: Not a directory (os error 20)"
  | .notText => "I/O error: stream did not contain valid UTF-8"

/-! ## Places -/

/-- Where names are counted from. -/
inductive Origin where
  /-- The directory that holds all others. -/
  | top
  /-- The directory so many levels above the working directory. -/
  | above (levels : Nat)
  deriving DecidableEq, Repr

/-- The directory that holds an origin; the top holds itself. -/
def Origin.parent : Origin → Origin
  | .top => .top
  | .above levels => .above (levels + 1)

/-- Names that lead down from an origin. -/
structure Place where
  origin : Origin
  names : List Text
  deriving DecidableEq, Repr

namespace Place

/-- Where the walk of a path starts. -/
def start (path : Text) : Place := ⟨if path.head? = some '/' then .top else .above 0, []⟩

def parent (p : Place) : Place :=
  if p.names.isEmpty then ⟨p.origin.parent, []⟩ else ⟨p.origin, p.names.dropLast⟩

def child (p : Place) (name : Text) : Place := ⟨p.origin, p.names ++ [name]⟩

/-- A segment that stays where it is. -/
def stays (segment : Text) : Bool := segment = [] ∨ segment = ".".toList

/-- The place that one segment of a path leads to. -/
def follow (p : Place) (segment : Text) : Place :=
  if stays segment then p
  else if segment = "..".toList then p.parent
  else p.child segment

/-- The places that a walk comes to, in order. -/
def walk (p : Place) : List Text → List Place
  | [] => []
  | segment :: rest => p.follow segment :: (p.follow segment).walk rest

end Place

/-! ## Disks -/

structure Disk where
  /-- What was written where, the newest first. -/
  files : List (Place × List UInt8) := []
  /-- The directories that were made. -/
  directories : List Place := []

namespace Disk

/-- The disk with a file, and with the directories that its path passes. -/
def write (d : Disk) (path : Text) (bytes : List UInt8) : Disk :=
  let places := (Place.start path).walk (path.splitOn '/')
  { files := (places.getLast?.map (·, bytes)).toList ++ d.files
    directories := places.dropLast ++ d.directories }

/-- A disk with the files of these paths, written one after the other. -/
def ofFiles (files : List (Text × List UInt8)) : Disk :=
  files.foldl (fun d file => d.write file.1 file.2) {}

/-- The content of the file at a place. -/
def file? (d : Disk) (p : Place) : Option (List UInt8) := d.files.lookup p

/-- There is a directory at a place. Every origin is one. -/
def isDirectory (d : Disk) (p : Place) : Bool := p.names.isEmpty || d.directories.contains p

/-- One segment of a walk from a place that exists. -/
def step (d : Disk) (p : Place) (segment : Text) : Except DiskError Place :=
  if !d.isDirectory p then .error .notDirectory
  else if d.isDirectory (p.follow segment) ∨ (d.file? (p.follow segment)).isSome then
    .ok (p.follow segment)
  else .error .notFound

/-- The bytes of the file that a path leads to. -/
def readBytes (d : Disk) (path : Text) : Except DiskError (List UInt8) := do
  if path = [] then .error .notFound
  match d.file? (← (path.splitOn '/').foldlM d.step (Place.start path)) with
  | some bytes => .ok bytes
  | none => .error .isDirectory

/-- The text of the file that a path leads to. -/
def readText (d : Disk) (path : Text) : Except DiskError Text := do
  match String.fromUTF8? ⟨(← d.readBytes path).toArray⟩ with
  | some s => .ok s.toList
  | none => .error .notText

end Disk

/-! ## Paths on disk -/

namespace DiskPath

open Place (stays)

/-- The directory part of a path: all but the last segment that does not stay. The empty path is
the directory part of a single name. -/
def parent (path : Text) : Text :=
  match path.splitOn '/' with
  | [] => []
  | first :: rest =>
    match rest.reverse.dropWhile stays with
    | [] => []
    | _ :: before =>
      let kept := (before.dropWhile stays).reverse
      if first.isEmpty ∧ kept.isEmpty then ['/'] else Text.join ['/'] (first :: kept)

/-- The path that a path means from a directory. -/
def join (directory path : Text) : Text :=
  if path.head? = some '/' ∨ directory = [] then path
  else if directory.getLast? = some '/' then directory ++ path
  else directory ++ '/' :: path

end DiskPath

/-! ## Loading -/

/-- Why nothing was loaded. -/
inductive LoadError (ε : Type) where
  | disk (cause : DiskError)
  | content (cause : ε)

/-- The configuration with its tree path counted from the same place as the path of its own file. -/
def Config.locatedAt (c : Config) (path : Text) : Config :=
  { c with treePath := c.treePath.map (DiskPath.join (DiskPath.parent path)) }

namespace Disk

/-- The tree that a file describes. -/
def loadTree (d : Disk) (path : Text) : Except (LoadError TreeError) Directory :=
  match d.readText path with
  | .error cause => .error (.disk cause)
  | .ok text => (Directory.ofToml text).mapError .content

/-- The configuration that a file describes. -/
def loadConfig (d : Disk) (path : Text) : Except (LoadError ConfigError) Config :=
  match d.readText path with
  | .error cause => .error (.disk cause)
  | .ok text =>
    match Config.ofToml text with
    | .error cause => .error (.content cause)
    | .ok c => .ok (c.locatedAt path)

end Disk

end Showcase
