import ApiDescription.Failure
import ApiDescription.Path
import ApiDescription.Text.Quoted

/-!
# File trees

A file tree holds files with their bytes, directories, and devices that take bytes and
keep none, under the components of their absolute paths; one directory is the working
directory. Paths are followed component by component, so that a parent component leads
out of an existing directory only, and the length of a name matters only once it is
looked up in one.

What may not be done, or fails, belongs to the tree as well: directories that cannot be
searched, files that cannot be opened or read, and places that cannot be written or take
only so many bytes.
-/

namespace ApiDescription

/-- What is done with a directory or a file and may be refused. -/
inductive Access where
  /-- A name is looked up in a directory. -/
  | search
  | openToRead
  | read
  | openToWrite
  deriving DecidableEq, Repr, Inhabited

/-- Files, directories and devices by their components, and the working directory. -/
structure FileTree where
  home : List String
  files : List (List String × List UInt8) := []
  directories : List (List String) := []
  devices : List (List String) := []
  /-- What is refused, where, and with which error. -/
  faults : List ((Access × List String) × OsError) := []
  /-- The places that take only so many bytes, and the error that ends writing more. -/
  limits : List (List String × Nat × OsError) := []
  deriving DecidableEq, Repr, Inhabited

/-- What a path leads to. -/
inductive Place where
  | nothing
  | directory
  | device (parts : List String)
  | file (parts : List String)
  /-- A name that is free in an existing directory. -/
  | vacant (parts : List String)
  /-- A name below a file or a device. -/
  | belowFile
  /-- Nothing that a file system could hold: a name with the null character. -/
  | unnameable
  /-- A path that cannot be looked up. -/
  | refused (error : OsError)
  deriving DecidableEq, Repr

/-- Why bytes cannot be read from a file or written to it: it cannot be opened, or the bytes
cannot be carried. -/
inductive FileError where
  | opening (error : OsError)
  | carrying (error : OsError)
  deriving DecidableEq, Repr

/-- What an error says. The path is named if it cannot be opened. -/
def FileError.text (path : Path) : FileError → String
  | .opening error => error.text ++ ": " ++ Text.quoted path.toString
  | .carrying error => error.text

/-- What looking for a file to read finds. -/
inductive Found where
  | nothing
  | unreadable (error : FileError)
  | bytes (bytes : List UInt8)
  deriving DecidableEq, Repr

/-- What takes bytes: a file, which keeps them, or a device, which does not. -/
inductive Sink where
  | file (parts : List String)
  | device (parts : List String)
  deriving DecidableEq, Repr

/-- Where a sink stands. -/
def Sink.parts : Sink → List String
  | .file parts | .device parts => parts

/-- The file that keeps what a sink takes. -/
def Sink.file? : Sink → Option (List String)
  | .file parts => some parts
  | .device _ => none

namespace FileTree

/-- The number of bytes a name may have. -/
def maxNameSize : Nat := 255

/-- The number of bytes a path may have. -/
def maxPathSize : Nat := 4095

/-- Whether a file stands at a place. -/
def isFile (tree : FileTree) (parts : List String) : Bool :=
  tree.files.any fun file => file.1 = parts

/-- Whether a directory stands at a place: one of its own, or one that holds the working
directory, a file, a device or another directory. -/
def isDirectory (tree : FileTree) (parts : List String) : Bool :=
  parts.isPrefixOf tree.home ||
    tree.directories.any (fun directory => parts.isPrefixOf directory) ||
    tree.files.any (fun file => parts.isPrefixOf file.1 && file.1 ≠ parts) ||
    tree.devices.any (fun device => parts.isPrefixOf device && device ≠ parts)

/-- The error with which something is refused at a place. -/
def fault? (tree : FileTree) (access : Access) (parts : List String) : Option OsError :=
  tree.faults.lookup (access, parts)

/-- The limit that keeps a place from taking a number of bytes. -/
def limit? (tree : FileTree) (parts : List String) (count : Nat) : Option (Nat × OsError) :=
  (tree.limits.lookup parts).filter fun limit => limit.1 < count

/-- Follows components from a directory. -/
def follow (tree : FileTree) (here : List String) : List String → Place
  | [] => .directory
  | part :: rest =>
    match tree.fault? .search here with
    | some error => .refused error
    | none =>
      if part = ".." then follow tree here.dropLast rest
      else if maxNameSize < part.utf8ByteSize then .refused .nameTooLong
      else
        let there := here ++ [part]
        if tree.isDirectory there then follow tree there rest
        else if tree.isFile there then (if rest.isEmpty then .file there else .belowFile)
        else if tree.devices.contains there then
          (if rest.isEmpty then .device there else .belowFile)
        else if rest.isEmpty then .vacant there
        else .nothing

/-- Follows components from the working directory, which is searched also for itself. -/
def followHome (tree : FileTree) (parts : List String) : Place :=
  match tree.fault? .search tree.home with
  | some error => .refused error
  | none => tree.follow tree.home parts

/-- What a path leads to, from the working directory or from the root. -/
def locate (tree : FileTree) (path : Path) : Place :=
  if !path.isNameable then .unnameable
  else if maxPathSize < path.toString.utf8ByteSize then .refused .nameTooLong
  else if path.root = 0 then tree.followHome path.parts
  else tree.follow [] path.parts

/-- What reading the file at a place gives. -/
def readAt (tree : FileTree) (parts : List String) : Found :=
  match tree.fault? .openToRead parts, tree.fault? .read parts with
  | some error, _ => .unreadable (.opening error)
  | none, some error => .unreadable (.carrying error)
  | none, none =>
    match tree.files.lookup parts with
    | some bytes => .bytes bytes
    | none => .nothing

/-- Looks for the file a path leads to and reads it. A path that cannot be looked up leads to
nothing only if the error means so. -/
def find (tree : FileTree) (path : Path) : Except Breakdown Found :=
  match tree.locate path with
  | .file parts => .ok (tree.readAt parts)
  | .refused error => if error.meansAbsent then .ok .nothing else .error (.notLookedUp error)
  | _ => .ok .nothing

/-- Opens a sink, unless that is refused. -/
def openSink (tree : FileTree) (sink : Sink) : Except (Failure OsError) Sink :=
  match tree.fault? .openToWrite sink.parts with
  | some error => .error (.reported error)
  | none => .ok sink

/-- Opens what a path leads to for writing. A file that is not there yet is made in its
directory. -/
def openToWrite (tree : FileTree) (path : Path) : Except (Failure OsError) Sink :=
  match tree.locate path with
  | .file parts | .vacant parts => tree.openSink (.file parts)
  | .device parts => tree.openSink (.device parts)
  | .directory => .error (.reported .isDirectory)
  | .belowFile => .error (.reported .notDirectory)
  | .nothing => .error (.reported .noEntry)
  | .unnameable => .error (.broken .nullInPath)
  | .refused error => .error (.reported error)

/-- The tree with new bytes in a file, which may be a new one. -/
def write (tree : FileTree) (parts : List String) (bytes : List UInt8) : FileTree :=
  { tree with files := (parts, bytes) :: tree.files.filter fun file => file.1 ≠ parts }

/-- The path of the working directory. -/
def homePath (tree : FileTree) : Path := ⟨1, tree.home⟩

end FileTree

end ApiDescription
